import Mathlib.Data.List.Pairwise
import Mathlib.Logic.Function.Basic
import SupportApi.Lib.Linearize
import SupportApi.Auth.Rotation

/-! Refreshes and sign-outs in flight.  A refresh validates its token in the guard,
signs a new pair and then stores the new hash, whatever is stored by then. -/

namespace SupportApi.Auth.Concurrent

open Lib

abbrev Pid := Nat

inductive Operation
  | refresh (token : Jwt) (salt : String) (now signedAt storedAt : Time)
  | signOut (user : Uuid) (now : Time)
  deriving DecidableEq

inductive Reply
  | tokens (tokens : TokenPair)
  | refused (e : Exception)
  | signedOut
  deriving DecidableEq

inductive Process
  | idle
  | validated (token : Jwt) (now : Time) (user : RefreshUser)
  | generated (token : Jwt) (now : Time) (user : RefreshUser) (signedAt : Time) (tokens : TokenPair)
  | returned (operation : Operation) (reply : Reply)
  deriving DecidableEq

structure State where
  db : Database
  procs : Pid → Process

inductive Action
  | validate (p : Pid) (token : Jwt) (now : Time)
  | generate (p : Pid) (signedAt : Time)
  | store (p : Pid) (salt : String) (storedAt : Time)
  | signOut (p : Pid) (user : Uuid) (now : Time)

def State.set (s : State) (p : Pid) (proc : Process) : State :=
  { s with procs := Function.update s.procs p proc }

def State.start (db : Database) : State := ⟨db, fun _ => .idle⟩

variable (env : Env)

/-- A refused refresh ends in the guard: it neither signs nor stores. -/
def validate (s : State) (p : Pid) (token : Jwt) (now : Time) : Option State :=
  match s.procs p with
  | .idle =>
    match validateRefresh env s.db token now with
    | .error e => some (s.set p (.returned (.refresh token "" now now now) (.refused e)))
    | .ok user => some (s.set p (.validated token now user))
  | _ => none

def generate (s : State) (p : Pid) (signedAt : Time) : Option State :=
  match s.procs p with
  | .validated token now user =>
    some (s.set p (.generated token now user signedAt (refreshTokens env user signedAt)))
  | _ => none

def store (s : State) (p : Pid) (salt : String) (storedAt : Time) : Option State :=
  match s.procs p with
  | .generated token now user signedAt tokens =>
    some ⟨storeRefreshToken env s.db user.id tokens.refreshToken salt storedAt,
      Function.update s.procs p
        (.returned (.refresh token salt now signedAt storedAt) (.tokens tokens))⟩
  | _ => none

def signOut (s : State) (p : Pid) (user : Uuid) (now : Time) : Option State :=
  match s.procs p with
  | .idle =>
    some ⟨Auth.signOut s.db user now,
      Function.update s.procs p (.returned (.signOut user now) .signedOut)⟩
  | _ => none

def machine : Machine State Action where
  step s
    | .validate p token now => validate env s p token now
    | .generate p signedAt => generate env s p signedAt
    | .store p salt storedAt => store env s p salt storedAt
    | .signOut p user now => signOut s p user now

inductive Step (s : State) : Action → State → Prop
  | refuses {p token now e} :
      s.procs p = .idle → validateRefresh env s.db token now = .error e →
      Step s (.validate p token now)
        (s.set p (.returned (.refresh token "" now now now) (.refused e)))
  | validates {p token now user} :
      s.procs p = .idle → validateRefresh env s.db token now = .ok user →
      Step s (.validate p token now) (s.set p (.validated token now user))
  | generates {p signedAt token now user} :
      s.procs p = .validated token now user →
      Step s (.generate p signedAt)
        (s.set p (.generated token now user signedAt (refreshTokens env user signedAt)))
  | stores {p salt storedAt token now user signedAt tokens} :
      s.procs p = .generated token now user signedAt tokens →
      Step s (.store p salt storedAt)
        ⟨storeRefreshToken env s.db user.id tokens.refreshToken salt storedAt,
          Function.update s.procs p
            (.returned (.refresh token salt now signedAt storedAt) (.tokens tokens))⟩
  | signsOut {p user now} :
      s.procs p = .idle →
      Step s (.signOut p user now)
        ⟨Auth.signOut s.db user now,
          Function.update s.procs p (.returned (.signOut user now) .signedOut)⟩

variable {env} in
theorem step_cases {s t : State} {a : Action} (h : (machine env).step s a = some t) :
    Step env s a t := by
  cases a with
  | validate p token now =>
    simp only [machine, validate] at h
    split at h
    · split at h <;> cases h
      · exact .refuses ‹_› ‹_›
      · exact .validates ‹_› ‹_›
    · cases h
  | generate p signedAt =>
    simp only [machine, generate] at h
    split at h <;> cases h
    exact .generates ‹_›
  | store p salt storedAt =>
    simp only [machine, store] at h
    split at h <;> cases h
    exact .stores ‹_›
  | signOut p user now =>
    simp only [machine, signOut] at h
    split at h <;> cases h
    exact .signsOut ‹_›

/-- The hash that a refresh overwrites is the one it was validated against. -/
def Current (s : State) : Action → Prop
  | .store p _ _ => ∀ token now user signedAt tokens,
    s.procs p = .generated token now user signedAt tokens →
      ∀ row, s.db.users.find? user.id = some row → row.refreshToken = user.refreshToken
  | _ => True

def serveAlone (db : Database) : Operation → Reply × Database
  | .refresh token salt now signedAt storedAt =>
    match refresh env db token salt now signedAt storedAt with
    | .error e => (.refused e, db)
    | .ok (tokens, db') => (.tokens tokens, db')
  | .signOut user now => (.signedOut, Auth.signOut db user now)

def Process.done : Process → Option (Operation × Reply)
  | .returned operation reply => some (operation, reply)
  | _ => none

def done (s : State) (p : Pid) : Option (Operation × Reply) := (s.procs p).done

/-- The token is not the one whose hash is stored with `x`. -/
def Spent (db : Database) (x : Uuid) (token : Jwt) : Prop :=
  ∀ row hash, db.users.find? x = some row → row.refreshToken = some hash →
    env.bcrypt.compare (tokenBytes env token) hash = false

def Out (db : Database) (x : Uuid) : Prop :=
  ∀ row, db.users.find? x = some row → row.refreshToken = none

variable {env} {db db' : Database}

theorem refresh_eq_ok {token : Jwt} {salt : String} {now signedAt storedAt : Time}
    {tokens : TokenPair} (h : refresh env db token salt now signedAt storedAt = .ok (tokens, db')) :
    ∃ row hash, db.users.find? token.payload.sub = some row ∧ row.refreshToken = some hash ∧
      env.bcrypt.compare (tokenBytes env token) hash = true ∧
      tokens.refreshToken.payload.sub = token.payload.sub ∧
      db' = storeRefreshToken env db token.payload.sub tokens.refreshToken salt storedAt := by
  unfold refresh at h
  split at h
  · cases h
  · rename_i user hvalid
    obtain ⟨-, row, hash, hfind, -, hstored, -, hcompare, rfl⟩ := validateRefresh_ok.mp hvalid
    cases h
    have hid : row.key = token.payload.sub := Table.key_of_find? hfind
    exact ⟨row, hash, hfind, hstored, hcompare, hid, hid ▸ rfl⟩

theorem Spent.refused {token : Jwt} (h : Spent env db token.payload.sub token) (salt : String)
    (now signedAt storedAt : Time) (tokens : TokenPair) :
    refresh env db token salt now signedAt storedAt ≠ .ok (tokens, db') := by
  intro hok
  obtain ⟨row, hash, hfind, hstored, hcompare, -, -⟩ := refresh_eq_ok hok
  rw [h row hash hfind hstored] at hcompare
  cases hcompare

theorem Out.spent {x : Uuid} (h : Out db x) (token : Jwt) : Spent env db x token := by
  intro row hash hfind hstored
  rw [h row hfind] at hstored
  cases hstored

theorem Spent.store (hb : env.bcrypt.Exact) {x : Uuid} {token token' : Jwt}
    (h : Spent env db x token) (hne : tokenBytes env token ≠ tokenBytes env token') (id : Uuid)
    (salt : String) (now : Time) : Spent env (storeRefreshToken env db id token' salt now) x token := by
  intro row hash hfind hstored
  rw [storeRefreshToken] at hfind
  by_cases hid : x = id
  · rw [hid, Database.find?_updateUser_self] at hfind
    obtain ⟨row', -, rfl⟩ := Option.map_eq_some_iff.mp hfind
    cases hstored
    rw [Bool.eq_false_iff, ne_eq, hb.compare_hash]
    exact hne
  · rw [Database.find?_updateUser_of_ne _ _ hid] at hfind
    exact h row hash hfind hstored

theorem Spent.signOut {x : Uuid} {token : Jwt} (h : Spent env db x token) (id : Uuid)
    (now : Time) : Spent env (Auth.signOut db id now) x token := by
  intro row hash hfind hstored
  rw [Auth.signOut] at hfind
  by_cases hid : x = id
  · rw [hid, Database.find?_updateUser_self] at hfind
    obtain ⟨row', -, rfl⟩ := Option.map_eq_some_iff.mp hfind
    cases hstored
  · rw [Database.find?_updateUser_of_ne _ _ hid] at hfind
    exact h row hash hfind hstored

theorem out_signOut (x : Uuid) (now : Time) : Out (Auth.signOut db x now) x := by
  intro row hfind
  rw [Auth.signOut, Database.find?_updateUser_self] at hfind
  obtain ⟨row', -, rfl⟩ := Option.map_eq_some_iff.mp hfind
  rfl

theorem Out.serveAlone {x : Uuid} (h : Out db x) (operation : Operation) :
    Out (serveAlone env db operation).2 x := by
  cases operation with
  | refresh token salt now signedAt storedAt =>
    simp only [Concurrent.serveAlone]
    split
    · exact h
    · rename_i tokens db' hok
      -- a refresh that succeeds is another user's
      have hne : x ≠ token.payload.sub := by
        rintro rfl
        exact (h.spent token).refused _ _ _ _ _ hok
      obtain ⟨-, -, -, -, -, -, rfl⟩ := refresh_eq_ok hok
      intro row hfind
      rw [storeRefreshToken, Database.find?_updateUser_of_ne _ _ hne] at hfind
      exact h row hfind
  | signOut y now =>
    intro row hfind
    by_cases hy : x = y
    · subst hy
      exact out_signOut x now row hfind
    · simp only [Concurrent.serveAlone, Auth.signOut] at hfind
      rw [Database.find?_updateUser_of_ne _ _ hy] at hfind
      exact h row hfind

abbrev Entry := Pid × Operation × Reply

theorem Out.explains {x : Uuid} {order : List Entry} (h : Out db x)
    (hexplains : Explains (Concurrent.serveAlone env) db order db') : Out db' x := by
  induction order generalizing db with
  | nil => cases hexplains; exact h
  | cons entry order ih => exact ih (h.serveAlone _) hexplains.2

theorem out_of_signedOut {x : Uuid} {p : Pid} {now : Time} {reply : Reply} {order : List Entry}
    (hexplains : Explains (serveAlone env) db order db')
    (hmem : (p, .signOut x now, reply) ∈ order) : Out db' x := by
  induction order generalizing db with
  | nil => cases hmem
  | cons entry order ih =>
    rcases List.mem_cons.mp hmem with rfl | hmem
    · exact Out.explains (out_signOut x now) hexplains.2
    · exact ih hexplains.2 hmem

def Exchanges (token : Jwt) (entry : Entry) : Prop :=
  ∃ salt now signedAt storedAt tokens,
    entry.2 = (.refresh token salt now signedAt storedAt, .tokens tokens)

def Answers (tokens : TokenPair) (entry : Entry) : Prop := entry.2.2 = .tokens tokens

variable (env) in
structure Distinct (db : Database) (order : List Entry) : Prop where
  spent : ∀ entry ∈ order, ∀ tokens, Answers tokens entry → ∀ x, Spent env db x tokens.refreshToken
  pairwise : order.Pairwise fun entry entry' => ∀ tokens tokens', Answers tokens entry →
    Answers tokens' entry' →
      tokenBytes env tokens'.refreshToken ≠ tokenBytes env tokens.refreshToken

theorem Spent.serveAlone (hb : env.bcrypt.Exact) {x : Uuid} {token : Jwt} (h : Spent env db x token)
    {operation : Operation} (hne : ∀ tokens, (serveAlone env db operation).1 = .tokens tokens →
      tokenBytes env token ≠ tokenBytes env tokens.refreshToken) :
    Spent env (Concurrent.serveAlone env db operation).2 x token := by
  cases operation with
  | refresh token' salt now signedAt storedAt =>
    simp only [Concurrent.serveAlone] at hne ⊢
    split at hne
    · exact h
    · rename_i tokens db' hok
      obtain ⟨-, -, -, -, -, -, rfl⟩ := refresh_eq_ok hok
      exact h.store hb (hne tokens rfl) _ salt storedAt
  | signOut y now => exact h.signOut y now

theorem Distinct.tail (hb : env.bcrypt.Exact) {entry : Entry} {order : List Entry}
    (h : Distinct env db (entry :: order)) (hreply : (serveAlone env db entry.2.1).1 = entry.2.2) :
    Distinct env (serveAlone env db entry.2.1).2 order where
  spent entry' hentry' tokens' htokens' x := by
    apply (h.spent entry' (List.mem_cons_of_mem _ hentry') tokens' htokens' x).serveAlone hb
    intro tokens htokens
    exact (List.pairwise_cons.mp h.pairwise).1 entry' hentry' tokens tokens'
      (hreply.symm.trans htokens) htokens'
  pairwise := (List.pairwise_cons.mp h.pairwise).2

theorem not_exchanges (hb : env.bcrypt.Exact) {token : Jwt} {order : List Entry}
    (hexplains : Explains (serveAlone env) db order db') (hspent : Spent env db token.payload.sub token)
    (hnew : ∀ entry ∈ order, ∀ tokens, Answers tokens entry →
      tokenBytes env token ≠ tokenBytes env tokens.refreshToken) :
    ∀ entry ∈ order, ¬Exchanges token entry := by
  induction order generalizing db with
  | nil => simp
  | cons entry order ih =>
    obtain ⟨p, operation, reply⟩ := entry
    obtain ⟨hreply, hrest⟩ := hexplains
    intro entry' hentry'
    rcases List.mem_cons.mp hentry' with rfl | hentry'
    · rintro ⟨salt, now, signedAt, storedAt, tokens, heq⟩
      cases heq
      simp only [serveAlone] at hreply
      split at hreply
      · cases hreply
      · exact hspent.refused _ _ _ _ _ ‹_›
    · refine ih hrest (hspent.serveAlone hb ?_) ?_ entry' hentry'
      · intro tokens htokens
        exact hnew _ List.mem_cons_self tokens (hreply.symm.trans htokens)
      · intro entry'' hentry''
        exact hnew entry'' (List.mem_cons_of_mem _ hentry'')

theorem exchanges_pairwise (hb : env.bcrypt.Exact) {order : List Entry}
    (hexplains : Explains (serveAlone env) db order db') (hdistinct : Distinct env db order) :
    order.Pairwise fun entry entry' => ∀ token, Exchanges token entry → ¬Exchanges token entry' := by
  induction order generalizing db with
  | nil => exact .nil
  | cons entry order ih =>
    obtain ⟨p, operation, reply⟩ := entry
    obtain ⟨hreply, hrest⟩ := hexplains
    refine List.pairwise_cons.mpr ⟨?_, ih hrest (hdistinct.tail hb hreply)⟩
    rintro entry' hentry' token ⟨salt, now, signedAt, storedAt, tokens, heq⟩
    cases heq
    cases hok : refresh env db token salt now signedAt storedAt with
    | error e =>
      simp only [serveAlone, hok] at hreply
      cases hreply
    | ok result =>
      obtain ⟨tokens', db₁⟩ := result
      simp only [serveAlone, hok, Reply.tokens.injEq] at hreply hrest
      subst hreply
      obtain ⟨row, hash, hfind, hstored, hcompare, -, rfl⟩ := refresh_eq_ok hok
      -- what is stored now matches `token`, and no new token matches it
      have hnew : ∀ entry'' ∈ (p, .refresh token salt now signedAt storedAt, .tokens tokens') :: order,
          ∀ tokens'', Answers tokens'' entry'' →
            tokenBytes env token ≠ tokenBytes env tokens''.refreshToken := by
        intro entry'' hentry'' tokens'' htokens'' hbytes
        have hspent := hdistinct.spent entry'' hentry'' tokens'' htokens'' _ row hash hfind hstored
        rw [← hbytes, hcompare] at hspent
        cases hspent
      refine not_exchanges hb hrest ?_ (fun e he => hnew e (List.mem_cons_of_mem _ he)) entry' hentry'
      intro row' hash' hfind' hstored'
      rw [storeRefreshToken, Database.find?_updateUser_self, hfind] at hfind'
      cases hfind'
      cases hstored'
      rw [Bool.eq_false_iff, ne_eq, hb.compare_hash]
      exact hnew _ List.mem_cons_self tokens' rfl

structure Validated (env : Env) (db : Database) (token : Jwt) (now : Time) (user : RefreshUser) :
    Prop where
  verified : token.verify env.config.refreshSecret now = true
  row : ∃ row, db.users.find? token.payload.sub = some row ∧ row.isActive = true ∧
    user = { RefreshUser.of row with refreshToken := user.refreshToken }
  matched : ∃ hash, user.refreshToken = some hash ∧ hash ≠ "" ∧
    env.bcrypt.compare (tokenBytes env token) hash = true

def Process.Valid (env : Env) (db : Database) : Process → Prop
  | .validated token now user => Validated env db token now user
  | .generated token now user signedAt tokens =>
    Validated env db token now user ∧ tokens = refreshTokens env user signedAt
  | _ => True

def Valid (env : Env) (s : State) : Prop := ∀ p, (s.procs p).Valid env s.db

theorem Validated.of_ok {token : Jwt} {now : Time} {user : RefreshUser}
    (h : validateRefresh env db token now = .ok user) : Validated env db token now user := by
  obtain ⟨hverify, row, hash, hfind, hactive, hstored, hne, hcompare, rfl⟩ :=
    validateRefresh_ok.mp h
  exact ⟨hverify, ⟨row, hfind, hactive, rfl⟩, hash, hstored, hne, hcompare⟩

theorem Validated.id_eq {token : Jwt} {now : Time} {user : RefreshUser}
    (h : Validated env db token now user) : user.id = token.payload.sub := by
  obtain ⟨row, hfind, -, huser⟩ := h.row
  have hid : row.key = token.payload.sub := Table.key_of_find? hfind
  exact (congrArg RefreshUser.id huser).trans hid

theorem Validated.ok {token : Jwt} {now : Time} {user : RefreshUser}
    (h : Validated env db token now user) (hcurrent : ∀ row,
      db.users.find? user.id = some row → row.refreshToken = user.refreshToken) :
    validateRefresh env db token now = .ok user := by
  obtain ⟨row, hfind, hactive, huser⟩ := h.row
  obtain ⟨hash, hhash, hne, hcompare⟩ := h.matched
  rw [h.id_eq] at hcurrent
  have hrow := hcurrent row hfind
  rw [validateRefresh_ok]
  refine ⟨h.verified, row, hash, hfind, hactive, hrow.trans hhash, hne, hcompare, ?_⟩
  rw [huser, ← hrow]
  rfl

theorem Validated.updateUser {token : Jwt} {now : Time} {user : RefreshUser}
    (h : Validated env db token now user) (id : Uuid) (hash : Option String) (now' : Time) :
    Validated env (db.updateUser id
      (fun u => { u with refreshToken := hash, updatedAt := now' }) fun _ => ⟨rfl, rfl, rfl⟩)
      token now user where
  verified := h.verified
  matched := h.matched
  row := by
    obtain ⟨row, hfind, hactive, huser⟩ := h.row
    by_cases hid : token.payload.sub = id
    · subst hid
      rw [Database.find?_updateUser_self, hfind]
      exact ⟨_, rfl, hactive, huser⟩
    · rw [Database.find?_updateUser_of_ne _ _ hid]
      exact ⟨row, hfind, hactive, huser⟩

theorem Process.Valid.updateUser {proc : Process} (h : proc.Valid env db) (id : Uuid)
    (hash : Option String) (now : Time) :
    proc.Valid env (db.updateUser id
      (fun u => { u with refreshToken := hash, updatedAt := now }) fun _ => ⟨rfl, rfl, rfl⟩) := by
  cases proc with
  | idle => trivial
  | validated token now' user => exact Validated.updateUser h id hash now
  | generated token now' user signedAt tokens =>
    exact ⟨Validated.updateUser h.1 id hash now, h.2⟩
  | returned operation reply => trivial

theorem Valid.set {s : State} (h : Valid env s) {p : Pid} {proc : Process}
    (hproc : proc.Valid env s.db) : Valid env (s.set p proc) := by
  intro q
  simp only [State.set, Function.update_apply]
  split
  · exact hproc
  · exact h q

theorem Valid.returns {s : State} (h : Valid env s) (p : Pid) (operation : Operation)
    (reply : Reply) (id : Uuid) (hash : Option String) (now : Time) :
    Valid env ⟨s.db.updateUser id
      (fun u => { u with refreshToken := hash, updatedAt := now }) fun _ => ⟨rfl, rfl, rfl⟩,
      Function.update s.procs p (.returned operation reply)⟩ := by
  intro q
  simp only [Function.update_apply]
  split
  · trivial
  · exact (h q).updateUser id hash now

theorem done_set (s : State) (p : Pid) (proc : Process) :
    done (s.set p proc) = Function.update (done s) p proc.done := by
  funext q
  simp only [done, State.set, Function.update_apply]
  split <;> rfl

theorem done_update (db : Database) (s : State) (p : Pid) (proc : Process) :
    done ⟨db, Function.update s.procs p proc⟩ = Function.update (done s) p proc.done := by
  funext q
  simp only [done, Function.update_apply]
  split <;> rfl

theorem done_of_procs {s : State} {p : Pid} {proc : Process} (hp : s.procs p = proc) :
    done s p = proc.done := by
  rw [done, hp]

theorem done_set_of_none {s : State} {p : Pid} {proc : Process} (h : done s p = none)
    (hproc : proc.done = none) : done (s.set p proc) = done s := by
  rw [done_set, hproc, ← h, Function.update_eq_self]

theorem linearizes : Linearizes (machine env) (Valid env) Current State.db done (serveAlone env) where
  preserves s a t h hcurrent hs := by
    cases step_cases hs with
    | refuses _ _ => exact h.set trivial
    | validates _ hvalid => exact h.set (.of_ok hvalid)
    | @generates p signedAt token now user hp =>
      have hvalid : (Process.validated token now user).Valid env s.db := hp ▸ h p
      exact h.set ⟨hvalid, rfl⟩
    | stores _ => exact h.returns _ _ _ _ _ _
    | signsOut _ => exact h.returns _ _ _ _ none _
  point s a t h hcurrent hs := by
    cases step_cases hs with
    | @refuses p token now e hp hrefused =>
      right
      refine ⟨p, .refresh token "" now now now, done_of_procs hp, ?_, ?_⟩
      · rw [serveAlone, refresh, hrefused]
        rfl
      · rw [done_set, serveAlone, refresh, hrefused]
        rfl
    | validates hp _ => exact .inl ⟨rfl, done_set_of_none (done_of_procs hp) rfl⟩
    | generates hp => exact .inl ⟨rfl, done_set_of_none (done_of_procs hp) rfl⟩
    | @stores p salt storedAt token now user signedAt tokens hp =>
      obtain ⟨hvalid, rfl⟩ : (Process.generated token now user signedAt tokens).Valid env s.db :=
        hp ▸ h p
      -- the hash that was validated against is still there
      have hok := hvalid.ok (hcurrent token now user signedAt _ hp)
      right
      refine ⟨p, .refresh token salt now signedAt storedAt, done_of_procs hp, ?_, ?_⟩
      · rw [serveAlone, refresh, hok]
      · rw [done_update, serveAlone, refresh, hok]
        rfl
    | @signsOut p user now hp =>
      exact .inr ⟨p, .signOut user now, done_of_procs hp, rfl, done_update _ _ _ _⟩

/-- The requests that have returned did what they would have done one after the
other, in an order that agrees with real time. -/
def Serialised (env : Env) (db : Database) (actions : List Action) (s : State)
    (order : List Entry) : Prop :=
  Explains (serveAlone env) db order s.db ∧ (order.map Prod.fst).Nodup ∧
    (∀ p operation reply, (p, operation, reply) ∈ order ↔
      s.procs p = .returned operation reply) ∧
    AgreesWithRealTime (machine env) done (.start db) actions order

def ExchangedOnce (s : State) : Prop :=
  ∀ p q token, (∃ salt now signedAt storedAt tokens,
      s.procs p = .returned (.refresh token salt now signedAt storedAt) (.tokens tokens)) →
    (∃ salt now signedAt storedAt tokens,
      s.procs q = .returned (.refresh token salt now signedAt storedAt) (.tokens tokens)) → p = q

def SignOutsKept (s : State) : Prop :=
  ∀ p x now reply, s.procs p = .returned (.signOut x now) reply → Out s.db x

/-- Every issued refresh token is another one, and none was issued before `db`. -/
def DistinctTokens (env : Env) (db : Database) (s : State) : Prop :=
  (∀ p operation tokens, s.procs p = .returned operation (.tokens tokens) →
    ∀ x, Spent env db x tokens.refreshToken) ∧
  ∀ p q operation operation' tokens tokens', p ≠ q →
    s.procs p = .returned operation (.tokens tokens) →
    s.procs q = .returned operation' (.tokens tokens') →
    tokenBytes env tokens'.refreshToken ≠ tokenBytes env tokens.refreshToken

theorem done_eq_some {s : State} {p : Pid} {operation : Operation} {reply : Reply} :
    done s p = some (operation, reply) ↔ s.procs p = .returned operation reply := by
  unfold done
  cases s.procs p <;> simp [Process.done]

theorem valid_start (db : Database) : Valid env (.start db) := fun _ => trivial

theorem exists_serialised {actions : List Action} {s : State}
    (hrun : (machine env).run (.start db) actions = some s)
    (hcurrent : (machine env).Along Current (.start db) actions) :
    ∃ order, Serialised env db actions s order := by
  obtain ⟨order, hexplains, hnodup, hmem, htime⟩ :=
    linearizes.order (valid_start db) hcurrent hrun
  refine ⟨order, hexplains, hnodup, fun p operation reply => ?_, htime⟩
  rw [hmem, done_eq_some]
  exact and_iff_right rfl

theorem Serialised.distinct {actions : List Action} {s : State} {order : List Entry}
    (h : Serialised env db actions s order) (htokens : DistinctTokens env db s) :
    Distinct env db order where
  spent := by
    rintro ⟨p, operation, reply⟩ hentry tokens rfl
    exact htokens.1 p operation tokens ((h.2.2.1 p operation _).mp hentry)
  pairwise := by
    have hpids := List.pairwise_map.mp h.2.1
    refine hpids.imp_of_mem ?_
    rintro ⟨p, operation, reply⟩ ⟨q, operation', reply'⟩ hp hq hne tokens tokens' rfl rfl
    exact htokens.2 p q operation operation' tokens tokens' hne ((h.2.2.1 p operation _).mp hp)
      ((h.2.2.1 q operation' _).mp hq)

theorem Serialised.exchangedOnce (hb : env.bcrypt.Exact) {actions : List Action} {s : State}
    {order : List Entry} (h : Serialised env db actions s order)
    (htokens : DistinctTokens env db s) : ExchangedOnce s := by
  have hpairwise := exchanges_pairwise hb h.1 (h.distinct htokens)
  have hsymm : Std.Symm fun entry entry' : Entry =>
      ∀ token, Exchanges token entry → ¬Exchanges token entry' :=
    ⟨fun _ _ hne token hentry hentry' => hne token hentry' hentry⟩
  rintro p q token ⟨salt, now, signedAt, storedAt, tokens, hp⟩
    ⟨salt', now', signedAt', storedAt', tokens', hq⟩
  by_contra hne
  refine hpairwise.forall ((h.2.2.1 p _ _).mpr hp) ((h.2.2.1 q _ _).mpr hq) ?_ token
    ⟨_, _, _, _, _, rfl⟩ ⟨_, _, _, _, _, rfl⟩
  exact fun heq => hne (congrArg Prod.fst heq)

/-- As long as no refresh overwrites a hash that it was not validated against,
refreshes and sign-outs are serialised. -/
theorem serialised_of_current (hb : env.bcrypt.Exact) {actions : List Action} {s : State}
    (hrun : (machine env).run (.start db) actions = some s)
    (hcurrent : (machine env).Along Current (.start db) actions) :
    (∃ order, Serialised env db actions s order) ∧
      (DistinctTokens env db s → ExchangedOnce s) ∧ SignOutsKept s := by
  obtain ⟨order, hserial⟩ := exists_serialised hrun hcurrent
  refine ⟨⟨order, hserial⟩, hserial.exchangedOnce hb, ?_⟩
  intro p x now reply hp
  exact out_of_signedOut hserial.1 ((hserial.2.2.1 p _ reply).mpr hp)

namespace Sample

def bcrypt : Bcrypt where
  hash _ p := Auth.Sample.encode p
  compare p h := h = Auth.Sample.encode p

def environment : Env := { Auth.Sample.environment with bcrypt }

theorem exact : environment.bcrypt.Exact where
  marked salt p := by simp [environment, bcrypt, Auth.Sample.encode, dollar2]
  compare_hash salt p q := by
    simp only [environment, bcrypt, decide_eq_true_eq, Auth.Sample.encode_inj]
    exact eq_comm

def signedUp : Database :=
  (serve environment ⟨.empty, []⟩ (.signUp Auth.Sample.signUp Auth.Sample.user "" "" 0)).db

def issued : Jwt :=
  (generateTokens environment Auth.Sample.user Auth.Sample.signUp.email .superAdmin (some none)
    0).refreshToken

def tokensAt (now : Time) : TokenPair :=
  generateTokens environment Auth.Sample.user Auth.Sample.signUp.email .superAdmin none now

theorem tokensAt_distinct :
    (tokenBytes environment issued ≠
        tokenBytes environment (tokensAt 1000).refreshToken ∧
      tokenBytes environment issued ≠
        tokenBytes environment (tokensAt 2000).refreshToken) ∧
      tokenBytes environment (tokensAt 1000).refreshToken ≠
        tokenBytes environment (tokensAt 2000).refreshToken := by
  decide +kernel

def stored : RefreshUser where
  id := Auth.Sample.user
  email := Auth.Sample.signUp.email
  role := .superAdmin
  refreshToken := some (environment.bcrypt.hash "" (tokenBytes environment issued))
  isActive := true

theorem validated :
    validateRefresh environment signedUp issued 1000 = .ok stored := by
  rw [validateRefresh_ok]
  exact ⟨rfl, _, environment.bcrypt.hash "" (tokenBytes environment issued), rfl,
    rfl, rfl, ne_empty_of_dollar2 (exact.marked _ _), (exact.compare_hash _ _ _).mpr rfl,
    rfl⟩

theorem spent_signedUp {token : Jwt}
    (h : tokenBytes environment issued ≠ tokenBytes environment token) (x : Uuid) :
    Spent environment signedUp x token := by
  intro row hash hfind hstored
  obtain rfl := List.mem_singleton.mp (Table.mem_of_find? hfind)
  have hhash : environment.bcrypt.hash "" (tokenBytes environment issued) = hash :=
    Option.some.inj hstored
  rw [← hhash, Bool.eq_false_iff, ne_eq, exact.compare_hash]
  exact h.symm

section

variable {env : Env} {db : Database} {token : Jwt} {user : RefreshUser}

def inTurn (token : Jwt) : List Action :=
  [.validate 0 token 1000, .generate 0 1000, .store 0 "" 1000, .signOut 1 token.payload.sub 3000]

def overlapping (token : Jwt) : List Action :=
  [.validate 0 token 1000, .validate 1 token 1000, .generate 0 1000, .generate 1 2000,
    .store 0 "" 2000, .store 1 "" 3000]

def overlapped (env : Env) (token : Jwt) (user : RefreshUser) : Pid → Process
  | 0 => .returned (.refresh token "" 1000 1000 2000) (.tokens (refreshTokens env user 1000))
  | 1 => .returned (.refresh token "" 1000 2000 3000) (.tokens (refreshTokens env user 2000))
  | _ => .idle

def ended (env : Env) (token : Jwt) (user : RefreshUser) : Pid → Process
  | 0 => .returned (.refresh token "" 1000 1000 1000) (.tokens (refreshTokens env user 1000))
  | 1 => .returned (.signOut token.payload.sub 3000) .signedOut
  | _ => .idle

theorem run_overlapping (h : validateRefresh env db token 1000 = .ok user) :
    ∃ db', (machine env).run (.start db) (overlapping token) =
      some ⟨db', overlapped env token user⟩ := by
  refine ⟨storeRefreshToken env (storeRefreshToken env db user.id
    (refreshTokens env user 1000).refreshToken "" 2000) user.id
    (refreshTokens env user 2000).refreshToken "" 3000, ?_⟩
  simp only [overlapping, Machine.run, machine, validate, generate, store, State.start, State.set, h,
    Function.update_self, Option.bind_some, ne_eq, Nat.one_ne_zero, Nat.zero_ne_one,
    not_false_eq_true, Function.update_of_ne]
  congr 2
  funext p
  rcases p with _ | _ | p <;> simp [overlapped]

theorem run_inTurn (h : validateRefresh env db token 1000 = .ok user) :
    ∃ db', (machine env).run (.start db) (inTurn token) = some ⟨db', ended env token user⟩ := by
  refine ⟨Auth.signOut (storeRefreshToken env db user.id
    (refreshTokens env user 1000).refreshToken "" 1000) token.payload.sub 3000, ?_⟩
  simp only [inTurn, Machine.run, machine, validate, generate, store, signOut, State.start,
    State.set, h, Function.update_self, Option.bind_some, ne_eq, Nat.one_ne_zero,
    not_false_eq_true, Function.update_of_ne]
  congr 2
  funext p
  rcases p with _ | _ | p <;> simp [ended]

theorem current_inTurn (h : validateRefresh env db token 1000 = .ok user) :
    (machine env).Along Current (.start db) (inTurn token) := by
  simp only [machine, validate, State.set, generate, store, State.start, inTurn, Machine.Along,
    Current, h, Option.some.injEq, implies_true, and_self, and_true, true_and, forall_eq',
    Function.update_self, Function.update_idem, Process.generated.injEq, and_imp]
  rintro _ _ _ _ _ rfl rfl rfl rfl rfl row hrow
  obtain ⟨-, row', hash, hfind, -, -, -, -, huser⟩ := validateRefresh_ok.mp h
  rw [(Validated.of_ok h).id_eq, hfind] at hrow
  cases hrow
  rw [huser]
  rfl

theorem distinct_overlapped (db' : Database) : DistinctTokens environment signedUp
    ⟨db', overlapped environment issued stored⟩ := by
  obtain ⟨⟨h01, h02⟩, h12⟩ := tokensAt_distinct
  constructor
  · intro p operation tokens hp x
    match p with
    | 0 => cases hp; exact spent_signedUp h01 x
    | 1 => cases hp; exact spent_signedUp h02 x
  · intro p q operation operation' tokens tokens' hne hp hq
    match p, q with
    | 0, 0 => exact absurd rfl hne
    | 0, 1 => cases hp; cases hq; exact h12.symm
    | 1, 0 => cases hp; cases hq; exact h12
    | 1, 1 => exact absurd rfl hne

end

end Sample

theorem serialised_in_turn : ∃ s, (machine Sample.environment).run (.start Sample.signedUp)
      (Sample.inTurn Sample.issued) = some s ∧
    (∃ order, Serialised Sample.environment Sample.signedUp
      (Sample.inTurn Sample.issued) s order) ∧
    (DistinctTokens Sample.environment Sample.signedUp s → ExchangedOnce s) ∧ SignOutsKept s := by
  obtain ⟨db', hrun⟩ := Sample.run_inTurn Sample.validated
  exact ⟨_, hrun, serialised_of_current Sample.exact hrun (Sample.current_inTurn Sample.validated)⟩

theorem exchanged_twice : ¬∀ (env : Env) (db : Database) (actions : List Action) (s : State),
    env.bcrypt.Exact → (machine env).run (.start db) actions = some s →
    DistinctTokens env db s →
    (∃ order, Serialised env db actions s order) ∧ ExchangedOnce s ∧ SignOutsKept s := by
  intro h
  obtain ⟨db', hrun⟩ := Sample.run_overlapping Sample.validated
  have honce := (h _ _ _ _ Sample.exact hrun (Sample.distinct_overlapped db')).2.1
  have heq := honce 0 1 Sample.issued ⟨_, _, _, _, _, rfl⟩ ⟨_, _, _, _, _, rfl⟩
  exact absurd heq (by decide)

end SupportApi.Auth.Concurrent
