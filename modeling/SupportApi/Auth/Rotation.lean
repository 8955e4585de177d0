import SupportApi.Lib.Machine
import SupportApi.Auth.Service

/-! Which refresh tokens still work.  The stored hash covers the 72 bytes that all
tokens of one user share, so a refresh does not retire the token it was called with. -/

namespace SupportApi.Auth

open Lib

/-- What the clients have seen, in the order it happened. -/
inductive Event
  | issued (user : Uuid) (token : Jwt)
  | signedOut (user : Uuid)
  deriving DecidableEq

structure State where
  db : Database
  log : List Event

inductive Request
  | signUp (dto : SignUpDto) (id : Uuid) (passwordSalt tokenSalt : String) (now : Time)
  | signIn (order : AnyOrder UserRow) (dto : SignInDto) (salt : String) (now : Time)
  | refresh (token : Jwt) (salt : String) (now signedAt storedAt : Time)
  | signOut (token : Jwt) (now : Time)

variable (env : Env)

/-- One request after another; a refused one changes nothing. -/
def serve (s : State) : Request → State
  | .signUp dto id passwordSalt tokenSalt now =>
    match signUp env s.db dto id passwordSalt tokenSalt now with
    | .error _ => s
    | .ok ((user, tokens), db) => ⟨db, .issued user.id tokens.refreshToken :: s.log⟩
  | .signIn order dto salt now =>
    match signIn env order s.db dto salt now with
    | .error _ => s
    | .ok ((user, tokens), db) => ⟨db, .issued user.id tokens.refreshToken :: s.log⟩
  | .refresh token salt now signedAt storedAt =>
    match refresh env s.db token salt now signedAt storedAt with
    | .error _ => s
    | .ok (tokens, db) => ⟨db, .issued token.payload.sub tokens.refreshToken :: s.log⟩
  | .signOut token now =>
    match validateAccess env s.db token now with
    | .error _ => s
    | .ok user => ⟨signOut s.db user.id now, .signedOut user.id :: s.log⟩

def machine : Machine State Request := ⟨fun s r => some (serve env s r)⟩

/-- The refresh token that `x` was issued last. -/
def latest (x : Uuid) : List Event → Option Jwt
  | [] => none
  | .issued y token :: log => if y = x then some token else latest x log
  | .signedOut _ :: log => latest x log

/-- `x` has signed out since then. -/
def signedOut (x : Uuid) : List Event → Bool
  | [] => false
  | .issued y _ :: log => if y = x then false else signedOut x log
  | .signedOut y :: log => if y = x then true else signedOut x log

/-- The token is one of `x` that the refresh strategy can verify. -/
def TokenOf (x : Uuid) (token : Jwt) : Prop :=
  token.payload.sub = x ∧ token.secret = env.config.refreshSecret

structure Session (s : State) (x : Uuid) : Prop where
  tokens : ∀ token, .issued x token ∈ s.log → TokenOf env x token
  stored : latest x s.log ≠ none → ∃ row, s.db.users.find? x = some row ∧ row.isActive = true ∧
    if signedOut x s.log = true then row.refreshToken = none
    else ∃ salt token, TokenOf env x token ∧
      row.refreshToken = some (env.bcrypt.hash salt (tokenBytes env token))

variable {env} {s : State} {x : Uuid}

theorem latest_of_mem {log : List Event} {token : Jwt} (h : .issued x token ∈ log) :
    latest x log ≠ none := by
  induction log with
  | nil => simp at h
  | cons event log ih =>
    cases event with
    | issued y token' =>
      simp only [List.mem_cons, Event.issued.injEq] at h
      simp only [latest]
      split
      · simp
      · rename_i hy
        rcases h with ⟨rfl, -⟩ | h
        · exact absurd rfl hy
        · exact ih h
    | signedOut y =>
      simp only [List.mem_cons, reduceCtorEq, false_or] at h
      exact ih h

theorem Session.other (h : Session env s x) {db : Database} {event : Event}
    (hrow : ∀ row, s.db.users.find? x = some row → db.users.find? x = some row)
    (hevent : ∀ token, event ≠ .issued x token) (hevent' : event ≠ .signedOut x) :
    Session env ⟨db, event :: s.log⟩ x := by
  have hlatest : latest x (event :: s.log) = latest x s.log := by
    cases event with
    | issued y token =>
      have hy : y ≠ x := fun hyx => hevent token (by rw [hyx])
      simp [latest, hy]
    | signedOut y => rfl
  have hsignedOut : signedOut x (event :: s.log) = signedOut x s.log := by
    cases event with
    | issued y token =>
      have hy : y ≠ x := fun hyx => hevent token (by rw [hyx])
      simp [signedOut, hy]
    | signedOut y =>
      have hy : y ≠ x := fun hyx => hevent' (by rw [hyx])
      simp [signedOut, hy]
  constructor
  · intro token htoken
    simp only [List.mem_cons] at htoken
    rcases htoken with htoken | htoken
    · exact absurd htoken.symm (hevent token)
    · exact h.tokens token htoken
  · intro hissued
    simp only [hlatest, hsignedOut] at hissued ⊢
    obtain ⟨row, hfind, hrest⟩ := h.stored hissued
    exact ⟨row, hrow row hfind, hrest⟩

structure Issued (env : Env) (db db' : Database) (x : Uuid) (token : Jwt) : Prop where
  owner : TokenOf env x token
  row : ∃ row salt, db'.users.find? x = some row ∧ row.isActive = true ∧
    row.refreshToken = some (env.bcrypt.hash salt (tokenBytes env token))
  others : ∀ y, y ≠ x → ∀ row, db.users.find? y = some row → db'.users.find? y = some row

theorem issued_store {db : Database} {user : UserRow} (hfind : db.users.find? user.id = some user)
    (hactive : user.isActive = true) {token : Jwt} (htoken : TokenOf env user.id token)
    (salt : String) (now : Time) :
    Issued env db (storeRefreshToken env db user.id token salt now) user.id token where
  owner := htoken
  row := by
    rw [storeRefreshToken, Database.find?_updateUser_self, hfind]
    exact ⟨_, salt, rfl, hactive, rfl⟩
  others y hy row hrow := by
    rw [storeRefreshToken, Database.find?_updateUser_of_ne _ _ hy]
    exact hrow

theorem tokenOf_generateTokens (sub : Uuid) (email : String) (role : UserRole)
    (tenantId : Option (Option Uuid)) (now : Time) :
    TokenOf env sub (generateTokens env sub email role tenantId now).refreshToken := ⟨rfl, rfl⟩

theorem issued_issue {db : Database} {user : UserRow} (hfind : db.users.find? user.id = some user)
    (hactive : user.isActive = true) (salt : String) (now : Time) :
    Issued env db (issue env db user.toUser salt now).2 user.id
      (issue env db user.toUser salt now).1.refreshToken :=
  issued_store hfind hactive (tokenOf_generateTokens ..) salt now

theorem authenticate_ok {order : AnyOrder UserRow} {db : Database} {dto : SignInDto}
    {user : UserRow} (h : authenticate env order db dto = .ok user) :
    db.users.find? user.id = some user ∧ user.isActive = true := by
  unfold authenticate at h
  split at h
  · cases h
  · split at h
    · cases h
    · rename_i hfound
      split at h <;> cases h
      obtain ⟨hfind, hactive⟩ := Option.filter_eq_some_iff.mp hfound
      exact ⟨Table.find?_self (first_selectUsers hfind).1, hactive⟩

theorem signIn_ok {order : AnyOrder UserRow} {db db' : Database} {dto : SignInDto} {salt : String}
    {now : Time} {user : SafeUser} {tokens : TokenPair}
    (h : signIn env order db dto salt now = .ok ((user, tokens), db')) :
    Issued env db db' user.id tokens.refreshToken := by
  unfold signIn at h
  split at h
  · cases h
  · rename_i row hrow
    obtain ⟨hfind, hactive⟩ := authenticate_ok hrow
    cases h
    exact issued_issue hfind hactive salt now

theorem signUp_ok {db db' : Database} {dto : SignUpDto} {id : Uuid} {passwordSalt tokenSalt : String}
    {now : Time} {user : SafeUser} {tokens : TokenPair}
    (h : signUp env db dto id passwordSalt tokenSalt now = .ok ((user, tokens), db')) :
    Issued env db db' user.id tokens.refreshToken := by
  unfold signUp at h
  split at h
  · cases h
  · rename_i tenantId _
    split at h
    · cases h
    · rename_i db₁ hins
      have hrows := Database.find?_insertUser hins
      have hfind : db₁.users.find? id = some (newUser env dto tenantId id passwordSalt now) :=
        (hrows id).trans (if_pos rfl)
      rw [hfind] at h
      cases h
      have hactive : (newUser env dto tenantId id passwordSalt now).isActive = true := rfl
      have hissued := @issued_issue env _ _ hfind hactive tokenSalt now
      refine ⟨hissued.owner, hissued.row, fun y hy row hrow => hissued.others y hy row ?_⟩
      exact (hrows y).trans ((if_neg (Ne.symm hy)).trans hrow)

theorem refresh_ok {db db' : Database} {token : Jwt} {salt : String} {now signedAt storedAt : Time}
    {tokens : TokenPair} (h : refresh env db token salt now signedAt storedAt = .ok (tokens, db')) :
    Issued env db db' token.payload.sub tokens.refreshToken := by
  unfold refresh at h
  split at h
  · cases h
  · rename_i user hvalid
    obtain ⟨-, row, hash, hfind, hactive, -, -, -, rfl⟩ := validateRefresh_ok.mp hvalid
    cases h
    have hid : row.key = token.payload.sub := Table.key_of_find? hfind
    rw [← hid] at hfind ⊢
    exact issued_store hfind hactive (tokenOf_generateTokens ..) salt storedAt

theorem Session.issues {db' : Database} {y : Uuid} {token : Jwt} (h : Session env s x)
    (hissued : Issued env s.db db' y token) : Session env ⟨db', .issued y token :: s.log⟩ x := by
  by_cases hy : y = x
  · subst hy
    constructor
    · intro token' htoken'
      simp only [List.mem_cons, Event.issued.injEq, true_and] at htoken'
      rcases htoken' with rfl | htoken'
      · exact hissued.owner
      · exact h.tokens token' htoken'
    · intro _
      obtain ⟨row, salt, hfind, hactive, hstored⟩ := hissued.row
      refine ⟨row, hfind, hactive, ?_⟩
      simp only [signedOut, if_true, Bool.false_eq_true, if_false]
      exact ⟨salt, token, hissued.owner, hstored⟩
  · apply h.other
    · exact hissued.others x (Ne.symm hy)
    · intro token' heq
      cases heq
      exact hy rfl
    · simp

theorem Session.signsOut {y : Uuid} {now : Time} (h : Session env s x) :
    Session env ⟨signOut s.db y now, .signedOut y :: s.log⟩ x := by
  by_cases hy : y = x
  · subst hy
    constructor
    · intro token htoken
      simp only [List.mem_cons, reduceCtorEq, false_or] at htoken
      exact h.tokens token htoken
    · intro hlatest
      obtain ⟨row, hfind, hactive, -⟩ := h.stored hlatest
      simp only [signOut, Database.find?_updateUser_self, hfind, Option.map_some, Option.some.injEq,
        signedOut, if_true, exists_eq_left']
      exact ⟨hactive, trivial⟩
  · apply h.other
    · intro row hrow
      rw [signOut, Database.find?_updateUser_of_ne _ _ (Ne.symm hy)]
      exact hrow
    · simp
    · simpa using hy

theorem Session.preserves (x : Uuid) : (machine env).Preserves fun s => Session env s x := by
  intro s r t h hs
  cases hs
  cases r with
  | signUp dto id passwordSalt tokenSalt now =>
    simp only [serve]
    split
    · exact h
    · exact h.issues (signUp_ok ‹_›)
  | signIn order dto salt now =>
    simp only [serve]
    split
    · exact h
    · exact h.issues (signIn_ok ‹_›)
  | refresh token salt now signedAt storedAt =>
    simp only [serve]
    split
    · exact h
    · exact h.issues (refresh_ok ‹_›)
  | signOut token now =>
    simp only [serve]
    split
    · exact h
    · exact h.signsOut

theorem Session.start (db : Database) (x : Uuid) : Session env ⟨db, []⟩ x where
  tokens token h := by simp at h
  stored h := absurd rfl h

/-- The refresh endpoint accepts the token. -/
def Accepts (env : Env) (db : Database) (token : Jwt) (now : Time) : Prop :=
  ∃ salt signedAt storedAt reply, refresh env db token salt now signedAt storedAt = .ok reply

theorem accepts_iff {db : Database} {token : Jwt} {now : Time} :
    Accepts env db token now ↔ ∃ user, validateRefresh env db token now = .ok user := by
  constructor
  · rintro ⟨salt, signedAt, storedAt, reply, h⟩
    unfold refresh at h
    split at h
    · cases h
    · exact ⟨_, ‹_›⟩
  · rintro ⟨user, h⟩
    exact ⟨"", 0, 0, _, by rw [refresh, h]⟩

theorem ne_empty_of_dollar2 {s : String} (h : dollar2 s = true) : s ≠ "" := by
  rintro rfl
  cases h

/-- Any token of a user works as long as the user has a live session. -/
theorem Session.accepts_iff (hb : env.bcrypt.Truncates) (h : Session env s x) {token : Jwt}
    {now : Time} (hissued : .issued x token ∈ s.log) (hunexpired : token.expired now = false) :
    Accepts env s.db token now ↔ signedOut x s.log = false := by
  obtain ⟨hsub, hsecret⟩ := h.tokens token hissued
  obtain ⟨row, hfind, hactive, hstored⟩ := h.stored (latest_of_mem hissued)
  rw [Auth.accepts_iff]
  simp only [validateRefresh_ok, hsub, hfind]
  cases hout : signedOut x s.log with
  | true =>
    rw [hout, if_pos rfl] at hstored
    simp [hstored]
  | false =>
    rw [hout, if_neg (by simp)] at hstored
    obtain ⟨salt, token', ⟨hsub', -⟩, hhash⟩ := hstored
    have hmatches : env.bcrypt.compare (tokenBytes env token)
        (env.bcrypt.hash salt (tokenBytes env token')) = true := by
      rw [hb.compare_hash]
      exact take_utf8_text env.signature (hsub.trans hsub'.symm)
    simp only [iff_true]
    refine ⟨_, ?_, row, _, rfl, hactive, hhash, ne_empty_of_dollar2 (hb.marked _ _), hmatches, rfl⟩
    simp [Jwt.verify, hsecret, hunexpired]

/-- The refresh endpoint tells the tokens of a user apart only once the user has
signed out: an older one is refused exactly then. -/
theorem rotation_iff (hb : env.bcrypt.Truncates) {db : Database} {requests : List Request}
    (hrun : (machine env).run ⟨db, []⟩ requests = some s) {token : Jwt} {now : Time}
    (hissued : .issued x token ∈ s.log) (hunexpired : token.expired now = false) :
    (Accepts env s.db token now ↔ latest x s.log = some token ∧ signedOut x s.log = false) ↔
      (latest x s.log = some token ∨ signedOut x s.log = true) := by
  have hsession := Machine.run_preserves (Session.preserves x) (Session.start db x) hrun
  rw [hsession.accepts_iff hb hissued hunexpired]
  cases signedOut x s.log <;> simp

namespace Sample

def byteChar (b : UInt8) : Char := Char.ofNat b.toNat

def encode (bytes : List UInt8) : String := String.ofList ('$' :: '2' :: bytes.map byteChar)

theorem toNat_byteChar (b : UInt8) : (byteChar b).toNat = b.toNat := by
  have hlt := b.toNat_lt
  have hvalid : b.toNat.isValidChar := by
    left
    omega
  rw [byteChar, Char.ofNat, dif_pos hvalid]
  rfl

theorem byteChar_injective : Function.Injective byteChar := by
  intro a b h
  apply UInt8.toNat_inj.mp
  rw [← toNat_byteChar, ← toNat_byteChar, h]

theorem encode_inj {bytes bytes' : List UInt8} : encode bytes = encode bytes' ↔ bytes = bytes' := by
  simp only [encode, String.ofList_inj, List.cons.injEq, true_and,
    (List.map_injective_iff.mpr byteChar_injective).eq_iff]

def bcrypt : Bcrypt where
  hash _ p := encode (p.take 72)
  compare p h := h = encode (p.take 72)

theorem bcrypt_truncates : bcrypt.Truncates where
  marked salt p := by simp [bcrypt, encode, dollar2]
  compare_hash salt p q := by
    simp only [bcrypt, decide_eq_true_eq, encode_inj]
    exact eq_comm

def environment : Env where
  bcrypt := bcrypt
  signature secret _ := secret.toList
  config := ⟨"access_secret", "refresh_secret", 900, 604800⟩

def signUp : SignUpDto where
  firstName := "Sam"
  lastName := "Lee"
  email := "sam@mail.test"
  password := "SecurePass123!"
  role := some .superAdmin
  tenantId := none

def user : Uuid := ⟨7⟩

def requests : List Request :=
  [.signUp signUp user "" "" 0, .signIn .asStored ⟨signUp.email, signUp.password, none⟩ "" 5000]

def state : State := requests.foldl (serve environment) ⟨.empty, []⟩

def tokenAt (now : Time) : Jwt :=
  (generateTokens environment user signUp.email .superAdmin (some none) now).refreshToken

end Sample

theorem Sample.run : (machine Sample.environment).run ⟨.empty, []⟩ Sample.requests =
    some Sample.state := rfl

theorem Sample.log : Sample.state.log =
    [.issued Sample.user (Sample.tokenAt 5000), .issued Sample.user (Sample.tokenAt 0)] := by rfl

theorem rotation_iff_superseded :
    (Accepts Sample.environment Sample.state.db (Sample.tokenAt 0) 6000 ↔
        latest Sample.user Sample.state.log = some (Sample.tokenAt 0) ∧
          signedOut Sample.user Sample.state.log = false) ↔
      (latest Sample.user Sample.state.log = some (Sample.tokenAt 0) ∨
        signedOut Sample.user Sample.state.log = true) := by
  apply rotation_iff Sample.bcrypt_truncates Sample.run
  · simp [Sample.log]
  · rfl

theorem superseded_accepted : ¬∀ (env : Env) (db : Database) (requests : List Request) (s : State)
    (x : Uuid) (token : Jwt) (now : Time), env.bcrypt.Truncates →
    (machine env).run ⟨db, []⟩ requests = some s → .issued x token ∈ s.log →
    token.expired now = false →
    (Accepts env s.db token now ↔ latest x s.log = some token ∧ signedOut x s.log = false) := by
  intro h
  have hissued : .issued Sample.user (Sample.tokenAt 0) ∈ Sample.state.log := by simp [Sample.log]
  have hsession := Machine.run_preserves (Session.preserves Sample.user)
    (Session.start .empty Sample.user) Sample.run
  have haccepts : Accepts Sample.environment Sample.state.db (Sample.tokenAt 0) 6000 := by
    rw [hsession.accepts_iff Sample.bcrypt_truncates hissued rfl, Sample.log]
    rfl
  have hlatest := ((h Sample.environment .empty Sample.requests Sample.state Sample.user
    (Sample.tokenAt 0) 6000 Sample.bcrypt_truncates Sample.run hissued rfl).mp haccepts).1
  rw [Sample.log] at hlatest
  exact absurd hlatest (by decide)

end SupportApi.Auth
