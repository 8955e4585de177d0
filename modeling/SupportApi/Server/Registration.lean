import SupportApi.Auth.Rotation
import SupportApi.Server.Accounts

namespace SupportApi.Server

open Lib Auth Conversations

variable {env : Auth.Env} {db db' : Database} {s t : State}

def accounts (db : Database) : List Principal := db.users.rows.map fun u => .of u.toUser

def Registers (env : Auth.Env) (p : Pid) (dto : SignUpDto) (user : Principal) (s : State)
    (a : Action) : Prop :=
  ∃ salt now, a = .request p (.signUpInsert user.id salt now) ∧
    s.procs p = .signUpFree dto user.tenantId ∧
    (s.db.insertUser (newUser env dto user.tenantId user.id salt now)).isSome ∧
    user.email = dto.email ∧ user.role = dto.role.getD .agent

theorem accounts_updateUser (id : Uuid) (f : UserRow → UserRow)
    (hf : ∀ u, (f u).id = u.id ∧ (f u).tenantId = u.tenantId ∧ (f u).email = u.email)
    (hrole : ∀ u, (f u).role = u.role) : accounts (db.updateUser id f hf) = accounts db := by
  have hsame : ∀ u, Principal.of (f u).toUser = .of u.toUser := by
    intro u
    simp only [Principal.of, hf u, hrole u]
  simp only [accounts, Database.updateUser, Table.rows_modify, List.map_map]
  apply List.map_congr_left
  intro u _
  simp only [Function.comp_apply]
  split
  · exact hsame u
  · rfl

theorem Next.accounts {proc proc' : Process} {input : Input} (h : Next env db proc input proc' db') :
    accounts db' = accounts db ∨ ∃ dto tenantId id salt now, proc = .signUpFree dto tenantId ∧
      input = .signUpInsert id salt now ∧
      db.insertUser (newUser env dto tenantId id salt now) = some db' := by
  cases h with
  | signUpSaves hins => exact .inr ⟨_, _, _, _, _, rfl, rfl, hins⟩
  | stores => exact .inl (accounts_updateUser _ _ _ fun _ => rfl)
  | signsOut => exact .inl (accounts_updateUser _ _ _ fun _ => rfl)
  | deactivatesUser => exact .inl (accounts_updateUser _ _ _ fun _ => rfl)
  | createsTenant hins =>
    left
    rw [Server.accounts, (Database.insertTenant_some hins).2.1]
    rfl
  | _ => exact .inl rfl

theorem Step.accounts {a : Action} (h : Step env s a t) :
    accounts t.db = accounts s.db ∨ ∃ p dto user, Registers env p dto user s a ∧
      accounts t.db = accounts s.db ++ [user] := by
  cases h with
  | request hnext =>
    rcases hnext.accounts with hsame | ⟨dto, tenantId, id, salt, now, hp, rfl, hins⟩
    · exact .inl hsame
    · right
      refine ⟨_, dto, ⟨id, dto.email, dto.role.getD .agent, tenantId⟩,
        ⟨salt, now, rfl, hp, ?_, rfl, rfl⟩, ?_⟩
      · rw [hins]
        rfl
      · obtain ⟨⟨hnew, husers⟩, -⟩ := Database.insertUser_some hins
        simp only [Server.accounts, State.store_db, husers, Table.rows_insert, List.map_append]
        rfl
  | opens _ _ hstep =>
    left
    rw [Server.accounts, State.db, hstep.users]
    rfl
  | openRefused => exact .inl rfl
  | conversation _ hstep =>
    left
    rw [Server.accounts, State.db, hstep.users]
    rfl

/-- No two users have the same tenant, or both none, and the same email. -/
def Unique (db : Database) : Prop := ((accounts db).map fun u => (u.tenantId, u.email)).Nodup

def Taken (db : Database) (email : String) : Prop :=
  ∃ user ∈ accounts db, user.tenantId = none ∧ user.email = email

def Doubles (env : Auth.Env) (p : Pid) (email : String) (s : State) (a : Action) : Prop :=
  ∃ dto user, Registers env p dto user s a ∧ user.tenantId = none ∧ user.email = email ∧
    Taken s.db email

def FoundFree (env : Auth.Env) (db : Database) (p : Pid) (email : String) (as : List Action) :
    Prop :=
  ∃ pre post u, as = pre ++ .request p .signUpLookup :: post ∧
    (machine env).run (.start db) pre = some u ∧ ¬Taken u.db email

/-- In the run two sign-ups without tenant pass each other: one finds its email free when it looks
it up, and taken when it inserts it. -/
def Passing (env : Auth.Env) (db : Database) (as : List Action) : Prop :=
  ∃ pre a post s p email, as = pre ++ a :: post ∧
    (machine env).run (.start db) pre = some s ∧ FoundFree env db p email pre ∧
    Doubles env p email s a

theorem Registers.step {p : Pid} {dto : SignUpDto} {user : Principal} {a : Action}
    (h : Registers env p dto user s a) (hs : (machine env).step s a = some t) :
    accounts t.db = accounts s.db ++ [user] := by
  obtain ⟨salt, now, rfl, hp, hins, hemail, hrole⟩ := h
  obtain ⟨db', hdb'⟩ := Option.isSome_iff_exists.mp hins
  obtain ⟨⟨proc, db⟩, hnext, rfl⟩ := Option.map_eq_some_iff.mp hs
  simp only [next.eq_def, hp, hdb'] at hnext
  cases hnext
  obtain ⟨⟨hnew, husers⟩, -⟩ := Database.insertUser_some hdb'
  simp only [accounts, State.store_db, husers, Table.rows_insert, List.map_append, List.map_cons,
    List.map_nil]
  congr 2
  obtain ⟨id, email, role, tenantId⟩ := user
  cases hemail
  cases hrole
  rfl

theorem Step.searches {p : Pid} {dto : SignUpDto} {tenantId : Option Uuid} {a : Action}
    (h : Step env s a t) (hbefore : s.procs p ≠ .signUpFree dto tenantId)
    (hafter : t.procs p = .signUpFree dto tenantId) :
    a = .request p .signUpLookup ∧ signUpFree s.db dto = .ok tenantId := by
  cases h.moves p with
  | kept hsame => exact absurd (hsame.symm.trans hafter) hbefore
  | next hrequest hnext =>
    rw [hafter] at hnext
    generalize s.procs p = before at hnext
    generalize t.db = db' at hnext
    cases hnext with
    | signUpFinds hfree => exact ⟨hrequest, hfree⟩
  | hands _ hhanded => cases hhanded.symm.trans hafter
  | refused hrefused => cases hrefused.symm.trans hafter

theorem foundFree {p : Pid} {dto : SignUpDto} {as : List Action}
    (hrun : (machine env).run (.start db) as = some s) (hp : s.procs p = .signUpFree dto none) :
    FoundFree env db p dto.email as := by
  rcases Machine.run_origin (fun s => s.procs p = .signUpFree dto none) hrun hp with
    hstart | ⟨pre, a, post, u, v, rfl, hpre, hstep, hbefore, hafter⟩
  · cases hstart
  · obtain ⟨rfl, hfree⟩ := (step_some hstep).searches hbefore hafter
    refine ⟨pre, post, u, rfl, hpre, ?_⟩
    rintro ⟨user, hmem, htenant, hemail⟩
    obtain ⟨row, hrow, rfl⟩ := List.mem_map.mp hmem
    exact (signUpFree_ok hfree).2 row hrow ⟨hemail, htenant⟩

theorem Doubles.not_unique {p : Pid} {email : String} {a : Action} (h : Doubles env p email s a)
    (hs : (machine env).step s a = some t) : ¬Unique t.db := by
  obtain ⟨dto, user, hregisters, hnone, rfl, other, hmem, hother, hemail⟩ := h
  intro hunique
  rw [Unique, hregisters.step hs, List.map_append, List.nodup_append] at hunique
  refine hunique.2.2 _ (List.mem_map_of_mem hmem) (user.tenantId, user.email) (by simp) ?_
  rw [hother, hemail, hnone]

/-- The index keeps addresses within a tenant unique, the lookup those without one, unless
another sign-up comes between. -/
theorem Unique.step {a : Action} (h : Unique s.db) (ha : ∀ p email, ¬Doubles env p email s a)
    (hs : Step env s a t) : Unique t.db := by
  rcases hs.accounts with hsame | ⟨p, dto, user, hregisters, hadded⟩
  · rw [Unique, hsame]
    exact h
  · rw [Unique, hadded, List.map_append, List.nodup_append]
    refine ⟨h, List.nodup_singleton _, ?_⟩
    rintro pair hpair _ hnew rfl
    obtain rfl := List.mem_singleton.mp hnew
    obtain ⟨other, hmem, heq⟩ := List.mem_map.mp hpair
    obtain ⟨htenant, hemail⟩ := Prod.mk.inj heq
    cases hnone : user.tenantId with
    | none =>
      exact absurd ⟨dto, user, hregisters, hnone, rfl, other, hmem, htenant.trans hnone, hemail⟩
        (ha p user.email)
    | some T =>
      obtain ⟨salt, now, -, -, hins, hasked, -⟩ := hregisters
      obtain ⟨db', hdb'⟩ := Option.isSome_iff_exists.mp hins
      obtain ⟨row, hrow, rfl⟩ := List.mem_map.mp hmem
      refine Database.insertUser_unique hdb' ?_ row hrow ⟨htenant, hemail.trans hasked⟩
      rw [newUser, hnone]
      rfl

/-- Addresses stay unique exactly as long as no sign-up without tenant inserts an email that
another has inserted since its lookup. -/
theorem unique_iff {as : List Action} (hempty : db.users.rows = [])
    (hrun : (machine env).run (.start db) as = some t) :
    (machine env).Throughout (fun s => Unique s.db) (.start db) as ↔ ¬Passing env db as := by
  constructor
  · rintro hunique ⟨pre, a, post, s, p, email, hsplit, hpre, -, hdoubles⟩
    rw [hsplit, Machine.run_append, hpre, Option.bind_some, Machine.run_cons_some] at hrun
    obtain ⟨u, hu, -⟩ := hrun
    refine hdoubles.not_unique hu ?_
    apply Machine.throughout_iff.mp hunique (pre ++ [a]) post u
    · rw [hsplit, List.append_assoc]
      rfl
    · exact Machine.run_concat.mpr ⟨s, hpre, hu⟩
  · intro hpassing
    have hsingle : (machine env).Along (fun s a => ∀ p email, ¬Doubles env p email s a)
        (.start db) as := by
      refine Machine.along_iff.mpr fun pre a post s hsplit hpre p email hdoubles => hpassing ?_
      refine ⟨pre, a, post, s, p, email, hsplit, hpre, ?_, hdoubles⟩
      obtain ⟨dto, user, ⟨salt, now, -, hp, -, hemail, -⟩, hnone, rfl, -⟩ := hdoubles
      rw [hnone] at hp
      exact hemail ▸ foundFree hpre hp
    refine Machine.PreservesAlong.throughout ?_ ?_ hsingle
    · intro s a t h ha hs
      exact h.step ha (step_some hs)
    · change Unique db
      simp [Unique, accounts, hempty]

namespace Sample

def founding (firstName : String) : SignUpDto where
  firstName := firstName
  lastName := "Lee"
  email := "lee@mail.test"
  password := "SecurePass123!"
  role := some .superAdmin
  tenantId := none

def passing : List Action :=
  [.request 0 (.signUp (founding "Sam")), .request 1 (.signUp (founding "Kim")),
    .request 0 .signUpLookup, .request 1 .signUpLookup, .request 0 (.signUpInsert ⟨7⟩ "" 0),
    .request 1 (.signUpInsert ⟨8⟩ "" 0)]

def following : List Action :=
  [.request 0 (.signUp (founding "Sam")), .request 1 (.signUp (founding "Kim")),
    .request 0 .signUpLookup, .request 0 (.signUpInsert ⟨7⟩ "" 0), .request 1 .signUpLookup]

end Sample

theorem unique_fails : ¬∀ (env : Auth.Env) (db : Database) (as : List Action) (t : State),
    db.users.rows = [] → (machine env).run (.start db) as = some t → Unique t.db := by
  intro h
  have hunique := h Auth.Sample.environment .empty Sample.passing _ rfl rfl
  exact (List.nodup_cons.mp hunique).1 (List.mem_singleton.mpr rfl)

theorem unique_following : (machine Auth.Sample.environment).Throughout
    (fun s => Unique s.db) (.start .empty) Sample.following := by
  have hother : ∀ (s : State) (p : Pid) (input : Input),
      (∀ id salt now, input ≠ .signUpInsert id salt now) →
      ∀ q email, ¬Doubles Auth.Sample.environment q email s (.request p input) := by
    rintro s p input hinput q email ⟨dto, user, ⟨salt, now, ha, -⟩, -⟩
    cases ha
    exact hinput _ _ _ rfl
  have hsingle : (machine Auth.Sample.environment).Along
      (fun s a => ∀ p email, ¬Doubles Auth.Sample.environment p email s a) (.start .empty)
      Sample.following := by
    refine .cons rfl (hother _ _ _ (by simp)) (.cons rfl (hother _ _ _ (by simp))
      (.cons rfl (hother _ _ _ (by simp)) (.cons rfl ?_
      (.cons rfl (hother _ _ _ (by simp)) trivial))))
    rintro p email ⟨dto, user, -, -, -, other, hmem, -⟩
    cases hmem
  refine (unique_iff rfl rfl).mpr ?_
  rintro ⟨pre, a, post, s, p, email, hsplit, hpre, -, hdoubles⟩
  exact Machine.along_iff.mp hsingle pre a post s hsplit hpre p email hdoubles

def Action.principal? (s : State) : Action → Option Principal
  | .request p _ => (s.procs p).actsAs.map Prod.snd
  | .handOver p _ _ => (s.procs p).actsAs.map Prod.snd
  | .conversation _ => none

def Created (env : Auth.Env) (P : List Action → State → Action → Prop) (s : State)
    (as : List Action) (user : Principal) : Prop :=
  ∃ pre a post u v, as = pre ++ a :: post ∧ (machine env).run s pre = some u ∧
    (machine env).step u a = some v ∧ user ∉ accounts u.db ∧ user ∈ accounts v.db ∧ P pre u a

def Process.Registering (dto : SignUpDto) (proc : Process) : Prop :=
  proc = .signUpChecked dto ∨ ∃ tenantId, proc = .signUpFree dto tenantId

theorem Step.registering {p : Pid} {dto : SignUpDto} {a : Action} (h : Step env s a t)
    (hbefore : ¬(s.procs p).Registering dto) (hafter : (t.procs p).Registering dto) :
    a = .request p (.signUp dto) ∧ checkTenant s.db dto = .ok () := by
  cases h.moves p with
  | kept hsame => exact absurd (hsame ▸ hafter) hbefore
  | next hrequest hnext =>
    generalize s.procs p = before at hnext hbefore
    generalize t.procs p = after at hnext hafter
    generalize t.db = db' at hnext
    cases hnext with
    | signUpChecks hcheck =>
      rcases hafter with heq | ⟨tenantId, heq⟩ <;> cases heq
      exact ⟨hrequest, hcheck⟩
    | signUpFinds hfree =>
      rcases hafter with heq | ⟨tenantId, heq⟩ <;> cases heq
      exact absurd (.inl rfl) hbefore
    | _ => rcases hafter with heq | ⟨tenantId, heq⟩ <;> cases heq
  | hands _ hhanded =>
    rw [hhanded] at hafter
    rcases hafter with heq | ⟨tenantId, heq⟩ <;> cases heq
  | refused hrefused =>
    rw [hrefused] at hafter
    rcases hafter with heq | ⟨tenantId, heq⟩ <;> cases heq

/-- The process began with this sign-up, and found the tenant active then. -/
def BeganIn (env : Auth.Env) (db : Database) (p : Pid) (dto : SignUpDto) (tenantId : Option Uuid)
    (as : List Action) : Prop :=
  ∃ pre post u tenant, as = pre ++ .request p (.signUp dto) :: post ∧
    (machine env).run (.start db) pre = some u ∧ tenant ∈ u.db.tenants.rows ∧
    tenantId = some tenant.id ∧ tenant.isActive = true

theorem beganIn {p : Pid} {dto : SignUpDto} {as : List Action}
    (hrun : (machine env).run (.start db) as = some s) {tenantId : Option Uuid}
    (hp : s.procs p = .signUpFree dto tenantId) (hrole : dto.role ≠ some .superAdmin) :
    BeganIn env db p dto tenantId as := by
  have hsound := Machine.run_preserves sound_preserves (sound_start db) hrun p
  rw [hp] at hsound
  obtain ⟨htenant, -⟩ := hsound.learnt
  rcases Machine.run_origin (fun s => (s.procs p).Registering dto) hrun (.inr ⟨_, hp⟩) with
    hstart | ⟨pre, a, post, u, v, rfl, hpre, hstep, hbefore, hafter⟩
  · rcases hstart with heq | ⟨_, heq⟩ <;> cases heq
  · obtain ⟨rfl, hcheck⟩ := (step_some hstep).registering hbefore hafter
    obtain ⟨id, tenant, hasked, hfind, hactive⟩ := checkTenant_ok hcheck hrole
    cases htenant.symm.trans hasked
    exact ⟨pre, post, u, tenant, rfl, hpre, Table.mem_of_find? hfind,
      congrArg some (Table.key_of_find? hfind).symm, hactive⟩

/-- An account that was not there from the start comes from a sign-up that asked for its email,
its role and its tenant; nobody changes the role of an account. -/
theorem accounts_origin {as : List Action} (hrun : (machine env).run (.start db) as = some t)
    {user : Principal} (hmem : user ∈ accounts t.db) :
    user ∈ accounts db ∨ Created env (fun pre s a => ∃ p dto, Registers env p dto user s a ∧
      dto.tenant = .ok user.tenantId ∧
      (user.role ≠ .superAdmin → BeganIn env db p dto user.tenantId pre)) (.start db) as user := by
  rcases Machine.run_origin (fun s => user ∈ accounts s.db) hrun hmem with
    hstart | ⟨pre, a, post, u, v, hsplit, hpre, hstep, hbefore, hafter⟩
  · exact .inl hstart
  · right
    refine ⟨pre, a, post, u, v, hsplit, hpre, hstep, hbefore, hafter, ?_⟩
    rcases (step_some hstep).accounts with hsame | ⟨p, dto, user', hregisters, hadded⟩
    · exact absurd (hsame ▸ hafter) hbefore
    · rw [hadded, List.mem_append, List.mem_singleton] at hafter
      obtain rfl := hafter.resolve_left hbefore
      refine ⟨p, dto, hregisters, ?_⟩
      obtain ⟨salt, now, rfl, hp, -, -, hasked⟩ := hregisters
      have hsound := Machine.run_preserves sound_preserves (sound_start db) hpre p
      rw [hp] at hsound
      refine ⟨hsound.learnt.1, fun hrole => beganIn hpre hp fun hsuper => hrole ?_⟩
      rw [hasked, hsuper]
      rfl

namespace Sample

def enrolling (role : UserRole) : List Action :=
  [.request 0 (.signUp { founding "Sam" with
      role := some role, tenantId := some "00000000-0000-0000-0000-000000000001" }),
    .request 0 .signUpLookup, .request 0 (.signUpInsert ⟨7⟩ "" 0)]

def enrolled (role : UserRole) : Principal := ⟨⟨7⟩, "lee@mail.test", role, some ⟨1⟩⟩

end Sample

theorem accounts_origin_enrolled : Created Auth.Sample.environment
    (fun pre s a => ∃ p dto, Registers Auth.Sample.environment p dto (Sample.enrolled .tenantAdmin) s a ∧
      dto.tenant = .ok (some ⟨1⟩) ∧ (UserRole.tenantAdmin ≠ .superAdmin →
        BeganIn Auth.Sample.environment Conversations.Sample.database p dto (some ⟨1⟩) pre))
    (.start Conversations.Sample.database) (Sample.enrolling .tenantAdmin)
    (Sample.enrolled .tenantAdmin) :=
  (accounts_origin rfl (List.mem_of_getLast? rfl)).resolve_left (by decide)

def Authorised (env : Auth.Env) (authority : Principal → Prop) (db : Database) (as : List Action)
    (user : Principal) : Prop :=
  user ∈ accounts db ∨ Created env
    (fun _ s a => ∃ principal, a.principal? s = some principal ∧ authority principal)
    (.start db) as user

def Process.sent : Process → Option Request
  | .returned request _ => some request
  | .handedOver token _ command _ => some (.guarded token command)
  | proc => proc.request?

def Obtained (s : State) (token : Jwt) : Prop :=
  ∃ p request user shown tokens, s.procs p = .returned request (.issued user shown tokens) ∧
    (token = tokens.accessToken ∨ token = tokens.refreshToken)

/-- What clients without credentials of their own can send: they know the passwords that they
have signed up with and the tokens that they were given. -/
def Available (s : State) : Action → Prop
  | .request _ (.signIn dto) => ∃ p dto', (s.procs p).sent = some (.signUp dto') ∧
      dto'.email = dto.email ∧ dto'.password = dto.password
  | .request _ (.refresh token _) => Obtained s token
  | .request _ (.guarded token _ _) => Obtained s token
  | _ => True

theorem not_authorised {authority : Principal → Prop} {as : List Action} {user : Principal}
    (hnew : user ∉ accounts db) : ¬Authorised env authority db as user := by
  rintro (hold | ⟨pre, a, post, u, v, -, -, hstep, hbefore, hafter, principal, hprincipal, -⟩)
  · exact hnew hold
  · rcases (step_some hstep).accounts with hsame | ⟨p, dto, user', ⟨salt, now, rfl, hp, -⟩, -⟩
    · exact hbefore (hsame ▸ hafter)
    · simp only [Action.principal?, hp] at hprincipal
      cases hprincipal

theorem registration_unguarded :
    (¬∀ (env : Auth.Env) (db : Database) (as : List Action) (t : State), db.tenants.rows ≠ [] →
      db.users.rows ≠ [] → (machine env).run (.start db) as = some t →
      (machine env).Along Available (.start db) as → ∀ user ∈ accounts t.db,
      user.role = .superAdmin →
      Authorised env (fun principal => principal.role = .superAdmin) db as user) ∧
    ¬∀ (env : Auth.Env) (db : Database) (as : List Action) (t : State), db.tenants.rows ≠ [] →
      db.users.rows ≠ [] → (machine env).run (.start db) as = some t →
      (machine env).Along Available (.start db) as → ∀ user ∈ accounts t.db,
      ∀ T, user.role = .tenantAdmin → user.tenantId = some T →
      Authorised env (fun principal => principal.role = .superAdmin ∨
        principal.role = .tenantAdmin ∧ principal.tenantId = some T) db as user := by
  have havailable : ∀ role, (machine Auth.Sample.environment).Along Available
      (.start Conversations.Sample.database) (Sample.enrolling role) :=
    fun _ => ⟨trivial, fun _ _ => ⟨trivial, fun _ _ => ⟨trivial, fun _ _ => trivial⟩⟩⟩
  constructor
  · intro h
    refine not_authorised ?_ (h Auth.Sample.environment Conversations.Sample.database
      (Sample.enrolling .superAdmin) _ (by decide) (by decide) rfl (havailable _)
      (Sample.enrolled .superAdmin) ?_ rfl)
    · decide
    · exact List.mem_of_getLast? rfl
  · intro h
    refine not_authorised ?_ (h Auth.Sample.environment Conversations.Sample.database
      (Sample.enrolling .tenantAdmin) _ (by decide) (by decide) rfl (havailable _)
      (Sample.enrolled .tenantAdmin) ?_ ⟨1⟩ rfl rfl)
    · decide
    · exact List.mem_of_getLast? rfl

end SupportApi.Server
