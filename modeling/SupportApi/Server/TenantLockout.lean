import SupportApi.Server.Lockout

namespace SupportApi.Server

open Lib Auth Conversations

variable {env : Auth.Env} {db db' : Database} {s t : State} {T : Uuid}

def Closed (db : Database) (T : Uuid) : Prop :=
  ∃ tenant, db.tenants.find? T = some tenant ∧ tenant.isActive = false

theorem Closed.mono (h : db.Evolves db') (hclosed : Closed db T) : Closed db' T := by
  obtain ⟨tenant, hfind, hoff⟩ := hclosed
  obtain ⟨tenant', hfind', -, -, hactive⟩ := h.tenants T tenant hfind
  refine ⟨tenant', hfind', ?_⟩
  rw [Bool.eq_false_iff]
  intro htrue
  cases hoff.symm.trans (hactive htrue)

theorem Closed.ne (h : Closed db T) {id : Uuid} {tenant : Tenant}
    (hfind : db.tenants.find? id = some tenant) (hactive : tenant.isActive = true) : id ≠ T := by
  rintro rfl
  obtain ⟨tenant', hfind', hoff⟩ := h
  cases hfind.symm.trans hfind'
  cases hactive.symm.trans hoff

def Process.issues : Process → Option Principal
  | .validated _ row => some (.of row.toUser)
  | .issuing _ user _ _ => some user
  | .returned _ (.issued user _ _) => some user
  | _ => none

def Principal.Of (user : Principal) (T : Uuid) : Prop :=
  user.role ≠ .superAdmin ∧ user.tenantId = some T

def Process.Outside (T : Uuid) : Process → Prop
  | .signUpChecked dto => dto.role ≠ some .superAdmin → dto.tenant ≠ .ok (some T)
  | .signUpFree dto tenantId => dto.role ≠ some .superAdmin → tenantId ≠ some T
  | .signUpSaved dto _ => dto.role ≠ some .superAdmin → dto.tenant ≠ .ok (some T)
  | .signInLocated _ tenantId => tenantId ≠ some T
  | proc => ∀ user, proc.issues = some user → ¬user.Of T

/-- The refresh token is one that the stored hash of an active user of the tenant accepts. -/
def Session (env : Auth.Env) (db : Database) (T : Uuid) (token : Jwt) (now : Time) : Prop :=
  token.verify env.config.refreshSecret now = true ∧
    ∃ row hash, db.users.find? token.payload.sub = some row ∧ row.isActive = true ∧
      row.role ≠ .superAdmin ∧ row.tenantId = some T ∧ row.refreshToken = some hash ∧ hash ≠ "" ∧
      env.bcrypt.compare (tokenBytes env token) hash = true

def Resumes (env : Auth.Env) (T : Uuid) (s : State) (a : Action) : Prop :=
  ∃ p token now, a = .request p (.refresh token now) ∧ s.procs p = .idle ∧
    Session env s.db T token now

/-- A tenant that is switched off lets nobody through whom it has to let through. -/
theorem Next.outside {proc proc' : Process} {input : Input} (h : Next env db proc input proc' db')
    (hclosed : Closed db T) (hsound : proc.Sound db)
    (hresumes : ∀ token now, proc = .idle → input = .refresh token now →
      ¬Session env db T token now)
    (houtside : proc.Outside T) : proc'.Outside T := by
  cases h with
  | signUpChecks hcheck =>
    intro hrole htenant
    obtain ⟨id, tenant, htenant', hfind, hactive⟩ := checkTenant_ok hcheck hrole
    cases htenant.symm.trans htenant'
    exact hclosed.ne hfind hactive rfl
  | signUpFinds hfree =>
    intro hrole htenant
    exact houtside hrole (htenant ▸ (signUpFree_ok hfree).1)
  | signUpSaves =>
    intro hrole htenant
    obtain ⟨hfree, -⟩ := hsound.learnt
    cases hfree.symm.trans htenant
    exact houtside hrole rfl
  | signUpReloads hfind =>
    rintro user ⟨⟩ ⟨hrole, htenant⟩
    obtain ⟨user, rfl, ⟨v, hv, rfl⟩, ⟨-, hasked⟩, hsame⟩ := hsound.learnt
    cases hfind.symm.trans hv
    refine houtside (fun hsuper => hrole ?_) (htenant ▸ hasked)
    rw [hsame, hsuper]
    rfl
  | signInLocates hlocate =>
    rintro rfl
    obtain ⟨⟨tenant, hfind, -⟩, hactive⟩ := signInTenant_ok hlocate
    exact hclosed.ne hfind (hactive T tenant rfl hfind) rfl
  | signInFinds hcredentials =>
    rintro user ⟨⟩ ⟨-, htenant⟩
    obtain ⟨-, -, hlocated, -⟩ := credentials_ok hcredentials
    exact houtside (hlocated.symm.trans htenant)
  | @validates token now row hvalid =>
    obtain ⟨hverify, hash, hfind, hactive, hstored, hne, hcompare⟩ := refreshRow_ok.mp hvalid
    rintro user ⟨⟩ ⟨hrole, htenant⟩
    exact hresumes token now rfl rfl
      ⟨hverify, row, hash, hfind, hactive, hrole, htenant, hstored, hne, hcompare⟩
  | refreshSigns => exact houtside
  | stores => exact houtside
  | _ =>
    intro user h
    cases h

structure Shut (later : Pid → Prop) (T : Uuid) (s : State) : Prop where
  sound : Sound s
  closed : Closed s.db T
  outside : ∀ p, later p → (s.procs p).Outside T

theorem Shut.step {later : Pid → Prop} {a : Action} (h : Shut later T s)
    (ha : ¬Resumes env T s a) (hs : Step env s a t) : Shut later T t where
  sound := hs.sound h.sound
  closed := h.closed.mono hs.evolves
  outside q hq := by
    have houtside := h.outside q hq
    cases hs.moves q with
    | kept hsame => exact hsame ▸ houtside
    | next hrequest hnext =>
      refine hnext.outside h.closed (h.sound q) ?_ houtside
      rintro token now hidle rfl hsession
      exact ha ⟨q, token, now, hrequest, hidle, hsession⟩
    | hands _ hhanded =>
      rw [hhanded]
      intro user h
      cases h
    | refused hrefused =>
      rw [hrefused]
      intro user h
      cases h

def DeactivatesTenant (T : Uuid) (s : State) (a : Action) : Prop :=
  ∃ p token user id target unused now, a = .request p (.save unused now) ∧
    s.procs p = .deactivatingTenant token user id target ∧ target.id = T

theorem DeactivatesTenant.closed {a : Action} (h : DeactivatesTenant T s a) (hsound : Sound s)
    (hs : (machine env).step s a = some t) : Closed t.db T := by
  obtain ⟨p, token, user, id, target, unused, now, rfl, hp, rfl⟩ := h
  have hlearnt := (hsound p).learnt
  rw [hp] at hlearnt
  obtain ⟨tenant, hfind⟩ := hlearnt
  obtain ⟨⟨proc, db⟩, hnext, rfl⟩ := Option.map_eq_some_iff.mp hs
  rw [hp] at hnext
  cases hnext
  refine ⟨Tenants.inactive tenant now, ?_, Tenants.inactive_isActive tenant now⟩
  have hmodify := Table.find?_modify_self s.db.tenants target.id (fun t => Tenants.inactive t now)
    fun t => (Tenants.inactive_names t now).1
  rw [hfind] at hmodify
  exact hmodify

/-- After the deactivation of a tenant no request that starts later issues a pair to a user of
it, as long as no refresh comes with the token of a session that was left. -/
theorem closed_tenant_issues_nothing {db : Database} {pre post : List Action} {s' : State}
    {a : Action} (hpre : (machine env).run (.start db) pre = some s)
    (hdeactivates : DeactivatesTenant T s a) (hs : (machine env).step s a = some s')
    (hpost : (machine env).run s' post = some t)
    (hnone : (machine env).Along (fun s a => ¬Resumes env T s a) s' post) {p : Pid}
    {request : Request} {user : Principal} {shown : Option SafeUser} {tokens : TokenPair}
    (hlater : s'.procs p = .idle)
    (hissued : t.procs p = .returned request (.issued user shown tokens))
    (hrole : user.role ≠ .superAdmin) : user.tenantId ≠ some T := by
  have hsound := Machine.run_preserves sound_preserves (sound_start db) hpre
  have hstart : Shut (fun p => s'.procs p = .idle) T s' := by
    refine ⟨(step_some hs).sound hsound, hdeactivates.closed hsound hs, fun p hp => ?_⟩
    rw [hp]
    intro user h
    cases h
  have hshut := Machine.run_preserves_along
    (fun _ _ _ h ha hs => Shut.step h ha (step_some hs)) hstart hnone hpost
  have houtside := hshut.outside p hlater
  rw [hissued] at houtside
  exact fun htenant => houtside user rfl ⟨hrole, htenant⟩

namespace Sample

def root : UserRow :=
  { agent with id := ⟨9⟩, tenantId := none, role := .superAdmin, email := "root@mail.test" }

def globex : Tenant :=
  { Conversations.Sample.tenant with id := ⟨8⟩, name := "Globex", slug := "globex" }

def signedIn : Database :=
  storeRefreshToken environment
    (((Conversations.Sample.database.insertUser root).bind fun db => db.insertTenant globex).getD
      .empty) agent.id (tokens agent 0).refreshToken "" 0

def closing (tenant : String) : List Action :=
  [.request 0 (.guarded (tokens root 0).accessToken (.deactivateTenant tenant) 0),
    .request 0 (.perform 0)]

def prolonging : List Action :=
  [.request 1 (.refresh (tokens agent 0).refreshToken 6000), .request 1 (.refreshSign 6000),
    .request 1 (.store "" 6000)]

end Sample

theorem closed_tenant_issues_others : ∃ s s' t user shown tokens,
    (machine Sample.environment).run (.start Sample.signedIn)
      (Sample.closing "00000000-0000-0000-0000-000000000008") = some s ∧
    (machine Sample.environment).step s Sample.saving = some s' ∧
    (machine Sample.environment).run s' Sample.prolonging = some t ∧
    t.procs 1 = .returned (.refresh (Sample.tokens Sample.agent 0).refreshToken)
      (.issued user shown tokens) ∧ user.tenantId ≠ some Sample.globex.id := by
  refine ⟨_, _, _, _, _, _, rfl, rfl, rfl, rfl, ?_⟩
  refine @closed_tenant_issues_nothing Sample.environment _ _ Sample.globex.id Sample.signedIn
    (Sample.closing "00000000-0000-0000-0000-000000000008") Sample.prolonging _ Sample.saving rfl
    ⟨0, _, _, _, _, _, _, rfl, rfl, rfl⟩ rfl rfl ?_ 1 _ _ _ _ rfl rfl fun h => by cases h
  refine .cons rfl ?_ (.cons rfl ?_ (.cons rfl ?_ trivial))
  · rintro ⟨p, token, now, ⟨⟩, -, -, row, hash, hfind, -, -, htenant, -⟩
    cases hfind
    cases htenant
  · rintro ⟨p, token, now, ⟨⟩, -⟩
  · rintro ⟨p, token, now, ⟨⟩, -⟩

theorem closed_tenant_prolongs : ¬∀ (env : Auth.Env) (db : Database) (pre post : List Action)
    (s s' t : State) (a : Action) (T : Uuid) (p : Pid) (request : Request) (user : Principal)
    (shown : Option SafeUser) (tokens : TokenPair),
    (machine env).run (.start db) pre = some s → DeactivatesTenant T s a →
    (machine env).step s a = some s' → (machine env).run s' post = some t →
    s'.procs p = .idle → t.procs p = .returned request (.issued user shown tokens) →
    user.role ≠ .superAdmin → user.tenantId ≠ some T := by
  intro h
  refine h Sample.environment Sample.signedIn
    (Sample.closing "00000000-0000-0000-0000-000000000001") Sample.prolonging _ _ _ Sample.saving
    Conversations.Sample.tenant.id 1 _ _ _ _ rfl ⟨0, _, _, _, _, _, _, rfl, rfl, rfl⟩ rfl rfl rfl rfl
    ?_ rfl
  intro hrole
  cases hrole

end SupportApi.Server
