import SupportApi.Auth.Rotation
import SupportApi.Server.Accounts

namespace SupportApi.Server

open Lib Auth Conversations

variable {env : Auth.Env} {db db' : Database} {s t : State} {x : Uuid} {email : String}
  {tenantId : Option Uuid}

def Inactive (db : Database) (x : Uuid) (email : String) (tenantId : Option Uuid) : Prop :=
  ∃ u, db.users.find? x = some u ∧ u.isActive = false ∧ u.email = email ∧ u.tenantId = tenantId

theorem Inactive.mono (h : db.Evolves db') (hoff : Inactive db x email tenantId) :
    Inactive db' x email tenantId := by
  obtain ⟨u, hfind, hactive, hemail, htenant⟩ := hoff
  obtain ⟨u', hfind', hemail', htenant', -, hactive'⟩ := h.user hfind
  refine ⟨u', hfind', ?_, hemail'.trans hemail, htenant'.trans htenant⟩
  rw [Bool.eq_false_iff]
  intro htrue
  cases hactive.symm.trans (hactive' htrue)

theorem Inactive.ne (h : Inactive db x email tenantId) {id : Uuid} {u : UserRow}
    (hfind : db.users.find? id = some u) (hactive : u.isActive = true) : u.id ≠ x := by
  rintro rfl
  obtain ⟨rfl, -⟩ := account_of_find? hfind
  obtain ⟨v, hfind', hoff, -⟩ := h
  cases hfind.symm.trans hfind'
  cases hactive.symm.trans hoff

theorem names_unique {dto : SignInDto} {a b : Option Uuid} (ha : dto.Names db a)
    (hb : dto.Names db b) : a = b := by
  cases a with
  | none =>
    cases b with
    | none => rfl
    | some id =>
      obtain ⟨tenant, -, hslug⟩ := hb
      cases ha.symm.trans hslug
  | some id =>
    obtain ⟨tenant, hfind, hslug⟩ := ha
    cases b with
    | none => cases hb.symm.trans hslug
    | some id' =>
      obtain ⟨tenant', hfind', hslug'⟩ := hb
      have hsame := db.tenants_slug tenant (Table.mem_of_find? hfind) tenant'
        (Table.mem_of_find? hfind') (Option.some.inj (hslug.symm.trans hslug'))
      subst hsame
      exact congrArg some ((Table.key_of_find? hfind).symm.trans (Table.key_of_find? hfind'))

structure LockedOut (env : Auth.Env) (db : Database) (u : UserRow) : Prop where
  access : ∀ token now, token.payload.sub = u.id →
    ∃ message, validateAccess env db token now = .error (.unauthorized message)
  refresh : ∀ token now, token.payload.sub = u.id →
    ∃ message, validateRefresh env db token now = .error (.unauthorized message)
  signIn : ∀ dto, dto.email = u.email → dto.Names db u.tenantId →
    (∀ v ∈ db.users.rows, v.email = u.email → v.tenantId = u.tenantId → v = u) →
    ∀ order, ∃ message, authenticate env order db dto = .error (.unauthorized message)
  signUp : ∀ dto, dto.email = u.email → dto.tenant = .ok u.tenantId →
    ∃ e, signUpLookup db dto = .error e

theorem signInTenant_of_names {dto : SignInDto} (h : dto.Names db tenantId) :
    signInTenant db dto = .ok tenantId ∨
      signInTenant db dto = .error (.unauthorized "Tenant not found or inactive") := by
  cases hsignIn : signInTenant db dto with
  | ok tenantId' =>
    left
    rw [names_unique h (signInTenant_ok hsignIn).1]
  | error e =>
    right
    unfold signInTenant at hsignIn
    split at hsignIn
    · cases hsignIn
    · split at hsignIn <;> cases hsignIn
      rfl

theorem lockedOut {u : UserRow} (hfind : db.users.find? u.id = some u)
    (hoff : u.isActive = false) : LockedOut env db u where
  access token now hsub := by
    unfold validateAccess
    split
    · exact ⟨_, rfl⟩
    · rw [hsub, hfind, Option.filter_some_neg (by simp [hoff])]
      exact ⟨_, rfl⟩
  refresh token now hsub := by
    unfold validateRefresh refreshRow
    split
    · exact ⟨_, rfl⟩
    · rw [hsub, hfind, Option.filter_some_neg (by simp [hoff])]
      exact ⟨_, rfl⟩
  signIn dto hemail hnames hunique order := by
    rw [authenticate_eq]
    rcases signInTenant_of_names hnames with htenant | htenant
    · rw [htenant]
      have hnone : ((order.sort (selectUsers db dto.email u.tenantId)).head?.filter
          fun v => v.isActive) = none := by
        rw [Option.filter_eq_none_iff]
        intro v hv hactive
        obtain ⟨hmem, hemail', htenant'⟩ := first_selectUsers hv
        obtain rfl := hunique v hmem (hemail'.trans hemail) htenant'
        cases hoff.symm.trans hactive
      simp only [credentials, hnone]
      exact ⟨_, rfl⟩
    · rw [htenant]
      exact ⟨_, rfl⟩
  signUp dto hemail htenant := by
    rw [signUpLookup_eq]
    split
    · exact ⟨_, rfl⟩
    · unfold signUpFree
      rw [htenant]
      simp only
      split
      · exact ⟨_, rfl⟩
      · rename_i hnone
        have hfree := findUserByEmailAndTenant_none.mp hnone u (Table.mem_of_find? hfind)
        exact absurd ⟨hemail.symm, rfl⟩ hfree

def Process.granted : Process → Option Request
  | .signUpFree dto _ => some (.signUp dto)
  | .signUpSaved dto _ => some (.signUp dto)
  | proc => proc.actsAs.map Prod.fst

structure Process.Apart (x : Uuid) (email : String) (tenantId : Option Uuid) (proc : Process) :
    Prop where
  acts : ∀ request user, proc.actsAs = some (request, user) → user.id ≠ x
  registers : ∀ dto, proc.granted = some (.signUp dto) →
    ¬(dto.email = email ∧ dto.tenant = .ok tenantId)

theorem Process.Apart.of_nobody {proc : Process} (hgranted : proc.granted = none)
    (hacts : proc.actsAs = none) : proc.Apart x email tenantId where
  acts request user h := by cases hacts.symm.trans h
  registers dto h := by cases hgranted.symm.trans h

theorem Process.Apart.of_acts {proc : Process} {request : Request} {user : Principal}
    (hacts : proc.actsAs = some (request, user)) (hgranted : proc.granted = some request)
    (hne : user.id ≠ x) (hregisters : ∀ dto, request = .signUp dto →
      ¬(dto.email = email ∧ dto.tenant = .ok tenantId)) : proc.Apart x email tenantId where
  acts request' user' h := by
    cases hacts.symm.trans h
    exact hne
  registers dto h := hregisters dto (Option.some.inj (hgranted.symm.trans h))

theorem Process.Apart.keep {proc proc' : Process} (h : proc.Apart x email tenantId)
    (hacts : proc'.actsAs = proc.actsAs) (hgranted : proc'.granted = proc.granted) :
    proc'.Apart x email tenantId where
  acts := by rw [hacts]; exact h.acts
  registers := by rw [hgranted]; exact h.registers

theorem Next.apart {proc proc' : Process} {input : Input} (h : Next env db proc input proc' db')
    (hoff : Inactive db x email tenantId) (hsound : proc.Sound db)
    (hapart : proc.Apart x email tenantId) : proc'.Apart x email tenantId := by
  cases h with
  | signUpFinds hfree =>
    obtain ⟨htenant, hnew⟩ := signUpFree_ok hfree
    constructor
    · intro request user h
      cases h
    rintro _ ⟨⟩ ⟨hemail, hsame⟩
    cases htenant.symm.trans hsame
    obtain ⟨u, hfind, -, hemail', htenant'⟩ := hoff
    exact hnew u (Table.mem_of_find? hfind) ⟨hemail'.trans hemail.symm, htenant'⟩
  | signUpSaves =>
    constructor
    · intro request user h
      cases h
    · exact hapart.registers
  | @signUpReloads dto id now row hfind =>
    have hregisters := hapart.registers dto rfl
    refine .of_acts rfl rfl ?_ fun dto' hdto => by cases hdto; exact hregisters
    -- the new row has the address of the request, which is not the account's
    rintro rfl
    obtain ⟨user, rfl, ⟨v, hv, rfl⟩, ⟨hemail, htenant⟩, -⟩ := hsound.learnt
    cases hfind.symm.trans hv
    obtain ⟨u, hu, -, rfl, rfl⟩ := hoff
    cases hfind.symm.trans hu
    exact hregisters ⟨hemail, htenant⟩
  | signInFinds hcredentials =>
    obtain ⟨hmem, -, -, hactive⟩ := credentials_ok hcredentials
    exact .of_acts rfl rfl (hoff.ne (Table.find?_self hmem) hactive) fun _ h => by cases h
  | validates hvalid =>
    obtain ⟨-, -, hfind, hactive, -⟩ := refreshRow_ok.mp hvalid
    exact .of_acts rfl rfl (hoff.ne hfind hactive) fun _ h => by cases h
  | refreshSigns => exact hapart.keep rfl rfl
  | stores => exact hapart.keep rfl rfl
  | admits hadmit =>
    obtain ⟨⟨row, hfind, hactive, rfl⟩, -⟩ := letIn_ok hadmit
    exact .of_acts rfl rfl (hoff.ne hfind hactive) fun _ h => by cases h
  | refuses => exact .of_nobody rfl rfl
  | signUpChecks => exact .of_nobody rfl rfl
  | signInLocates => exact .of_nobody rfl rfl
  | _ => exact hapart.keep rfl rfl

structure Barred (later : Pid → Prop) (x : Uuid) (email : String) (tenantId : Option Uuid)
    (s : State) : Prop where
  sound : Sound s
  off : Inactive s.db x email tenantId
  apart : ∀ p, later p → (s.procs p).Apart x email tenantId

theorem Barred.step {later : Pid → Prop} {a : Action} (h : Barred later x email tenantId s)
    (hs : Step env s a t) : Barred later x email tenantId t where
  sound := hs.sound h.sound
  off := h.off.mono hs.evolves
  apart q hq := by
    have hapart := h.apart q hq
    cases hs.moves q with
    | kept hsame => exact hsame ▸ hapart
    | next _ hnext => exact hnext.apart h.off (h.sound q) hapart
    | hands hp hhanded =>
      rw [hp] at hapart
      rw [hhanded]
      exact hapart.keep rfl rfl
    | refused hrefused =>
      rw [hrefused]
      exact .of_nobody rfl rfl

/-- The step commits `UsersService.deactivate` of user `x`. -/
def DeactivatesUser (x : Uuid) (s : State) (a : Action) : Prop :=
  ∃ p token user id target unused now, a = .request p (.save unused now) ∧
    s.procs p = .deactivatingUser token user id target ∧ target.id = x

theorem DeactivatesUser.inactive {a : Action} (h : DeactivatesUser x s a) (hsound : Sound s)
    (hs : (machine env).step s a = some t) : ∃ email tenantId, Inactive t.db x email tenantId := by
  obtain ⟨p, token, user, id, target, unused, now, rfl, hp, rfl⟩ := h
  have hlearnt := (hsound p).learnt
  rw [hp] at hlearnt
  obtain ⟨u, hfind⟩ := hlearnt
  obtain ⟨⟨proc, db⟩, hnext, rfl⟩ := Option.map_eq_some_iff.mp hs
  rw [hp] at hnext
  cases hnext
  refine ⟨u.email, u.tenantId, { u with isActive := false, updatedAt := now }, ?_, rfl, rfl, rfl⟩
  rw [State.store_db, Users.setInactive, Database.find?_updateUser_self, hfind]
  rfl

theorem granted_acts {proc : Process} {request : Request} (h : proc.granted = some request)
    (hother : ∀ dto, request ≠ .signUp dto) : ∃ user, proc.actsAs = some (request, user) := by
  cases proc with
  | signUpFree dto => cases h; exact absurd rfl (hother dto)
  | signUpSaved dto => cases h; exact absurd rfl (hother dto)
  | _ =>
    simp only [Process.granted, Option.map_eq_some_iff] at h
    obtain ⟨⟨request', user⟩, hacts, rfl⟩ := h
    exact ⟨user, hacts⟩

theorem Barred.granted {later : Pid → Prop} (h : Barred later x email tenantId s) {u : UserRow}
    (hfind : s.db.users.find? x = some u) (hemail : u.email = email) (htenant : u.tenantId = tenantId)
    {p : Pid} (hp : later p) {request : Request} (hgranted : (s.procs p).granted = some request)
    (hfor : request.For s.db (.of u.toUser)) :
    ∃ dto v, request = .signIn dto ∧ v ∈ s.db.users.rows ∧ v.id ≠ x ∧ v.email = u.email ∧
      v.tenantId = u.tenantId := by
  obtain ⟨hx, -⟩ := account_of_find? hfind
  have hapart := h.apart p hp
  cases request with
  | signUp dto =>
    obtain ⟨hsame, htenant'⟩ := hfor
    exact absurd ⟨hsame.trans hemail, htenant' ▸ congrArg Except.ok htenant⟩
      (hapart.registers dto hgranted)
  | signIn dto =>
    obtain ⟨user, hacts⟩ := granted_acts hgranted fun _ h => by cases h
    obtain ⟨⟨v, hv, rfl⟩, hemail', hnames⟩ := (h.sound p).acts _ _ hacts
    obtain ⟨hsame, hnames'⟩ := hfor
    exact ⟨dto, v, rfl, Table.mem_of_find? hv, hapart.acts _ _ hacts, hemail'.symm.trans hsame,
      names_unique hnames hnames'⟩
  | refresh token =>
    obtain ⟨user, hacts⟩ := granted_acts hgranted fun _ h => by cases h
    have huser := ((h.sound p).acts _ _ hacts).2
    exact absurd (huser.symm.trans (hfor.trans hx)) (hapart.acts _ _ hacts)
  | guarded token command =>
    obtain ⟨user, hacts⟩ := granted_acts hgranted fun _ h => by cases h
    have huser := ((h.sound p).acts _ _ hacts).2
    exact absurd (huser.symm.trans (hfor.trans hx)) (hapart.acts _ _ hacts)

theorem deactivated_user_locked_out {db : Database} {pre post : List Action} {s' : State}
    {a : Action} (hpre : (machine env).run (.start db) pre = some s)
    (hdeactivates : DeactivatesUser x s a) (hs : (machine env).step s a = some s')
    (hpost : (machine env).run s' post = some t) :
    ∃ u, t.db.users.find? x = some u ∧ u.isActive = false ∧ LockedOut env t.db u ∧
      ∀ p request, s'.procs p = .idle → (t.procs p).granted = some request →
        request.For t.db (.of u.toUser) →
        ∃ dto v, request = .signIn dto ∧ v ∈ t.db.users.rows ∧ v.id ≠ x ∧ v.email = u.email ∧
          v.tenantId = u.tenantId := by
  have hsound := Machine.run_preserves sound_preserves (sound_start db) hpre
  obtain ⟨email, tenantId, hoff⟩ := hdeactivates.inactive hsound hs
  have hstart : Barred (fun p => s'.procs p = .idle) x email tenantId s' := by
    refine ⟨(step_some hs).sound hsound, hoff, fun p hp => ?_⟩
    rw [hp]
    exact .of_nobody rfl rfl
  have hbarred := Machine.run_preserves
    (fun _ _ _ h hs => Barred.step h (step_some hs)) hstart hpost
  obtain ⟨u, hfind, hactive, hemail, htenant⟩ := hbarred.off
  obtain ⟨hid, -⟩ := account_of_find? hfind
  exact ⟨u, hfind, hactive, lockedOut (hid ▸ hfind) hactive, fun p request hp hgranted hfor =>
    hbarred.granted hfind hemail htenant hp hgranted hfor⟩

namespace Sample

def environment : Auth.Env := Auth.Sample.environment

def tokens (user : UserRow) (now : Time) : TokenPair :=
  (Principal.of user.toUser).tokens environment now

def admin : UserRow := Conversations.Sample.admin
def agent : UserRow := Conversations.Sample.agent

def deactivating : List Action :=
  [.request 0 (.guarded (tokens admin 0).accessToken
      (.deactivateUser "00000000-0000-0000-0000-000000000002") 0),
    .request 0 (.perform 0)]

def saving : Action := .request 0 (.save ⟨0⟩ 5)

def returning : List Action :=
  [.request 1 (.guarded (tokens agent 0).accessToken (.claim Conversations.Sample.conversation) 6)]

end Sample

theorem deactivated_user_locked_out_agent : ∃ s s' t,
    (machine Sample.environment).run (.start Conversations.Sample.database) Sample.deactivating =
      some s ∧
    (machine Sample.environment).step s Sample.saving = some s' ∧
    (machine Sample.environment).run s' Sample.returning = some t ∧
    ∃ u, t.db.users.find? Sample.agent.id = some u ∧ u.isActive = false := by
  refine ⟨_, _, _, rfl, rfl, rfl, ?_⟩
  obtain ⟨u, hfind, hactive, -⟩ := @deactivated_user_locked_out Sample.environment _ _
    Sample.agent.id Conversations.Sample.database Sample.deactivating Sample.returning _ Sample.saving rfl
    ⟨0, _, _, _, _, _, _, rfl, rfl, rfl⟩ rfl rfl
  exact ⟨u, hfind, hactive⟩

end SupportApi.Server
