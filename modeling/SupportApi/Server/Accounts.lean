import SupportApi.Server.Machine

namespace SupportApi.Server

open Lib Auth Conversations

variable {env : Auth.Env} {db db' : Database} {s t : State}

theorem Next.evolves {proc proc' : Process} {input : Input}
    (h : Next env db proc input proc' db') : db.Evolves db' := by
  cases h with
  | signUpSaves hins => exact .insertUser hins
  | stores => exact .updateUser _ _ _ (fun _ => rfl) fun _ hactive => hactive
  | signsOut => exact .updateUser _ _ _ (fun _ => rfl) fun _ hactive => hactive
  | deactivatesUser => exact .updateUser _ _ _ (fun _ => rfl) fun _ hactive => by cases hactive
  | createsTenant hins => exact .insertTenant hins
  | deactivatesTenant =>
    apply Database.Evolves.updateTenant
    intro tenant hactive
    cases (Tenants.inactive_isActive tenant _).symm.trans hactive
  | _ => exact .refl _

theorem Step.evolves {a : Action} (h : Step env s a t) : s.db.Evolves t.db := by
  cases h with
  | request hnext => exact hnext.evolves
  | opens _ _ hstep => exact hstep.evolves
  | openRefused => exact .refl _
  | conversation _ hstep => exact hstep.evolves

theorem run_evolves {actions : List Action} (h : (machine env).run s actions = some t) :
    s.db.Evolves t.db :=
  Machine.run_rel (I := fun _ => True) (R := fun s t => s.db.Evolves t.db) (fun _ _ _ _ _ => trivial)
    (fun s => .refl s.db) (fun h h' => h.trans h') (fun _ _ _ _ hs => (step_some hs).evolves) trivial h

def Account (db : Database) (user : Principal) : Prop :=
  ∃ u, db.users.find? user.id = some u ∧ Principal.of u.toUser = user

def Request.For (db : Database) (user : Principal) : Request → Prop
  | .signUp dto => dto.email = user.email ∧ dto.tenant = .ok user.tenantId
  | .signIn dto => dto.email = user.email ∧ dto.Names db user.tenantId
  | .refresh token => token.payload.sub = user.id
  | .guarded token _ => token.payload.sub = user.id

def Process.actsAs : Process → Option (Request × Principal)
  | .validated token row => some (.refresh token, .of row.toUser)
  | .issuing request user _ _ => some (request, user)
  | .admitted token user command => some (.guarded token command, .of user)
  | .deactivatingUser token user id _ => some (.guarded token (.deactivateUser id), .of user)
  | .deactivatedUser token user id => some (.guarded token (.deactivateUser id), .of user)
  | .creatingTenant token user dto => some (.guarded token (.createTenant dto), .of user)
  | .deactivatingTenant token user id _ => some (.guarded token (.deactivateTenant id), .of user)
  | .handedOver token user command _ => some (.guarded token command, .of user)
  | .returned request (.issued user _ _) => some (request, user)
  | .returned request (.done user _) => some (request, .of user)
  | _ => none

def Process.Learnt (db : Database) : Process → Prop
  | .signUpChecked dto => dto.role ≠ some .superAdmin → ∃ id, dto.tenant = .ok (some id)
  | .signUpFree dto tenantId => dto.tenant = .ok tenantId ∧
      (dto.role ≠ some .superAdmin → tenantId.isSome)
  | .signUpSaved dto id => ∃ user : Principal, user.id = id ∧ Account db user ∧
      (Request.signUp dto).For db user ∧ user.role = dto.role.getD .agent
  | .signInLocated dto tenantId => dto.Names db tenantId
  | .deactivatingUser _ _ _ target => ∃ u, db.users.find? target.id = some u
  | .deactivatingTenant _ _ _ target => ∃ t, db.tenants.find? target.id = some t
  | _ => True

structure Process.Sound (db : Database) (proc : Process) : Prop where
  learnt : proc.Learnt db
  acts : ∀ request user, proc.actsAs = some (request, user) → Account db user ∧ request.For db user

theorem Account.mono (h : db.Evolves db') {user : Principal} (haccount : Account db user) :
    Account db' user := by
  obtain ⟨u, hfind, rfl⟩ := haccount
  obtain ⟨u', hfind', hemail, htenant, hrole, -⟩ := h.user hfind
  refine ⟨u', hfind', ?_⟩
  have hid : u'.key = u.key := (Table.key_of_find? hfind').trans (Table.key_of_find? hfind).symm
  have hid : u'.id = u.id := hid
  simp only [Principal.of, hid, hemail, htenant, hrole]

theorem names_mono (h : db.Evolves db') {dto : SignInDto} {tenantId : Option Uuid}
    (hnames : dto.Names db tenantId) : dto.Names db' tenantId := by
  cases tenantId with
  | none => exact hnames
  | some id =>
    obtain ⟨tenant, hfind, hslug⟩ := hnames
    obtain ⟨tenant', hfind', -, hslug', -⟩ := h.tenants id tenant hfind
    exact ⟨tenant', hfind', hslug'.symm ▸ hslug⟩

theorem Request.For.mono (h : db.Evolves db') {user : Principal} {request : Request}
    (hfor : request.For db user) : request.For db' user := by
  cases request with
  | signUp dto => exact hfor
  | signIn dto => exact ⟨hfor.1, names_mono h hfor.2⟩
  | refresh token => exact hfor
  | guarded token command => exact hfor

theorem Process.Learnt.mono (h : db.Evolves db') {proc : Process} (hlearnt : proc.Learnt db) :
    proc.Learnt db' := by
  cases proc with
  | signUpSaved dto id =>
    obtain ⟨user, hid, haccount, hfor, hrole⟩ := hlearnt
    exact ⟨user, hid, haccount.mono h, hfor.mono h, hrole⟩
  | signInLocated dto tenantId => exact names_mono h hlearnt
  | deactivatingUser token user id target =>
    obtain ⟨u, hfind⟩ := hlearnt
    obtain ⟨u', hfind', -⟩ := h.user hfind
    exact ⟨u', hfind'⟩
  | deactivatingTenant token user id target =>
    obtain ⟨t, hfind⟩ := hlearnt
    obtain ⟨t', hfind', -⟩ := h.tenants _ t hfind
    exact ⟨t', hfind'⟩
  | _ => exact hlearnt

theorem Process.Sound.mono (h : db.Evolves db') {proc : Process} (hsound : proc.Sound db) :
    proc.Sound db' where
  learnt := hsound.learnt.mono h
  acts request user hacts := by
    obtain ⟨haccount, hfor⟩ := hsound.acts request user hacts
    exact ⟨haccount.mono h, hfor.mono h⟩

theorem account_of_find? {id : Uuid} {u : UserRow} (h : db.users.find? id = some u) :
    u.id = id ∧ Account db (.of u.toUser) := by
  have hid : u.key = id := Table.key_of_find? h
  subst hid
  exact ⟨rfl, u, h, rfl⟩

theorem Process.Sound.of_learnt {proc : Process} (hlearnt : proc.Learnt db)
    (hacts : proc.actsAs = none) : proc.Sound db :=
  ⟨hlearnt, fun _ _ h => by cases hacts.symm.trans h⟩

theorem Process.Sound.of_acts {proc : Process} {request : Request} {user : Principal}
    (hlearnt : proc.Learnt db) (hacts : proc.actsAs = some (request, user))
    (haccount : Account db user) (hfor : request.For db user) : proc.Sound db where
  learnt := hlearnt
  acts request' user' h := by
    cases hacts.symm.trans h
    exact ⟨haccount, hfor⟩

theorem Process.Sound.keep {proc proc' : Process} (h : db.Evolves db') (hsound : proc.Sound db)
    (hlearnt : proc'.Learnt db') (hacts : proc'.actsAs = proc.actsAs) : proc'.Sound db' where
  learnt := hlearnt
  acts request user hacts' := (hsound.mono h).acts request user (hacts ▸ hacts')

theorem Next.sound {proc proc' : Process} {input : Input}
    (h : Next env db proc input proc' db') (hsound : proc.Sound db) : proc'.Sound db' := by
  have hevolves := h.evolves
  cases h with
  | refuses => exact .of_learnt trivial rfl
  | signUpChecks hcheck =>
    refine .of_learnt (fun hrole => ?_) rfl
    obtain ⟨id, -, htenant, -⟩ := checkTenant_ok hcheck hrole
    exact ⟨id, htenant⟩
  | signUpFinds hfree =>
    obtain ⟨htenant, -⟩ := signUpFree_ok hfree
    refine .of_learnt ⟨htenant, fun hrole => ?_⟩ rfl
    obtain ⟨id, hid⟩ := hsound.learnt hrole
    cases htenant.symm.trans hid
    rfl
  | signUpSaves hins =>
    refine .of_learnt ?_ rfl
    obtain ⟨hid, haccount⟩ :=
      account_of_find? ((Database.find?_insertUser hins _).trans (if_pos rfl))
    exact ⟨_, hid, haccount, ⟨rfl, hsound.learnt.1⟩, rfl⟩
  | signUpReloads hfind =>
    obtain ⟨user, rfl, ⟨u, hfind', rfl⟩, hfor, -⟩ := hsound.learnt
    cases hfind.symm.trans hfind'
    exact .of_acts trivial rfl (account_of_find? hfind).2 hfor
  | signInLocates hlocate => exact .of_learnt (signInTenant_ok hlocate).1 rfl
  | signInFinds hcredentials =>
    obtain ⟨hmem, hemail, htenant, -⟩ := credentials_ok hcredentials
    have hnames := hsound.learnt
    subst htenant
    exact .of_acts trivial rfl (account_of_find? (Table.find?_self hmem)).2 ⟨hemail.symm, hnames⟩
  | validates hvalid =>
    obtain ⟨-, -, hfind, -⟩ := refreshRow_ok.mp hvalid
    obtain ⟨hid, haccount⟩ := account_of_find? hfind
    exact .of_acts trivial rfl haccount hid.symm
  | refreshSigns => exact hsound.keep hevolves trivial rfl
  | stores => exact hsound.keep hevolves trivial rfl
  | admits hadmit =>
    obtain ⟨⟨row, hfind, -, rfl⟩, -⟩ := letIn_ok hadmit
    obtain ⟨hid, haccount⟩ := account_of_find? hfind
    exact .of_acts trivial rfl haccount hid.symm
  | signsOut => exact hsound.keep hevolves trivial rfl
  | findsUser hmay =>
    obtain ⟨row, uuid, -, hfind, rfl⟩ := mayDeactivate_ok hmay
    obtain ⟨rfl, -⟩ := account_of_find? hfind
    exact hsound.keep hevolves ⟨row, hfind⟩ rfl
  | findsNoTenant => exact hsound.keep hevolves trivial rfl
  | findsTenant hfind => exact hsound.keep hevolves ⟨_, Tenants.findOne_ok hfind⟩ rfl
  | reads => exact hsound.keep hevolves trivial rfl
  | deactivatesUser => exact hsound.keep hevolves trivial rfl
  | reloadsUser => exact hsound.keep hevolves trivial rfl
  | createsTenant => exact hsound.keep hevolves trivial rfl
  | deactivatesTenant => exact hsound.keep hevolves trivial rfl

def Sound (s : State) : Prop := ∀ p, (s.procs p).Sound s.db

theorem Step.sound {a : Action} (h : Step env s a t) (hsound : Sound s) : Sound t := by
  have hevolves := h.evolves
  intro q
  cases h.moves q with
  | kept hsame =>
    rw [hsame]
    exact (hsound q).mono hevolves
  | next _ hnext => exact hnext.sound (hsound q)
  | hands hp hhanded =>
    have hadmitted := hsound q
    rw [hp] at hadmitted
    rw [hhanded]
    exact hadmitted.keep hevolves trivial rfl
  | refused hrefused =>
    rw [hrefused]
    exact .of_learnt trivial rfl

theorem sound_start (db : Database) : Sound (.start db) := fun _ => .of_learnt trivial rfl

theorem sound_preserves : (machine env).Preserves Sound :=
  fun _ _ _ h hs => (step_some hs).sound h

end SupportApi.Server
