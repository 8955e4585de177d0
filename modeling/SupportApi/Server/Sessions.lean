import SupportApi.Server.Registration
import SupportApi.Server.TenantLockout

namespace SupportApi.Server

open Lib Auth Conversations

variable {env : Auth.Env} {db db' : Database}

def logins (db : Database) : List (Principal × String) :=
  db.users.rows.map fun u => (.of u.toUser, u.password)

theorem logins_updateUser (id : Uuid) (f : UserRow → UserRow)
    (hf : ∀ u, (f u).id = u.id ∧ (f u).tenantId = u.tenantId ∧ (f u).email = u.email)
    (hkept : ∀ u, (f u).role = u.role ∧ (f u).password = u.password) :
    logins (db.updateUser id f hf) = logins db := by
  have hsame : ∀ u, (Principal.of (f u).toUser, (f u).password) =
      (Principal.of u.toUser, u.password) := by
    intro u
    simp only [Principal.of, hf u, hkept u]
  simp only [logins, Database.updateUser, Table.rows_modify, List.map_map]
  apply List.map_congr_left
  intro u _
  simp only [Function.comp_apply]
  split
  · exact hsame u
  · rfl

theorem Next.logins {proc proc' : Process} {input : Input} (h : Next env db proc input proc' db') :
    logins db ⊆ logins db' := by
  have hof : ∀ {db'}, Server.logins db' = Server.logins db →
      Server.logins db ⊆ Server.logins db' := by
    intro db' heq
    exact heq ▸ List.Subset.refl _
  cases h with
  | signUpSaves hins =>
    obtain ⟨⟨hnew, husers⟩, -⟩ := Database.insertUser_some hins
    simp only [Server.logins, husers, Table.rows_insert, List.map_append]
    exact List.subset_append_left _ _
  | stores => exact hof (logins_updateUser _ _ _ fun _ => ⟨rfl, rfl⟩)
  | signsOut => exact hof (logins_updateUser _ _ _ fun _ => ⟨rfl, rfl⟩)
  | deactivatesUser => exact hof (logins_updateUser _ _ _ fun _ => ⟨rfl, rfl⟩)
  | createsTenant hins =>
    apply hof
    rw [Server.logins, (Database.insertTenant_some hins).2.1]
    rfl
  | _ => exact List.Subset.refl _

variable {s t : State}

theorem Step.logins {a : Action} (h : Step env s a t) : logins s.db ⊆ logins t.db := by
  have hof : ∀ {c : Conversations.State}, c.db.users = s.conversations.db.users →
      Server.logins s.db ⊆ Server.logins c.db := by
    intro c heq
    have hlogins : Server.logins c.db = Server.logins s.db := by
      rw [Server.logins, Server.logins, State.db, heq]
    exact hlogins ▸ List.Subset.refl _
  cases h with
  | request hnext => exact hnext.logins
  | opens _ _ hstep => exact hof hstep.users
  | openRefused => exact List.Subset.refl _
  | conversation _ hstep => exact hof hstep.users

theorem run_logins {as : List Action} (h : (machine env).run s as = some t) :
    logins s.db ⊆ logins t.db :=
  Machine.run_rel (I := fun _ => True) (R := fun s t => logins s.db ⊆ logins t.db)
    (fun _ _ _ _ _ => trivial) (fun _ => List.Subset.refl _) List.Subset.trans
    (fun _ _ _ _ hs => (step_some hs).logins) trivial h

theorem row_kept (h : logins db ⊆ logins db') {u : UserRow} (hu : u ∈ db.users.rows) :
    ∃ u' ∈ db'.users.rows, Principal.of u'.toUser = Principal.of u.toUser ∧
      u'.password = u.password := by
  have hlogin : (Principal.of u.toUser, u.password) ∈ logins db :=
    List.mem_map_of_mem (f := fun u => (Principal.of u.toUser, u.password)) hu
  obtain ⟨u', hu', hsame⟩ := List.mem_map.mp (h hlogin)
  exact ⟨u', hu', congrArg Prod.fst hsame, congrArg Prod.snd hsame⟩

def ActiveUser (db : Database) (id : Uuid) : Prop :=
  ∃ u, db.users.find? id = some u ∧ u.isActive = true

def ActiveTenant (db : Database) (id : Uuid) : Prop :=
  ∃ t, db.tenants.find? id = some t ∧ t.isActive = true

theorem signInTenant_iff {dto : SignInDto} {tenantId : Option Uuid} (h : dto.Names db tenantId) :
    signInTenant db dto = .ok tenantId ↔ ∀ id, tenantId = some id → ActiveTenant db id := by
  constructor
  · rintro hok id rfl
    obtain ⟨tenant, hfind, hslug⟩ := h
    exact ⟨tenant, hfind, (signInTenant_ok hok).2 id tenant rfl hfind⟩
  · intro hactive
    cases tenantId with
    | none =>
      have hslug : dto.tenantSlug.filter (fun s => s ≠ "") = none := h
      simp only [signInTenant, hslug]
    | some id =>
      obtain ⟨tenant, hfind, hslug⟩ := h
      obtain ⟨tenant', hfind', htrue⟩ := hactive id rfl
      cases hfind.symm.trans hfind'
      have hmem : tenant ∈ db.tenants.select fun t => t.slug = tenant.slug && t.isActive := by
        simp [Table.select, Table.mem_of_find? hfind, htrue]
      obtain ⟨first, hfirst⟩ := Option.isSome_iff_exists.mp
        (List.isSome_head?.mpr (List.ne_nil_of_mem hmem))
      obtain ⟨hrow, hmatch⟩ := List.mem_filter.mp (List.mem_of_head? hfirst)
      rw [Bool.and_eq_true, decide_eq_true_eq] at hmatch
      have hsame := db.tenants_slug first hrow tenant (Table.mem_of_find? hfind) hmatch.1
      have hid : first.id = id := hsame ▸ Table.key_of_find? hfind
      simp only [signInTenant, hslug, hfirst, hid]

theorem credentials_iff {order : AnyOrder UserRow} {dto : SignInDto} {tenantId : Option Uuid}
    {row : UserRow} :
    credentials env order db dto tenantId = .ok row ↔
      (order.sort (selectUsers db dto.email tenantId)).head? = some row ∧ row.isActive = true ∧
        env.bcrypt.compare (utf8 dto.password.toList) row.password = true := by
  unfold credentials
  constructor
  · intro h
    split at h
    · cases h
    · rename_i hfound
      split at h <;> cases h
      obtain ⟨hfind, hactive⟩ := Option.filter_eq_some_iff.mp hfound
      exact ⟨hfind, hactive, ‹_›⟩
  · rintro ⟨hfind, hactive, hcompare⟩
    simp [hfind, Option.filter, hactive, hcompare]

theorem authenticate_iff {order : AnyOrder UserRow} {dto : SignInDto} {row : UserRow} :
    authenticate env order db dto = .ok row ↔ ∃ tenantId, signInTenant db dto = .ok tenantId ∧
      credentials env order db dto tenantId = .ok row := by
  rw [authenticate_eq]
  cases signInTenant db dto with
  | error e => simp
  | ok tenantId => simp

theorem activeUser_iff {row : UserRow} (h : row ∈ db.users.rows) :
    ActiveUser db row.id ↔ row.isActive = true := by
  have hself : db.users.find? row.id = some row := Table.find?_self h
  constructor
  · rintro ⟨u, hfind, hactive⟩
    cases hself.symm.trans hfind
    exact hactive
  · intro hactive
    exact ⟨row, hself, hactive⟩

/-- No second account without a tenant has the address of this one. -/
def Alone (db : Database) (row : UserRow) : Prop :=
  row.tenantId = none → ∀ u ∈ db.users.rows, u.email = row.email → u.tenantId = none →
    u.id = row.id

/-- Where the unique index does not see to it, the address must be nobody else's. -/
theorem Alone.eq {row u : UserRow} (h : Alone db row) (hrow : row ∈ db.users.rows)
    (hu : u ∈ db.users.rows) (hemail : u.email = row.email) (htenant : u.tenantId = row.tenantId) :
    u = row := by
  cases hnone : row.tenantId with
  | none =>
    have hid : u.id = row.id := h hnone u hu hemail (htenant.trans hnone)
    have hself : db.users.find? u.id = some u := Table.find?_self hu
    exact Option.some.inj (hself.symm.trans (hid ▸ Table.find?_self hrow))
  | some id =>
    have hsome : u.tenantId.isSome = true := by rw [htenant, hnone, Option.isSome_some]
    exact db.users_tenant_email u hu row hrow hsome htenant hemail

/-- Once accepted, the credentials of an address that is nobody else's are accepted again exactly
as long as the account and its tenant are active, and for the same account. -/
theorem signIn_persists {as : List Action} {order : AnyOrder UserRow} {dto : SignInDto}
    {row : UserRow} (hrow : authenticate env order s.db dto = .ok row)
    (h : (machine env).run s as = some t) (halone : Alone t.db row) (order' : AnyOrder UserRow) :
    ((∃ row', authenticate env order' t.db dto = .ok row') ↔
        ActiveUser t.db row.id ∧ ∀ id, row.tenantId = some id → ActiveTenant t.db id) ∧
      ∀ row', authenticate env order' t.db dto = .ok row' →
        Principal.of row'.toUser = .of row.toUser := by
  obtain ⟨tenantId, hlocate, hcredentials⟩ := authenticate_iff.mp hrow
  obtain ⟨hfind, -, hcompare⟩ := credentials_iff.mp hcredentials
  obtain ⟨hfound, hemail, htenant⟩ := first_selectUsers hfind
  obtain ⟨later, hmem, hsame, hpassword⟩ := row_kept (run_logins h) hfound
  have hid : later.id = row.id := congrArg Principal.id hsame
  have hemail' : later.email = row.email := congrArg Principal.email hsame
  have htenant' : later.tenantId = row.tenantId := congrArg Principal.tenantId hsame
  have halone' : Alone t.db later := by
    rw [Alone, hid, hemail', htenant']
    exact halone
  have hfirst : (order'.sort (selectUsers t.db dto.email tenantId)).head? = some later := by
    refine first_of_alone order' hmem ⟨hemail'.trans hemail, htenant'.trans htenant⟩ ?_
    rintro v hv ⟨hvemail, hvtenant⟩
    exact halone'.eq hmem hv (hvemail.trans (hemail'.trans hemail).symm)
      (hvtenant.trans (htenant'.trans htenant).symm)
  have hnames : dto.Names t.db tenantId := names_mono (run_evolves h) (signInTenant_ok hlocate).1
  have hfor : ∀ row', authenticate env order' t.db dto = .ok row' → row' = later := by
    intro row' hrow'
    obtain ⟨tenantId', hlocate', hcredentials'⟩ := authenticate_iff.mp hrow'
    obtain rfl := names_unique (signInTenant_ok hlocate').1 hnames
    exact Option.some.inj ((credentials_iff.mp hcredentials').1.symm.trans hfirst)
  refine ⟨⟨?_, ?_⟩, fun row' hrow' => hfor row' hrow' ▸ hsame⟩
  · rintro ⟨row', hrow'⟩
    obtain rfl := hfor row' hrow'
    obtain ⟨tenantId', hlocate', hcredentials'⟩ := authenticate_iff.mp hrow'
    obtain rfl := names_unique (signInTenant_ok hlocate').1 hnames
    refine ⟨hid ▸ (activeUser_iff hmem).mpr (credentials_iff.mp hcredentials').2.1, ?_⟩
    rw [htenant]
    exact (signInTenant_iff hnames).mp hlocate'
  · rintro ⟨huser, hactive⟩
    rw [htenant] at hactive
    refine ⟨later, authenticate_iff.mpr ⟨tenantId, (signInTenant_iff hnames).mpr hactive, ?_⟩⟩
    exact credentials_iff.mpr ⟨hfirst, (activeUser_iff hmem).mp (hid ▸ huser), hpassword ▸ hcompare⟩

theorem signIn_persists_following : ∃ s t row,
    (machine Auth.Sample.environment).run (.start .empty) (Sample.following.take 4) = some s ∧
    (machine Auth.Sample.environment).run s (Sample.following.drop 4) = some t ∧
    authenticate Auth.Sample.environment .asStored s.db
      ⟨"lee@mail.test", "SecurePass123!", none⟩ = .ok row ∧
    ∀ order, ∃ row', authenticate Auth.Sample.environment order t.db
      ⟨"lee@mail.test", "SecurePass123!", none⟩ = .ok row' ∧ row'.id = row.id := by
  have hfollowed : ∃ s t row, (machine Auth.Sample.environment).run (.start .empty)
      (Sample.following.take 4) = some s ∧
      (machine Auth.Sample.environment).run s (Sample.following.drop 4) = some t ∧
      authenticate Auth.Sample.environment .asStored s.db
        ⟨"lee@mail.test", "SecurePass123!", none⟩ = .ok row ∧
      (ActiveUser t.db row.id ∧ row.tenantId = none) ∧ t.db.users.rows.map UserRow.key = [row.id] :=
    ⟨_, _, _, rfl, rfl, rfl, ⟨⟨_, rfl, rfl⟩, rfl⟩, rfl⟩
  obtain ⟨s, t, row, hs, ht, hrow, ⟨hactive, htenant⟩, honly⟩ := hfollowed
  have halone : Alone t.db row := by
    intro _ u hu _ _
    have hkey : u.id ∈ t.db.users.rows.map UserRow.key := List.mem_map_of_mem hu
    rw [honly] at hkey
    exact List.mem_singleton.mp hkey
  refine ⟨s, t, row, hs, ht, hrow, fun order => ?_⟩
  obtain ⟨hiff, hsame⟩ := signIn_persists hrow ht halone order
  obtain ⟨row', hrow'⟩ := hiff.mpr ⟨hactive, by simp [htenant]⟩
  exact ⟨row', hrow', congrArg Principal.id (hsame row' hrow')⟩

/-- The tenant in the tokens of a request, which a refresh does not know. -/
def Request.tenant (request : Request) (user : Principal) : Option (Option Uuid) :=
  match request with
  | .refresh _ => none
  | _ => some user.tenantId

def Request.tokens (env : Auth.Env) (request : Request) (user : Principal) (now : Time) :
    TokenPair :=
  generateTokens env user.id user.email user.role (request.tenant user) now

def Process.Signed (env : Auth.Env) : Process → Prop
  | .issuing request user _ tokens => ∃ signedAt, tokens = request.tokens env user signedAt
  | .returned request (.issued user _ tokens) =>
    ∃ signedAt, tokens = request.tokens env user signedAt
  | _ => True

theorem Next.signed {proc proc' : Process} {input : Input} (h : Next env db proc input proc' db')
    (hsigned : proc.Signed env) : proc'.Signed env := by
  cases h with
  | signUpReloads => exact ⟨_, rfl⟩
  | signInFinds => exact ⟨_, rfl⟩
  | refreshSigns => exact ⟨_, rfl⟩
  | stores => exact hsigned
  | _ => trivial

theorem Step.signed {a : Action} (h : Step env s a t) (hsigned : ∀ p, (s.procs p).Signed env) :
    ∀ p, (t.procs p).Signed env := by
  intro q
  cases h.moves q with
  | kept hsame => exact hsame ▸ hsigned q
  | next _ hnext => exact hnext.signed (hsigned q)
  | hands _ hhanded =>
    rw [hhanded]
    trivial
  | refused hrefused =>
    rw [hrefused]
    trivial

theorem run_signed {as : List Action} (h : (machine env).run (.start db) as = some s) (p : Pid) :
    (s.procs p).Signed env :=
  Machine.run_preserves (I := fun s => ∀ p, (s.procs p).Signed env)
    (fun _ _ _ hsigned hs => (step_some hs).signed hsigned) (fun _ => trivial) h p

def Opens (route : RouteMetadata) (role : UserRole) : Prop :=
  ∀ user : User, user.role = role → route.canActivate (some user) = .ok ()

theorem opens_iff {route : RouteMetadata} (user : User) :
    Opens route user.role ↔ route.canActivate (some user) = .ok () := by
  constructor
  · intro h
    exact h user rfl
  · intro h user' hrole
    rw [RouteMetadata.canActivate] at h ⊢
    simp only [hrole]
    exact h

theorem letIn_iff {token : Jwt} {command : Command} {now : Time} {user : User} :
    letIn env db token command now = .ok user ↔
      token.verify env.config.accessSecret now = true ∧
        (∃ row, db.users.find? token.payload.sub = some row ∧ row.isActive = true ∧
          user = row.toUser) ∧ Opens command.route user.role := by
  rw [opens_iff]
  constructor
  · intro h
    obtain ⟨hrow, hcan⟩ := letIn_ok h
    refine ⟨?_, hrow, hcan⟩
    by_contra hverify
    rw [Bool.not_eq_true] at hverify
    simp only [letIn, validateAccess, hverify, if_true, reduceCtorEq] at h
  · rintro ⟨hverify, ⟨row, hfind, hactive, rfl⟩, hcan⟩
    simp [letIn, validateAccess, hverify, hfind, hactive, Option.filter, hcan]

/-- From its issue on, whatever else happens, an access token opens the routes of the role that
its account had then, until it expires or the account is switched off. -/
theorem access_token_persists {as bs : List Action} {p : Pid} {request : Request}
    {user : Principal} {shown : Option SafeUser} {tokens : TokenPair}
    (h : (machine env).run (.start db) as = some s)
    (hp : s.procs p = .returned request (.issued user shown tokens))
    (hbs : (machine env).run s bs = some t) :
    request.For s.db user ∧ ∃ signedAt, tokens = request.tokens env user signedAt ∧
      ∀ command now,
        ((∃ found, letIn env t.db tokens.accessToken command now = .ok found) ↔
          seconds now < seconds signedAt + env.config.accessExpiresIn ∧
            ActiveUser t.db user.id ∧ Opens command.route user.role) ∧
        ∀ found, letIn env t.db tokens.accessToken command now = .ok found → .of found = user := by
  have hsound : (Process.returned request (.issued user shown tokens)).Sound s.db := by
    rw [← hp]
    exact Machine.run_preserves sound_preserves (sound_start db) h p
  have hsigned : (Process.returned request (.issued user shown tokens)).Signed env := by
    rw [← hp]
    exact run_signed h p
  obtain ⟨haccount, hfor⟩ := hsound.acts request user rfl
  obtain ⟨signedAt, rfl⟩ := hsigned
  obtain ⟨row, hfind, hrow⟩ := haccount.mono (run_evolves hbs)
  have hrole : row.role = user.role := congrArg Principal.role hrow
  have hverify : ∀ now,
      (request.tokens env user signedAt).accessToken.verify env.config.accessSecret now = true ↔
        seconds now < seconds signedAt + env.config.accessExpiresIn := by
    intro now
    simp only [Request.tokens, generateTokens, signAsync, Jwt.verify, Jwt.expired, decide_true,
      Bool.true_and, Bool.not_eq_true']
    exact decide_eq_false_iff_not.trans Int.not_le
  have hfound : ∀ command now found,
      letIn env t.db (request.tokens env user signedAt).accessToken command now = .ok found →
        found = row.toUser := by
    intro command now found hfound
    obtain ⟨-, ⟨row', hfind', -, rfl⟩, -⟩ := letIn_iff.mp hfound
    cases hfind.symm.trans hfind'
    rfl
  refine ⟨hfor, signedAt, rfl, fun command now => ⟨⟨?_, ?_⟩, ?_⟩⟩
  · rintro ⟨found, hletIn⟩
    obtain rfl := hfound command now found hletIn
    obtain ⟨hvalid, ⟨row', hfind', hactive, -⟩, hopens⟩ := letIn_iff.mp hletIn
    exact ⟨(hverify now).mp hvalid, ⟨row', hfind', hactive⟩, hrole ▸ hopens⟩
  · rintro ⟨hunexpired, ⟨row', hfind', hactive⟩, hopens⟩
    cases hfind.symm.trans hfind'
    exact ⟨row.toUser, letIn_iff.mpr ⟨(hverify now).mpr hunexpired, ⟨row, hfind, hactive, rfl⟩,
      hrole.symm ▸ hopens⟩⟩
  · intro found hletIn
    rw [hfound command now found hletIn]
    exact hrow

theorem access_token_persists_prolonged : ∃ s t tokens,
    (machine Sample.environment).run (.start Sample.signedIn) Sample.prolonging = some s ∧
    s.procs 1 = .returned (.refresh (Sample.tokens Sample.agent 0).refreshToken)
      (.issued (.of Sample.agent.toUser) none tokens) ∧
    (machine Sample.environment).run s
      (Sample.closing "00000000-0000-0000-0000-000000000008" ++ [Sample.saving]) = some t ∧
    ∃ found, letIn Sample.environment t.db tokens.accessToken
      (.claim Conversations.Sample.conversation) 6000 = .ok found := by
  refine ⟨_, _, _, rfl, rfl, rfl, ?_⟩
  obtain ⟨-, signedAt, htokens, hopens⟩ := @access_token_persists Sample.environment
    Sample.signedIn _ _ Sample.prolonging
    (Sample.closing "00000000-0000-0000-0000-000000000008" ++ [Sample.saving]) 1 _ _ _ _ rfl rfl rfl
  refine ((hopens (.claim Conversations.Sample.conversation) 6000).1).mpr ⟨?_, ⟨_, rfl, rfl⟩,
    (opens_iff Sample.agent.toUser).mpr rfl⟩
  have hexp : (906 : Int) = seconds signedAt + 900 :=
    congrArg (fun tokens => tokens.accessToken.payload.exp) htokens
  change (6 : Int) < seconds signedAt + 900
  omega

end SupportApi.Server
