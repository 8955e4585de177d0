import SupportApi.Auth.Rotation

namespace SupportApi.Auth

open Lib

variable {env : Env} {db db' : Database} {dto : SignUpDto} {id : Uuid} {passwordSalt tokenSalt : String}
  {now : Time} {reply : SafeUser × TokenPair}

/-- A text that is no hash matches no password. -/
def Bcrypt.Refuses (b : Bcrypt) : Prop :=
  ∀ p s, (∀ salt q, s ≠ b.hash salt q) → b.compare p s = false

structure Registered (env : Env) (db : Database) (dto : SignUpDto) (passwordSalt : String)
    (id : Uuid) (tenantId : Option Uuid) (row : UserRow) : Prop where
  found : db.users.find? id = some row
  password : row.password = hashPassword env passwordSalt dto.password
  active : row.isActive = true
  email : row.email = dto.email
  tenant : row.tenantId = tenantId
  alone : ∀ u ∈ db.users.rows, u.email = dto.email ∧ u.tenantId = tenantId → u = row

theorem signUpLookup_ok {tenantId : Option Uuid} (h : signUpLookup db dto = .ok tenantId) :
    dto.tenant = .ok tenantId ∧ findUserByEmailAndTenant db dto.email tenantId = none := by
  unfold signUpLookup at h
  split at h
  · cases h
  · split at h
    · cases h
    · split at h <;> cases h
      exact ⟨‹_›, ‹_›⟩

theorem mem_storeRefreshToken {x : Uuid} {token : Jwt} {salt : String} {u : UserRow}
    (hu : u ∈ (storeRefreshToken env db x token salt now).users.rows) :
    (u ∈ db.users.rows ∧ u.key ≠ x) ∨ ∃ u', db.users.find? x = some u' ∧
      { u' with refreshToken := some (env.bcrypt.hash salt (tokenBytes env token)),
                updatedAt := now } = u := by
  have hmodify : u ∈ (db.users.modify x (fun u : UserRow => { u with
      refreshToken := some (env.bcrypt.hash salt (tokenBytes env token)), updatedAt := now })
      fun _ => rfl).rows := hu
  exact Table.mem_modify.mp hmodify

theorem signUp_registered
    (h : signUp env db dto id passwordSalt tokenSalt now = .ok (reply, db')) :
    ∃ tenantId row, dto.tenant = .ok tenantId ∧ db'.tenants = db.tenants ∧
      Registered env db' dto passwordSalt id tenantId row := by
  unfold signUp at h
  split at h
  · cases h
  · rename_i tenantId hlookup
    obtain ⟨htenant, hnone⟩ := signUpLookup_ok hlookup
    split at h
    · cases h
    · rename_i db₁ hins
      obtain ⟨⟨hnew, husers⟩, htenants, -⟩ := Database.insertUser_some hins
      let user := newUser env dto tenantId id passwordSalt now
      have hfind : db₁.users.find? id = some user :=
        (Database.find?_insertUser hins id).trans (if_pos rfl)
      rw [hfind] at h
      cases h
      have halone : ∀ u ∈ db₁.users.rows, u.email = dto.email ∧ u.tenantId = tenantId → u = user := by
        intro u hu hsame
        rw [husers, Table.rows_insert, List.mem_append, List.mem_singleton] at hu
        rcases hu with hu | hu
        · exact absurd hsame (findUserByEmailAndTenant_none.mp hnone u hu)
        · exact hu
      refine ⟨tenantId, _, htenant, htenants, ⟨Database.find?_updateUser_self _ _ _ |>.trans
        (congrArg _ hfind), rfl, rfl, rfl, rfl, ?_⟩⟩
      intro u hu hsame
      rcases mem_storeRefreshToken hu with ⟨hu, hne⟩ | ⟨u', hu', rfl⟩
      · exact absurd (congrArg UserRow.key (halone u hu hsame)) hne
      · cases hfind.symm.trans hu'
        rfl

theorem Registered.first {tenantId : Option Uuid} {row : UserRow}
    (h : Registered env db dto passwordSalt id tenantId row) (order : AnyOrder UserRow) :
    (order.sort (selectUsers db dto.email tenantId)).head? = some row :=
  first_of_alone order (Table.mem_of_find? h.found) ⟨h.email, h.tenant⟩ h.alone

/-- The slug that goes with the tenant of a sign-up, or none without a tenant. -/
def SignUpDto.SignsInBy (db : Database) (dto : SignUpDto) : Option String → Prop
  | none => dto.tenant = .ok none
  | some slug => ∃ tenant, dto.tenant = .ok (some tenant.id) ∧
      db.tenants.find? tenant.id = some tenant ∧ tenant.isActive = true ∧ tenant.slug = slug ∧
      slug ≠ ""

theorem signInTenant_eq {slug : Option String} {tenantId : Option Uuid}
    (hslug : dto.SignsInBy db slug) (htenant : dto.tenant = .ok tenantId) (email password : String) :
    signInTenant db ⟨email, password, slug⟩ = .ok tenantId := by
  cases slug with
  | none =>
    cases htenant.symm.trans hslug
    rfl
  | some slug =>
    obtain ⟨tenant, htenant', hfind, hactive, rfl, hne⟩ := hslug
    cases htenant.symm.trans htenant'
    have hmem : tenant ∈ db.tenants.select fun t => t.slug = tenant.slug && t.isActive :=
      List.mem_filter.mpr ⟨Table.mem_of_find? hfind, by simp [hactive]⟩
    have honly : ∀ t ∈ db.tenants.select (fun t => t.slug = tenant.slug && t.isActive),
        t = tenant := by
      intro t ht
      obtain ⟨ht, hmatch⟩ := List.mem_filter.mp ht
      rw [Bool.and_eq_true, decide_eq_true_eq] at hmatch
      exact db.tenants_slug t ht tenant (Table.mem_of_find? hfind) hmatch.1
    have hkept : (some tenant.slug).filter (fun s => s ≠ "") = some tenant.slug :=
      Option.filter_eq_some_iff.mpr ⟨rfl, by simpa using hne⟩
    simp only [signInTenant, hkept]
    cases hlist : db.tenants.select (fun t => t.slug = tenant.slug && t.isActive) with
    | nil =>
      rw [hlist] at hmem
      cases hmem
    | cons t ts =>
      rw [honly t (hlist ▸ List.mem_cons_self)]
      rfl

theorem Registered.signIn_iff {tenantId : Option Uuid} {row : UserRow}
    (h : Registered env db dto passwordSalt id tenantId row) {slug : Option String}
    (hslug : dto.SignsInBy db slug) (htenant : dto.tenant = .ok tenantId)
    (order : AnyOrder UserRow) (p salt : String) (now : Time) :
    (∃ reply, signIn env order db ⟨dto.email, p, slug⟩ salt now = .ok reply) ↔
      env.bcrypt.compare (utf8 p.toList) row.password = true := by
  have huser : (order.sort (selectUsers db dto.email tenantId)).head?.filter (fun u => u.isActive) =
      some row := Option.filter_eq_some_iff.mpr ⟨h.first order, h.active⟩
  have hauthenticate : authenticate env order db ⟨dto.email, p, slug⟩ =
      if env.bcrypt.compare (utf8 p.toList) row.password then .ok row
      else .error (.unauthorized "Invalid credentials") := by
    simp only [authenticate, signInTenant_eq hslug htenant, huser]
  rw [signIn, hauthenticate]
  by_cases hcompare : env.bcrypt.compare (utf8 p.toList) row.password = true
  · rw [if_pos hcompare]
    exact iff_of_true ⟨_, rfl⟩ hcompare
  · rw [if_neg hcompare]
    refine iff_of_false ?_ hcompare
    rintro ⟨_, hreply⟩
    cases hreply

/-- The stored password is a hash and not the plain text, and it lets in those passwords that agree
with the given one in what bcrypt reads. -/
def RoundTrips (env : Env) (db : Database) (dto : SignUpDto) (id : Uuid) (slug : Option String) :
    Prop :=
  ∃ row, db.users.find? id = some row ∧
    (∃ salt, row.password = env.bcrypt.hash salt (utf8 dto.password.toList)) ∧
    row.password ≠ dto.password ∧
    ∀ order p salt now,
      (∃ reply, signIn env order db ⟨dto.email, p, slug⟩ salt now = .ok reply) ↔
      (utf8 p.toList).take 72 = (utf8 dto.password.toList).take 72

theorem SignUpDto.SignsInBy.after {slug : Option String} (h : dto.SignsInBy db slug)
    (htenants : db'.tenants = db.tenants) : dto.SignsInBy db' slug := by
  unfold SignUpDto.SignsInBy
  rw [htenants]
  exact h

theorem Registered.plain {tenantId : Option Uuid} {row : UserRow}
    (h : Registered env db dto passwordSalt id tenantId row) (hdollar : dollar2 dto.password = true) :
    row.password = dto.password := by
  rw [h.password, hashPassword, hdollar]
  simp

/-- It does so if and only if the password does not start like a hash. -/
theorem roundTrips_iff (hb : env.bcrypt.Truncates) (hpassword : 8 ≤ dto.password.length)
    (h : signUp env db dto id passwordSalt tokenSalt now = .ok (reply, db')) {slug : Option String}
    (hslug : dto.SignsInBy db slug) :
    RoundTrips env db' dto id slug ↔ dollar2 dto.password = false := by
  obtain ⟨tenantId, row, htenant, htenants, hrow⟩ := signUp_registered h
  have hne : dto.password ≠ "" := by
    rintro heq
    rw [heq] at hpassword
    exact absurd hpassword (by decide)
  constructor
  · rintro ⟨row', hfind, -, hplain, -⟩
    cases hrow.found.symm.trans hfind
    cases hdollar : dollar2 dto.password with
    | false => rfl
    | true => exact absurd (hrow.plain hdollar) hplain
  · intro hdollar
    have hhash : row.password = env.bcrypt.hash passwordSalt (utf8 dto.password.toList) :=
      hrow.password.trans (if_pos ⟨hne, hdollar⟩)
    refine ⟨row, hrow.found, ⟨_, hhash⟩, ?_, fun order p salt now => ?_⟩
    · intro heq
      have hmarked := hb.marked passwordSalt (utf8 dto.password.toList)
      rw [← hhash, heq, hdollar] at hmarked
      cases hmarked
    · rw [hrow.signIn_iff (hslug.after htenants) htenant, hhash, hb.compare_hash]

namespace Sample

theorem bcrypt_refuses : bcrypt.Refuses := by
  intro p s h
  exact decide_eq_false (h "" p)

def dollars : SignUpDto := { signUp with password := "$2SecurePass123!" }

end Sample

theorem roundTrips_iff_secure : ∃ reply db',
    Auth.signUp Sample.environment .empty Sample.signUp Sample.user "" "" 0 = .ok (reply, db') ∧
      RoundTrips Sample.environment db' Sample.signUp Sample.user none := by
  refine ⟨_, _, rfl, ?_⟩
  exact (@roundTrips_iff Sample.environment .empty _ Sample.signUp Sample.user "" "" 0 _
    Sample.bcrypt_truncates (by decide) rfl none rfl).mpr rfl

theorem dollar_password_stored : ¬∀ (env : Env) (db db' : Database) (dto : SignUpDto) (id : Uuid)
    (passwordSalt tokenSalt : String) (now : Time) (reply : SafeUser × TokenPair)
    (slug : Option String), env.bcrypt.Truncates → env.bcrypt.Refuses → 8 ≤ dto.password.length →
    signUp env db dto id passwordSalt tokenSalt now = .ok (reply, db') → dto.SignsInBy db slug →
    RoundTrips env db' dto id slug := by
  intro h
  obtain ⟨row, hfind, -, hplain, -⟩ := h Sample.environment .empty _ Sample.dollars Sample.user "" "" 0
    _ none Sample.bcrypt_truncates Sample.bcrypt_refuses (by decide) rfl rfl
  cases hfind
  exact hplain rfl

end SupportApi.Auth
