import SupportApi.Auth.RoundTrip
import SupportApi.Conversations.Requests
import SupportApi.Tenants.Service

namespace SupportApi.Bodies

open Lib

/-- An optional field.  `IsOptional` passes over `null` as it does over a missing field. -/
inductive Optional (α : Type)
  | undefined
  | null
  | given (a : α)
  deriving DecidableEq

namespace Optional

variable {α : Type}

/-- `value ?? null`, and what a column without `NOT NULL` and default holds. -/
def nullable : Optional α → Option α
  | .undefined | .null => none
  | .given a => some a

/-- The value of a `NOT NULL` column: the `INSERT` writes `DEFAULT` for a missing field and
`NULL` for `null`. -/
def notNull (default : α) : Optional α → Option α
  | .undefined => some default
  | .null => none
  | .given a => some a

@[simp] theorem all_nullable {value : Optional α} {p : α → Bool} :
    value.nullable.all p = true ↔ ∀ a, value = .given a → p a = true := by
  cases value <;> simp [nullable]

theorem notNull_eq_none {value : Optional α} {default : α} :
    value.notNull default = none ↔ value = .null := by
  cases value <;> simp [notNull]

theorem notNull_of_ne {value : Optional α} (h : value ≠ .null) (default : α) :
    value.notNull default = some (value.nullable.getD default) := by
  cases value with
  | undefined => rfl
  | null => exact absurd rfl h
  | given a => rfl

end Optional

structure CreateConversationDto where
  subject : String
  description : Optional String
  customerEmail : String
  customerName : String
  priority : Optional ConversationPriority
  deriving DecidableEq

structure SignUpDto where
  firstName : String
  lastName : String
  email : String
  password : String
  role : Optional UserRole
  tenantId : Optional String
  deriving DecidableEq

structure CreateTenantDto where
  name : String
  slug : String
  domain : Optional String
  deriving DecidableEq

def isNotEmpty (s : String) : Bool := s ≠ ""

/-- The checks of class-validator on texts; `IsString` and `IsEnum` let through the values of a
field's own type. -/
structure Validator where
  isEmail : String → Bool
  minLength : Nat → String → Bool
  length : Nat → Nat → String → Bool

/-- A surrogate pair counts as one, a variation selector not at all. -/
def counted (s : String) : Nat :=
  (s.toList.filter fun c => c ≠ Char.ofNat 0xFE0E && c ≠ Char.ofNat 0xFE0F).length

/-- What the documentation of the checks says, as far as it matters to the columns. -/
structure Validator.Documented (v : Validator) : Prop where
  isEmail : ∀ s, v.isEmail s = true → s.toList.getLast? ≠ some ' '
  minLength : ∀ n s, v.minLength n s = true ↔ n ≤ counted s
  length : ∀ lo hi s, v.length lo hi s = true ↔ lo ≤ counted s ∧ counted s ≤ hi

section Valid

variable (v : Validator)

def CreateConversationDto.valid (dto : CreateConversationDto) : Bool :=
  isNotEmpty dto.subject && v.isEmail dto.customerEmail && isNotEmpty dto.customerName

def SignUpDto.valid (dto : SignUpDto) : Bool :=
  isNotEmpty dto.firstName && isNotEmpty dto.lastName && v.isEmail dto.email &&
    v.minLength 8 dto.password

def CreateTenantDto.valid (dto : CreateTenantDto) : Bool :=
  isNotEmpty dto.name && v.length 2 100 dto.name && isNotEmpty dto.slug && v.length 2 100 dto.slug

end Valid

/-- The entity that is saved, unless `NULL` goes to a column that cannot hold it. -/
def conversationEntity (dto : CreateConversationDto) (user : User) (id : Uuid) (now : Time) :
    Option Conversation := do
  let tenantId ← user.tenantId
  let priority ← dto.priority.notNull .medium
  return {
    id, tenantId, priority
    subject := dto.subject
    description := dto.description.nullable
    status := .opened
    assignedAgentId := none
    customerEmail := dto.customerEmail
    customerName := dto.customerName
    resolvedAt := none
    claimedAt := none
    createdAt := now
    updatedAt := now }

def createConversation (db : Database) (dto : CreateConversationDto) (user : User) (id : Uuid)
    (now : Time) : Except Exception (Conversation × Database) :=
  match conversationEntity dto user id now with
  | none => .error .queryFailed
  | some conv =>
    match db.insertConversation conv.stored with
    | none => .error .queryFailed
    | some db' => .ok (conv, db')

def conversationRow (dto : CreateConversationDto) (user : User) (id : Uuid) (now : Time) :
    Option Conversation :=
  (conversationEntity dto user id now).map Conversation.stored

def CreateConversationDto.toDto (dto : CreateConversationDto) :
    Conversations.CreateConversationDto where
  subject := dto.subject
  description := dto.description.nullable
  customerEmail := dto.customerEmail
  customerName := dto.customerName
  priority := dto.priority.nullable

/-- `signUp` reads `null` as it reads a missing field. -/
def SignUpDto.toDto (dto : SignUpDto) : Auth.SignUpDto where
  firstName := dto.firstName
  lastName := dto.lastName
  email := dto.email
  password := dto.password
  role := dto.role.nullable
  tenantId := dto.tenantId.nullable

def signUp (env : Auth.Env) (db : Database) (dto : SignUpDto) (id : Uuid)
    (passwordSalt tokenSalt : String) (now : Time) :
    Except Exception ((Auth.SafeUser × Auth.TokenPair) × Database) :=
  Auth.signUp env db dto.toDto id passwordSalt tokenSalt now

def CreateTenantDto.toDto (dto : CreateTenantDto) : Tenants.CreateTenantDto where
  name := dto.name
  slug := dto.slug
  domain := dto.domain.nullable

def createTenant (db : Database) (dto : CreateTenantDto) (id : Uuid) (now : Time) :
    Except Exception (Tenant × Database) :=
  Tenants.create db dto.toDto id now

theorem createConversation_eq {dto : CreateConversationDto} (h : dto.priority ≠ .null)
    (db : Database) (user : User) (id : Uuid) (now : Time) :
    createConversation db dto user id now = Conversations.create db dto.toDto user id now := by
  unfold createConversation Conversations.create conversationEntity
  rw [Optional.notNull_of_ne h]
  cases user.tenantId <;> rfl

/-- A row that is inserted, if its columns can hold it, meets the constraints of its table, and the
service ends without an error of the database. -/
structure Fits {ρ α : Type} (fits : ρ → Bool) (inserted : Option ρ → Prop)
    (result : Except Exception α) : Prop where
  row : ∀ row, inserted row → row.any fits = true
  ends : result ≠ .error .queryFailed

section Conversation

variable {db : Database} {dto : CreateConversationDto} {user : User} {id : Uuid} {now : Time}

def ConversationFits (db : Database) (dto : CreateConversationDto) (user : User) (id : Uuid)
    (now : Time) : Prop :=
  Fits Conversation.fits (fun row => row = conversationRow dto user id now)
    (createConversation db dto user id now)

structure CreateConversationDto.Small (dto : CreateConversationDto) (user : User) : Prop where
  tenantId : user.tenantId.isSome = true
  subject : Database.storable 500 dto.subject = true
  description : ∀ s, dto.description = .given s → Database.text s = true
  customerEmail : Database.storable 255 dto.customerEmail = true
  customerName : Database.storable 100 dto.customerName = true
  priority : dto.priority ≠ .null

theorem conversationRow_fits (hemail : dto.customerEmail.toList.getLast? ≠ some ' ') :
    (conversationRow dto user id now).any Conversation.fits = true ↔ dto.Small user := by
  unfold conversationRow conversationEntity
  constructor
  · intro h
    cases htenant : user.tenantId with
    | none => simp [htenant] at h
    | some tenantId =>
      cases hpriority : dto.priority.notNull .medium with
      | none => simp [htenant, hpriority] at h
      | some priority =>
        simp only [htenant, hpriority, Option.bind_eq_bind, Option.bind_some, Option.pure_def,
          Option.map_some, Option.any_some, Conversation.fits, Conversation.stored,
          Database.varchar_clip, Bool.and_eq_true, Optional.all_nullable] at h
        obtain ⟨⟨⟨hsubject, hdescription⟩, haddress⟩, hname⟩ := h
        rw [← Database.storable_eq_varchar hemail] at haddress
        refine ⟨htenant ▸ rfl, hsubject, hdescription, haddress, hname, ?_⟩
        rw [ne_eq, ← Optional.notNull_eq_none, hpriority]
        exact Option.some_ne_none _
  · intro h
    obtain ⟨tenantId, htenant⟩ := Option.isSome_iff_exists.mp h.tenantId
    rw [htenant, Optional.notNull_of_ne h.priority]
    simp only [Option.bind_eq_bind, Option.bind_some, Option.pure_def, Option.map_some,
      Option.any_some, Conversation.fits, Conversation.stored, Database.varchar_clip,
      Bool.and_eq_true, Optional.all_nullable, ← Database.storable_eq_varchar hemail]
    exact ⟨⟨⟨h.subject, h.description⟩, h.customerEmail⟩, h.customerName⟩

theorem conversationEntity_some {conv : Conversation}
    (h : conversationEntity dto user id now = some conv) :
    conv.id = id ∧ user.tenantId = some conv.tenantId ∧ conv.assignedAgentId = none := by
  unfold conversationEntity at h
  simp only [Option.bind_eq_bind, Option.bind_eq_some_iff, Option.pure_def,
    Option.some.injEq] at h
  obtain ⟨tenantId, htenant, priority, -, rfl⟩ := h
  exact ⟨rfl, htenant, rfl⟩

theorem createConversation_ends (hid : db.conversations.find? id = none)
    (htenant : ∀ tenantId, user.tenantId = some tenantId → (db.tenants.find? tenantId).isSome) :
    createConversation db dto user id now ≠ .error .queryFailed ↔
      (conversationRow dto user id now).any Conversation.fits = true := by
  unfold createConversation conversationRow
  cases hconv : conversationEntity dto user id now with
  | none => simp
  | some conv =>
    obtain ⟨hconvid, hconvtenant, hagent⟩ := conversationEntity_some hconv
    have hinsert : (db.insertConversation conv.stored).isSome ↔ conv.stored.fits = true := by
      rw [Database.insertConversation_isSome]
      refine ⟨fun h => h.1, fun h => ⟨h, hconvid ▸ hid, htenant _ hconvtenant, ?_⟩⟩
      change conv.assignedAgentId.all _ = true
      rw [hagent]
      rfl
    rw [Option.map_some, Option.any_some, ← hinsert]
    cases hresult : db.insertConversation conv.stored <;> simp [hresult]

theorem conversationFits_iff (hemail : dto.customerEmail.toList.getLast? ≠ some ' ')
    (hid : db.conversations.find? id = none)
    (htenant : ∀ tenantId, user.tenantId = some tenantId → (db.tenants.find? tenantId).isSome) :
    ConversationFits db dto user id now ↔ dto.Small user := by
  rw [← @conversationRow_fits dto user id now hemail]
  constructor
  · intro h
    exact h.row _ rfl
  · intro h
    exact ⟨fun row hrow => hrow ▸ h, (createConversation_ends hid htenant).mpr h⟩

end Conversation

section Tenant

variable {v : Validator} {db : Database} {dto : CreateTenantDto} {id : Uuid} {now : Time}

def CreateTenantDto.Taken (db : Database) (dto : CreateTenantDto) : Prop :=
  ∃ t ∈ db.tenants.rows, t.name = dto.name ∨ t.slug = dto.slug

/-- No tenant has the name or the slug that is stored. -/
def CreateTenantDto.Free (db : Database) (dto : CreateTenantDto) : Prop :=
  ∀ t ∈ db.tenants.rows,
    t.name ≠ Database.clip 100 dto.name ∧ t.slug ≠ Database.clip 100 dto.slug

def tenantRow (dto : CreateTenantDto) (id : Uuid) (now : Time) : Tenant :=
  (Tenants.created dto.toDto id now).stored

def TenantFits (db : Database) (dto : CreateTenantDto) (id : Uuid) (now : Time) : Prop :=
  Fits Tenant.fits (fun row => ¬dto.Taken db ∧ row = some (tenantRow dto id now))
    (createTenant db dto id now)

structure CreateTenantDto.Small (dto : CreateTenantDto) : Prop where
  name : Database.storable 100 dto.name = true
  slug : Database.storable 100 dto.slug = true
  domain : ∀ s, dto.domain = .given s → Database.storable 255 s = true

theorem tenantRow_fits : (tenantRow dto id now).fits = true ↔ dto.Small := by
  have hdomain : (dto.domain.nullable.map (Database.clip 255)).all (Database.varchar 255) =
      dto.domain.nullable.all (Database.storable 255) := by
    cases dto.domain.nullable with
    | none => rfl
    | some s => exact Database.varchar_clip 255 s
  simp only [tenantRow, Tenant.fits, Tenant.stored, Tenants.created, CreateTenantDto.toDto,
    Database.varchar_clip, hdomain, Bool.and_eq_true, Optional.all_nullable]
  exact ⟨fun h => ⟨h.1.1, h.1.2, h.2⟩, fun h => ⟨⟨h.name, h.slug⟩, h.domain⟩⟩

theorem createTenant_ends (htaken : ¬dto.Taken db) (hfree : dto.Free db)
    (hid : db.tenants.find? id = none) :
    createTenant db dto id now ≠ .error .queryFailed ↔ (tenantRow dto id now).fits = true := by
  have hnone : (db.tenants.select fun t => t.name = dto.toDto.name || t.slug = dto.toDto.slug).head? =
      none := by
    rw [List.head?_eq_none_iff, Table.select, List.filter_eq_nil_iff]
    intro t ht hmatch
    rw [Bool.or_eq_true, decide_eq_true_eq, decide_eq_true_eq] at hmatch
    exact htaken ⟨t, ht, hmatch⟩
  have hinsert : (db.insertTenant (tenantRow dto id now)).isSome ↔
      (tenantRow dto id now).fits = true := by
    rw [Database.insertTenant_isSome]
    exact ⟨fun h => h.1, fun h => ⟨h, hid, hfree⟩⟩
  simp only [createTenant, Tenants.create, hnone]
  rw [← hinsert, tenantRow]
  cases db.insertTenant (Tenants.created dto.toDto id now).stored <;> simp

theorem tenantFits_iff (htaken : ¬dto.Taken db) (hfree : dto.Free db)
    (hid : db.tenants.find? id = none) : TenantFits db dto id now ↔ dto.Small := by
  rw [← @tenantRow_fits dto id now, ← createTenant_ends htaken hfree hid]
  constructor
  · intro h
    exact h.ends
  · intro h
    refine ⟨?_, h⟩
    rintro row ⟨-, rfl⟩
    exact (createTenant_ends htaken hfree hid).mp h

end Tenant

section User

variable {env : Auth.Env} {db : Database} {dto : SignUpDto} {id : Uuid}
  {passwordSalt tokenSalt : String} {now : Time}

def SignUpDto.named (dto : SignUpDto) : Option Uuid := dto.tenantId.nullable.bind Uuid.parse

def SignUpDto.Tenantless (db : Database) (dto : SignUpDto) : Prop :=
  dto.role ≠ .given .superAdmin ∧
    ∀ tenant, dto.named.bind db.tenants.find? = some tenant → tenant.isActive = false

def SignUpDto.Registered (db : Database) (dto : SignUpDto) : Prop :=
  ∃ u ∈ db.users.rows, u.email = dto.email ∧ u.tenantId = dto.named

def UserFits (env : Auth.Env) (db : Database) (dto : SignUpDto) (id : Uuid)
    (passwordSalt tokenSalt : String) (now : Time) : Prop :=
  Fits UserRow.fits
    (fun row => ∃ tenantId, Auth.signUpLookup db dto.toDto = .ok tenantId ∧
      row = some (Auth.newUser env dto.toDto tenantId id passwordSalt now))
    (signUp env db dto id passwordSalt tokenSalt now)

structure SignUpDto.Small (dto : SignUpDto) : Prop where
  firstName : Database.storable 100 dto.firstName = true
  lastName : Database.storable 100 dto.lastName = true
  email : Database.storable 255 dto.email = true
  password : Auth.dollar2 dto.password = true → Database.text dto.password = true

/-- The `tenantId` is missing, empty or a UUID. -/
def SignUpDto.NamesUuid (dto : SignUpDto) : Prop :=
  ∀ s, dto.tenantId = .given s → s ≠ "" → (Uuid.parse s).isSome

theorem filter_ne_empty {s : String} (h : s ≠ "") :
    (some s).filter (fun s => s ≠ "") = some s := by
  rw [Option.filter_some, if_pos (decide_eq_true h)]

theorem tenant_of_namesUuid (h : dto.NamesUuid) : dto.toDto.tenant = .ok dto.named := by
  simp only [Auth.SignUpDto.tenant, SignUpDto.toDto, SignUpDto.named]
  cases hgiven : dto.tenantId with
  | undefined => rfl
  | null => rfl
  | given s =>
    by_cases hempty : s = ""
    · subst hempty
      rfl
    · obtain ⟨tenantId, htenant⟩ := Option.isSome_iff_exists.mp (h s hgiven hempty)
      simp only [Optional.nullable]
      rw [filter_ne_empty hempty, Option.bind_some]
      simp only [htenant]

theorem tenant_of_not_namesUuid (h : ¬dto.NamesUuid) :
    dto.toDto.tenant = .error .queryFailed := by
  unfold SignUpDto.NamesUuid at h
  push Not at h
  obtain ⟨s, hgiven, hne, hparse⟩ := h
  simp only [Auth.SignUpDto.tenant, SignUpDto.toDto, hgiven, Optional.nullable]
  rw [filter_ne_empty hne]
  simp only [Option.not_isSome_iff_eq_none.mp hparse]

theorem role_toDto : dto.toDto.role = some .superAdmin ↔ dto.role = .given .superAdmin := by
  simp only [SignUpDto.toDto]
  cases dto.role <;> simp [Optional.nullable]

theorem checkTenant_of_not_tenantless (h : dto.NamesUuid) (hnot : ¬dto.Tenantless db) :
    Auth.checkTenant db dto.toDto = .ok () := by
  unfold Auth.checkTenant
  by_cases hrole : dto.role = .given .superAdmin
  · rw [if_pos (role_toDto.mpr hrole)]
  · rw [if_neg (role_toDto.not.mpr hrole), tenant_of_namesUuid h]
    unfold SignUpDto.Tenantless at hnot
    push Not at hnot
    obtain ⟨tenant, hfind, hactive⟩ := hnot hrole
    obtain ⟨tenantId, hnamed, hfind⟩ := Option.bind_eq_some_iff.mp hfind
    rw [hnamed]
    simp only [hfind, Option.filter_some, Bool.eq_true_of_not_eq_false hactive, if_true]

theorem checkTenant_of_tenantless (h : dto.NamesUuid) (hnot : dto.Tenantless db) :
    ∃ message, Auth.checkTenant db dto.toDto = .error (.badRequest message) := by
  unfold Auth.checkTenant
  rw [if_neg (role_toDto.not.mpr hnot.1), tenant_of_namesUuid h]
  cases hnamed : dto.named with
  | none => exact ⟨_, rfl⟩
  | some tenantId =>
    cases hfind : db.tenants.find? tenantId with
    | none => exact ⟨_, by simp only [hfind]; rfl⟩
    | some tenant =>
      have hinactive : tenant.isActive = false := hnot.2 tenant (by rw [hnamed, Option.bind_some, hfind])
      exact ⟨_, by simp only [hfind, Option.filter_some, hinactive]; rfl⟩

theorem signUpLookup_of_not_namesUuid (h : ¬dto.NamesUuid) :
    Auth.signUpLookup db dto.toDto = .error .queryFailed := by
  have htenant := tenant_of_not_namesUuid h
  unfold Auth.signUpLookup Auth.checkTenant
  by_cases hrole : dto.toDto.role = some .superAdmin
  · simp only [if_pos hrole, htenant]
  · simp only [if_neg hrole, htenant]

theorem signUpLookup_eq (h : dto.NamesUuid) :
    (dto.Tenantless db ∨ dto.Registered db) ∧
        (∃ e, Auth.signUpLookup db dto.toDto = .error e ∧ e ≠ .queryFailed) ∨
      ¬(dto.Tenantless db ∨ dto.Registered db) ∧
        Auth.signUpLookup db dto.toDto = .ok dto.named := by
  unfold Auth.signUpLookup
  by_cases htenantless : dto.Tenantless db
  · obtain ⟨message, hmessage⟩ := checkTenant_of_tenantless h htenantless
    exact .inl ⟨.inl htenantless, .badRequest message, by simp only [hmessage], nofun⟩
  · simp only [checkTenant_of_not_tenantless h htenantless, tenant_of_namesUuid h]
    cases hfind : Auth.findUserByEmailAndTenant db dto.toDto.email dto.named with
    | some u =>
      obtain ⟨hmem, hemail, htenant⟩ := Auth.findUserByEmailAndTenant_some hfind
      exact .inl ⟨.inr ⟨u, hmem, hemail, htenant⟩, _, rfl, nofun⟩
    | none =>
      refine .inr ⟨?_, rfl⟩
      rintro (htenantless' | ⟨u, hmem, hu⟩)
      · exact htenantless htenantless'
      · exact Auth.findUserByEmailAndTenant_none.mp hfind u hmem hu

/-- What bcrypt writes is text. -/
def Plain (bcrypt : Auth.Bcrypt) : Prop :=
  ∀ salt p, Database.text (bcrypt.hash salt p) = true

theorem text_hashPassword (hplain : Plain env.bcrypt) {password : String}
    (hne : password ≠ "") :
    Database.text (Auth.hashPassword env passwordSalt password) = true ↔
      (Auth.dollar2 password = true → Database.text password = true) := by
  unfold Auth.hashPassword
  cases hdollar : Auth.dollar2 password with
  | false => simp [hne, hplain _ _]
  | true => simp

theorem newUser_fits (hplain : Plain env.bcrypt) {v : Validator} (hv : v.Documented)
    (hvalid : dto.valid v = true) (tenantId : Option Uuid) :
    (Auth.newUser env dto.toDto tenantId id passwordSalt now).fits = true ↔ dto.Small := by
  simp only [SignUpDto.valid, Bool.and_eq_true, hv.minLength] at hvalid
  obtain ⟨⟨-, hemail⟩, hlong⟩ := hvalid
  have hne : dto.password ≠ "" := by
    rintro hempty
    rw [hempty] at hlong
    exact absurd hlong (by decide)
  simp only [UserRow.fits, Auth.newUser, SignUpDto.toDto, Database.varchar_clip, Bool.and_eq_true,
    text_hashPassword hplain hne, Option.all_none, and_true,
    ← Database.storable_eq_varchar (hv.isEmail _ hemail)]
  exact ⟨fun h => ⟨h.1.1.1, h.1.1.2, h.1.2, h.2⟩,
    fun h => ⟨⟨⟨h.firstName, h.lastName⟩, h.email⟩, h.password⟩⟩

theorem signUp_ends (hlookup : Auth.signUpLookup db dto.toDto = .ok dto.named)
    (hfree : ¬dto.Registered db) (hid : db.users.find? id = none)
    (htenant : ∀ t, dto.named = some t → (db.tenants.find? t).isSome) :
    signUp env db dto id passwordSalt tokenSalt now ≠ .error .queryFailed ↔
      (Auth.newUser env dto.toDto dto.named id passwordSalt now).fits = true := by
  have hinsert : (db.insertUser (Auth.newUser env dto.toDto dto.named id passwordSalt now)).isSome ↔
      (Auth.newUser env dto.toDto dto.named id passwordSalt now).fits = true := by
    rw [Database.insertUser_isSome]
    refine ⟨fun h => h.1, fun h => ⟨h, hid, ?_, ?_⟩⟩
    · rw [Option.all_eq_true]
      exact htenant
    · rintro v hv - ⟨ht, he⟩
      exact hfree ⟨v, hv, he, ht⟩
  rw [← hinsert, signUp, Auth.signUp, hlookup]
  cases hdb : db.insertUser (Auth.newUser env dto.toDto dto.named id passwordSalt now) with
  | none => simp [hdb]
  | some db' =>
    have hfind : db'.users.find? id =
        some (Auth.newUser env dto.toDto dto.named id passwordSalt now) := by
      rw [Database.find?_insertUser hdb]
      exact if_pos rfl
    simp [hdb, hfind]

theorem userFits_iff (hplain : Plain env.bcrypt) {v : Validator} (hv : v.Documented)
    (hvalid : dto.valid v = true) (hid : db.users.find? id = none)
    (htenant : ∀ t, dto.named = some t → (db.tenants.find? t).isSome) :
    UserFits env db dto id passwordSalt tokenSalt now ↔
      dto.NamesUuid ∧ ((dto.Tenantless db ∨ dto.Registered db) ∨ dto.Small) := by
  by_cases hnames : dto.NamesUuid
  · rw [← @newUser_fits env dto id passwordSalt now hplain v hv hvalid dto.named]
    rcases @signUpLookup_eq db dto hnames with ⟨hrefused, e, hlookup, hne⟩ | ⟨hnot, hlookup⟩
    · refine ⟨fun _ => ⟨hnames, .inl hrefused⟩, fun _ => ⟨?_, ?_⟩⟩
      · rintro row ⟨tenantId, hok, -⟩
        rw [hlookup] at hok
        cases hok
      · rw [signUp, Auth.signUp, hlookup]
        simpa using hne
    · have hends := @signUp_ends env db dto id passwordSalt tokenSalt now hlookup
        (fun h => hnot (.inr h)) hid htenant
      refine ⟨fun h => ⟨hnames, .inr (hends.mp h.ends)⟩, fun h => ?_⟩
      have hfits := h.2.resolve_left hnot
      refine ⟨?_, hends.mpr hfits⟩
      rintro row ⟨tenantId, hok, rfl⟩
      rw [hlookup] at hok
      cases hok
      exact hfits
  · refine ⟨fun h => absurd ?_ h.ends, fun h => absurd h.1 hnames⟩
    rw [signUp, Auth.signUp, signUpLookup_of_not_namesUuid hnames]

end User

/-- References lead somewhere, identifiers are new and what is unique is free.  Then what a valid
body stores meets the constraints of its table, without an error of the database, if and only if
its texts are short enough and free of NUL, its priority is not `null` and it names its tenant by
a UUID. -/
theorem valid_fits_iff {env : Auth.Env} (hplain : Plain env.bcrypt) {v : Validator}
    (hv : v.Documented) (db : Database) (id : Uuid) (now : Time) :
    (∀ (dto : CreateConversationDto) (user : User), dto.valid v = true →
      db.conversations.find? id = none →
      (∀ tenantId, user.tenantId = some tenantId → (db.tenants.find? tenantId).isSome) →
      (ConversationFits db dto user id now ↔ dto.Small user)) ∧
    (∀ (dto : SignUpDto) (passwordSalt tokenSalt : String), dto.valid v = true →
      db.users.find? id = none → ¬dto.Registered db →
      (∀ tenantId, dto.named = some tenantId → (db.tenants.find? tenantId).isSome) →
      (UserFits env db dto id passwordSalt tokenSalt now ↔
        dto.NamesUuid ∧ (dto.Tenantless db ∨ dto.Small))) ∧
    (∀ dto : CreateTenantDto, dto.valid v = true → db.tenants.find? id = none → ¬dto.Taken db →
      dto.Free db → (TenantFits db dto id now ↔ dto.Small)) := by
  refine ⟨?_, ?_, ?_⟩
  · intro dto user hvalid hid htenant
    simp only [CreateConversationDto.valid, Bool.and_eq_true] at hvalid
    exact conversationFits_iff (hv.isEmail _ hvalid.1.2) hid htenant
  · intro dto passwordSalt tokenSalt hvalid hid hfree htenant
    rw [userFits_iff hplain hv hvalid hid htenant, or_iff_left hfree]
  · intro dto _ hid htaken hfree
    exact tenantFits_iff htaken hfree hid

namespace Sample

def isEmail (s : String) : Bool :=
  let localPart := s.toList.takeWhile (· ≠ '@')
  let domain := (s.toList.dropWhile (· ≠ '@')).tail
  0 < localPart.length && localPart.length ≤ 64 && domain.contains '.' &&
    !domain.contains '@' && domain.length ≤ 254 && !s.toList.contains ' '

def validator : Validator where
  isEmail := isEmail
  minLength n s := n ≤ counted s
  length lo hi s := lo ≤ counted s && counted s ≤ hi

theorem documented : validator.Documented where
  isEmail s h hlast := by
    simp only [validator, isEmail, Bool.and_eq_true, Bool.not_eq_true'] at h
    exact absurd (List.mem_of_getLast? hlast) (by simpa using h.2)
  minLength n s := by simp [validator]
  length lo hi s := by simp [validator]

def letter (b : UInt8) : Char := if b = 0 then '.' else Auth.Sample.byteChar b

def bcrypt : Auth.Bcrypt where
  hash _ p := String.ofList ('$' :: '2' :: (p.take 72).map letter)
  compare p h := h = String.ofList ('$' :: '2' :: (p.take 72).map letter)

theorem letter_ne (b : UInt8) : letter b ≠ Char.ofNat 0 := by
  unfold letter
  split
  · decide
  · rename_i hne
    intro h
    have hnat : b.toNat = 0 := by
      rw [← Auth.Sample.toNat_byteChar, h]
      rfl
    exact hne (UInt8.toNat_inj.mp hnat)

theorem bcrypt_plain : Plain bcrypt := by
  intro salt p
  simp only [Database.text, bcrypt, String.toList_ofList, Bool.not_eq_true',
    List.contains_eq_mem, decide_eq_false_iff_not, List.mem_cons, List.mem_map, not_or,
    not_exists, not_and]
  exact ⟨by decide, by decide, fun b _ => letter_ne b⟩

def environment : Auth.Env := { Auth.Sample.environment with bcrypt }

def conversation : CreateConversationDto where
  subject := "Where is my order?"
  description := .null
  customerEmail := "jo@mail.test"
  customerName := "Jo"
  priority := .undefined

def signUp : SignUpDto where
  firstName := "Sam"
  lastName := "Lee"
  email := "sam@mail.test"
  password := "SecurePass123!"
  role := .null
  tenantId := .given "00000000-0000-0000-0000-000000000001"

def tenant : CreateTenantDto where
  name := "Globex Inc"
  slug := "globex-inc"
  domain := .undefined

def nullPriority : CreateConversationDto := { conversation with priority := .null }

def slugTenant : SignUpDto := { signUp with tenantId := .given "acme" }

def longDomain : CreateTenantDto :=
  { tenant with domain := .given (String.ofList (List.replicate 256 'a')) }

end Sample

theorem valid_fits_iff_short :
    ConversationFits Conversations.Sample.staffed Sample.conversation
        Conversations.Sample.agent.toUser ⟨9⟩ 0 ∧
      UserFits Sample.environment Conversations.Sample.staffed Sample.signUp ⟨9⟩ "" "" 0 ∧
      TenantFits Conversations.Sample.staffed Sample.tenant ⟨9⟩ 0 := by
  obtain ⟨hconversation, huser, htenant⟩ := @valid_fits_iff Sample.environment Sample.bcrypt_plain
    Sample.validator Sample.documented Conversations.Sample.staffed ⟨9⟩ 0
  refine ⟨(hconversation _ _ ?_ ?_ ?_).mpr ?_, (huser _ _ _ ?_ ?_ ?_ ?_).mpr ?_,
    (htenant _ ?_ ?_ ?_ ?_).mpr ?_⟩
  · decide
  · rfl
  · rintro _ ⟨⟩
    rfl
  · exact ⟨rfl, by decide, nofun, by decide, by decide, nofun⟩
  · decide
  · rfl
  · unfold SignUpDto.Registered
    decide
  · rintro _ ⟨⟩
    rfl
  · refine ⟨?_, .inr ⟨by decide, by decide, by decide, by decide⟩⟩
    rintro _ ⟨⟩ -
    rfl
  · decide
  · rfl
  · unfold CreateTenantDto.Taken
    decide
  · unfold CreateTenantDto.Free
    decide
  · exact ⟨by decide, by decide, nofun⟩

theorem valid_refused :
    (¬∀ (db : Database) (dto : CreateConversationDto) (user : User) (id : Uuid) (now : Time),
      dto.valid Sample.validator = true → db.conversations.find? id = none →
      (∃ tenantId, user.tenantId = some tenantId ∧ (db.tenants.find? tenantId).isSome) →
      ConversationFits db dto user id now) ∧
    (¬∀ (db : Database) (dto : SignUpDto) (id : Uuid) (passwordSalt tokenSalt : String) (now : Time),
      dto.valid Sample.validator = true → db.users.find? id = none → ¬dto.Registered db →
      (∀ tenantId, dto.named = some tenantId → (db.tenants.find? tenantId).isSome) →
      UserFits Sample.environment db dto id passwordSalt tokenSalt now) ∧
    ¬∀ (db : Database) (dto : CreateTenantDto) (id : Uuid) (now : Time),
      dto.valid Sample.validator = true → db.tenants.find? id = none → ¬dto.Taken db →
      dto.Free db → TenantFits db dto id now := by
  refine ⟨fun h => ?_, fun h => ?_, fun h => ?_⟩
  · have hfits := h Conversations.Sample.staffed Sample.nullPriority
      Conversations.Sample.agent.toUser ⟨9⟩ 0 (by decide) rfl ⟨_, rfl, rfl⟩
    exact hfits.ends rfl
  · have hfits := h Conversations.Sample.staffed Sample.slugTenant ⟨9⟩ "" "" 0 (by decide) rfl
      (by unfold SignUpDto.Registered; decide) (by rintro _ ⟨⟩)
    exact hfits.ends rfl
  · have htaken : ¬Sample.longDomain.Taken Conversations.Sample.staffed := by
      unfold CreateTenantDto.Taken
      decide
    have hfree : Sample.longDomain.Free Conversations.Sample.staffed := by
      unfold CreateTenantDto.Free
      decide
    have hfits := h Conversations.Sample.staffed Sample.longDomain ⟨9⟩ 0 (by decide) rfl htaken hfree
    have hdomain := ((tenantFits_iff htaken hfree rfl).mp hfits).domain _ rfl
    simp only [Database.storable, String.toList_ofList, List.drop_replicate, Bool.and_eq_true]
      at hdomain
    exact absurd hdomain.2 (by decide)

end SupportApi.Bodies
