import SupportApi.Auth.Jwt
import SupportApi.Data.Database
import SupportApi.Lib.OrderBy

namespace SupportApi.Auth

open Lib

/-- `bcryptjs`; a salt carries the number of rounds. -/
structure Bcrypt where
  hash : String → List UInt8 → String
  compare : List UInt8 → String → Bool

def dollar2 (s : String) : Bool := s.toList.take 2 = ['$', '2']

/-- What bcrypt guarantees: it reads 72 bytes and does not collide on them. -/
structure Bcrypt.Truncates (b : Bcrypt) : Prop where
  marked : ∀ salt p, dollar2 (b.hash salt p) = true
  compare_hash : ∀ salt p q, b.compare p (b.hash salt q) = true ↔ p.take 72 = q.take 72

structure Bcrypt.Exact (b : Bcrypt) : Prop where
  marked : ∀ salt p, dollar2 (b.hash salt p) = true
  compare_hash : ∀ salt p q, b.compare p (b.hash salt q) = true ↔ p = q

structure Env where
  bcrypt : Bcrypt
  signature : Signature
  config : JwtConfig

structure SignUpDto where
  firstName : String
  lastName : String
  email : String
  password : String
  role : Option UserRole
  tenantId : Option String
  deriving DecidableEq

structure SignInDto where
  email : String
  password : String
  tenantSlug : Option String
  deriving DecidableEq

structure TokenPair where
  accessToken : Jwt
  refreshToken : Jwt
  deriving DecidableEq

/-- What `sanitize` leaves of a user. -/
structure SafeUser where
  id : Uuid
  tenantId : Option Uuid
  firstName : String
  lastName : String
  email : String
  role : UserRole
  isActive : Bool
  createdAt : Time
  updatedAt : Time
  deriving DecidableEq

/-- What the refresh strategy's `select` loads: `tenant` is a relation and adds no column. -/
structure RefreshUser where
  id : Uuid
  email : String
  role : UserRole
  refreshToken : Option String
  isActive : Bool
  deriving DecidableEq

variable (env : Env)

def sanitize (user : User) : SafeUser where
  id := user.id
  tenantId := user.tenantId
  firstName := user.firstName
  lastName := user.lastName
  email := user.email
  role := user.role
  isActive := user.isActive
  createdAt := user.createdAt
  updatedAt := user.updatedAt

def signAsync (sub : Uuid) (email : String) (role : UserRole) (tenantId : Option (Option Uuid))
    (secret : String) (expiresIn : Int) (now : Time) : Jwt where
  payload :=
    { sub, email, role, tenantId, iat := seconds now, exp := seconds now + expiresIn }
  secret := secret

def generateTokens (sub : Uuid) (email : String) (role : UserRole)
    (tenantId : Option (Option Uuid)) (now : Time) : TokenPair where
  accessToken := signAsync sub email role tenantId env.config.accessSecret
    env.config.accessExpiresIn now
  refreshToken := signAsync sub email role tenantId env.config.refreshSecret
    env.config.refreshExpiresIn now

def tokenBytes (token : Jwt) : List UInt8 := utf8 (token.text env.signature)

def storeRefreshToken (db : Database) (userId : Uuid) (token : Jwt) (salt : String) (now : Time) :
    Database :=
  db.updateUser userId
    (fun u => { u with
      refreshToken := some (env.bcrypt.hash salt (tokenBytes env token)), updatedAt := now })
    fun _ => ⟨rfl, rfl, rfl⟩

/-- `user.email = :email` and the tenant, `IS NULL` when there is none. -/
def selectUsers (db : Database) (email : String) (tenantId : Option Uuid) : List UserRow :=
  db.users.select fun u => u.email = email && u.tenantId = tenantId

/-- `getOne`, of which `signUp` only asks whether there is a row. -/
def findUserByEmailAndTenant (db : Database) (email : String) (tenantId : Option Uuid) :
    Option UserRow :=
  (selectUsers db email tenantId).head?

/-- The `tenantId` of the request, where the empty text counts as none. -/
def SignUpDto.tenant (dto : SignUpDto) : Except Exception (Option Uuid) :=
  match dto.tenantId.filter fun s => s ≠ "" with
  | none => .ok none
  | some s =>
    match Uuid.parse s with
    | none => .error .queryFailed
    | some id => .ok (some id)

def checkTenant (db : Database) (dto : SignUpDto) : Except Exception Unit :=
  if dto.role = some .superAdmin then .ok ()
  else
    match dto.tenant with
    | .error e => .error e
    | .ok none => .error (.badRequest "tenantId is required for non-SuperAdmin users")
    | .ok (some id) =>
      match (db.tenants.find? id).filter Tenant.isActive with
      | none => .error (.badRequest "Tenant not found or inactive")
      | some _ => .ok ()

def signUpLookup (db : Database) (dto : SignUpDto) : Except Exception (Option Uuid) :=
  match checkTenant db dto with
  | .error e => .error e
  | .ok () =>
    match dto.tenant with
    | .error e => .error e
    | .ok tenantId =>
      match findUserByEmailAndTenant db dto.email tenantId with
      | some _ => .error (.conflict "Email already registered for this tenant")
      | none => .ok tenantId

/-- `hashPassword`, before an insert. -/
def hashPassword (salt password : String) : String :=
  if password ≠ "" ∧ dollar2 password = false then env.bcrypt.hash salt (utf8 password.toList)
  else password

def newUser (dto : SignUpDto) (tenantId : Option Uuid) (id : Uuid) (salt : String) (now : Time) :
    UserRow where
  id := id
  tenantId := tenantId
  firstName := Database.clip 100 dto.firstName
  lastName := Database.clip 100 dto.lastName
  email := dto.email
  role := dto.role.getD .agent
  isActive := true
  refreshToken := none
  createdAt := now
  updatedAt := now
  password := hashPassword env salt dto.password

def issue (db : Database) (user : User) (salt : String) (now : Time) : TokenPair × Database :=
  let tokens := generateTokens env user.id user.email user.role (some user.tenantId) now
  (tokens, storeRefreshToken env db user.id tokens.refreshToken salt now)

def signUp (db : Database) (dto : SignUpDto) (id : Uuid) (passwordSalt tokenSalt : String)
    (now : Time) : Except Exception ((SafeUser × TokenPair) × Database) :=
  match signUpLookup db dto with
  | .error e => .error e
  | .ok tenantId =>
    match db.insertUser (newUser env dto tenantId id passwordSalt now) with
    | none => .error .queryFailed
    | some db' =>
      match db'.users.find? id with
      | none => .error .queryFailed
      | some row =>
        let (tokens, db'') := issue env db' row.toUser tokenSalt now
        .ok ((sanitize row.toUser, tokens), db'')

def signInTenant (db : Database) (dto : SignInDto) : Except Exception (Option Uuid) :=
  match dto.tenantSlug.filter fun s => s ≠ "" with
  | none => .ok none
  | some slug =>
    match (db.tenants.select fun t => t.slug = slug && t.isActive).head? with
    | none => .error (.unauthorized "Tenant not found or inactive")
    | some tenant => .ok (some tenant.id)

/-- The user whose credentials are right.  `getOne` takes any row of those that match. -/
def authenticate (order : AnyOrder UserRow) (db : Database) (dto : SignInDto) :
    Except Exception UserRow :=
  match signInTenant db dto with
  | .error e => .error e
  | .ok tenantId =>
    match (order.sort (selectUsers db dto.email tenantId)).head?.filter fun u => u.isActive with
    | none => .error (.unauthorized "Invalid credentials")
    | some user =>
      if env.bcrypt.compare (utf8 dto.password.toList) user.password then .ok user
      else .error (.unauthorized "Invalid credentials")

def signIn (order : AnyOrder UserRow) (db : Database) (dto : SignInDto) (salt : String)
    (now : Time) : Except Exception ((SafeUser × TokenPair) × Database) :=
  match authenticate env order db dto with
  | .error e => .error e
  | .ok user =>
    let (tokens, db') := issue env db user.toUser salt now
    .ok ((sanitize user.toUser, tokens), db')

def RefreshUser.of (user : UserRow) : RefreshUser where
  id := user.id
  email := user.email
  role := user.role
  refreshToken := user.refreshToken
  isActive := user.isActive

/-- The row that `JwtRefreshStrategy.validate` finds, once the token itself is verified. -/
def refreshRow (db : Database) (token : Jwt) (now : Time) : Except Exception UserRow :=
  if token.verify env.config.refreshSecret now = false then .error (.unauthorized "Unauthorized")
  else
    match (db.users.find? token.payload.sub).filter fun u => u.isActive with
    | none => .error (.unauthorized "Invalid refresh token")
    | some user =>
      match user.refreshToken.filter fun h => h ≠ "" with
      | none => .error (.unauthorized "Invalid refresh token")
      | some hash =>
        if env.bcrypt.compare (tokenBytes env token) hash then .ok user
        else .error (.unauthorized "Refresh token mismatch")

def validateRefresh (db : Database) (token : Jwt) (now : Time) : Except Exception RefreshUser :=
  (refreshRow env db token now).map .of

def refreshTokens (user : RefreshUser) (now : Time) : TokenPair :=
  generateTokens env user.id user.email user.role none now

/-- `GET /auth/refresh`: the guard validates at `now`, the tokens are signed at
`signedAt` and the hash is stored at `storedAt`. -/
def refresh (db : Database) (token : Jwt) (salt : String) (now signedAt storedAt : Time) :
    Except Exception (TokenPair × Database) :=
  match validateRefresh env db token now with
  | .error e => .error e
  | .ok user =>
    let tokens := refreshTokens env user signedAt
    .ok (tokens, storeRefreshToken env db user.id tokens.refreshToken salt storedAt)

/-- `JwtAccessStrategy.validate`, after the token itself is verified. -/
def validateAccess (db : Database) (token : Jwt) (now : Time) : Except Exception User :=
  if token.verify env.config.accessSecret now = false then .error (.unauthorized "Unauthorized")
  else
    match (db.users.find? token.payload.sub).filter fun u => u.isActive with
    | none => .error (.unauthorized "User not found or inactive")
    | some user => .ok user.toUser

def signOut (db : Database) (userId : Uuid) (now : Time) : Database :=
  db.updateUser userId (fun u => { u with refreshToken := none, updatedAt := now })
    fun _ => ⟨rfl, rfl, rfl⟩

variable {env} {db : Database}

theorem mem_selectUsers {email : String} {tenantId : Option Uuid} {u : UserRow} :
    u ∈ selectUsers db email tenantId ↔
      u ∈ db.users.rows ∧ u.email = email ∧ u.tenantId = tenantId := by
  simp [selectUsers, Table.select]

theorem findUserByEmailAndTenant_some {email : String} {tenantId : Option Uuid} {u : UserRow}
    (h : findUserByEmailAndTenant db email tenantId = some u) :
    u ∈ db.users.rows ∧ u.email = email ∧ u.tenantId = tenantId :=
  mem_selectUsers.mp (List.mem_of_head? h)

theorem findUserByEmailAndTenant_none {email : String} {tenantId : Option Uuid} :
    findUserByEmailAndTenant db email tenantId = none ↔
      ∀ u ∈ db.users.rows, ¬(u.email = email ∧ u.tenantId = tenantId) := by
  rw [findUserByEmailAndTenant, List.head?_eq_none_iff, List.eq_nil_iff_forall_not_mem]
  simp only [mem_selectUsers, not_and]

theorem first_selectUsers {order : AnyOrder UserRow} {email : String} {tenantId : Option Uuid}
    {u : UserRow} (h : (order.sort (selectUsers db email tenantId)).head? = some u) :
    u ∈ db.users.rows ∧ u.email = email ∧ u.tenantId = tenantId :=
  mem_selectUsers.mp (order.mem_sort.mp (List.mem_of_head? h))

theorem exists_first (order : AnyOrder UserRow) {email : String} {tenantId : Option Uuid}
    {u : UserRow} (hu : u ∈ db.users.rows) (hmatch : u.email = email ∧ u.tenantId = tenantId) :
    ∃ first, (order.sort (selectUsers db email tenantId)).head? = some first := by
  have hmem : u ∈ order.sort (selectUsers db email tenantId) :=
    order.mem_sort.mpr (mem_selectUsers.mpr ⟨hu, hmatch⟩)
  exact Option.isSome_iff_exists.mp (List.isSome_head?.mpr (List.ne_nil_of_mem hmem))

theorem first_of_alone (order : AnyOrder UserRow) {email : String} {tenantId : Option Uuid}
    {u : UserRow} (hu : u ∈ db.users.rows) (hmatch : u.email = email ∧ u.tenantId = tenantId)
    (halone : ∀ v ∈ db.users.rows, v.email = email ∧ v.tenantId = tenantId → v = u) :
    (order.sort (selectUsers db email tenantId)).head? = some u := by
  obtain ⟨first, hfirst⟩ := exists_first order hu hmatch
  obtain ⟨hrow, hmatch⟩ := first_selectUsers hfirst
  exact hfirst.trans (congrArg some (halone first hrow hmatch))

theorem checkTenant_ok {dto : SignUpDto} (h : checkTenant db dto = .ok ())
    (hrole : dto.role ≠ some .superAdmin) :
    ∃ id tenant, dto.tenant = .ok (some id) ∧ db.tenants.find? id = some tenant ∧
      tenant.isActive = true := by
  rw [checkTenant, if_neg hrole] at h
  split at h
  · cases h
  · cases h
  · rename_i id htenant
    split at h
    · cases h
    · rename_i tenant hfind
      obtain ⟨hfind, hactive⟩ := Option.filter_eq_some_iff.mp hfind
      exact ⟨id, tenant, htenant, hfind, hactive⟩

def SignInDto.Names (db : Database) (dto : SignInDto) : Option Uuid → Prop
  | none => dto.tenantSlug.filter (fun s => s ≠ "") = none
  | some id => ∃ tenant, db.tenants.find? id = some tenant ∧
      dto.tenantSlug.filter (fun s => s ≠ "") = some tenant.slug

theorem signInTenant_ok {dto : SignInDto} {tenantId : Option Uuid}
    (h : signInTenant db dto = .ok tenantId) :
    dto.Names db tenantId ∧
      ∀ id tenant, tenantId = some id → db.tenants.find? id = some tenant →
        tenant.isActive = true := by
  unfold signInTenant at h
  split at h
  · rename_i hslug
    cases h
    exact ⟨hslug, fun id tenant hid => by cases hid⟩
  · rename_i slug hslug
    split at h <;> cases h
    rename_i tenant hfind
    obtain ⟨hmem, hmatch⟩ := List.mem_filter.mp (List.mem_of_head? hfind)
    rw [Bool.and_eq_true, decide_eq_true_eq] at hmatch
    have hself := Table.find?_self hmem
    refine ⟨⟨tenant, hself, hmatch.1 ▸ hslug⟩, ?_⟩
    rintro _ tenant' ⟨⟩ hfind'
    cases hself.symm.trans hfind'
    exact hmatch.2

theorem refreshRow_ok {token : Jwt} {now : Time} {row : UserRow} :
    refreshRow env db token now = .ok row ↔
      token.verify env.config.refreshSecret now = true ∧
        ∃ hash, db.users.find? token.payload.sub = some row ∧ row.isActive = true ∧
          row.refreshToken = some hash ∧ hash ≠ "" ∧
          env.bcrypt.compare (tokenBytes env token) hash = true := by
  unfold refreshRow
  constructor
  · intro h
    split at h
    · cases h
    · rename_i hverify
      split at h
      · cases h
      · rename_i row hrow
        split at h
        · cases h
        · rename_i hash hhash
          split at h <;> cases h
          obtain ⟨hfind, hactive⟩ := Option.filter_eq_some_iff.mp hrow
          obtain ⟨hstored, hne⟩ := Option.filter_eq_some_iff.mp hhash
          exact ⟨by simpa using hverify, hash, hfind, hactive, hstored, by simpa using hne, ‹_›⟩
  · rintro ⟨hverify, hash, hfind, hactive, hstored, hne, hcompare⟩
    simp [hverify, hfind, hactive, hstored, hne, hcompare, Option.filter]

theorem validateRefresh_ok {token : Jwt} {now : Time} {user : RefreshUser} :
    validateRefresh env db token now = .ok user ↔
      token.verify env.config.refreshSecret now = true ∧
        ∃ row hash, db.users.find? token.payload.sub = some row ∧ row.isActive = true ∧
          row.refreshToken = some hash ∧ hash ≠ "" ∧
          env.bcrypt.compare (tokenBytes env token) hash = true ∧ user = .of row := by
  unfold validateRefresh
  constructor
  · intro h
    cases hrow : refreshRow env db token now with
    | error e =>
      rw [hrow] at h
      cases h
    | ok row =>
      rw [hrow] at h
      cases h
      obtain ⟨hverify, hash, hfind, hactive, hstored, hne, hcompare⟩ := refreshRow_ok.mp hrow
      exact ⟨hverify, row, hash, hfind, hactive, hstored, hne, hcompare, rfl⟩
  · rintro ⟨hverify, row, hash, hfind, hactive, hstored, hne, hcompare, rfl⟩
    rw [refreshRow_ok.mpr ⟨hverify, hash, hfind, hactive, hstored, hne, hcompare⟩]
    rfl

theorem validateAccess_ok {token : Jwt} {now : Time} {user : User}
    (h : validateAccess env db token now = .ok user) :
    ∃ row, db.users.find? token.payload.sub = some row ∧ row.isActive = true ∧
      user = row.toUser := by
  unfold validateAccess at h
  split at h
  · cases h
  · split at h <;> cases h
    rename_i row hrow
    obtain ⟨hfind, hactive⟩ := Option.filter_eq_some_iff.mp hrow
    exact ⟨row, hfind, hactive, rfl⟩

end SupportApi.Auth
