import SupportApi.Api.Endpoints
import SupportApi.Data.Evolution

/-! The whole server with its requests in flight.  A request passes its guard and then moves
from one await to the next; a request on a conversation is handed to the machine of the
conversations once the guards have let its user in. -/

namespace SupportApi.Server

open Lib Auth Conversations

inductive Read
  | users
  | agents
  | user (id : String)
  | tenants
  | tenant (id : String)
  | conversations (dto : ListConversationsDto)
  | conversation (id : Uuid)
  | topConversations (moments : Analytics.Moments)
  | tenantStats (now : Time)

def Read.request : Read → Api.Guarded
  | .users => .users .users
  | .agents => .users .agents
  | .user id => .users (.user id)
  | .tenants => .users .tenants
  | .tenant id => .users (.tenant id)
  | .conversations dto => .service (.findAll dto)
  | .conversation id => .service (.findOne id)
  | .topConversations moments => .service (.topConversations moments)
  | .tenantStats now => .service (.tenantStats now)

def Read.answer (env : Api.Env) (store : Api.Store) (user : User) (query : Read) :
    Except Exception Api.Body :=
  (Api.perform env store user query.request).1

inductive Command
  | signOut
  | deactivateUser (id : String)
  | createTenant (dto : Tenants.CreateTenantDto)
  | deactivateTenant (id : String)
  | createConversation (dto : CreateConversationDto)
  | claim (id : Uuid)
  | resolve (id : Uuid) (dto : ResolveConversationDto)
  | read (query : Read)

def Command.route : Command → RouteMetadata
  | .signOut => Roles []
  | .deactivateUser _ => Roles [.superAdmin, .tenantAdmin]
  | .createTenant _ => Roles [.superAdmin]
  | .deactivateTenant _ => Roles [.superAdmin]
  | .createConversation _ => ⟨[.tenantAdmin, .agent], true⟩
  | .claim _ => Roles [.tenantAdmin, .agent]
  | .resolve _ _ => Roles [.tenantAdmin, .agent]
  | .read query => query.request.route

inductive Request
  | signUp (dto : SignUpDto)
  | signIn (dto : SignInDto)
  | refresh (token : Jwt)
  | guarded (token : Jwt) (command : Command)

/-- An account, but for what requests change of it. -/
structure Principal where
  id : Uuid
  email : String
  role : UserRole
  tenantId : Option Uuid
  deriving DecidableEq

def Principal.of (user : User) : Principal := ⟨user.id, user.email, user.role, user.tenantId⟩

def Principal.tokens (env : Auth.Env) (user : Principal) (now : Time) : TokenPair :=
  generateTokens env user.id user.email user.role (some user.tenantId) now

/-- What a request ends in, and as whom it was served. -/
inductive Reply
  | issued (user : Principal) (shown : Option SafeUser) (tokens : TokenPair)
  | done (user : User) (body : Api.Body)
  | refused (e : Exception)

def Reply.body : Reply → Except Exception Api.Body
  | .issued _ shown tokens => .ok (.issued shown (some tokens))
  | .done _ body => .ok body
  | .refused e => .error e

inductive Process
  | idle
  | signUpChecked (dto : SignUpDto)
  | signUpFree (dto : SignUpDto) (tenantId : Option Uuid)
  | signUpSaved (dto : SignUpDto) (id : Uuid)
  | signInLocated (dto : SignInDto) (tenantId : Option Uuid)
  /-- Of the row, `RefreshUser.of` is loaded. -/
  | validated (token : Jwt) (row : UserRow)
  | issuing (request : Request) (user : Principal) (shown : Option SafeUser) (tokens : TokenPair)
  | admitted (token : Jwt) (user : User) (command : Command)
  | deactivatingUser (token : Jwt) (user : User) (id : String) (target : User)
  | deactivatedUser (token : Jwt) (user : User) (id : String)
  | creatingTenant (token : Jwt) (user : User) (dto : Tenants.CreateTenantDto)
  | deactivatingTenant (token : Jwt) (user : User) (id : String) (target : Tenant)
  | handedOver (token : Jwt) (user : User) (command : Command) (saved : Option Conversation)
  | returned (request : Request) (reply : Reply)

/-- What moves a process: a request that arrives, or the answer to an await. -/
inductive Input
  | signUp (dto : SignUpDto)
  | signUpLookup
  | signUpInsert (id : Uuid) (salt : String) (now : Time)
  | signUpReload (now : Time)
  | signIn (dto : SignInDto)
  | signInFind (order : AnyOrder UserRow) (now : Time)
  | refresh (token : Jwt) (now : Time)
  | refreshSign (now : Time)
  | store (salt : String) (now : Time)
  | guarded (token : Jwt) (command : Command) (now : Time)
  | perform (now : Time)
  | save (id : Uuid) (now : Time)
  | reload
  /-- PostgreSQL's answer, and what Redis holds. -/
  | read (env : Api.Env) (cache : Analytics.Cache)
  | fail

def Input.request? : Input → Option Request
  | .signUp dto => some (.signUp dto)
  | .signIn dto => some (.signIn dto)
  | .refresh token _ => some (.refresh token)
  | .guarded token command _ => some (.guarded token command)
  | _ => none

/-- The lookup of `signUp`, once the tenant is checked. -/
def signUpFree (db : Database) (dto : SignUpDto) : Except Exception (Option Uuid) :=
  match dto.tenant with
  | .error e => .error e
  | .ok tenantId =>
    match findUserByEmailAndTenant db dto.email tenantId with
    | some _ => .error (.conflict "Email already registered for this tenant")
    | none => .ok tenantId

theorem signUpLookup_eq (db : Database) (dto : SignUpDto) :
    signUpLookup db dto = match checkTenant db dto with
      | .error e => .error e
      | .ok () => signUpFree db dto := rfl

/-- What `signIn` reads and compares, once the tenant is known. -/
def credentials (env : Auth.Env) (order : AnyOrder UserRow) (db : Database) (dto : SignInDto)
    (tenantId : Option Uuid) : Except Exception UserRow :=
  match (order.sort (selectUsers db dto.email tenantId)).head?.filter fun u => u.isActive with
  | none => .error (.unauthorized "Invalid credentials")
  | some user =>
    if env.bcrypt.compare (utf8 dto.password.toList) user.password then .ok user
    else .error (.unauthorized "Invalid credentials")

theorem authenticate_eq (env : Auth.Env) (order : AnyOrder UserRow) (db : Database)
    (dto : SignInDto) : authenticate env order db dto = match signInTenant db dto with
      | .error e => .error e
      | .ok tenantId => credentials env order db dto tenantId := rfl

/-- `UsersService.deactivate` up to its update. -/
def mayDeactivate (db : Database) (id : String) (requestingUser : User) : Except Exception User :=
  match Users.findOne db id none with
  | .error e => .error e
  | .ok user =>
    if requestingUser.role = .tenantAdmin ∧ user.tenantId ≠ requestingUser.tenantId then
      .error (.forbidden "Cannot deactivate users outside your tenant")
    else .ok user

/-- `TenantsService.create` up to its insert. -/
def mayCreate (db : Database) (dto : Tenants.CreateTenantDto) : Except Exception Unit :=
  match (db.tenants.select fun t => t.name = dto.name || t.slug = dto.slug).head? with
  | some _ => .error (.conflict "Tenant name or slug already exists")
  | none => .ok ()

def setTenantInactive (db : Database) (id : Uuid) (now : Time) : Database :=
  db.updateTenant id (fun t => Tenants.inactive t now)
    fun t => Tenants.inactive_names t now

def letIn (env : Auth.Env) (db : Database) (token : Jwt) (command : Command) (now : Time) :
    Except Exception User :=
  match validateAccess env db token now with
  | .error e => .error e
  | .ok user =>
    match command.route.canActivate (some user) with
    | .error e => .error e
    | .ok () => .ok user

theorem signUpFree_ok {db : Database} {dto : SignUpDto} {tenantId : Option Uuid}
    (h : signUpFree db dto = .ok tenantId) : dto.tenant = .ok tenantId ∧
      ∀ u ∈ db.users.rows, ¬(u.email = dto.email ∧ u.tenantId = tenantId) := by
  unfold signUpFree at h
  split at h
  · cases h
  · rename_i htenant
    split at h <;> cases h
    exact ⟨htenant, findUserByEmailAndTenant_none.mp ‹_›⟩

theorem credentials_ok {env : Auth.Env} {order : AnyOrder UserRow} {db : Database}
    {dto : SignInDto} {tenantId : Option Uuid} {row : UserRow}
    (h : credentials env order db dto tenantId = .ok row) :
    row ∈ db.users.rows ∧ row.email = dto.email ∧ row.tenantId = tenantId ∧
      row.isActive = true := by
  unfold credentials at h
  split at h
  · cases h
  · rename_i hfound
    split at h <;> cases h
    obtain ⟨hfind, hactive⟩ := Option.filter_eq_some_iff.mp hfound
    obtain ⟨hmem, hemail, htenant⟩ := first_selectUsers hfind
    exact ⟨hmem, hemail, htenant, hactive⟩

theorem mayDeactivate_ok {db : Database} {id : String} {user target : User}
    (h : mayDeactivate db id user = .ok target) :
    ∃ row uuid, Uuid.parse id = some uuid ∧ db.users.find? uuid = some row ∧
      target = row.toUser := by
  unfold mayDeactivate at h
  split at h
  · cases h
  · rename_i found hfound
    split at h <;> cases h
    unfold Users.findOne at hfound
    split at hfound
    · cases hfound
    · split at hfound <;> cases hfound
      rename_i uuid hid _ row hrow _
      exact ⟨row, uuid, hid, (Option.filter_eq_some_iff.mp hrow).1, rfl⟩

theorem letIn_ok {env : Auth.Env} {db : Database} {token : Jwt} {command : Command} {now : Time}
    {user : User} (h : letIn env db token command now = .ok user) :
    (∃ row, db.users.find? token.payload.sub = some row ∧ row.isActive = true ∧
      user = row.toUser) ∧ command.route.canActivate (some user) = .ok () := by
  unfold letIn at h
  split at h
  · cases h
  · rename_i hvalid
    split at h <;> cases h
    exact ⟨validateAccess_ok hvalid, ‹_›⟩

def Process.request? : Process → Option Request
  | .idle => none
  | .signUpChecked dto => some (.signUp dto)
  | .signUpFree dto _ => some (.signUp dto)
  | .signUpSaved dto _ => some (.signUp dto)
  | .signInLocated dto _ => some (.signIn dto)
  | .validated token _ => some (.refresh token)
  | .issuing request _ _ _ => some request
  | .admitted token _ command => some (.guarded token command)
  | .deactivatingUser token _ id _ => some (.guarded token (.deactivateUser id))
  | .deactivatedUser token _ id => some (.guarded token (.deactivateUser id))
  | .creatingTenant token _ dto => some (.guarded token (.createTenant dto))
  | .deactivatingTenant token _ id _ => some (.guarded token (.deactivateTenant id))
  -- from here on the conversations' own machine answers
  | .handedOver _ _ _ _ => none
  | .returned _ _ => none

variable (env : Auth.Env)

def next (db : Database) (proc : Process) : Input → Option (Process × Database)
  | .signUp dto =>
    match proc with
    | .idle =>
      match checkTenant db dto with
      | .error e => some (.returned (.signUp dto) (.refused e), db)
      | .ok () => some (.signUpChecked dto, db)
    | _ => none
  | .signUpLookup =>
    match proc with
    | .signUpChecked dto =>
      match signUpFree db dto with
      | .error e => some (.returned (.signUp dto) (.refused e), db)
      | .ok tenantId => some (.signUpFree dto tenantId, db)
    | _ => none
  | .signUpInsert id salt now =>
    match proc with
    | .signUpFree dto tenantId =>
      match db.insertUser (newUser env dto tenantId id salt now) with
      | none => some (.returned (.signUp dto) (.refused .queryFailed), db)
      | some db' => some (.signUpSaved dto id, db')
    | _ => none
  | .signUpReload now =>
    match proc with
    | .signUpSaved dto id =>
      match db.users.find? id with
      | none => some (.returned (.signUp dto) (.refused .queryFailed), db)
      | some row =>
        let user := Principal.of row.toUser
        some (.issuing (.signUp dto) user (some (sanitize row.toUser)) (user.tokens env now), db)
    | _ => none
  | .signIn dto =>
    match proc with
    | .idle =>
      match signInTenant db dto with
      | .error e => some (.returned (.signIn dto) (.refused e), db)
      | .ok tenantId => some (.signInLocated dto tenantId, db)
    | _ => none
  | .signInFind order now =>
    match proc with
    | .signInLocated dto tenantId =>
      match credentials env order db dto tenantId with
      | .error e => some (.returned (.signIn dto) (.refused e), db)
      | .ok row =>
        let user := Principal.of row.toUser
        some (.issuing (.signIn dto) user (some (sanitize row.toUser)) (user.tokens env now), db)
    | _ => none
  | .refresh token now =>
    match proc with
    | .idle =>
      match refreshRow env db token now with
      | .error e => some (.returned (.refresh token) (.refused e), db)
      | .ok row => some (.validated token row, db)
    | _ => none
  | .refreshSign now =>
    match proc with
    | .validated token row =>
      some (.issuing (.refresh token) (.of row.toUser) none (refreshTokens env (.of row) now), db)
    | _ => none
  | .store salt now =>
    match proc with
    | .issuing request user shown tokens =>
      some (.returned request (.issued user shown tokens),
        storeRefreshToken env db user.id tokens.refreshToken salt now)
    | _ => none
  | .guarded token command now =>
    match proc with
    | .idle =>
      match letIn env db token command now with
      | .error e => some (.returned (.guarded token command) (.refused e), db)
      | .ok user => some (.admitted token user command, db)
    | _ => none
  | .perform now =>
    match proc with
    | .admitted token user .signOut =>
      some (.returned (.guarded token  .signOut) (.done user .empty), signOut db user.id now)
    | .admitted token user (.deactivateUser id) =>
      match mayDeactivate db id user with
      | .error e => some (.returned (.guarded token (.deactivateUser id)) (.refused e), db)
      | .ok target => some (.deactivatingUser token user id target, db)
    | .admitted token user (.createTenant dto) =>
      match mayCreate db dto with
      | .error e => some (.returned (.guarded token (.createTenant dto)) (.refused e), db)
      | .ok () => some (.creatingTenant token user dto, db)
    | .admitted token user (.deactivateTenant id) =>
      match Tenants.findOne db id with
      | .error e => some (.returned (.guarded token (.deactivateTenant id)) (.refused e), db)
      | .ok target => some (.deactivatingTenant token user id target, db)
    | _ => none
  | .save id now =>
    match proc with
    | .deactivatingUser token user target found =>
      some (.deactivatedUser token user target, Users.setInactive db found.id now)
    | .creatingTenant token user dto =>
      match db.insertTenant (Tenants.created dto id now).stored with
      | none => some (.returned (.guarded token (.createTenant dto)) (.refused .queryFailed), db)
      | some db' =>
        some (.returned (.guarded token (.createTenant dto))
          (.done user (.users (.tenant (Tenants.created dto id now)))), db')
    | .deactivatingTenant token user target found =>
      some (.returned (.guarded token (.deactivateTenant target))
        (.done user (.users (.tenant (Tenants.inactive found now)))),
        setTenantInactive db found.id now)
    | _ => none
  | .reload =>
    match proc with
    | .deactivatedUser token user id =>
      match Users.findOne db id none with
      | .error e => some (.returned (.guarded token (.deactivateUser id)) (.refused e), db)
      | .ok found =>
        some (.returned (.guarded token (.deactivateUser id)) (.done user (.users (.user found))),
          db)
    | _ => none
  | .read arranged cache =>
    match proc with
    | .admitted token user (.read query) =>
      match query.answer arranged ⟨db, cache⟩ user with
      | .error e => some (.returned (.guarded token (.read query)) (.refused e), db)
      | .ok body => some (.returned (.guarded token (.read query)) (.done user body), db)
    | _ => none
  -- the awaited statement fails
  | .fail => proc.request?.map fun request => (.returned request (.refused .queryFailed), db)

inductive Next (db : Database) : Process → Input → Process → Database → Prop
  | refuses {proc input request e} :
      proc = .idle ∧ input.request? = some request ∨ proc.request? = some request →
      Next db proc input (.returned request (.refused e)) db
  | signUpChecks {dto} : checkTenant db dto = .ok () →
      Next db .idle (.signUp dto) (.signUpChecked dto) db
  | signUpFinds {dto tenantId} : signUpFree db dto = .ok tenantId →
      Next db (.signUpChecked dto) .signUpLookup (.signUpFree dto tenantId) db
  | signUpSaves {dto tenantId id salt now db'} :
      db.insertUser (newUser env dto tenantId id salt now) = some db' →
      Next db (.signUpFree dto tenantId) (.signUpInsert id salt now) (.signUpSaved dto id) db'
  | signUpReloads {dto id now row} : db.users.find? id = some row →
      Next db (.signUpSaved dto id) (.signUpReload now)
        (.issuing (.signUp dto) (.of row.toUser) (some (sanitize row.toUser))
          ((Principal.of row.toUser).tokens env now)) db
  | signInLocates {dto tenantId} : signInTenant db dto = .ok tenantId →
      Next db .idle (.signIn dto) (.signInLocated dto tenantId) db
  | signInFinds {dto tenantId order now row} : credentials env order db dto tenantId = .ok row →
      Next db (.signInLocated dto tenantId) (.signInFind order now)
        (.issuing (.signIn dto) (.of row.toUser) (some (sanitize row.toUser))
          ((Principal.of row.toUser).tokens env now)) db
  | validates {token now row} : refreshRow env db token now = .ok row →
      Next db .idle (.refresh token now) (.validated token row) db
  | refreshSigns {token row now} :
      Next db (.validated token row) (.refreshSign now)
        (.issuing (.refresh token) (.of row.toUser) none (refreshTokens env (.of row) now)) db
  | stores {request user shown tokens salt now} :
      Next db (.issuing request user shown tokens) (.store salt now)
        (.returned request (.issued user shown tokens))
        (storeRefreshToken env db user.id tokens.refreshToken salt now)
  | admits {token command now user} : letIn env db token command now = .ok user →
      Next db .idle (.guarded token command now) (.admitted token user command) db
  | signsOut {token user now} :
      Next db (.admitted token user .signOut) (.perform now)
        (.returned (.guarded token  .signOut) (.done user .empty)) (signOut db user.id now)
  | findsUser {token user id now target} : mayDeactivate db id user = .ok target →
      Next db (.admitted token user (.deactivateUser id)) (.perform now)
        (.deactivatingUser token user id target) db
  | findsNoTenant {token user dto now} : mayCreate db dto = .ok () →
      Next db (.admitted token user (.createTenant dto)) (.perform now)
        (.creatingTenant token user dto) db
  | findsTenant {token user id now target} : Tenants.findOne db id = .ok target →
      Next db (.admitted token user (.deactivateTenant id)) (.perform now)
        (.deactivatingTenant token user id target) db
  | reads {token user query arranged cache body} :
      Read.answer arranged ⟨db, cache⟩ user query = .ok body →
      Next db (.admitted token user (.read query)) (.read arranged cache)
        (.returned (.guarded token (.read query)) (.done user body)) db
  | deactivatesUser {token user id target unused now} :
      Next db (.deactivatingUser token user id target) (.save unused now)
        (.deactivatedUser token user id) (Users.setInactive db target.id now)
  | reloadsUser {token user id found} : Users.findOne db id none = .ok found →
      Next db (.deactivatedUser token user id) .reload
        (.returned (.guarded token (.deactivateUser id)) (.done user (.users (.user found)))) db
  | createsTenant {token user dto id now db'} :
      db.insertTenant (Tenants.created dto id now).stored = some db' →
      Next db (.creatingTenant token user dto) (.save id now)
        (.returned (.guarded token (.createTenant dto))
          (.done user (.users (.tenant (Tenants.created dto id now))))) db'
  | deactivatesTenant {token user id target unused now} :
      Next db (.deactivatingTenant token user id target) (.save unused now)
        (.returned (.guarded token (.deactivateTenant id))
          (.done user (.users (.tenant (Tenants.inactive target now)))))
        (setTenantInactive db target.id now)

variable {env} in
theorem next_some {db db' : Database} {proc proc' : Process} {input : Input}
    (h : next env db proc input = some (proc', db')) : Next env db proc input proc' db' := by
  cases input with
  | signUp dto =>
    simp only [next.eq_def] at h
    split at h
    · split at h <;> cases h
      · exact .refuses (.inl ⟨rfl, rfl⟩)
      · exact .signUpChecks ‹_›
    · cases h
  | signUpLookup =>
    simp only [next.eq_def] at h
    split at h
    · split at h <;> cases h
      · exact .refuses (.inr rfl)
      · exact .signUpFinds ‹_›
    · cases h
  | signUpInsert id salt now =>
    simp only [next.eq_def] at h
    split at h
    · split at h <;> cases h
      · exact .refuses (.inr rfl)
      · exact .signUpSaves ‹_›
    · cases h
  | signUpReload now =>
    simp only [next.eq_def] at h
    split at h
    · split at h <;> cases h
      · exact .refuses (.inr rfl)
      · exact .signUpReloads ‹_›
    · cases h
  | signIn dto =>
    simp only [next.eq_def] at h
    split at h
    · split at h <;> cases h
      · exact .refuses (.inl ⟨rfl, rfl⟩)
      · exact .signInLocates ‹_›
    · cases h
  | signInFind order now =>
    simp only [next.eq_def] at h
    split at h
    · split at h <;> cases h
      · exact .refuses (.inr rfl)
      · exact .signInFinds ‹_›
    · cases h
  | refresh token now =>
    simp only [next.eq_def] at h
    split at h
    · split at h <;> cases h
      · exact .refuses (.inl ⟨rfl, rfl⟩)
      · exact .validates ‹_›
    · cases h
  | refreshSign now =>
    simp only [next.eq_def] at h
    split at h <;> cases h
    exact .refreshSigns
  | store salt now =>
    simp only [next.eq_def] at h
    split at h <;> cases h
    exact .stores
  | guarded token command now =>
    simp only [next.eq_def] at h
    split at h
    · split at h <;> cases h
      · exact .refuses (.inl ⟨rfl, rfl⟩)
      · exact .admits ‹_›
    · cases h
  | perform now =>
    simp only [next.eq_def] at h
    split at h
    · cases h
      exact .signsOut
    · split at h <;> cases h
      · exact .refuses (.inr rfl)
      · exact .findsUser ‹_›
    · split at h <;> cases h
      · exact .refuses (.inr rfl)
      · exact .findsNoTenant ‹_›
    · split at h <;> cases h
      · exact .refuses (.inr rfl)
      · exact .findsTenant ‹_›
    · cases h
  | save id now =>
    simp only [next.eq_def] at h
    split at h
    · cases h
      exact .deactivatesUser
    · split at h <;> cases h
      · exact .refuses (.inr rfl)
      · exact .createsTenant ‹_›
    · cases h
      exact .deactivatesTenant
    · cases h
  | reload =>
    simp only [next.eq_def] at h
    split at h
    · split at h <;> cases h
      · exact .refuses (.inr rfl)
      · exact .reloadsUser ‹_›
    · cases h
  | read arranged cache =>
    simp only [next.eq_def] at h
    split at h
    · split at h <;> cases h
      · exact .refuses (.inr rfl)
      · exact .reads ‹_›
    · cases h
  | fail =>
    obtain ⟨request, hrequest, heq⟩ := Option.map_eq_some_iff.mp h
    cases heq
    exact .refuses (.inr hrequest)

structure State where
  conversations : Conversations.State
  procs : Pid → Process

inductive Action
  | request (p : Pid) (input : Input)
  | handOver (p : Pid) (id : Uuid) (now : Time)
  | conversation (a : Conversations.Action)

namespace State

def db (s : State) : Database := s.conversations.db

def start (db : Database) : State := ⟨.initial db [], fun _ => .idle⟩

def set (s : State) (p : Pid) (proc : Process) : State :=
  { s with procs := Function.update s.procs p proc }

def store (s : State) (db : Database) : State :=
  { s with conversations := s.conversations.store db }

variable (s : State) (p : Pid) (proc : Process) (db : Database)

@[simp] theorem set_db : (s.set p proc).db = s.db := rfl
@[simp] theorem set_procs : (s.set p proc).procs = Function.update s.procs p proc := rfl
@[simp] theorem store_db : (s.store db).db = db := rfl
@[simp] theorem store_procs : (s.store db).procs = s.procs := rfl

end State

/-- How the handler of a conversation route begins; `id` is that of a new row. -/
def Command.opening (p : Pid) (user : User) (id : Uuid) (now : Time) :
    Command → Option Conversations.Action
  | .createConversation dto => some (.create user dto id now)
  | .claim conversation => some (.claim p conversation user)
  | .resolve conversation dto => some (.resolve p conversation user dto)
  | _ => none

def Command.saved (user : User) (id : Uuid) (now : Time) : Command → Option Conversation
  | .createConversation dto => user.tenantId.map fun tenantId => created dto tenantId id now
  | _ => none

def step (s : State) : Action → Option State
  | .request p input =>
    (next env s.db (s.procs p) input).map fun (proc, db) => (s.set p proc).store db
  | .handOver p id now =>
    match s.procs p with
    | .admitted token user command =>
      match command.opening p user id now with
      | none => none
      | some a =>
        match Conversations.step s.conversations a with
        -- the insert of `create` is refused
        | none => some (s.set p (.returned (.guarded token command) (.refused .queryFailed)))
        | some conversations =>
          some ⟨conversations,
            Function.update s.procs p (.handedOver token user command (command.saved user id now))⟩
    | _ => none
  -- the other steps of the conversations name no user
  | .conversation a =>
    match a.user? with
    | some _ => none
    | none => (Conversations.step s.conversations a).map fun conversations => { s with conversations }

def machine : Machine State Action := ⟨step env⟩

inductive Step (s : State) : Action → State → Prop
  | request {p input proc db} : Next env s.db (s.procs p) input proc db →
      Step s (.request p input) ((s.set p proc).store db)
  | opens {p id now token user command a conversations} :
      s.procs p = .admitted token user command → command.opening p user id now = some a →
      Conversations.Step s.conversations a conversations →
      Step s (.handOver p id now)
        ⟨conversations,
          Function.update s.procs p (.handedOver token user command (command.saved user id now))⟩
  | openRefused {p id now token user command a} : s.procs p = .admitted token user command →
      command.opening p user id now = some a → Conversations.step s.conversations a = none →
      Step s (.handOver p id now)
        (s.set p (.returned (.guarded token command) (.refused .queryFailed)))
  | conversation {a conversations} : a.user? = none →
      Conversations.Step s.conversations a conversations →
      Step s (.conversation a) { s with conversations }

variable {env} in
theorem step_some {s t : State} {a : Action} (h : (machine env).step s a = some t) :
    Step env s a t := by
  cases a with
  | request p input =>
    obtain ⟨⟨proc, db⟩, hnext, rfl⟩ := Option.map_eq_some_iff.mp h
    exact .request (next_some hnext)
  | handOver p id now =>
    simp only [machine, step] at h
    split at h
    · split at h
      · cases h
      · split at h <;> cases h
        · exact .openRefused ‹_› ‹_› ‹_›
        · exact .opens ‹_› ‹_› (step_iff.mp ‹_›)
    · cases h
  | conversation a =>
    simp only [machine, step] at h
    split at h
    · cases h
    · obtain ⟨conversations, hstep, rfl⟩ := Option.map_eq_some_iff.mp h
      exact .conversation ‹_› (step_iff.mp hstep)

/-- All that a step can do to one process. -/
inductive Moves (s : State) (a : Action) (t : State) (p : Pid) : Prop
  | kept : t.procs p = s.procs p → Moves s a t p
  | next {input} : a = .request p input →
      Next env s.db (s.procs p) input (t.procs p) t.db → Moves s a t p
  | hands {token user command saved} : s.procs p = .admitted token user command →
      t.procs p = .handedOver token user command saved → Moves s a t p
  | refused {request e} : t.procs p = .returned request (.refused e) → Moves s a t p

variable {env} in
theorem Step.moves {s t : State} {a : Action} (h : Step env s a t) (q : Pid) :
    Moves env s a t q := by
  cases h with
  | @request p input proc db hnext =>
    rcases eq_or_ne q p with rfl | hq
    · refine .next rfl ?_
      rw [State.store_procs, State.set_procs, Function.update_self]
      exact hnext
    · exact .kept (Function.update_of_ne hq ..)
  | @opens p _ _ _ _ _ _ _ hadmitted =>
    rcases eq_or_ne q p with rfl | hq
    · exact .hands hadmitted (Function.update_self ..)
    · exact .kept (Function.update_of_ne hq ..)
  | @openRefused p =>
    rcases eq_or_ne q p with rfl | hq
    · exact .refused (Function.update_self ..)
    · exact .kept (Function.update_of_ne hq ..)
  | conversation => exact .kept rfl

end SupportApi.Server
