import SupportApi.Auth.Service
import SupportApi.Data.Seed

universe u v

namespace SupportApi

def ConversationStatus.read : String → Option ConversationStatus
  | "open" => some .opened
  | "pending" => some .pending
  | "resolved" => some .resolved
  | "closed" => some .closed
  | _ => none

def ConversationPriority.read : String → Option ConversationPriority
  | "low" => some .low
  | "medium" => some .medium
  | "high" => some .high
  | "urgent" => some .urgent
  | _ => none

def MessageSenderType.read : String → Option MessageSenderType
  | "customer" => some .customer
  | "agent" => some .agent
  | "system" => some .system
  | _ => none

namespace Seed

open Lib Auth

variable {ν : Type u}

def TENANT_COUNT : Nat := 5

def TENANT_NAMES : List String := ["Acme Corp", "Globex Inc", "Initech", "Umbrella Ltd", "Hooli"]

def TENANT_SLUGS : List String := ["acme-corp", "globex-inc", "initech", "umbrella-ltd", "hooli"]

def SUBJECTS : List String := [
  "Cannot login to my account",
  "Payment not processed",
  "Product not delivered",
  "Refund request",
  "Technical issue with API",
  "Billing discrepancy",
  "Feature request",
  "Account suspended",
  "Data export request",
  "Integration help needed",
  "Password reset not working",
  "Slow performance issue"]

def STATUSES : List String := ["open", "pending", "resolved", "closed"]

def PRIORITIES : List String := ["low", "medium", "high", "urgent"]

def FIRST_NAMES : List String :=
  ["Alice", "Bob", "Carol", "David", "Eve", "Frank", "Grace", "Henry", "Iris", "Jack"]

def LAST_NAMES : List String :=
  ["Smith", "Jones", "Williams", "Brown", "Taylor", "Davis", "Wilson", "Moore"]

def DOMAINS : List String :=
  ["gmail.com", "yahoo.com", "outlook.com", "hotmail.com", "example.com"]

def MESSAGE_BODIES : List String := [
  "I have been experiencing this issue for a few days now.",
  "Can you please provide more details about this problem?",
  "I have checked my account and everything seems correct.",
  "Thank you for reaching out. We are looking into this.",
  "We have identified the issue and are working on a fix.",
  "Could you please provide your account ID for faster resolution?",
  "The issue has been escalated to our technical team.",
  "We apologize for the inconvenience caused.",
  "Your issue has been resolved. Please let us know if you need further help.",
  "I tried the steps you suggested but the problem persists."]

def senderTypes : List String := ["customer", "agent", "system"]

def day : Time := 24 * 60 * 60 * 1000

/-- The floating point numbers, with what the seeder computes on them. -/
structure Numbers (ν : Type u) where
  /-- The literal for `n / 100`. -/
  hundredths : Nat → ν
  add : ν → ν → ν
  lt : ν → ν → Bool
  /-- `Math.floor(rand * n)`. -/
  floor : ν → Nat → Nat
  /-- `new Date(start + rand * (end - start))`. -/
  date : Time → Time → ν → Time
  /-- `new Date(start + rand * 7 * 24 * 60 * 60 * 1000)`. -/
  week : Time → ν → Time

/-- A number that `Math.random()` returns: it is not negative and less than one. -/
structure Random (numbers : Numbers ν) where
  value : ν
  floor_lt : ∀ n, 0 < n → numbers.floor value n < n
  date_mem : ∀ start stop, start ≤ stop →
    start ≤ numbers.date start stop value ∧ numbers.date start stop value ≤ stop
  week_mem : ∀ start, start ≤ numbers.week start value ∧
    numbers.week start value ≤ start + 7 * day

variable {numbers : Numbers ν}

def STATUS_WEIGHTS (numbers : Numbers ν) : List ν := [35, 25, 30, 10].map numbers.hundredths

def randomChoice {α : Type v} (arr : List α) (h : arr ≠ []) (rand : Random numbers) : α :=
  arr.get ⟨numbers.floor rand.value arr.length, rand.floor_lt _ (List.length_pos_iff.mpr h)⟩

/-- The loop of `weightedChoice`; a weight that is missing adds up to `NaN`, which nothing is
less than. -/
def weightedChoiceFrom (rand : Random numbers) (last : String) (cumulative : ν) :
    List String → List ν → String
  | item :: items, weight :: weights =>
    let cumulative := numbers.add cumulative weight
    if numbers.lt rand.value cumulative then item
    else weightedChoiceFrom rand last cumulative items weights
  | _, _ => last

def weightedChoice (items : List String) (h : items ≠ []) (weights : List ν)
    (rand : Random numbers) : String :=
  weightedChoiceFrom rand (items.getLast h) (numbers.hundredths 0) items weights

def randomDate (start stop : Time) (rand : Random numbers) : Time :=
  numbers.date start stop rand.value

/-- `toLowerCase`, of ASCII. -/
def toLowerCase (s : String) : String := String.ofList (s.toList.map Char.toLower)

def randomEmail (firstName lastName : String) (suffix domain : Random numbers) : String :=
  toLowerCase firstName ++ "." ++ toLowerCase lastName ++
    toString (numbers.floor suffix.value 999) ++ "@" ++ randomChoice DOMAINS (by decide) domain

structure ConversationDraws (numbers : Numbers ν) where
  status : Random numbers
  priority : Random numbers
  subject : Random numbers
  firstName : Random numbers
  lastName : Random numbers
  suffix : Random numbers
  domain : Random numbers
  createdAt : Random numbers
  assignedAgentId : Random numbers
  resolvedAt : Random numbers

structure MessageDraws (numbers : Numbers ν) where
  senderType : Random numbers
  body : Random numbers
  createdAt : Random numbers

/-- What PostgreSQL fills in: `gen_random_uuid()` and `NOW()`. -/
structure Defaults where
  id : Uuid
  now : Time

/-- All that a run of the seeder does not decide itself, and is told one statement or row after
the other. -/
structure Run (numbers : Numbers ν) where
  /-- The order in which PostgreSQL comes to the statements of `Promise.all`. -/
  order : List (Fin TENANT_COUNT)
  order_perm : order.Perm (List.finRange TENANT_COUNT)
  salt : String
  now : Time
  tenants : Fin TENANT_COUNT → Defaults
  users : Nat → Defaults
  firstNames : Nat → Random numbers
  lastNames : Nat → Random numbers
  conversations : Nat → Defaults
  conversationDraws : Nat → ConversationDraws numbers
  messages : Nat → Defaults
  messageDraws : Nat → MessageDraws numbers

inductive Cell
  | text (s : String)
  | bool (b : Bool)
  | date (t : Time)
  | null
  deriving DecidableEq

def Cell.ofId (id : Uuid) : Cell := .text (String.ofList id.text)

def Cell.orNull {α : Type v} (f : α → Cell) : Option α → Cell
  | none => .null
  | some a => f a

def Cell.string : Cell → Option String
  | .text s => some s
  | _ => none

def Cell.uuid (cell : Cell) : Option Uuid := cell.string.bind Uuid.parse

def Cell.boolean : Cell → Option Bool
  | .bool b => some b
  | _ => none

def Cell.time : Cell → Option Time
  | .date t => some t
  | _ => none

def Cell.nullable {α : Type v} (read : Cell → Option α) : Cell → Option (Option α)
  | .null => some none
  | cell => (read cell).map some

def readConversation (defaults : Defaults) : List (Option Cell) → Option Conversation
  | [some tenantId, some subject, some description, some status, some priority,
      some assignedAgentId, some customerEmail, some customerName, some resolvedAt,
      some createdAt, some updatedAt] => do
    return {
      id := defaults.id
      tenantId := ← tenantId.uuid
      subject := ← subject.string
      description := ← description.nullable Cell.string
      status := ← status.string.bind ConversationStatus.read
      priority := ← priority.string.bind ConversationPriority.read
      assignedAgentId := ← assignedAgentId.nullable Cell.uuid
      customerEmail := ← customerEmail.string
      customerName := ← customerName.string
      resolvedAt := ← resolvedAt.nullable Cell.time
      claimedAt := none
      createdAt := ← createdAt.time
      updatedAt := ← updatedAt.time }
  | _ => none

def readMessage (defaults : Defaults) : List (Option Cell) → Option Message
  | [some conversationId, some senderType, some body, some isInternal, some createdAt] => do
    return {
      id := defaults.id
      conversationId := ← conversationId.uuid
      senderId := none
      senderType := ← senderType.string.bind MessageSenderType.read
      body := ← body.string
      isInternal := ← isInternal.boolean
      createdAt := ← createdAt.time }
  | _ => none

/-- `INSERT INTO tenants … ON CONFLICT (slug) DO UPDATE SET name = EXCLUDED.name RETURNING id`. -/
def upsertTenant (db : Database) (name slug : String) (defaults : Defaults) :
    Option (Database × Uuid) :=
  let tenant : Tenant := ⟨defaults.id, name, slug, true, none, defaults.now, defaults.now⟩
  if tenant.fits then
    match (db.tenants.select fun t => t.slug = slug).head? with
    | some found => (db.renameTenant found.id name).map fun db => (db, found.id)
    | none => (db.insertTenant tenant).map fun db => (db, tenant.id)
  else none

def userRow (defaults : Defaults) (tenantId : Option Uuid)
    (firstName lastName email hashedPassword : String) (role : UserRole) : UserRow where
  id := defaults.id
  tenantId := tenantId
  firstName := firstName
  lastName := lastName
  email := email
  role := role
  isActive := true
  refreshToken := none
  createdAt := defaults.now
  updatedAt := defaults.now
  password := hashedPassword

/-- The address within its tenant, which no two rows share; one outside all tenants is its own. -/
def taken (db : Database) (u : UserRow) : Bool :=
  u.tenantId.isSome && db.users.rows.any fun v => v.tenantId = u.tenantId && v.email = u.email

/-- `INSERT INTO users … ON CONFLICT DO NOTHING RETURNING id`. -/
def insertOrNothing (db : Database) (u : UserRow) : Option (Database × Option Uuid) :=
  if u.fits && (taken db u || (db.users.find? u.key).isSome) then some (db, none)
  else (db.insertUser u).map fun db => (db, some u.id)

section Load

variable {β : Type} (read : Defaults → List (Option Cell) → Option β)
  (save : Database → β → Option Database) (defaults : Nat → Defaults)

def saveRow (s : Database × List β) (cells : List (Option Cell)) :
    Option (Database × List β) := do
  let row ← read (defaults s.2.length) cells
  let db ← save s.1 row
  return (db, s.2 ++ [row])

def Insert.execute (s : Database × List β) (insert : Insert Cell) : Option (Database × List β) :=
  (insert.placeholders.map fun row => row.placeholders.map (Sql.bound insert.values)).foldlM
    (saveRow read save defaults) s

def load (effects : List (Effect Cell)) (db : Database) : Option (Database × List β) :=
  (queries effects).foldlM (Insert.execute read save defaults) (db, [])

end Load

def tenantName (i : Fin TENANT_COUNT) : String := TENANT_NAMES.get i

def tenantSlug (i : Fin TENANT_COUNT) : String := TENANT_SLUGS.get i

variable (bcrypt : Bcrypt) (run : Run numbers)

/-- `tenantIds` come in the order of `TENANT_NAMES`, however the statements were ordered. -/
def seedTenants (db : Database) : Option (Database × List Uuid) := do
  let (db, inserted) ← run.order.foldlM
    (fun s i => (upsertTenant s.1 (tenantName i) (tenantSlug i) (run.tenants i)).map
      fun (db, id) => (db, (i, id) :: s.2))
    (db, [])
  return (db, (List.finRange TENANT_COUNT).filterMap fun i => inserted.lookup i)

def hashedPassword : String := bcrypt.hash run.salt (utf8 "Password123!".toList)

def superAdmin : UserRow :=
  userRow (run.users 0) none "Super" "Admin" "superadmin@platform.com" (hashedPassword bcrypt run)
    .superAdmin

def tenantAdmin (tenantIdx : Nat) (tenantId : Uuid) (slug : String) : UserRow :=
  userRow (run.users (3 * tenantIdx + 1)) (some tenantId) "Admin" slug ("admin@" ++ slug ++ ".com")
    (hashedPassword bcrypt run) .tenantAdmin

def agent (tenantIdx : Nat) (tenantId : Uuid) (slug : String) (a : Nat) : UserRow :=
  userRow (run.users (3 * tenantIdx + 1 + a)) (some tenantId)
    (randomChoice FIRST_NAMES (by decide) (run.firstNames (3 * tenantIdx + a)))
    (randomChoice LAST_NAMES (by decide) (run.lastNames (3 * tenantIdx + a)))
    ("agent" ++ toString a ++ "@" ++ slug ++ ".com") (hashedPassword bcrypt run) .agent

def seedTenantUsers (tenantIds : List Uuid) (s : Database × List (Uuid × List Uuid))
    (tenantId : Uuid) : Option (Database × List (Uuid × List Uuid)) := do
  let tenantIdx := tenantIds.idxOf tenantId
  let slug ← TENANT_SLUGS[tenantIdx]?
  let (db, _) ← insertOrNothing s.1 (tenantAdmin bcrypt run tenantIdx tenantId slug)
  let (db, agents) ← [1, 2].foldlM
    (fun s a => (insertOrNothing s.1 (agent bcrypt run tenantIdx tenantId slug a)).map
      fun (db, id) => (db, s.2 ++ id.toList))
    (db, [])
  return (db, (tenantId, agents) :: s.2)

def conversationRow (draws : ConversationDraws numbers) (now : Time) (tenantId : Option Uuid)
    (agents : List Uuid) : List Cell :=
  let status := weightedChoice STATUSES (by decide) (STATUS_WEIGHTS numbers) draws.status
  let priority := randomChoice PRIORITIES (by decide) draws.priority
  let subject := randomChoice SUBJECTS (by decide) draws.subject
  let firstName := randomChoice FIRST_NAMES (by decide) draws.firstName
  let lastName := randomChoice LAST_NAMES (by decide) draws.lastName
  let customerEmail := randomEmail firstName lastName draws.suffix draws.domain
  let createdAt := randomDate (now - 90 * day) now draws.createdAt
  let assignedAgentId :=
    if h : status ≠ "open" ∧ agents ≠ [] then some (randomChoice agents h.2 draws.assignedAgentId)
    else none
  let resolvedAt :=
    if status = "resolved" ∨ status = "closed" then
      some (numbers.week createdAt draws.resolvedAt.value)
    else none
  [.orNull .ofId tenantId,
    .text subject,
    .text ("Customer reported: " ++ toLowerCase subject ++ ". Please investigate."),
    .text status,
    .text priority,
    .orNull .ofId assignedAgentId,
    .text customerEmail,
    .text (firstName ++ " " ++ lastName),
    .orNull .date resolvedAt,
    .date createdAt,
    .date createdAt]

def turn (tenantIds : List Uuid) (i : Nat) : Option Uuid := tenantIds[i % TENANT_COUNT]?

def agentsOf (agentIdsByTenant : List (Uuid × List Uuid)) (tenantId : Option Uuid) : List Uuid :=
  (tenantId.bind fun id => agentIdsByTenant.lookup id).getD []

def conversationRows (tenantIds : List Uuid) (agentIdsByTenant : List (Uuid × List Uuid)) :
    List (List Cell) :=
  (List.range TOTAL_CONVERSATIONS).map fun i =>
    conversationRow (run.conversationDraws i) run.now (turn tenantIds i)
      (agentsOf agentIdsByTenant (turn tenantIds i))

def messageRow (draws : MessageDraws numbers) (now : Time) (conversationId : Option Uuid) :
    List Cell :=
  [.orNull .ofId conversationId,
    .text (randomChoice senderTypes (by decide) draws.senderType),
    .text (randomChoice MESSAGE_BODIES (by decide) draws.body),
    .bool false,
    .date (randomDate (now - 30 * day) now draws.createdAt)]

def messageRows (conversationIds : List Uuid) : List (List Cell) :=
  (List.range TOTAL_MESSAGES).map fun i =>
    messageRow (run.messageDraws i) run.now conversationIds[i % conversationIds.length]?

def seed (db : Database) : Option Database := do
  let (db, tenantIds) ← seedTenants run db
  let (db, _) ← insertOrNothing db (superAdmin bcrypt run)
  let (db, agentIdsByTenant) ← tenantIds.foldlM (seedTenantUsers bcrypt run tenantIds) (db, [])
  let (db, conversations) ← load readConversation Database.insertConversation run.conversations
    (insertConversations (conversationRows run tenantIds agentIdsByTenant)) db
  let (db, _) ← load readMessage Database.insertMessage run.messages
    (insertMessages (messageRows run (conversations.map Conversation.id))) db
  return db

end Seed

end SupportApi
