import SupportApi.Lib.OrderBy
import SupportApi.Lib.Sql
import SupportApi.Data.Database

/-! `ConversationsService`: what each method reads, checks, writes and returns.
The methods that await more than once are cut at their awaits, so that the
concurrent model can place other requests between the pieces. -/

namespace SupportApi.Conversations

open Lib

structure CreateConversationDto where
  subject : String
  description : Option String
  customerEmail : String
  customerName : String
  priority : Option ConversationPriority
  deriving DecidableEq

structure ListConversationsDto where
  status : Option ConversationStatus
  agentId : Option Uuid
  page : Option Nat
  limit : Option Nat
  deriving DecidableEq

structure ResolveConversationDto where
  resolutionNote : Option String
  deriving DecidableEq

/-- A conversation as `findOne` loads it, with the joined assignee and messages. -/
structure LoadedConversation where
  conv : Conversation
  assignedAgent : Option User
  messages : List Message
  deriving DecidableEq

/-- The payload of a `RESOLUTION_JOB`. -/
structure ResolutionJob where
  conversationId : Uuid
  tenantId : Uuid
  customerEmail : String
  customerName : String
  subject : String
  resolvedAt : Option Time
  agentId : Uuid
  agentName : String
  resolutionNote : Option String
  deriving DecidableEq

-- TypeORM's `save` reads the row again and writes the columns in which the entity differs from
-- what it read; a column without a difference keeps what the row holds when the `UPDATE` runs.

def merge {α : Type} [DecidableEq α] (entity reread row : α) : α :=
  if entity = reread then row else entity

theorem merge_self {α : Type} [DecidableEq α] (entity row : α) : merge entity entity row = row :=
  if_pos rfl

theorem merge_of_ne {α : Type} [DecidableEq α] {entity reread : α} (row : α)
    (h : entity ≠ reread) : merge entity reread row = entity :=
  if_neg h

theorem merge_eq_left {α : Type} [DecidableEq α] {entity reread row : α}
    (h : entity = reread → row = entity) : merge entity reread row = entity := by
  by_cases heq : entity = reread
  · subst heq
    rw [merge_self]
    exact h rfl
  · exact merge_of_ne row heq

@[simp] theorem merge_row {α : Type} [DecidableEq α] (entity row : α) :
    merge entity row row = entity := by
  unfold merge
  split
  · rename_i h; exact h.symm
  · rfl

/-- The foreign key of a joined relation.  With `nulls`, as in TypeORM 0.3, a null of the entity is
written even where nothing differs. -/
def linked (nulls : Bool) (entity reread row : Option Uuid) : Option Uuid :=
  if nulls ∧ entity = none then none else merge entity reread row

theorem linked_of_ne {entity reread : Option Uuid} (nulls : Bool) (row : Option Uuid)
    (h : entity ≠ reread) : linked nulls entity reread row = entity := by
  unfold linked
  split
  · rename_i hnull; exact hnull.2.symm
  · exact merge_of_ne row h

theorem linked_of_eq {entity reread row : Option Uuid} (nulls : Bool) (h : entity = reread)
    (hrow : nulls = true → entity = none → row = none) :
    linked nulls entity reread row = row := by
  subst h
  unfold linked
  split
  · rename_i hnull; exact (hrow hnull.1 hnull.2).symm
  · exact merge_self ..

theorem linked_eq_left {entity reread row : Option Uuid} (nulls : Bool)
    (h : entity = reread → row = entity) : linked nulls entity reread row = entity := by
  by_cases heq : entity = reread
  · have hrow := h heq
    subst hrow
    exact linked_of_eq nulls heq fun _ hnone => hnone
  · exact linked_of_ne nulls row heq

@[simp] theorem linked_row (nulls : Bool) (entity row : Option Uuid) :
    linked nulls entity row row = entity :=
  linked_eq_left nulls Eq.symm

theorem linked_cases (nulls : Bool) (entity reread row : Option Uuid) :
    linked nulls entity reread row = entity ∨ linked nulls entity reread row = row := by
  unfold linked merge
  grind

/-- The row after the `UPDATE`.  The tenant is not loaded with the entity, so it
is never written; `updated_at` is set by the database unless the entity's own
value is written. -/
def written (nulls : Bool) (entity reread row : Conversation) (now : Time) : Conversation where
  id := row.id
  tenantId := row.tenantId
  subject := merge entity.subject reread.subject row.subject
  description := merge entity.description reread.description row.description
  status := merge entity.status reread.status row.status
  priority := merge entity.priority reread.priority row.priority
  assignedAgentId := linked nulls entity.assignedAgentId reread.assignedAgentId row.assignedAgentId
  customerEmail := merge entity.customerEmail reread.customerEmail row.customerEmail
  customerName := merge entity.customerName reread.customerName row.customerName
  resolvedAt := merge entity.resolvedAt reread.resolvedAt row.resolvedAt
  claimedAt := merge entity.claimedAt reread.claimedAt row.claimedAt
  createdAt := merge entity.createdAt reread.createdAt row.createdAt
  updatedAt :=
    if entity.updatedAt ≠ reread.updatedAt then entity.updatedAt
    else if entity = reread ∧ ¬(nulls ∧ entity.assignedAgentId = none) then row.updatedAt
    else now

def update (nulls : Bool) (db : Database) (entity reread : Conversation) (now : Time) :
    Option Database :=
  db.updateConversation reread.id (fun row => written nulls entity reread row now)
    fun _ => ⟨rfl, rfl⟩

def created (dto : CreateConversationDto) (tenantId id : Uuid) (now : Time) : Conversation where
  id := id
  tenantId := tenantId
  subject := dto.subject
  description := dto.description
  status := .opened
  priority := dto.priority.getD .medium
  assignedAgentId := none
  customerEmail := dto.customerEmail
  customerName := dto.customerName
  resolvedAt := none
  claimedAt := none
  createdAt := now
  updatedAt := now

def create (db : Database) (dto : CreateConversationDto) (user : User) (id : Uuid) (now : Time) :
    Except Exception (Conversation × Database) :=
  match user.tenantId with
  | none => .error .queryFailed
  | some tenantId =>
    match db.insertConversation (created dto tenantId id now).stored with
    | none => .error .queryFailed
    | some db' => .ok (created dto tenantId id now, db')

inductive Param
  | uuid (u : Uuid)
  | status (s : ConversationStatus)
  | int (n : Nat)
  deriving DecidableEq

/-- The conditions `findAll` writes, each with the number of its placeholder. -/
inductive Condition
  | tenant (n : Nat)
  | agentScope (n : Nat)
  | status (n : Nat)
  | agent (n : Nat)
  deriving DecidableEq

def Condition.holds (params : List Param) (c : Conversation) : Condition → Bool
  | .tenant n => Sql.bound params n = some (.uuid c.tenantId)
  | .agentScope n => c.assignedAgentId.all fun a => Sql.bound params n = some (.uuid a)
  | .status n => Sql.bound params n = some (.status c.status)
  | .agent n => c.assignedAgentId.any fun a => Sql.bound params n = some (.uuid a)

structure Where where
  conditions : List Condition
  params : List Param
  paramIdx : Nat

def Where.push (w : Where) (condition : Nat → Condition) (param : Param) : Where where
  conditions := w.conditions ++ [condition w.paramIdx]
  params := w.params ++ [param]
  paramIdx := w.paramIdx + 1

def Where.pushIf (w : Where) (condition : Nat → Condition) (param : Option Param) : Where :=
  match param with
  | none => w
  | some param => w.push condition param

def whereClause (dto : ListConversationsDto) (user : User) : Where :=
  let w : Where := ⟨[], [], 1⟩
  let w := w.pushIf .tenant (user.tenantId.map .uuid)
  let w := if user.role = .agent then w.push .agentScope (.uuid user.id) else w
  let w := w.pushIf .status (dto.status.map .status)
  w.pushIf .agent (dto.agentId.map .uuid)

def Where.matches (w : Where) (params : List Param) (c : Conversation) : Bool :=
  w.conditions.all fun condition => condition.holds params c

structure ListedConversation where
  conv : Conversation
  agentId : Option Uuid
  agentFirstName : Option String
  agentLastName : Option String
  agentEmail : Option String
  deriving DecidableEq

def listed (db : Database) (c : Conversation) : ListedConversation :=
  let agent := c.assignedAgentId.bind db.users.find?
  { conv := c
    agentId := agent.map fun u => u.id
    agentFirstName := agent.map fun u => u.firstName
    agentLastName := agent.map fun u => u.lastName
    agentEmail := agent.map fun u => u.email }

structure ConversationPage where
  data : List ListedConversation
  total : Nat
  page : Nat
  limit : Nat
  deriving DecidableEq

def boundInt (params : List Param) (n : Nat) : Nat :=
  match Sql.bound params n with
  | some (.int k) => k
  | _ => 0

def findAll (order : OrderBy (OrderBy.desc Conversation.createdAt)) (db : Database)
    (dto : ListConversationsDto) (user : User) : ConversationPage :=
  let page := dto.page.getD 1
  let limit := dto.limit.getD 20
  let offset := (page - 1) * limit
  let w := whereClause dto user
  let total := (db.conversations.select (w.matches w.params)).length
  let limitParam := w.paramIdx
  let offsetParam := w.paramIdx + 1
  let params := w.params ++ [.int limit, .int offset]
  let rows := order.sort (db.conversations.select (w.matches params))
  let data := ((rows.drop (boundInt params offsetParam)).take (boundInt params limitParam)).map
    (listed db)
  { data, total, page, limit }

/-- `WHERE conv.id = :id`, and `AND conv.tenant_id = :tenantId` for a user with a tenant. -/
def inTenant (user : User) (c : Conversation) : Bool := user.tenantId.all (· = c.tenantId)

def selectConversation (db : Database) (id : Uuid) (user : User) : Option Conversation :=
  (db.conversations.find? id).filter (inTenant user)

def load (db : Database) (conv : Conversation) : LoadedConversation where
  conv := conv
  assignedAgent := (conv.assignedAgentId.bind db.users.find?).map UserRow.toUser
  messages := db.messages.select fun m => m.conversationId = conv.id

def findOne (db : Database) (id : Uuid) (user : User) : Except Exception LoadedConversation :=
  match selectConversation db id user with
  | none => .error (.notFound "Conversation not found")
  | some conv =>
    if user.role = .agent ∧ conv.assignedAgentId.isSome ∧ conv.assignedAgentId ≠ some user.id then
      .error (.forbidden "Not authorized to view this conversation")
    else
      .ok (load db conv)

def mayClaim (user : User) : Except Exception Unit :=
  if user.role ≠ .agent ∧ user.role ≠ .tenantAdmin then
    .error (.forbidden "Only agents can claim conversations")
  else
    .ok ()

def assigned (conv : Conversation) (user : User) (now : Time) : Conversation :=
  { conv with assignedAgentId := some user.id, claimedAt := some now, status := .pending }

/-- The transaction from the locked row to its commit or its rollback. -/
def claimLocked (db : Database) (conv : Conversation) (user : User) (now : Time) :
    Except Exception (Conversation × Database) :=
  if conv.status = .resolved then
    .error (.badRequest "Cannot claim a resolved conversation")
  else if conv.assignedAgentId.isSome ∧ conv.assignedAgentId ≠ some user.id then
    .error (.conflict "This conversation was just claimed by another agent")
  else if conv.assignedAgentId = some user.id then
    .ok (conv, db)
  else
    match update true db (assigned conv user now) conv now with
    | none => .error .queryFailed
    | some db' => .ok ({ assigned conv user now with updatedAt := now }, db')

def mayResolve (conv : Conversation) (user : User) : Except Exception Unit :=
  if conv.status = .resolved then
    .error (.badRequest "Conversation is already resolved")
  else if user.role = .agent ∧ conv.assignedAgentId ≠ some user.id then
    .error (.forbidden "Only the assigned agent can resolve this conversation")
  else
    .ok ()

def resolved (loaded : LoadedConversation) (now : Time) : LoadedConversation :=
  { loaded with conv := { loaded.conv with status := .resolved, resolvedAt := some now } }

/-- The column values `save` takes from the entity; the assignee is the joined relation's. -/
def columns (loaded : LoadedConversation) : Conversation :=
  { loaded.conv with assignedAgentId := loaded.assignedAgent.map User.id }

/-- The messages that `save` finds of the conversation and the entity has not. -/
def orphaned (entity : LoadedConversation) (related : List Uuid) : List Uuid :=
  related.filter fun id => id ∉ entity.messages.map Message.id

/-- An orphaned message is to lose its conversation too, which its NOT NULL column refuses. -/
def save (nulls : Bool) (db : Database) (entity : LoadedConversation) (reread : Conversation)
    (related : List Uuid) (now : Time) : Option Database :=
  if orphaned entity related = [] then update nulls db (columns entity) reread now else none

def resolutionNote (dto : ResolveConversationDto) : Option String :=
  dto.resolutionNote.filter fun note => note ≠ ""

def noteMessage (conv : Conversation) (note : String) (id : Uuid) (now : Time) : Message where
  id := id
  conversationId := conv.id
  senderId := none
  senderType := .system
  body := "Resolution note: " ++ note
  isInternal := false
  createdAt := now

def resolutionJob (conv : Conversation) (user : User) (dto : ResolveConversationDto) :
    ResolutionJob where
  conversationId := conv.id
  tenantId := conv.tenantId
  customerEmail := conv.customerEmail
  customerName := conv.customerName
  subject := conv.subject
  resolvedAt := conv.resolvedAt
  agentId := user.id
  agentName := user.fullName
  resolutionNote := dto.resolutionNote

theorem find?_update_self {nulls : Bool} {db db' : Database} {entity reread : Conversation}
    {now : Time} (h : update nulls db entity reread now = some db') :
    db'.conversations.find? reread.id =
      (db.conversations.find? reread.id).map fun row =>
        written nulls entity reread row now :=
  Database.find?_updateConversation_self h

theorem find?_update_of_ne {nulls : Bool} {db db' : Database} {entity reread : Conversation}
    {now : Time} (h : update nulls db entity reread now = some db') {id : Uuid} (hne : id ≠ reread.id) :
    db'.conversations.find? id = db.conversations.find? id :=
  Database.find?_updateConversation_of_ne h hne

theorem messages_update {nulls : Bool} {db db' : Database} {entity reread : Conversation}
    {now : Time} (h : update nulls db entity reread now = some db') : db'.messages = db.messages :=
  (Database.updateConversation_some h).2.2.2

theorem save_some {nulls : Bool} {db db' : Database} {entity : LoadedConversation}
    {reread : Conversation} {related : List Uuid} {now : Time}
    (h : save nulls db entity reread related now = some db') :
    orphaned entity related = [] ∧ update nulls db (columns entity) reread now = some db' := by
  unfold save at h
  split at h
  · exact ⟨‹_›, h⟩
  · cases h

theorem update_none {nulls : Bool} {db : Database} {entity reread : Conversation} {now : Time}
    (h : update nulls db entity reread now = none) :
    ∃ row a, db.conversations.find? reread.id = some row ∧
      (written nulls entity reread row now).assignedAgentId = some a ∧ db.users.find? a = none :=
  Database.updateConversation_none h

theorem create_ok {db db' : Database} {dto : CreateConversationDto} {user : User} {id : Uuid}
    {now : Time} {conv : Conversation} (h : create db dto user id now = .ok (conv, db')) :
    db.insertConversation conv.stored = some db' ∧ conv.id = id ∧ user.tenantId = some conv.tenantId ∧
      conv.status = .opened ∧ conv.assignedAgentId = none ∧ conv.claimedAt = none ∧
      conv.resolvedAt = none := by
  unfold create at h
  split at h
  · cases h
  · rename_i tenantId htenant
    split at h <;> cases h
    exact ⟨‹_›, rfl, htenant, rfl, rfl, rfl, rfl⟩

theorem selectConversation_some {db : Database} {id : Uuid} {user : User} {conv : Conversation}
    (h : selectConversation db id user = some conv) :
    db.conversations.find? id = some conv ∧ inTenant user conv = true := by
  simpa [selectConversation, Option.filter_eq_some_iff] using h

theorem findOne_ok {db : Database} {id : Uuid} {user : User} {entity : LoadedConversation}
    (h : findOne db id user = .ok entity) :
    ∃ conv, selectConversation db id user = some conv ∧ entity = load db conv ∧
      ¬(user.role = .agent ∧ conv.assignedAgentId.isSome ∧ conv.assignedAgentId ≠ some user.id) := by
  unfold findOne at h
  split at h
  · cases h
  · rename_i conv hconv
    split at h <;> cases h
    exact ⟨conv, hconv, rfl, ‹_›⟩

theorem findOne_ok_iff {db : Database} {id : Uuid} {user : User} {loaded : LoadedConversation} :
    findOne db id user = .ok loaded ↔ ∃ conv, selectConversation db id user = some conv ∧
      ¬(user.role = .agent ∧ conv.assignedAgentId.isSome ∧ conv.assignedAgentId ≠ some user.id) ∧
      load db conv = loaded := by
  constructor
  · intro hload
    obtain ⟨conv, hconv, rfl, hagent⟩ := findOne_ok hload
    exact ⟨conv, hconv, hagent, rfl⟩
  · rintro ⟨conv, hconv, hagent, rfl⟩
    simp only [findOne, hconv, if_neg hagent]

theorem columns_load {db : Database} {conv : Conversation} (h : conv ∈ db.conversations.rows) :
    columns (load db conv) = conv := by
  have hagent : ((conv.assignedAgentId.bind db.users.find?).map UserRow.toUser).map User.id =
      conv.assignedAgentId := by
    rw [Option.map_map]
    exact Database.find?_assignedAgent h
  simp only [columns, load, hagent]

theorem columns_resolved (entity : LoadedConversation) (now : Time) :
    columns (resolved entity now) =
      { columns entity with status := .resolved, resolvedAt := some now } := rfl

theorem claimLocked_ok {db db' : Database} {conv reply : Conversation} {user : User} {now : Time}
    (h : claimLocked db conv user now = .ok (reply, db')) :
    conv.status ≠ .resolved ∧
      ((conv.assignedAgentId = some user.id ∧ reply = conv ∧ db' = db) ∨
        (conv.assignedAgentId = none ∧ update true db (assigned conv user now) conv now = some db' ∧
          reply = { assigned conv user now with updatedAt := now })) := by
  unfold claimLocked at h
  split at h
  · cases h
  · rename_i hstatus
    refine ⟨hstatus, ?_⟩
    split at h
    · cases h
    · rename_i hother
      split at h
      · cases h; exact Or.inl ⟨‹_›, rfl, rfl⟩
      · rename_i hmine
        split at h <;> cases h
        refine Or.inr ⟨?_, ‹_›, rfl⟩
        cases ha : conv.assignedAgentId with
        | none => rfl
        | some a => exact absurd ⟨by simp [ha], hmine⟩ hother

theorem mayResolve_ok {conv : Conversation} {user : User} (h : mayResolve conv user = .ok ()) :
    conv.status ≠ .resolved ∧ (user.role = .agent → conv.assignedAgentId = some user.id) := by
  unfold mayResolve at h
  split at h
  · cases h
  · split at h
    · cases h
    · rename_i hstatus hagent
      exact ⟨hstatus, fun hrole => Decidable.byContradiction fun hne => hagent ⟨hrole, hne⟩⟩

end SupportApi.Conversations
