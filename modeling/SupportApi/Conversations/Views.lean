import SupportApi.Conversations.Requests
import SupportApi.Lib.Sql

namespace SupportApi.Conversations

open Lib

def Condition.placeholder : Condition → Nat
  | .tenant n | .agentScope n | .status n | .agent n => n

def Condition.sql : Condition → Sql.Text
  | .tenant n => [.text "conv.tenant_id", .text "=", .placeholder n]
  | .agentScope n =>
    [.text "(", .text "conv.assigned_agent_id", .text "=", .placeholder n,
      .text "OR", .text "conv.assigned_agent_id", .text "IS", .text "NULL", .text ")"]
  | .status n => [.text "conv.status", .text "=", .placeholder n]
  | .agent n => [.text "conv.assigned_agent_id", .text "=", .placeholder n]

def Where.sql (w : Where) : Sql.Text :=
  if w.conditions = [] then []
  else .text "WHERE" :: Sql.separated "AND" (w.conditions.map Condition.sql)

def countQuery (w : Where) : Sql.Text :=
  .text "SELECT COUNT(*)::int AS total" :: .text "FROM conversations conv" :: w.sql

def dataColumns : String :=
  "conv.id, conv.subject, conv.description, conv.status, conv.priority, " ++
  "conv.customer_email AS \"customerEmail\", conv.customer_name AS \"customerName\", " ++
  "conv.resolved_at AS \"resolvedAt\", conv.claimed_at AS \"claimedAt\", " ++
  "conv.created_at AS \"createdAt\", conv.updated_at AS \"updatedAt\", " ++
  "conv.tenant_id AS \"tenantId\", conv.assigned_agent_id AS \"assignedAgentId\", " ++
  "agent.id AS \"agentId\", agent.first_name AS \"agentFirstName\", " ++
  "agent.last_name AS \"agentLastName\", agent.email AS \"agentEmail\""

def dataQuery (w : Where) : Sql.Text :=
  [.text ("SELECT " ++ dataColumns), .text "FROM conversations conv",
    .text "LEFT JOIN users agent ON agent.id = conv.assigned_agent_id"] ++ w.sql ++
  [.text "ORDER BY conv.created_at DESC", .text "LIMIT", .placeholder w.paramIdx,
    .text "OFFSET", .placeholder (w.paramIdx + 1)]

def column : String → Option (Conversation → Option Param)
  | "conv.tenant_id" => some fun c => some (.uuid c.tenantId)
  | "conv.assigned_agent_id" => some fun c => c.assignedAgentId.map .uuid
  | "conv.status" => some fun c => some (.status c.status)
  | _ => none

/-- What PostgreSQL answers a text that counts conversations. -/
def runCount (db : Database) (values : List Param) : Sql.Text → Option Nat
  | .text "SELECT COUNT(*)::int AS total" :: .text "FROM conversations conv" :: clause =>
    (Sql.selection column values clause).map fun asks => (db.conversations.select asks).length
  | _ => none

/-- What PostgreSQL answers a text that lists conversations with their assignees. -/
def runData (order : OrderBy (OrderBy.desc Conversation.createdAt)) (db : Database)
    (values : List Param) : Sql.Text → Option (List ListedConversation)
  | .text _ :: .text "FROM conversations conv" ::
      .text "LEFT JOIN users agent ON agent.id = conv.assigned_agent_id" :: rest =>
    match rest.splitOn (.text "ORDER BY conv.created_at DESC") with
    | [clause, [.text "LIMIT", .placeholder n, .text "OFFSET", .placeholder m]] =>
      match Sql.selection column values clause, Sql.bound values n, Sql.bound values m with
      | some asks, some (.int limit), some (.int offset) =>
        some ((((order.sort (db.conversations.select asks)).drop offset).take limit).map (listed db))
      | _, _, _ => none
    | _ => none
  | _ => none

def Condition.pushed (dto : ListConversationsDto) (user : User) : Condition → Option Param
  | .tenant _ => user.tenantId.map .uuid
  | .agentScope _ => some (.uuid user.id)
  | .status _ => dto.status.map .status
  | .agent _ => dto.agentId.map .uuid

variable {dto : ListConversationsDto} {user : User} {w : Where}

theorem placeholders_sql (w : Where) :
    w.sql.placeholders = w.conditions.map Condition.placeholder := by
  have hsql : ∀ condition : Condition, condition.sql.placeholders = [condition.placeholder] := by
    intro condition
    cases condition <;> rfl
  unfold Where.sql
  split
  · rename_i hnone
    rw [hnone]
    rfl
  · rw [Sql.Text.placeholders_text, Sql.Text.placeholders_separated, List.flatMap_map]
    simp only [hsql]
    exact List.map_eq_flatMap.symm

/-- The conditions are numbered in turn, and each number is that of the condition's own value. -/
structure Where.Numbered (dto : ListConversationsDto) (user : User) (w : Where) : Prop where
  paramIdx : w.paramIdx = w.params.length + 1
  placeholders : w.conditions.map Condition.placeholder = List.range' 1 w.params.length
  values : ∀ condition ∈ w.conditions, ∃ param, condition.pushed dto user = some param ∧
    Sql.bound w.params condition.placeholder = some param

theorem Where.Numbered.push (h : w.Numbered dto user) {condition : Nat → Condition} {param : Param}
    (hplaceholder : ∀ n, (condition n).placeholder = n)
    (hpushed : ∀ n, (condition n).pushed dto user = some param) :
    (w.push condition param).Numbered dto user where
  paramIdx := by
    simp only [Where.push, List.length_append, List.length_singleton, h.paramIdx]
  placeholders := by
    simp only [Where.push, List.map_append, List.map_singleton, List.length_append,
      List.length_singleton, List.range'_concat, h.placeholders, hplaceholder, h.paramIdx]
    simp only [Nat.one_mul, Nat.add_comm]
  values := by
    intro c hc
    rcases List.mem_append.mp hc with hc | hc
    · obtain ⟨p, hp, hbound⟩ := h.values c hc
      exact ⟨p, hp, Sql.bound_append hbound _⟩
    · rw [List.mem_singleton] at hc
      subst hc
      refine ⟨param, hpushed _, ?_⟩
      rw [hplaceholder, h.paramIdx]
      exact Sql.bound_length _ _ []

theorem Where.Numbered.pushIf (h : w.Numbered dto user) {condition : Nat → Condition}
    {param : Option Param} (hplaceholder : ∀ n, (condition n).placeholder = n)
    (hpushed : ∀ n, (condition n).pushed dto user = param) :
    (w.pushIf condition param).Numbered dto user := by
  cases param with
  | none => exact h
  | some param => exact h.push hplaceholder hpushed

theorem whereClause_numbered (dto : ListConversationsDto) (user : User) :
    (whereClause dto user).Numbered dto user := by
  have hstart : (⟨[], [], 1⟩ : Where).Numbered dto user := ⟨rfl, rfl, by simp⟩
  let tenant := (⟨[], [], 1⟩ : Where).pushIf .tenant (user.tenantId.map .uuid)
  have htenant : tenant.Numbered dto user := hstart.pushIf (fun _ => rfl) fun _ => rfl
  let own := if user.role = .agent then tenant.push .agentScope (.uuid user.id) else tenant
  have hown : own.Numbered dto user := by
    dsimp only [own]
    split
    · exact htenant.push (fun _ => rfl) fun _ => rfl
    · exact htenant
  have hstatus : (own.pushIf .status (dto.status.map .status)).Numbered dto user :=
    hown.pushIf (fun _ => rfl) fun _ => rfl
  exact hstatus.pushIf (fun _ => rfl) fun _ => rfl

theorem holds_append {condition : Condition} {param : Param} {params : List Param}
    (h : Sql.bound params condition.placeholder = some param) (rest : List Param) (c : Conversation) :
    condition.holds (params ++ rest) c = condition.holds params c := by
  have hrest : Sql.bound (params ++ rest) condition.placeholder = some param := Sql.bound_append h rest
  cases condition <;> simp only [Condition.placeholder] at h hrest <;>
    simp only [Condition.holds, h, hrest]

theorem Where.Numbered.matches_append (h : w.Numbered dto user) (rest : List Param) :
    w.matches (w.params ++ rest) = w.matches w.params := by
  funext c
  unfold Where.matches
  rw [Bool.eq_iff_iff, List.all_eq_true, List.all_eq_true]
  apply forall₂_congr
  intro condition hmem
  obtain ⟨param, -, hbound⟩ := h.values condition hmem
  rw [holds_append hbound]

def Condition.Asks (dto : ListConversationsDto) (user : User) (c : Conversation) :
    Condition → Prop
  | .tenant _ => ∀ t, user.tenantId = some t → c.tenantId = t
  | .agentScope _ => ∀ a, c.assignedAgentId = some a → a = user.id
  | .status _ => ∀ s, dto.status = some s → c.status = s
  | .agent _ => ∀ a, dto.agentId = some a → c.assignedAgentId = some a

theorem holds_iff {condition : Condition} {param : Param} {params : List Param}
    (hpushed : condition.pushed dto user = some param)
    (hbound : Sql.bound params condition.placeholder = some param) (c : Conversation) :
    condition.holds params c = true ↔ condition.Asks dto user c := by
  cases condition with
  | tenant n =>
    obtain ⟨t, ht, rfl⟩ := Option.map_eq_some_iff.mp hpushed
    simp only [Condition.placeholder] at hbound
    simp [Condition.holds, Condition.Asks, hbound, ht, eq_comm]
  | agentScope n =>
    cases hpushed
    simp only [Condition.placeholder] at hbound
    cases ha : c.assignedAgentId <;> simp [Condition.holds, Condition.Asks, hbound, ha, eq_comm]
  | status n =>
    obtain ⟨t, ht, rfl⟩ := Option.map_eq_some_iff.mp hpushed
    simp only [Condition.placeholder] at hbound
    simp [Condition.holds, Condition.Asks, hbound, ht, eq_comm]
  | agent n =>
    obtain ⟨t, ht, rfl⟩ := Option.map_eq_some_iff.mp hpushed
    simp only [Condition.placeholder] at hbound
    cases ha : c.assignedAgentId <;>
      simp [Condition.holds, Condition.Asks, hbound, ht, ha, eq_comm]

theorem Where.Numbered.matches_iff (h : w.Numbered dto user) (c : Conversation) :
    w.matches w.params c = true ↔ ∀ condition ∈ w.conditions, condition.Asks dto user c := by
  rw [Where.matches, List.all_eq_true]
  apply forall₂_congr
  intro condition hmem
  obtain ⟨param, hpushed, hbound⟩ := h.values condition hmem
  exact holds_iff hpushed hbound c

theorem forall_pushIf {P : Condition → Prop} {condition : Nat → Condition} {param : Option Param}
    (hnone : param = none → P (condition w.paramIdx)) :
    (∀ x ∈ (w.pushIf condition param).conditions, P x) ↔
      (∀ x ∈ w.conditions, P x) ∧ P (condition w.paramIdx) := by
  cases param with
  | none => exact (and_iff_left (hnone rfl)).symm
  | some param => simp [Where.pushIf, Where.push, or_imp, forall_and]

theorem forall_whereClause {c : Conversation} :
    (∀ condition ∈ (whereClause dto user).conditions, condition.Asks dto user c) ↔
      (((∀ t, user.tenantId = some t → c.tenantId = t) ∧
        (user.role = .agent → ∀ a, c.assignedAgentId = some a → a = user.id)) ∧
        ∀ s, dto.status = some s → c.status = s) ∧
      ∀ a, dto.agentId = some a → c.assignedAgentId = some a := by
  have hleft : ∀ {α β : Type} {o : Option α} {f : α → β} {p : α → Prop},
      o.map f = none → ∀ a, o = some a → p a := by
    rintro α β o f p hnone a rfl
    cases hnone
  let tenant := (⟨[], [], 1⟩ : Where).pushIf .tenant (user.tenantId.map .uuid)
  have htenant : (∀ x ∈ tenant.conditions, x.Asks dto user c) ↔
      ∀ t, user.tenantId = some t → c.tenantId = t :=
    (forall_pushIf fun h => hleft h).trans (by simp [Condition.Asks])
  let own := if user.role = .agent then tenant.push .agentScope (.uuid user.id) else tenant
  have hown : (∀ x ∈ own.conditions, x.Asks dto user c) ↔
      (∀ t, user.tenantId = some t → c.tenantId = t) ∧
        (user.role = .agent → ∀ a, c.assignedAgentId = some a → a = user.id) := by
    dsimp only [own]
    split
    · rename_i hrole
      have hpush : (∀ x ∈ (tenant.pushIf .agentScope (some (.uuid user.id))).conditions,
          x.Asks dto user c) ↔ _ := forall_pushIf fun h => by cases h
      rw [imp_iff_right hrole, ← htenant]
      exact hpush
    · rename_i hrole
      rw [htenant]
      exact (and_iff_left fun h => absurd h hrole).symm
  have hstatus : (∀ x ∈ (own.pushIf .status (dto.status.map .status)).conditions,
      x.Asks dto user c) ↔ _ := forall_pushIf fun h => hleft h
  have hagent : (∀ x ∈ (whereClause dto user).conditions, x.Asks dto user c) ↔ _ :=
    forall_pushIf fun h => hleft h
  rw [hagent, hstatus, hown]
  rfl

theorem condition_sql {condition : Condition} {param : Param} {params : List Param}
    (hbound : Sql.bound params condition.placeholder = some param) :
    Sql.condition column params condition.sql = some (condition.holds params) := by
  have htenant : column "conv.tenant_id" = some fun c => some (.uuid c.tenantId) := rfl
  have hagent : column "conv.assigned_agent_id" = some fun c => c.assignedAgentId.map .uuid := rfl
  have hstatus : column "conv.status" = some fun c => some (.status c.status) := rfl
  cases condition <;> simp only [Condition.placeholder] at hbound <;>
    simp only [Condition.sql, Sql.condition_equal, Sql.condition_equal_or_null, htenant, hagent,
      hstatus, hbound, Option.bind_some, Option.map_some, Option.some.injEq] <;> funext c
  case tenant n => simp [Sql.equal, Condition.holds, hbound, eq_comm]
  case agentScope n =>
    cases ha : c.assignedAgentId <;> simp [Sql.equal, Condition.holds, hbound, ha, eq_comm]
  case status n => simp [Sql.equal, Condition.holds, hbound, eq_comm]
  case agent n =>
    cases ha : c.assignedAgentId <;> simp [Sql.equal, Condition.holds, hbound, ha, eq_comm]

theorem Where.Numbered.selection (h : w.Numbered dto user) (rest : List Param) :
    Sql.selection column (w.params ++ rest) w.sql = some (w.matches (w.params ++ rest)) := by
  unfold Where.sql
  split
  · rename_i hnone
    have hall : w.matches (w.params ++ rest) = fun _ => true := by
      funext c
      rw [Where.matches, hnone, List.all_nil]
    rw [hall]
    rfl
  · rename_i hsome
    refine Sql.selection_separated hsome ?_ ?_
    · intro condition _
      cases condition <;> simp [Condition.sql]
    · intro condition hmem
      obtain ⟨param, -, hbound⟩ := h.values condition hmem
      exact condition_sql (Sql.bound_append hbound rest)

theorem order_notMem_sql (w : Where) : .text "ORDER BY conv.created_at DESC" ∉ w.sql := by
  unfold Where.sql
  split
  · exact List.not_mem_nil
  · rw [List.mem_cons, not_or]
    refine ⟨by simp, fun hmem => ?_⟩
    rcases Sql.mem_separated hmem with hand | ⟨t, ht, hmem⟩
    · simp at hand
    · obtain ⟨condition, -, rfl⟩ := List.mem_map.mp ht
      cases condition <;> simp [Condition.sql] at hmem

theorem Where.Numbered.runCount (h : w.Numbered dto user) (db : Database) :
    runCount db w.params (countQuery w) =
      some (db.conversations.select (w.matches w.params)).length := by
  have hselection := h.selection []
  rw [List.append_nil] at hselection
  simp only [countQuery, Conversations.runCount, hselection, Option.map_some]

theorem Where.Numbered.bound_page (h : w.Numbered dto user) (limit offset : Nat) :
    Sql.bound (w.params ++ [.int limit, .int offset]) w.paramIdx = some (.int limit) ∧
      Sql.bound (w.params ++ [.int limit, .int offset]) (w.paramIdx + 1) = some (.int offset) := by
  rw [h.paramIdx]
  refine ⟨Sql.bound_length _ _ _, ?_⟩
  have hlast := Sql.bound_length (w.params ++ [.int limit]) (.int offset) []
  rw [List.append_assoc, List.length_append] at hlast
  exact hlast

theorem Where.Numbered.runData (h : w.Numbered dto user)
    (order : OrderBy (OrderBy.desc Conversation.createdAt)) (db : Database) (limit offset : Nat) :
    let params := w.params ++ [.int limit, .int offset]
    runData order db params (dataQuery w) = some ((((order.sort (db.conversations.select
      (w.matches params))).drop offset).take limit).map (listed db)) := by
  obtain ⟨hlimit, hoffset⟩ := h.bound_page limit offset
  let page : Sql.Text :=
    [.text "LIMIT", .placeholder w.paramIdx, .text "OFFSET", .placeholder (w.paramIdx + 1)]
  have hsplit : (w.sql ++ .text "ORDER BY conv.created_at DESC" :: page).splitOn
      (.text "ORDER BY conv.created_at DESC") = [w.sql, page] := by
    rw [List.splitOn_append_cons_self_of_not_mem (order_notMem_sql w),
      List.splitOn_eq_singleton (by simp [page])]
  simp only [page] at hsplit
  simp only [dataQuery, List.cons_append, List.nil_append, Conversations.runData, hsplit,
    h.selection, hlimit, hoffset]

theorem findOne_ok_row {db : Database} {c : Conversation} (hc : c ∈ db.conversations.rows)
    (user : User) : (∃ loaded, findOne db c.id user = .ok loaded) ↔
      (∀ t, user.tenantId = some t → c.tenantId = t) ∧
        (user.role = .agent → ∀ a, c.assignedAgentId = some a → a = user.id) := by
  have hselect : ∀ conv, selectConversation db c.id user = some conv ↔
      conv = c ∧ ∀ t, user.tenantId = some t → c.tenantId = t := by
    intro conv
    rw [selectConversation, Table.find?_self hc, Option.filter_eq_some_iff, Option.some.injEq]
    constructor
    · rintro ⟨rfl, hin⟩
      refine ⟨rfl, fun t ht => ?_⟩
      simpa [inTenant, ht, eq_comm] using hin
    · rintro ⟨rfl, htenant⟩
      refine ⟨rfl, ?_⟩
      cases ht : user.tenantId with
      | none => simp [inTenant, ht]
      | some t => simp [inTenant, ht, htenant t ht]
  simp only [findOne_ok_iff, hselect]
  constructor
  · rintro ⟨_, _, ⟨rfl, htenant⟩, hagent, -⟩
    refine ⟨htenant, fun hrole a ha => ?_⟩
    by_contra hne
    exact hagent ⟨hrole, by rw [ha]; rfl, by rw [ha]; simpa using hne⟩
  · rintro ⟨htenant, hagent⟩
    refine ⟨_, c, ⟨rfl, htenant⟩, ?_, rfl⟩
    rintro ⟨hrole, hsome, hne⟩
    obtain ⟨a, ha⟩ := Option.isSome_iff_exists.mp hsome
    exact hne (by rw [ha, hagent hrole a ha])

def detailed (db : Database) (dto : ListConversationsDto) (user : User) (c : Conversation) : Bool :=
  (findOne db c.id user).isOk && dto.status.all (fun s => c.status = s) &&
    dto.agentId.all fun a => c.assignedAgentId = some a

theorem isOk_iff {α ε : Type} {e : Except ε α} : e.isOk = true ↔ ∃ a, e = .ok a := by
  cases e <;> simp [Except.isOk, Except.toBool]

theorem matches_eq_detailed {db : Database} {c : Conversation} (hc : c ∈ db.conversations.rows)
    (dto : ListConversationsDto) (user : User) :
    (whereClause dto user).matches (whereClause dto user).params c = detailed db dto user c := by
  rw [Bool.eq_iff_iff, (whereClause_numbered dto user).matches_iff, forall_whereClause, detailed,
    Bool.and_eq_true, Bool.and_eq_true, isOk_iff, findOne_ok_row hc]
  simp only [Option.all_eq_true, decide_eq_true_eq]

theorem select_matches (db : Database) (dto : ListConversationsDto) (user : User) :
    db.conversations.select ((whereClause dto user).matches (whereClause dto user).params) =
      db.conversations.select (detailed db dto user) :=
  List.filter_congr fun _ hc => matches_eq_detailed hc dto user

def dataParams (dto : ListConversationsDto) (user : User) : List Param :=
  (whereClause dto user).params ++
    [.int (dto.limit.getD 20), .int ((dto.page.getD 1 - 1) * dto.limit.getD 20)]

variable (order : OrderBy (OrderBy.desc Conversation.createdAt)) (db : Database)
  (dto : ListConversationsDto) (user : User)

theorem findAll_total :
    (findAll order db dto user).total = (db.conversations.select (detailed db dto user)).length := by
  rw [← select_matches]
  rfl

theorem findAll_data :
    (findAll order db dto user).data =
      (((order.sort (db.conversations.select (detailed db dto user))).drop
        ((dto.page.getD 1 - 1) * dto.limit.getD 20)).take (dto.limit.getD 20)).map (listed db) := by
  have hmatches : (whereClause dto user).matches (dataParams dto user) =
      (whereClause dto user).matches (whereClause dto user).params :=
    (whereClause_numbered dto user).matches_append _
  obtain ⟨hlimit, hoffset⟩ := (whereClause_numbered dto user).bound_page (dto.limit.getD 20)
    ((dto.page.getD 1 - 1) * dto.limit.getD 20)
  have hlimit : boundInt (dataParams dto user) (whereClause dto user).paramIdx =
      dto.limit.getD 20 := by
    rw [boundInt, dataParams, hlimit]
  have hoffset : boundInt (dataParams dto user) ((whereClause dto user).paramIdx + 1) =
      (dto.page.getD 1 - 1) * dto.limit.getD 20 := by
    rw [boundInt, dataParams, hoffset]
  rw [← select_matches, ← hmatches, ← hoffset, ← hlimit]
  rfl

theorem mem_findAll_data {r : ListedConversation} (h : r ∈ (findAll order db dto user).data) :
    r.conv ∈ db.conversations.rows ∧ detailed db dto user r.conv = true := by
  rw [findAll_data] at h
  obtain ⟨c, hc, rfl⟩ := List.mem_map.mp h
  exact List.mem_filter.mp (order.mem_sort.mp (List.mem_of_mem_drop (List.mem_of_mem_take hc)))

theorem findAll_nodup : ((findAll order db dto user).data.map fun r => r.conv.id).Nodup := by
  have hrows : ((db.conversations.select (detailed db dto user)).map Conversation.id).Nodup :=
    db.conversations.nodup.sublist (List.filter_sublist.map _)
  have hsorted : ((order.sort (db.conversations.select (detailed db dto user))).map
      Conversation.id).Nodup := ((order.perm _).map _).nodup_iff.mpr hrows
  rw [findAll_data, List.map_map]
  exact hsorted.sublist (((List.take_sublist _ _).trans (List.drop_sublist _ _)).map _)

variable {dto user}

/-- The list and the detail view agree. -/
theorem list_detail_agree (hpage : 1 ≤ dto.page.getD 1) :
    let w := whereClause dto user
    let result := findAll order db dto user
    let limit := dto.limit.getD 20
    let offset := (dto.page.getD 1 - 1) * limit
    (∀ c ∈ db.conversations.rows, w.matches w.params c = detailed db dto user c ∧
      w.matches (dataParams dto user) c = detailed db dto user c) ∧
    result.total = (db.conversations.select (detailed db dto user)).length ∧
    (result.data.length : Int) =
      min (limit : Int) (max 0 (result.total - ((dto.page.getD 1 : Int) - 1) * limit)) ∧
    (∀ r ∈ result.data, r.conv ∈ db.conversations.rows ∧ detailed db dto user r.conv = true) ∧
    (result.data.map fun r => r.conv.id).Nodup ∧
    runCount db w.params (countQuery w) = some result.total ∧
    runData order db (dataParams dto user) (dataQuery w) = some result.data ∧
    (countQuery w).placeholders = List.range' 1 w.params.length ∧
    (dataQuery w).placeholders = List.range' 1 (dataParams dto user).length ∧
    (∀ condition ∈ w.conditions, ∃ param, condition.pushed dto user = some param ∧
      Sql.bound w.params condition.placeholder = some param ∧
      Sql.bound (dataParams dto user) condition.placeholder = some param) ∧
    Sql.bound (dataParams dto user) w.paramIdx = some (.int limit) ∧
    Sql.bound (dataParams dto user) (w.paramIdx + 1) = some (.int offset) := by
  intro w result limit offset
  have hw : w.Numbered dto user := whereClause_numbered dto user
  refine ⟨fun c hc => ⟨matches_eq_detailed hc dto user, ?_⟩, findAll_total order db dto user, ?_,
    fun r => mem_findAll_data order db dto user, findAll_nodup order db dto user,
    hw.runCount db, ?_, ?_, ?_, fun condition hmem => ?_, hw.bound_page limit offset⟩
  · exact (congrFun (hw.matches_append _) c).trans (matches_eq_detailed hc dto user)
  · have hlength : result.data.length = min limit (result.total - offset) := by
      rw [findAll_data, findAll_total, List.length_map, List.length_take, List.length_drop,
        (order.perm _).length_eq]
    have hoffset : (offset : Int) = ((dto.page.getD 1 : Int) - 1) * limit := by
      rw [Int.natCast_mul, Int.natCast_sub hpage]
      rfl
    rw [hlength, ← hoffset]
    omega
  · refine (hw.runData order db limit offset).trans (congrArg some ?_)
    rw [findAll_data, ← select_matches, ← hw.matches_append [.int limit, .int offset]]
  · rw [countQuery, Sql.Text.placeholders_text, Sql.Text.placeholders_text, placeholders_sql,
      hw.placeholders]
  · have hlast : [w.params.length + 1, w.params.length + 1 + 1] =
        List.range' (1 + w.params.length) 2 := by
      rw [Nat.add_comm]
      rfl
    rw [dataQuery, Sql.Text.placeholders_append, Sql.Text.placeholders_append, placeholders_sql,
      hw.placeholders, hw.paramIdx]
    calc List.range' 1 w.params.length ++ [w.params.length + 1, w.params.length + 1 + 1]
        = List.range' 1 (w.params.length + 2) := by rw [hlast, List.range'_append_1]
      _ = List.range' 1 (dataParams dto user).length := by rw [dataParams, List.length_append]; rfl
  · obtain ⟨param, hpushed, hbound⟩ := hw.values condition hmem
    exact ⟨param, hpushed, hbound, Sql.bound_append hbound _⟩

def Sample.listing : ListConversationsDto := ⟨some .opened, none, none, some 10⟩

theorem list_detail_agree_listing :
    (findAll (.stable _) Sample.database Sample.listing Sample.agent.toUser).total = 1 ∧
    ((findAll (.stable _) Sample.database Sample.listing Sample.agent.toUser).data.length : Int) =
      min 10 (max 0 (1 - (1 - 1) * 10)) :=
  ⟨rfl, (list_detail_agree (.stable _) Sample.database (by decide)).2.2.1⟩

end SupportApi.Conversations
