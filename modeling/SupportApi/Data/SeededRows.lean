import SupportApi.Data.SeededUsers
import SupportApi.Data.Uuid

universe u

namespace SupportApi.Seed

open Lib Auth

variable {ν : Type u} {numbers : Numbers ν} {run : Run numbers} {db db' : Database}

section Load

variable {β : Type} {read : Defaults → List (Option Cell) → Option β}
  {save : Database → β → Option Database} {defaults : Nat → Defaults} {rows : List (List Cell)}
  {effects : List (Effect Cell)}

theorem load_eq (h : Load rows (queries effects)) (db : Database) :
    load read save defaults effects db =
      rows.foldlM (fun s row => saveRow read save defaults s (row.map some)) (db, []) := by
  obtain ⟨⟨chunks, rfl, hloads⟩, -⟩ := h
  rw [foldlM_flatten, load]
  generalize queries effects = inserts at hloads
  generalize (db, ([] : List β)) = s
  induction hloads generalizing s with
  | nil => rfl
  | @cons insert chunk inserts chunks hload _ ih =>
    have hexecute : Insert.execute read save defaults s insert =
        chunk.foldlM (fun s row => saveRow read save defaults s (row.map some)) s := by
      rw [Insert.execute, hload.cells, List.foldlM_map]
    rw [List.foldlM_cons, List.foldlM_cons, hexecute]
    exact congrArg _ (funext ih)

def Loading (I : Database → List β → Prop) (rows rest : List (List Cell))
    (s : Database × List β) : Prop :=
  ∃ done, done ++ rest = rows ∧ done.length = s.2.length ∧ I s.1 s.2

theorem load_some (h : Load rows (queries effects)) {I : Database → List β → Prop}
    (hstep : ∀ db saved row, rows[saved.length]? = some row → I db saved →
      ∃ x db', read (defaults saved.length) (row.map some) = some x ∧ save db x = some db' ∧
        I db' (saved ++ [x])) (hstart : I db []) :
    ∃ db' saved, load read save defaults effects db = some (db', saved) ∧
      saved.length = rows.length ∧ I db' saved := by
  have hrow : ∀ row rest s, Loading I rows (row :: rest) s →
      ∃ s', saveRow read save defaults s (row.map some) = some s' ∧ Loading I rows rest s' := by
    rintro row rest ⟨db, saved⟩ ⟨done, rfl, hlength, hI⟩
    have hrow : (done ++ row :: rest)[saved.length]? = some row := by
      rw [← hlength, List.getElem?_append_right (Nat.le_refl _), Nat.sub_self]
      rfl
    obtain ⟨x, db', hread, hsave, hnext⟩ := hstep db saved row hrow hI
    refine ⟨(db', saved ++ [x]), ?_, done ++ [row], by rw [List.append_assoc]; rfl, ?_, hnext⟩
    · simp only [saveRow, hread, hsave, Option.bind_eq_bind, Option.bind_some]
      rfl
    · rw [List.length_append, List.length_append, hlength]
      rfl
  obtain ⟨⟨db', saved⟩, hfold, done, hdone, hlength, hI⟩ :=
    foldlM_of_step (I := Loading I rows) hrow (s := (db, [])) ⟨[], rfl, rfl, hstart⟩
  rw [List.append_nil] at hdone
  exact ⟨db', saved, (load_eq h db).trans hfold, hdone ▸ hlength.symm, hI⟩

end Load

structure Drawn (now : Time) (tenantId : Uuid) (agents : List Uuid) (c : Conversation) : Prop where
  tenant : c.tenantId = tenantId
  created : now - 90 * day ≤ c.createdAt ∧ c.createdAt ≤ now
  updated : c.updatedAt = c.createdAt
  unclaimed : c.claimedAt = none
  assigned : c.assignedAgentId.isSome = true ↔ c.status ≠ .opened ∧ agents ≠ []
  agent : ∀ a, c.assignedAgentId = some a → a ∈ agents
  resolved : c.resolvedAt.isSome = true ↔ c.status = .resolved ∨ c.status = .closed
  resolvedAt : ∀ t, c.resolvedAt = some t → c.createdAt ≤ t ∧ t ≤ c.createdAt + 7 * day

theorem weightedChoiceFrom_mem (rand : Random numbers) (last : String) (cumulative : ν)
    (items : List String) (weights : List ν) :
    weightedChoiceFrom rand last cumulative items weights = last ∨
      weightedChoiceFrom rand last cumulative items weights ∈ items := by
  induction items generalizing cumulative weights with
  | nil => exact .inl rfl
  | cons item items ih =>
    cases weights with
    | nil => exact .inl rfl
    | cons weight weights =>
      simp only [weightedChoiceFrom]
      split
      · exact .inr List.mem_cons_self
      · exact (ih _ _).imp id (List.mem_cons_of_mem _)

theorem weightedChoice_mem (items : List String) (h : items ≠ []) (weights : List ν)
    (rand : Random numbers) : weightedChoice items h weights rand ∈ items := by
  rcases weightedChoiceFrom_mem rand (items.getLast h) (numbers.hundredths 0) items weights with
    hlast | hmem
  · rw [weightedChoice, hlast]
    exact List.getLast_mem h
  · exact hmem

theorem uuid_ofId (id : Uuid) : (Cell.ofId id).uuid = some id := Uuid.parse_text id

theorem nullable_orNull {α : Type} (f : α → Cell) (read : Cell → Option α)
    (hread : ∀ a, read (f a) = some a) (hnull : ∀ a, f a ≠ .null) (a : Option α) :
    (Cell.orNull f a).nullable read = some a := by
  cases a with
  | none => rfl
  | some a =>
    have hread' := hread a
    have hnull' := hnull a
    simp only [Cell.orNull]
    cases hcell : f a with
    | null => exact absurd hcell hnull'
    | _ => rw [hcell] at hread'; simp only [Cell.nullable, hread', Option.map_some]

theorem read_status {s : String} (h : s ∈ STATUSES) : ∃ status,
    ConversationStatus.read s = some status ∧ (s = "open" ↔ status = .opened) ∧
    (s = "resolved" ∨ s = "closed" ↔ status = .resolved ∨ status = .closed) := by
  simp only [STATUSES, List.mem_cons, List.not_mem_nil, or_false] at h
  rcases h with rfl | rfl | rfl | rfl
  · exact ⟨.opened, rfl, by decide, by decide⟩
  · exact ⟨.pending, rfl, by decide, by decide⟩
  · exact ⟨.resolved, rfl, by decide, by decide⟩
  · exact ⟨.closed, rfl, by decide, by decide⟩

theorem read_priority {s : String} (h : s ∈ PRIORITIES) :
    ∃ priority, ConversationPriority.read s = some priority := by
  simp only [PRIORITIES, List.mem_cons, List.not_mem_nil, or_false] at h
  rcases h with rfl | rfl | rfl | rfl <;> exact ⟨_, rfl⟩

theorem varchar_append {m n : Nat} {s t : String} (hs : Database.varchar m s = true)
    (ht : Database.varchar n t = true) : Database.varchar (m + n) (s ++ t) = true := by
  simp only [Database.varchar, Database.text, Bool.and_eq_true, decide_eq_true_eq,
    Bool.not_eq_true', List.contains_eq_mem, decide_eq_false_iff_not, String.length_append,
    String.toList_append, List.mem_append, not_or] at hs ht ⊢
  exact ⟨Nat.add_le_add hs.1 ht.1, hs.2, ht.2⟩

theorem varchar_mono {m n : Nat} (h : m ≤ n) {s : String} (hs : Database.varchar m s = true) :
    Database.varchar n s = true := by
  simp only [Database.varchar, Bool.and_eq_true, decide_eq_true_eq] at hs ⊢
  exact ⟨hs.1.trans h, hs.2⟩

theorem varchar_toString {n : Nat} (h : n < 1000) : Database.varchar 3 (toString n) = true := by
  have hdigits : ∀ c ∈ Nat.toDigits 10 n, c.isDigit = true := fun c hc =>
    Nat.isDigit_of_mem_toDigits (by decide) (by decide) hc
  have hlist : (toString n).toList = Nat.toDigits 10 n := Nat.toList_repr
  simp only [Database.varchar, Database.text, Bool.and_eq_true, decide_eq_true_eq,
    Bool.not_eq_true', List.contains_eq_mem, decide_eq_false_iff_not, hlist]
  refine ⟨(Nat.length_repr_le_iff (by decide)).mpr h, fun hzero => ?_⟩
  exact absurd (hdigits _ hzero) (by decide)

theorem varchar_randomEmail {firstName lastName : String} (hfirst : firstName ∈ FIRST_NAMES)
    (hlast : lastName ∈ LAST_NAMES) (suffix domain : Random numbers) :
    Database.varchar 255 (randomEmail firstName lastName suffix domain) = true := by
  have hfirsts : ∀ s ∈ FIRST_NAMES, Database.varchar 10 (toLowerCase s) = true := by decide
  have hlasts : ∀ s ∈ LAST_NAMES, Database.varchar 10 (toLowerCase s) = true := by decide
  have hdomains : ∀ s ∈ DOMAINS, Database.varchar 20 s = true := by decide
  have hsuffix : numbers.floor suffix.value 999 < 1000 :=
    (suffix.floor_lt 999 (by decide)).trans (by decide)
  have hdot : Database.varchar 1 "." = true := by decide
  have hat : Database.varchar 1 "@" = true := by decide
  have hemail := varchar_append (varchar_append (varchar_append (varchar_append
    (varchar_append (hfirsts _ hfirst) hdot) (hlasts _ hlast)) (varchar_toString hsuffix)) hat)
    (hdomains _ (randomChoice_mem DOMAINS (by decide) domain))
  exact varchar_mono (by decide) hemail

theorem read_conversationRow (draws : ConversationDraws numbers) (now : Time) (tenantId : Uuid)
    (agents : List Uuid) (defaults : Defaults) :
    ∃ c, readConversation defaults
        ((conversationRow draws now (some tenantId) agents).map some) = some c ∧
      c.id = defaults.id ∧ c.fits = true ∧ Drawn now tenantId agents c := by
  obtain ⟨status, hstatus, hopen, hfinished⟩ := read_status
    (weightedChoice_mem STATUSES (by decide) (STATUS_WEIGHTS numbers) draws.status)
  obtain ⟨priority, hpriority⟩ := read_priority
    (randomChoice_mem PRIORITIES (by decide) draws.priority)
  have hcreated := draws.createdAt.date_mem (now - 90 * day) now (by
    have : (0 : Int) ≤ 90 * day := by decide
    exact Int.sub_le_self _ this)
  have hassigned := nullable_orNull Cell.ofId Cell.uuid uuid_ofId
    fun id h => by cases h
  have hresolved := nullable_orNull Cell.date Cell.time (fun _ => rfl)
    fun t h => by cases h
  have htenant : (Cell.orNull Cell.ofId (some tenantId)).uuid = some tenantId := uuid_ofId tenantId
  have hdescription : ∀ s, (Cell.text s).nullable Cell.string = some (some s) := fun _ => rfl
  simp only [conversationRow, List.map_cons, List.map_nil, readConversation, Cell.string, Cell.time,
    htenant, hdescription, hassigned, hresolved, hstatus, hpriority, Option.bind_some,
    Option.bind_eq_bind, Option.pure_def]
  refine ⟨_, rfl, rfl, ?_, ?_⟩
  · have hsubjects : ∀ s ∈ SUBJECTS, Database.varchar 500 s = true ∧ Database.text
        ("Customer reported: " ++ toLowerCase s ++ ". Please investigate.") = true := by
      decide +kernel
    have hfirsts : ∀ s ∈ FIRST_NAMES, Database.varchar 40 s = true := by decide
    have hlasts : ∀ s ∈ LAST_NAMES, Database.varchar 40 s = true := by decide
    have hspace : Database.varchar 1 " " = true := by decide
    have hsubject := hsubjects _ (randomChoice_mem SUBJECTS (by decide) draws.subject)
    have hfirst := randomChoice_mem FIRST_NAMES (by decide) draws.firstName
    have hlast := randomChoice_mem LAST_NAMES (by decide) draws.lastName
    have hemail := varchar_randomEmail hfirst hlast draws.suffix draws.domain
    have hname := varchar_mono (n := 100) (by decide)
      (varchar_append (varchar_append (hfirsts _ hfirst) hspace) (hlasts _ hlast))
    simp only [Conversation.fits, hsubject, Option.all_some, hemail, hname, Bool.and_self]
  · exact {
      tenant := rfl
      created := hcreated
      updated := rfl
      unclaimed := rfl
      assigned := by
        simp only [ne_eq, ← hopen]
        split <;> simp_all
      agent := by
        intro a ha
        dsimp only at ha
        split at ha
        · cases ha
          exact randomChoice_mem ..
        · cases ha
      resolved := by
        simp only [← hfinished]
        split <;> simp_all
      resolvedAt := by
        intro t ht
        dsimp only at ht
        split at ht
        · cases ht
          exact draws.resolvedAt.week_mem _
        · cases ht }

theorem Fresh.next {ρ : Type} {key : ρ → Uuid} {T U : Table key} {n : Nat}
    {defaults : Nat → Defaults} {saved : List ρ}
    (h : Fresh T ((List.range n).map fun i => (defaults i).id))
    (hrows : U.rows = T.rows ++ saved)
    (hids : ∀ i r, saved[i]? = some r → key r = (defaults i).id) (hlt : saved.length < n) :
    U.find? (defaults saved.length).id = none := by
  rw [Table.find?_eq_none_iff, hrows]
  intro r hr heq
  rw [List.mem_append] at hr
  rcases hr with hr | hr
  · have hnone := h.2 _ (List.mem_map_of_mem (List.mem_range.mpr hlt))
    exact Table.find?_eq_none_iff.mp hnone r hr heq
  · obtain ⟨i, hi⟩ := List.mem_iff_getElem?.mp hr
    have hlength := (List.getElem?_eq_some_iff.mp hi).1
    have hsame := List.inj_on_of_nodup_map h.1 (List.mem_range.mpr (hlength.trans hlt))
      (List.mem_range.mpr hlt) ((hids i r hi).symm.trans heq)
    omega

theorem forall_getElem?_concat {β : Type} {P : Nat → β → Prop} {saved : List β} {x : β}
    (h : ∀ i y, saved[i]? = some y → P i y) (hx : P saved.length x) :
    ∀ i y, (saved ++ [x])[i]? = some y → P i y := by
  intro i y hy
  rw [List.getElem?_append] at hy
  split at hy
  · exact h i y hy
  · rename_i hge
    rw [List.getElem?_singleton] at hy
    split at hy <;> cases hy
    have hi : i = saved.length := by omega
    exact hi ▸ hx

structure OnlyConversations (db db' : Database) : Prop where
  tenants : db'.tenants = db.tenants
  users : db'.users = db.users
  messages : db'.messages = db.messages

variable (run) in
def conversationIds : List Uuid :=
  (List.range TOTAL_CONVERSATIONS).map fun i => (run.conversations i).id

structure Conversed (run : Run numbers) (db : Database) (tenantIds : List Uuid)
    (agents : List (Uuid × List Uuid)) (db' : Database) (saved : List Conversation) : Prop where
  rows : db'.conversations.rows = db.conversations.rows ++ saved
  only : OnlyConversations db db'
  drawn : ∀ i c, saved[i]? = some c → c.id = (run.conversations i).id ∧
    ∃ tenantId, turn tenantIds i = some tenantId ∧
      Drawn run.now tenantId (agentsOf agents (some tenantId)) c

section Conversations

variable {tenantIds : List Uuid} {agents : List (Uuid × List Uuid)}

theorem Conversed.step (hfresh : Fresh db.conversations (conversationIds run))
    (hturn : ∀ i, ∃ tenantId, turn tenantIds i = some tenantId ∧
      (db.tenants.find? tenantId).isSome = true ∧
      ∀ a ∈ agentsOf agents (some tenantId), (db.users.find? a).isSome = true)
    {saved : List Conversation} {row : List Cell}
    (hrow : (conversationRows run tenantIds agents)[saved.length]? = some row)
    (h : Conversed run db tenantIds agents db' saved) :
    ∃ c db'', readConversation (run.conversations saved.length) (row.map some) = some c ∧
      db'.insertConversation c = some db'' ∧
      Conversed run db tenantIds agents db'' (saved ++ [c]) := by
  obtain ⟨hlt, hrow⟩ := List.getElem?_eq_some_iff.mp hrow
  rw [conversationRows, List.length_map, List.length_range] at hlt
  obtain ⟨tenantId, htenantId, htenant, hagents⟩ := hturn saved.length
  obtain ⟨c, hread, hid, hfits, hdrawn⟩ := read_conversationRow
    (run.conversationDraws saved.length) run.now tenantId (agentsOf agents (some tenantId))
    (run.conversations saved.length)
  have hrowEq : row = conversationRow (run.conversationDraws saved.length) run.now (some tenantId)
      (agentsOf agents (some tenantId)) := by
    rw [← hrow]
    simp only [conversationRows, List.getElem_map, List.getElem_range, htenantId]
  have hnew : db'.conversations.find? c.id = none := by
    rw [hid]
    exact hfresh.next h.rows (fun i r hr => (h.drawn i r hr).1) hlt
  have hinsert : (db'.insertConversation c).isSome := by
    refine Database.insertConversation_isSome.mpr ⟨hfits, hnew, ?_, ?_⟩
    · rw [h.only.tenants, hdrawn.tenant]
      exact htenant
    · rw [h.only.users]
      cases ha : c.assignedAgentId with
      | none => rfl
      | some a => exact hagents a (hdrawn.agent a ha)
  obtain ⟨db'', hdb''⟩ := Option.isSome_iff_exists.mp hinsert
  obtain ⟨⟨_, hconversations⟩, htenants, husers, hmessages⟩ :=
    Database.insertConversation_some hdb''
  refine ⟨c, db'', hrowEq ▸ hread, hdb'', ?_⟩
  exact {
    rows := by rw [hconversations, Table.rows_insert, h.rows, List.append_assoc]
    only := ⟨htenants.trans h.only.tenants, husers.trans h.only.users,
      hmessages.trans h.only.messages⟩
    drawn := forall_getElem?_concat h.drawn ⟨hid, tenantId, htenantId, hdrawn⟩ }

theorem loadConversations_some (hfresh : Fresh db.conversations (conversationIds run))
    (hturn : ∀ i, ∃ tenantId, turn tenantIds i = some tenantId ∧
      (db.tenants.find? tenantId).isSome = true ∧
      ∀ a ∈ agentsOf agents (some tenantId), (db.users.find? a).isSome = true) :
    ∃ db' saved, load readConversation Database.insertConversation run.conversations
        (insertConversations (conversationRows run tenantIds agents)) db = some (db', saved) ∧
      saved.length = TOTAL_CONVERSATIONS ∧ Conversed run db tenantIds agents db' saved := by
  have hwidth : ∀ row ∈ conversationRows run tenantIds agents, row.length = 11 := by
    intro row hrow
    obtain ⟨i, -, rfl⟩ := List.mem_map.mp hrow
    rfl
  obtain ⟨db', saved, hload, hlength, hdb'⟩ := load_some (insertChunks_load hwidth)
    (I := Conversed run db tenantIds agents)
    (fun db' saved row hrow h => h.step hfresh hturn hrow)
    ⟨(List.append_nil _).symm, ⟨rfl, rfl, rfl⟩, fun i c hc => by cases hc⟩
  refine ⟨db', saved, hload, ?_, hdb'⟩
  rw [hlength, conversationRows, List.length_map, List.length_range]

end Conversations

structure Sent (now : Time) (conversationId : Uuid) (m : Message) : Prop where
  conversation : m.conversationId = conversationId
  sender : m.senderId = none
  internal : m.isInternal = false
  created : now - 30 * day ≤ m.createdAt ∧ m.createdAt ≤ now

theorem read_senderType {s : String} (h : s ∈ senderTypes) :
    ∃ senderType, MessageSenderType.read s = some senderType := by
  simp only [senderTypes, List.mem_cons, List.not_mem_nil, or_false] at h
  rcases h with rfl | rfl | rfl <;> exact ⟨_, rfl⟩

theorem read_messageRow (draws : MessageDraws numbers) (now : Time) (conversationId : Uuid)
    (defaults : Defaults) :
    ∃ m, readMessage defaults ((messageRow draws now (some conversationId)).map some) = some m ∧
      m.id = defaults.id ∧ Database.text m.body = true ∧ Sent now conversationId m := by
  obtain ⟨senderType, hsender⟩ := read_senderType
    (randomChoice_mem senderTypes (by decide) draws.senderType)
  have hcreated := draws.createdAt.date_mem (now - 30 * day) now (by
    have : (0 : Int) ≤ 30 * day := by decide
    exact Int.sub_le_self _ this)
  have hbodies : ∀ s ∈ MESSAGE_BODIES, Database.text s = true := by decide +kernel
  have hconversation : (Cell.orNull Cell.ofId (some conversationId)).uuid = some conversationId :=
    uuid_ofId conversationId
  simp only [messageRow, List.map_cons, List.map_nil, readMessage, Cell.string, Cell.boolean,
    Cell.time, hconversation, hsender, Option.bind_some, Option.bind_eq_bind, Option.pure_def]
  exact ⟨_, rfl, rfl, hbodies _ (randomChoice_mem _ (by decide) _), rfl, rfl, rfl, hcreated⟩

structure OnlyMessages (db db' : Database) : Prop where
  tenants : db'.tenants = db.tenants
  users : db'.users = db.users
  conversations : db'.conversations = db.conversations

variable (run) in
def messageIds : List Uuid := (List.range TOTAL_MESSAGES).map fun i => (run.messages i).id

structure Messaged (run : Run numbers) (db : Database) (conversationIds : List Uuid)
    (db' : Database) (saved : List Message) : Prop where
  rows : db'.messages.rows = db.messages.rows ++ saved
  only : OnlyMessages db db'
  sent : ∀ i m, saved[i]? = some m → m.id = (run.messages i).id ∧
    ∃ conversationId, conversationIds[i % conversationIds.length]? = some conversationId ∧
      Sent run.now conversationId m

section Messages

variable {conversationIds : List Uuid}

theorem Messaged.step (hfresh : Fresh db.messages (messageIds run))
    (hne : 0 < conversationIds.length)
    (hconversations : ∀ id ∈ conversationIds, (db.conversations.find? id).isSome = true)
    {saved : List Message} {row : List Cell}
    (hrow : (messageRows run conversationIds)[saved.length]? = some row)
    (h : Messaged run db conversationIds db' saved) :
    ∃ m db'', readMessage (run.messages saved.length) (row.map some) = some m ∧
      db'.insertMessage m = some db'' ∧ Messaged run db conversationIds db'' (saved ++ [m]) := by
  obtain ⟨hlt, hrow⟩ := List.getElem?_eq_some_iff.mp hrow
  rw [messageRows, List.length_map, List.length_range] at hlt
  have hturn : saved.length % conversationIds.length < conversationIds.length := Nat.mod_lt _ hne
  have hid := List.getElem?_eq_getElem hturn
  obtain ⟨m, hread, hkey, htext, hsent⟩ := read_messageRow (run.messageDraws saved.length) run.now
    conversationIds[saved.length % conversationIds.length] (run.messages saved.length)
  have hrowEq : row = messageRow (run.messageDraws saved.length) run.now
      (some conversationIds[saved.length % conversationIds.length]) := by
    rw [← hrow]
    simp only [messageRows, List.getElem_map, List.getElem_range, hid]
  have hinsert : (db'.insertMessage m).isSome := by
    refine Database.insertMessage_isSome.mpr ⟨htext, ?_, ?_, ?_⟩
    · rw [hkey]
      exact hfresh.next h.rows (fun i r hr => (h.sent i r hr).1) hlt
    · rw [h.only.conversations, hsent.conversation]
      exact hconversations _ (List.getElem_mem hturn)
    · rw [hsent.sender]
      rfl
  obtain ⟨db'', hdb''⟩ := Option.isSome_iff_exists.mp hinsert
  obtain ⟨hrows, htenants, husers, hconversations'⟩ := Database.insertMessage_some hdb''
  refine ⟨m, db'', hrowEq ▸ hread, hdb'', ?_⟩
  exact {
    rows := by rw [hrows, h.rows, List.append_assoc]
    only := ⟨htenants.trans h.only.tenants, husers.trans h.only.users,
      hconversations'.trans h.only.conversations⟩
    sent := forall_getElem?_concat h.sent ⟨hkey, _, hid, hsent⟩ }

theorem loadMessages_some (hfresh : Fresh db.messages (messageIds run))
    (hne : 0 < conversationIds.length)
    (hconversations : ∀ id ∈ conversationIds, (db.conversations.find? id).isSome = true) :
    ∃ db' saved, load readMessage Database.insertMessage run.messages
        (insertMessages (messageRows run conversationIds)) db = some (db', saved) ∧
      saved.length = TOTAL_MESSAGES ∧ Messaged run db conversationIds db' saved := by
  have hwidth : ∀ row ∈ messageRows run conversationIds, row.length = 5 := by
    intro row hrow
    obtain ⟨i, -, rfl⟩ := List.mem_map.mp hrow
    rfl
  obtain ⟨db', saved, hload, hlength, hdb'⟩ := load_some (insertChunks_load hwidth)
    (I := Messaged run db conversationIds)
    (fun db' saved row hrow h => h.step hfresh hne hconversations hrow)
    ⟨(List.append_nil _).symm, ⟨rfl, rfl, rfl⟩, fun i c hc => by cases hc⟩
  refine ⟨db', saved, hload, ?_, hdb'⟩
  rw [hlength, messageRows, List.length_map, List.length_range]

end Messages

end SupportApi.Seed
