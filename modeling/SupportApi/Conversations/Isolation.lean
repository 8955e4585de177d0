import SupportApi.Lib.TwoRun
import SupportApi.Conversations.Alone
import SupportApi.Conversations.Staff

namespace SupportApi.Conversations

open Lib

def part (t : Uuid) : View Database where
  Agree := Database.SamePart t
  Untouched := Database.SameRest t
  refl _ := .rfl
  trans := .trans

variable {t : Uuid} {db db' : Database} {user : User}

theorem isolates_of_writes {α : Type} (h : Database.SamePart t db db') {after after' : Database}
    {rows : List Conversation} {added : List Message} (hw : db.Writes t after rows added)
    (hw' : db'.Writes t after' rows added) (a : α) :
    (part t).Isolates db db' (a, after) (a, after') :=
  ⟨rfl, h.writes hw hw', hw.rest, hw'.rest⟩

structure Where.Scoped (t : Uuid) (w : Where) : Prop where
  condition : .tenant 1 ∈ w.conditions
  param : w.params[0]? = some (.uuid t)

theorem Where.Scoped.append {w : Where} (h : w.Scoped t) (rest : List Param) :
    (w.params ++ rest)[0]? = some (.uuid t) := by
  rw [List.getElem?_append_left (List.getElem?_eq_some_iff.mp h.param).1, h.param]

theorem Where.Scoped.pushIf {w : Where} (h : w.Scoped t) (condition : Nat → Condition)
    (param : Option Param) : (w.pushIf condition param).Scoped t := by
  cases param with
  | none => exact h
  | some param => exact ⟨List.mem_append_left _ h.condition, h.append [param]⟩

theorem whereClause_scoped (htenant : user.tenantId = some t) (dto : ListConversationsDto) :
    (whereClause dto user).Scoped t := by
  have hfirst : ((⟨[], [], 1⟩ : Where).pushIf .tenant (user.tenantId.map .uuid)).Scoped t := by
    rw [htenant]
    exact ⟨List.mem_singleton_self _, rfl⟩
  unfold whereClause
  apply Where.Scoped.pushIf
  apply Where.Scoped.pushIf
  split
  · exact hfirst.pushIf .agentScope (some _)
  · exact hfirst

theorem Where.Scoped.tenantId {w : Where} (h : w.Scoped t) {rest : List Param} {c : Conversation}
    (hmatches : w.matches (w.params ++ rest) c = true) : c.tenantId = t := by
  have hholds := List.all_eq_true.mp hmatches _ h.condition
  simpa [Condition.holds, Sql.bound, h.append rest, eq_comm] using hholds

def Placed (db : Database) : Prop :=
  ∀ c row, db.conversations.find? c = some row → MayHold db c row.assignedAgentId

theorem assignedAgent_congr (h : Database.SamePart t db db') (hplaced : Placed db)
    {c : Conversation} (hmem : c ∈ db.conversations.rows) (hc : c.tenantId = t) :
    c.assignedAgentId.bind db.users.find? = c.assignedAgentId.bind db'.users.find? := by
  have hfind := Table.find?_self hmem
  cases ha : c.assignedAgentId with
  | none => rfl
  | some a =>
    obtain ⟨row, hrow, hstaff⟩ := hplaced c.id c hfind
    cases hfind.symm.trans hrow
    obtain ⟨u, hu, htenant, -⟩ := hstaff a ha
    rw [Option.bind_some, Option.bind_some, hu,
      h.toSameUsers.find?_some hu (hc ▸ htenant)]

theorem findAll_congr (h : Database.SamePart t db db') (hplaced : Placed db)
    (htenant : user.tenantId = some t) (order : OrderBy (OrderBy.desc Conversation.createdAt))
    (dto : ListConversationsDto) : findAll order db dto user = findAll order db' dto user := by
  let w := whereClause dto user
  have hscoped : w.Scoped t := whereClause_scoped htenant dto
  have hselect : ∀ rest, db.conversations.select (w.matches (w.params ++ rest)) =
      db'.conversations.select (w.matches (w.params ++ rest)) :=
    fun rest => h.select fun c hc => hscoped.tenantId hc
  have htotal := hselect []
  rw [List.append_nil] at htotal
  have hlisted : ∀ rest, ∀ c ∈ db.conversations.select (w.matches (w.params ++ rest)),
      listed db c = listed db' c := by
    intro rest c hc
    obtain ⟨hmem, hmatches⟩ := List.mem_filter.mp hc
    simp only [listed, assignedAgent_congr h hplaced hmem (hscoped.tenantId hmatches)]
  simp only [findAll]
  rw [htotal, ← hselect]
  congr 1
  apply List.map_congr_left
  intro c hc
  apply hlisted
  exact order.mem_sort.mp (List.mem_of_mem_drop (List.mem_of_mem_take hc))

theorem inTenant_eq (htenant : user.tenantId = some t) :
    inTenant user = Conversation.ofTenant t := by
  funext c
  simp [inTenant, htenant, Conversation.ofTenant, eq_comm]

theorem selectConversation_congr (h : Database.SamePart t db db') (htenant : user.tenantId = some t)
    (id : Uuid) : selectConversation db id user = selectConversation db' id user := by
  rw [selectConversation, selectConversation, inTenant_eq htenant, h.find? id]

theorem selectConversation_own (h : Database.SamePart t db db') (htenant : user.tenantId = some t)
    {id : Uuid} {conv : Conversation} (hconv : selectConversation db id user = some conv) :
    conv.id = id ∧ conv.tenantId = t ∧ db.conversations.find? conv.id = some conv ∧
      db'.conversations.find? conv.id = some conv := by
  obtain ⟨hfind, hin⟩ := selectConversation_some hconv
  rw [inTenant_eq htenant] at hin
  have hown : conv.tenantId = t := by simpa [Conversation.ofTenant] using hin
  have hid : conv.id = id := Table.key_of_find? hfind
  subst hid
  exact ⟨rfl, hown, hfind, h.find?_some hfind hown⟩

theorem load_congr (h : Database.SamePart t db db') (hplaced : Placed db) {c : Conversation}
    (hfind : db.conversations.find? c.id = some c) (hc : c.tenantId = t) : load db c = load db' c := by
  rw [load, load, assignedAgent_congr h hplaced (Table.mem_of_find? hfind) hc,
    h.select_messages hfind hc]

theorem findOne_congr (h : Database.SamePart t db db') (hplaced : Placed db)
    (htenant : user.tenantId = some t) (id : Uuid) : findOne db id user = findOne db' id user := by
  unfold findOne
  rw [← selectConversation_congr h htenant id]
  cases hconv : selectConversation db id user with
  | none => rfl
  | some conv =>
    obtain ⟨-, hown, hfind, -⟩ := selectConversation_own h htenant hconv
    simp only [load_congr h hplaced hfind hown]

theorem insertConversation_congr (h : Database.SamePart t db db') {c : Conversation}
    (hc : c.tenantId = t) (hunassigned : c.assignedAgentId = none)
    (hnew : db.conversations.find? c.id = none) (hnew' : db'.conversations.find? c.id = none) :
    (db.insertConversation c).isSome = (db'.insertConversation c).isSome := by
  rw [Bool.eq_iff_iff, Database.insertConversation_isSome, Database.insertConversation_isSome]
  simp only [hc, hunassigned, hnew, hnew', h.tenant, Option.all_none]

theorem createConversation_isolates (h : Database.SamePart t db db')
    (htenant : user.tenantId = some t) (dto : CreateConversationDto) {id : Uuid} (now : Time)
    (hnew : db.conversations.find? id = none) (hnew' : db'.conversations.find? id = none) :
    (part t).Isolates db db' (createConversation db dto user id now)
      (createConversation db' dto user id now) := by
  have hsame : (db.insertConversation (created dto t id now).stored).isSome =
      (db'.insertConversation (created dto t id now).stored).isSome :=
    insertConversation_congr h rfl rfl hnew hnew'
  rcases isSome_cases hsame with ⟨hins, hins'⟩ | ⟨after, after', hins, hins'⟩
  · simp only [createConversation, create, htenant, hins, hins']
    exact .pure h _
  · have hown : (created dto t id now).stored.tenantId = t := rfl
    have hwrites := Database.insertConversation_writes hins hown
    rw [h.conversations] at hwrites
    simp only [createConversation, create, htenant, hins, hins']
    exact isolates_of_writes h hwrites (Database.insertConversation_writes hins' hown) _

theorem update_isSome (nulls : Bool) {reread row : Conversation} (entity : Conversation) (now : Time)
    (hfind : db.conversations.find? reread.id = some row)
    (hagent : ∀ a, entity.assignedAgentId = some a → (db.users.find? a).isSome) :
    ∃ after, update nulls db entity reread now = some after := by
  cases hupdate : update nulls db entity reread now with
  | some after => exact ⟨after, rfl⟩
  | none =>
    obtain ⟨row', a, hrow', ha, hmissing⟩ := update_none hupdate
    cases hfind.symm.trans hrow'
    have hexists : (db.users.find? a).isSome := by
      rcases linked_cases nulls entity.assignedAgentId reread.assignedAgentId row.assignedAgentId with
        hlinked | hlinked <;> simp only [written, hlinked] at ha
      · exact hagent a ha
      · exact db.conversations_agent row (Table.mem_of_find? hfind) a ha
    rw [hmissing] at hexists
    cases hexists

theorem update_isolates {α : Type} {nulls : Bool} (h : Database.SamePart t db db')
    {entity reread row : Conversation} {now : Time} {after after' : Database}
    (hfind : db.conversations.find? reread.id = some row)
    (hrow : row.tenantId = t) (hupdate : update nulls db entity reread now = some after)
    (hupdate' : update nulls db' entity reread now = some after') (a : α) :
    (part t).Isolates db db' (a, after) (a, after') := by
  have hwrites := Database.updateConversation_writes hupdate hfind hrow
  rw [h.conversations] at hwrites
  have hfind' := h.find?_some hfind hrow
  exact isolates_of_writes h hwrites (Database.updateConversation_writes hupdate' hfind' hrow) a

theorem claimConversation_isolates (h : Database.SamePart t db db')
    (htenant : user.tenantId = some t) (huser : (db.users.find? user.id).isSome)
    (huser' : (db'.users.find? user.id).isSome) (id : Uuid) (now : Time) :
    (part t).Isolates db db' (claimConversation db id user now)
      (claimConversation db' id user now) := by
  unfold claimConversation
  rw [← selectConversation_congr h htenant id]
  cases mayClaim user with
  | error e => exact .pure h _
  | ok _ =>
    cases hconv : selectConversation db id user with
    | none => exact .pure h _
    | some conv =>
      obtain ⟨-, hown, hfind, hfind'⟩ := selectConversation_own h htenant hconv
      have hagent : ∀ a, (assigned conv user now).assignedAgentId = some a → a = user.id := by
        intro a ha
        exact (Option.some.inj ha).symm
      obtain ⟨after, hupdate⟩ := update_isSome true (assigned conv user now) now hfind
        fun a ha => hagent a ha ▸ huser
      obtain ⟨after', hupdate'⟩ := update_isSome true (assigned conv user now) now hfind'
        fun a ha => hagent a ha ▸ huser'
      simp only [claimLocked, hupdate, hupdate']
      -- the checks read the conversation and the user, which are the same
      by_cases hstatus : conv.status = .resolved
      · simp only [if_pos hstatus]
        exact .pure h _
      · simp only [if_neg hstatus]
        by_cases hother : conv.assignedAgentId.isSome ∧ conv.assignedAgentId ≠ some user.id
        · simp only [if_pos hother]
          exact .pure h _
        · simp only [if_neg hother]
          by_cases hmine : conv.assignedAgentId = some user.id
          · simp only [if_pos hmine]
            exact .pure h _
          · simp only [if_neg hmine]
            exact update_isolates h hfind hown hupdate hupdate' _

theorem insertMessage_congr (h : Database.SamePart t db db') {m : Message} {c : Conversation}
    (hfind : db.conversations.find? m.conversationId = some c) (hc : c.tenantId = t)
    (hsender : m.senderId = none) (hnew : db.messages.find? m.id = none)
    (hnew' : db'.messages.find? m.id = none) :
    (db.insertMessage m).isSome = (db'.insertMessage m).isSome := by
  rw [Bool.eq_iff_iff, Database.insertMessage_isSome, Database.insertMessage_isSome]
  simp only [hsender, hnew, hnew', hfind, h.find?_some hfind hc, Option.all_none]

theorem finish_isolates (h : Database.SamePart t db db') {entity : LoadedConversation}
    {c : Conversation} (hfind : db.conversations.find? entity.conv.id = some c) (hc : c.tenantId = t)
    (dto : ResolveConversationDto) {moments : Moments}
    (hnew : db.messages.find? moments.messageId = none)
    (hnew' : db'.messages.find? moments.messageId = none) :
    (part t).Isolates db db' (finish db entity user dto moments)
      (finish db' entity user dto moments) := by
  unfold finish
  cases resolutionNote dto with
  | none => exact .pure h _
  | some note =>
    let m := noteMessage entity.conv note moments.messageId moments.notedAt
    have hsame : (db.insertMessage m).isSome = (db'.insertMessage m).isSome :=
      insertMessage_congr h hfind hc rfl hnew hnew'
    have hown : db.ofTenant t m = true := Database.SamePart.ofTenant_of_find? hfind hc rfl
    have hown' : db'.ofTenant t m = true :=
      Database.SamePart.ofTenant_of_find? (h.find?_some hfind hc) hc rfl
    rcases isSome_cases hsame with ⟨hins, hins'⟩ | ⟨after, after', hins, hins'⟩
    · simp only [m] at hins hins'
      simp only [hins, hins']
      exact .pure h _
    · have hwrites := Database.insertMessage_writes hins hown
      have hwrites' := Database.insertMessage_writes hins' hown'
      rw [h.conversations] at hwrites
      simp only [m] at hins hins'
      simp only [hins, hins']
      exact isolates_of_writes h hwrites hwrites' _

theorem save_isolates (h : Database.SamePart t db db') {entity : LoadedConversation}
    {conv : Conversation} (hown : conv.tenantId = t)
    (hfind : db.conversations.find? conv.id = some conv) (hid : entity.conv.id = conv.id)
    (hagent : (columns entity).assignedAgentId = conv.assignedAgentId) (now : Time) :
    ∃ after after', update true db (columns entity) conv now = some after ∧
      update true db' (columns entity) conv now = some after' ∧
      (part t).Isolates db db' ((), after) ((), after') ∧
      stamped after' entity = stamped after entity ∧
      after.conversations.find? (stamped after entity).conv.id =
        some (written true (columns entity) conv conv now) := by
  have hfind' := h.find?_some hfind hown
  obtain ⟨after, hupdate⟩ := update_isSome true (columns entity) now hfind
    fun a ha => db.conversations_agent conv (Table.mem_of_find? hfind) a (hagent ▸ ha)
  obtain ⟨after', hupdate'⟩ := update_isSome true (columns entity) now hfind'
    fun a ha => db'.conversations_agent conv (Table.mem_of_find? hfind') a (hagent ▸ ha)
  have hsaves := update_isolates h hfind hown hupdate hupdate' ()
  have hrow : after.conversations.find? conv.id = some (written true (columns entity) conv conv now) := by
    rw [find?_update_self hupdate, hfind, Option.map_some]
  have hrow' : after'.conversations.find? conv.id =
      some (written true (columns entity) conv conv now) :=
    hsaves.agree.find?_some hrow hown
  refine ⟨after, after', hupdate, hupdate', hsaves, ?_, ?_⟩
  · simp only [stamped, hid, hrow, hrow']
  · simp only [stamped, hid, hrow]

theorem resolveConversation_isolates (h : Database.SamePart t db db') (hplaced : Placed db)
    (htenant : user.tenantId = some t) (id : Uuid) (dto : ResolveConversationDto) {moments : Moments}
    (hnew : db.messages.find? moments.messageId = none)
    (hnew' : db'.messages.find? moments.messageId = none) :
    (part t).Isolates db db' (resolveConversation db id user dto moments)
      (resolveConversation db' id user dto moments) := by
  unfold resolveConversation
  rw [← findOne_congr h hplaced htenant id]
  cases hload : findOne db id user with
  | error e => exact .pure h _
  | ok loaded =>
    obtain ⟨conv, hconv, rfl, -⟩ := findOne_ok hload
    obtain ⟨-, hown, hfind, -⟩ := selectConversation_own h htenant hconv
    have hloaded : (load db conv).conv = conv := rfl
    simp only [hloaded]
    cases mayResolve conv user with
    | error e => exact .pure h _
    | ok _ =>
      have hagent : (columns (resolved (load db conv) moments.resolvedAt)).assignedAgentId =
          conv.assignedAgentId := by
        rw [columns_resolved, columns_load (Table.mem_of_find? hfind)]
      obtain ⟨after, after', hupdate, hupdate', hsaves, hstamped, hrow⟩ :=
        save_isolates h hown hfind rfl hagent moments.savedAt
      rw [← messages_update hupdate] at hnew
      rw [← messages_update hupdate'] at hnew'
      simp only [hupdate, hupdate', hstamped]
      exact hsaves.comp (finish_isolates hsaves.agree hrow hown dto hnew hnew')

end SupportApi.Conversations
