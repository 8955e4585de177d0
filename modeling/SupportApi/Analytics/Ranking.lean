import Mathlib.Data.List.Induction
import Mathlib.Order.Bounds.Basic
import Mathlib.Order.MinMax
import SupportApi.Analytics.Service
import SupportApi.Lib.Top

namespace SupportApi.Analytics

open Lib

abbrev ByMessages := OrderBy (OrderBy.desc TopConversationResult.messageCount)

def messagesOf (db : Database) (c : Conversation) : List Message :=
  db.messages.select fun m => m.conversationId = c.id

structure Describes (db : Database) (c : Conversation) (row : TopConversationResult) : Prop where
  id : row.conversationId = c.id
  subject : row.subject = c.subject
  customer : row.customerEmail = c.customerEmail
  tenant : row.tenantId = c.tenantId
  count : row.messageCount = (messagesOf db c).length
  last : IsGreatest {t | ∃ m ∈ messagesOf db c, m.createdAt = t} row.lastActivityAt

/-- The rows are ten conversations of the tenant with the most messages, or all there are. -/
structure TopTen (db : Database) (tenantId : Option Uuid) (now : Time)
    (rows : List TopConversationResult) : Prop where
  described : ∀ row ∈ rows, ∃ c ∈ db.conversations.rows,
    recent tenantId now c = true ∧ Describes db c row
  once : (rows.map TopConversationResult.conversationId).Nodup
  sorted : rows.Pairwise fun row row' => row'.messageCount ≤ row.messageCount
  atMost : rows.length ≤ 10
  complete : ∀ c ∈ db.conversations.rows, recent tenantId now c = true → messagesOf db c ≠ [] →
    (∃ row ∈ rows, row.conversationId = c.id) ∨
      rows.length = 10 ∧ ∀ row ∈ rows, ((messagesOf db c).length : Int) ≤ row.messageCount

variable {db : Database} {c : Conversation} {row : TopConversationResult} {tenantId : Option Uuid}
  {now : Time}

theorem isGreatest_foldl (m : Message) (ms : List Message) :
    IsGreatest {t | ∃ m' ∈ m :: ms, m'.createdAt = t}
      (ms.foldl (fun t m' => max t m'.createdAt) m.createdAt) := by
  induction ms using List.reverseRecOn with
  | nil => simp
  | append_singleton ms last ih =>
    obtain ⟨⟨m', hm', heq⟩, hbound⟩ := ih
    rw [List.foldl_append, List.foldl_cons, List.foldl_nil]
    constructor
    · rcases max_choice (ms.foldl (fun t m' => max t m'.createdAt) m.createdAt) last.createdAt with
        hmax | hmax <;> rw [hmax]
      · exact ⟨m', by rw [← List.cons_append]; exact List.mem_append_left _ hm', heq⟩
      · exact ⟨last, by simp, rfl⟩
    · rintro t ⟨m', hm', rfl⟩
      rw [← List.cons_append, List.mem_append, List.mem_singleton] at hm'
      rcases hm' with hm' | rfl
      · exact le_max_of_le_left (hbound ⟨m', hm', rfl⟩)
      · exact le_max_right _ _

theorem summary_describes (h : summary db c = some row) : Describes db c row := by
  unfold summary at h
  split at h
  · cases h
  · rename_i m ms hmessages
    cases h
    refine ⟨rfl, rfl, rfl, rfl, ?_, ?_⟩
    · rw [messagesOf, hmessages]
    · rw [messagesOf, hmessages]
      exact isGreatest_foldl m ms

theorem summary_isSome (h : messagesOf db c ≠ []) : ∃ row, summary db c = some row := by
  unfold messagesOf at h
  unfold summary
  split
  · contradiction
  · exact ⟨_, rfl⟩

def summaries (db : Database) (tenantId : Option Uuid) (now : Time) : List TopConversationResult :=
  (db.conversations.select (recent tenantId now)).filterMap (summary db)

theorem mem_summaries : row ∈ summaries db tenantId now ↔
    ∃ c ∈ db.conversations.rows, recent tenantId now c = true ∧ summary db c = some row := by
  simp only [summaries, List.mem_filterMap, Table.select, List.mem_filter, and_assoc]

theorem summaries_once :
    ((summaries db tenantId now).map TopConversationResult.conversationId).Nodup := by
  have hids : (summaries db tenantId now).map TopConversationResult.conversationId =
      ((db.conversations.select (recent tenantId now)).filter fun c => (summary db c).isSome).map
        Conversation.id := by
    unfold summaries
    induction db.conversations.select (recent tenantId now) with
    | nil => rfl
    | cons c cs ih =>
      cases hsummary : summary db c with
      | none => simp [hsummary, ih]
      | some row => simp [hsummary, ih, (summary_describes hsummary).id]
  rw [hids]
  exact db.conversations.nodup.sublist
    ((List.filter_sublist.trans List.filter_sublist).map Conversation.id)

/-- The query returns what its name promises, however PostgreSQL arranges equal counts. -/
theorem aggregate_topTen (order : ByMessages) (db : Database) (tenantId : Option Uuid) (now : Time) :
    TopTen db tenantId now (aggregate order db tenantId now) := by
  have hsublist : (aggregate order db tenantId now).Sublist
      (order.sort (summaries db tenantId now)) := List.take_sublist _ _
  have hsorted := (order.sorted (summaries db tenantId now)).sublist hsublist
  refine ⟨?_, ?_, hsorted.imp of_decide_eq_true, List.length_take_le _ _, ?_⟩
  · intro row hrow
    obtain ⟨c, hc, hrecent, hsummary⟩ :=
      mem_summaries.mp (order.mem_sort.mp (hsublist.subset hrow))
    exact ⟨c, hc, hrecent, summary_describes hsummary⟩
  · have hperm := (order.perm (summaries db tenantId now)).map TopConversationResult.conversationId
    exact (hperm.nodup_iff.mpr summaries_once).sublist (hsublist.map _)
  · intro c hc hrecent hmessages
    obtain ⟨row, hsummary⟩ := summary_isSome hmessages
    have hdescribes := summary_describes hsummary
    have hmem : row ∈ order.sort (summaries db tenantId now) :=
      order.mem_sort.mpr (mem_summaries.mpr ⟨c, hc, hrecent, hsummary⟩)
    rw [← List.take_append_drop 10 (order.sort (summaries db tenantId now)), List.mem_append] at hmem
    rcases hmem with hmem | hmem
    · exact .inl ⟨row, hmem, hdescribes.id⟩
    · -- the row is below the cut, so ten rows are above it
      refine .inr ⟨?_, fun row' hrow' => ?_⟩
      · exact List.length_take_of_le (List.length_lt_of_drop_ne_nil (List.ne_nil_of_mem hmem)).le
      · rw [← hdescribes.count]
        exact OrderBy.le_of_cut order hrow' hmem

def tenantIds (db : Database) : List Uuid := db.tenants.rows.map Tenant.id

theorem recent_perm (db : Database) (now : Time) :
    (db.conversations.select (recent none now)).Perm
      ((tenantIds db).flatMap fun t => db.conversations.select (recent (some t) now)) := by
  have hmem : ∀ c ∈ db.conversations.select (recent none now), c.tenantId ∈ tenantIds db := by
    intro c hc
    obtain ⟨t, ht⟩ := Option.isSome_iff_exists.mp
      (db.conversations_tenant c (List.mem_of_mem_filter hc))
    exact List.mem_map.mpr ⟨t, Table.mem_of_find? ht, Table.key_of_find? ht⟩
  have hgroup : ∀ t ∈ tenantIds db, (db.conversations.select (recent none now)).filter
      (fun c => decide (c.tenantId = t)) = db.conversations.select (recent (some t) now) := by
    intro t _
    simp only [Table.select, List.filter_filter, recent, Option.all_none, Bool.true_and]
    rfl
  rw [← List.flatMap_congr hgroup]
  exact perm_flatMap_groups Conversation.tenantId db.tenants.nodup hmem

theorem summaries_perm (db : Database) (now : Time) :
    (summaries db none now).Perm ((tenantIds db).flatMap fun t => summaries db (some t) now) := by
  have hperm := (recent_perm db now).filterMap (summary db)
  rw [List.filterMap_flatMap] at hperm
  exact hperm

def counted (db : Database) (now : Time) (p : Conversation → Bool) (tenantId : Option Uuid) : Nat :=
  ((db.conversations.select (recent tenantId now)).filter p).length

theorem counted_none (db : Database) (now : Time) (p : Conversation → Bool) :
    counted db now p none = ((tenantIds db).map fun t => counted db now p (some t)).sum := by
  rw [counted, ((recent_perm db now).filter p).length_eq, List.filter_flatMap, List.length_flatMap]
  rfl

theorem counted_statuses (db : Database) (now : Time) (tenantId : Option Uuid) :
    (db.conversations.select (recent tenantId now)).length =
      counted db now (fun c => c.status = .opened) tenantId +
        counted db now (fun c => c.status = .pending) tenantId +
        counted db now (fun c => c.status = .resolved) tenantId +
        counted db now (fun c => c.status = .closed) tenantId := by
  unfold counted
  induction db.conversations.select (recent tenantId now) with
  | nil => rfl
  | cons c cs ih =>
    simp only [List.length_cons, List.filter_cons, ih]
    cases c.status <;> simp <;> omega

theorem superAdmin_sums (order order' : ByMessages) (orders : Uuid → ByMessages)
    (averages : Averages) (db : Database) (now : Time) :
    (aggregate order db none now).map TopConversationResult.messageCount =
        ((order'.sort ((tenantIds db).flatMap fun t => aggregate (orders t) db (some t) now)).take
          10).map TopConversationResult.messageCount ∧
      (∀ counter ∈ [TenantStats.openCount, TenantStats.pendingCount, TenantStats.resolvedCount,
          TenantStats.closedCount, TenantStats.totalCount],
        counter (getTenantStats averages db none now) =
          ((tenantIds db).map fun t => counter (getTenantStats averages db (some t) now)).sum) ∧
      ∀ tenantId, let stats := getTenantStats averages db tenantId now
        stats.totalCount =
          stats.openCount + stats.pendingCount + stats.resolvedCount + stats.closedCount := by
  refine ⟨OrderBy.top_of_parts order (summaries_perm db now) order' orders 10, ?_,
    counted_statuses db now⟩
  intro counter hcounter
  simp only [List.mem_cons, List.not_mem_nil, or_false] at hcounter
  rcases hcounter with rfl | rfl | rfl | rfl | rfl
  · exact counted_none db now _
  · exact counted_none db now _
  · exact counted_none db now _
  · exact counted_none db now _
  · have hall := counted_none db now fun _ => true
    simp only [counted, List.filter_true] at hall
    exact hall

end SupportApi.Analytics
