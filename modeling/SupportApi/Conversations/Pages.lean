import SupportApi.Conversations.Views

namespace SupportApi.Conversations

open Lib

abbrev Order := OrderBy (OrderBy.desc Conversation.createdAt)

def pageDto (status : Option ConversationStatus) (agentId : Option Uuid) (limit k : Nat) :
    ListConversationsDto :=
  ⟨status, agentId, some k, some limit⟩

def matching (db : Database) (user : User) (status : Option ConversationStatus)
    (agentId : Option Uuid) : List Conversation :=
  let w := whereClause ⟨status, agentId, none, none⟩ user
  db.conversations.select (w.matches w.params)

/-- `Math.ceil(total / limit)`. -/
def pageCount (total limit : Nat) : Nat := (total + limit - 1) / limit

/-- Pages 1, 2, ... as they come, `orders` being the order that each query finds. -/
def pages (orders : Nat → Order) (db : Database) (user : User) (status : Option ConversationStatus)
    (agentId : Option Uuid) (limit : Nat) : List ListedConversation :=
  let total := (findAll (orders 1) db (pageDto status agentId limit 1) user).total
  (List.range' 1 (pageCount total limit)).flatMap fun k =>
    (findAll (orders k) db (pageDto status agentId limit k) user).data

variable {orders : Nat → Order} {order : Order} {db : Database} {user : User}
  {status : Option ConversationStatus} {agentId : Option Uuid} {limit : Nat}

theorem total_eq (k : Nat) : (findAll order db (pageDto status agentId limit k) user).total =
    (matching db user status agentId).length := rfl

theorem page_eq (k : Nat) :
    (findAll order db (pageDto status agentId limit (k + 1)) user).data.map
        ListedConversation.conv =
      ((order.sort (matching db user status agentId)).drop (k * limit)).take limit := by
  have hmatching : matching db user status agentId =
      db.conversations.select (detailed db (pageDto status agentId limit (k + 1)) user) :=
    select_matches db (pageDto status agentId limit (k + 1)) user
  rw [findAll_data, hmatching, List.map_map]
  exact List.map_id _

theorem pages_eq : (pages orders db user status agentId limit).map ListedConversation.conv =
    (List.range (pageCount (matching db user status agentId).length limit)).flatMap fun k =>
      (((orders (k + 1)).sort (matching db user status agentId)).drop (k * limit)).take limit := by
  rw [pages, total_eq, List.map_flatMap, List.range'_eq_map_range, List.flatMap_map]
  apply List.flatMap_congr
  intro k _
  rw [Nat.add_comm 1 k]
  exact page_eq k

theorem le_pageCount_mul (hlimit : 1 ≤ limit) (total : Nat) :
    total ≤ pageCount total limit * limit := by
  have hceil := Nat.lt_mul_div_succ (total + limit - 1) hlimit
  rw [pageCount, Nat.mul_comm]
  rw [Nat.mul_add, Nat.mul_one] at hceil
  omega

theorem lt_pageCount {total k : Nat} (hlimit : 1 ≤ limit) (h : k * limit < total) :
    k < pageCount total limit := by
  rw [pageCount, Nat.lt_div_iff_mul_lt hlimit]
  omega

/-- Where no group of one time goes on over the end of a page, the pages are the whole. -/
theorem pages_perm (hlimit : 1 ≤ limit)
    (h : ∀ k, ∀ c ∈ matching db user status agentId,
      ¬OrderBy.Splits Conversation.createdAt (matching db user status agentId) (k * limit) c) :
    ((pages orders db user status agentId limit).map ListedConversation.conv).Perm
      (matching db user status agentId) := by
  have hwindows := OrderBy.windows_perm (orders 0) (fun k => orders (k + 1)) h
    (pageCount (matching db user status agentId).length limit)
  rw [List.take_of_length_le] at hwindows
  · rw [pages_eq]
    exact hwindows.trans ((orders 0).perm _)
  · rw [((orders 0).perm _).length_eq]
    exact le_pageCount_mul hlimit _

theorem matching_nodup : (matching db user status agentId).Nodup :=
  (List.Nodup.of_map _ db.conversations.nodup).filter _

/-- A group that goes on over the end of a page can be shown in an order in which the last of the
page is the first of the next one. -/
theorem exists_shown_twice (hlimit : 1 ≤ limit) {k : Nat} {c : Conversation}
    (h : OrderBy.Splits Conversation.createdAt (matching db user status agentId) (k * limit) c) :
    ∃ orders, ∃ a ∈ matching db user status agentId,
      2 ≤ ((pages orders db user status agentId limit).map ListedConversation.conv).count a := by
  let rows := matching db user status agentId
  let order : Order := .stable _
  obtain ⟨pre, a, b, post, hsort, hlength, heq⟩ := h.neighbours order
  obtain ⟨order', hsort'⟩ := order.exists_swapped hsort heq
  obtain ⟨j, rfl⟩ : ∃ j, k = j + 1 := by
    cases k with
    | zero => simp at hlength
    | succ j => exact ⟨j, rfl⟩
  have hend : (j + 1) * limit = j * limit + limit := Nat.succ_mul j limit
  refine ⟨fun i => if i ≤ j + 1 then order else order', a, ?_, ?_⟩
  · exact order.mem_sort.mp (hsort ▸ by simp)
  · have hcount : j + 1 < pageCount rows.length limit := by
      apply lt_pageCount hlimit
      exact Nat.lt_of_lt_of_le h.2 List.countP_le_length
    rw [pages_eq]
    apply OrderBy.two_le_count hcount
    · rw [if_pos (Nat.le_refl _), hsort]
      exact OrderBy.mem_window (i := pre.length) (by simp) (by omega) (by omega)
    · rw [if_neg (by omega), hsort']
      exact OrderBy.mem_window (i := pre.length + 1) (by simp) (by omega) (by omega)

/-- The pages show what matches exactly once, whatever the queries do with conversations of one
time, if and only if all conversations of one time are always on one page. -/
theorem pages_partition_iff (db : Database) (user : User) (status : Option ConversationStatus)
    (agentId : Option Uuid) (hlimit : 1 ≤ limit) :
    (∀ orders, ∀ c ∈ matching db user status agentId,
      ((pages orders db user status agentId limit).map ListedConversation.conv).count c = 1) ↔
    ∀ k, ∀ c ∈ matching db user status agentId,
      ¬OrderBy.Splits Conversation.createdAt (matching db user status agentId) (k * limit) c := by
  constructor
  · intro honce k c _ hsplits
    obtain ⟨orders, a, ha, htwice⟩ := exists_shown_twice hlimit hsplits
    rw [honce orders a ha] at htwice
    exact absurd htwice (by decide)
  · intro h orders c hc
    rw [(pages_perm hlimit h).count_eq]
    exact List.count_eq_one_of_mem matching_nodup hc

theorem pages_partition_single : 0 < 1 ∧
    ∀ orders, ∀ c ∈ matching Sample.database Sample.admin.toUser none none,
      ((pages orders Sample.database Sample.admin.toUser none none 1).map
        ListedConversation.conv).count c = 1 := by
  refine ⟨by decide,
    (pages_partition_iff Sample.database Sample.admin.toUser none none (by decide)).mpr ?_⟩
  rintro k c - ⟨hnewer, hasnew⟩
  have hone : (matching Sample.database Sample.admin.toUser none none).length = 1 := rfl
  have hle := Nat.lt_of_lt_of_le hasnew List.countP_le_length
  omega

def Sample.pair : Database :=
  (Sample.database.insertConversation (created Sample.dto Sample.tenant.id ⟨5⟩ 0)).getD .empty

theorem pages_of_pair : ¬∀ (orders : Nat → Order) (db : Database) (user : User)
    (status : Option ConversationStatus) (agentId : Option Uuid) (limit : Nat),
    1 ≤ limit → limit ≤ 100 → ∀ c ∈ matching db user status agentId,
      ((pages orders db user status agentId limit).map ListedConversation.conv).count c = 1 := by
  intro h
  have hsplits : OrderBy.Splits Conversation.createdAt
      (matching Sample.pair Sample.admin.toUser none none) (1 * 1)
      (created Sample.dto Sample.tenant.id ⟨5⟩ 0) := by decide
  obtain ⟨orders, a, ha, htwice⟩ := exists_shown_twice (by decide) hsplits
  rw [h orders Sample.pair Sample.admin.toUser none none 1 (by decide) (by decide) a ha] at htwice
  exact absurd htwice (by decide)

end SupportApi.Conversations
