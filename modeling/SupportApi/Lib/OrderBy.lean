import Mathlib.Data.List.Nodup
import Mathlib.Data.List.Sort

/-! `ORDER BY` leaves rows that compare equal in any order: a query is answered
with some sorted arrangement of the rows it selects. -/

universe u

namespace SupportApi.Lib

variable {ρ : Type u}

structure OrderBy (le : ρ → ρ → Bool) where
  sort : List ρ → List ρ
  perm : ∀ rows, (sort rows).Perm rows
  sorted : ∀ rows, (sort rows).Pairwise fun r s => le r s = true

/-- How the rows of a query without `ORDER BY` come. -/
abbrev AnyOrder (ρ : Type u) := OrderBy fun _ _ : ρ => true

namespace OrderBy

def asStored : AnyOrder ρ where
  sort rows := rows
  perm rows := .refl rows
  sorted _ := List.pairwise_of_forall fun _ _ => rfl

def desc (f : ρ → Int) (r s : ρ) : Bool := f s ≤ f r

def stable (f : ρ → Int) : OrderBy (desc f) where
  sort rows := rows.mergeSort (desc f)
  perm rows := List.mergeSort_perm rows _
  sorted rows := by
    apply List.pairwise_mergeSort
    · intro a b c hab hbc
      simp only [desc, decide_eq_true_eq] at *
      omega
    · intro a b
      simp only [desc, Bool.or_eq_true, decide_eq_true_eq]
      omega

variable {le : ρ → ρ → Bool} (order : OrderBy le)

@[simp] theorem mem_sort {r : ρ} {rows : List ρ} : r ∈ order.sort rows ↔ r ∈ rows :=
  (order.perm rows).mem_iff

section Cuts

variable (f : ρ → Int)

/-- `n` rows from the top end inside the rows whose key is `f r`. -/
def Splits (rows : List ρ) (n : Nat) (r : ρ) : Prop :=
  rows.countP (fun s => f r < f s) < n ∧ n < rows.countP fun s => f r ≤ f s

instance (rows : List ρ) (n : Nat) (r : ρ) : Decidable (Splits f rows n r) :=
  inferInstanceAs (Decidable (_ ∧ _))

variable {f} {rows : List ρ} {n : Nat} {r : ρ} (order : OrderBy (desc f))

theorem le_of_cut {a b : ρ} (ha : a ∈ (order.sort rows).take n) (hb : b ∈ (order.sort rows).drop n) :
    f b ≤ f a := by
  have hsorted := order.sorted rows
  rw [← List.take_append_drop n (order.sort rows), List.pairwise_append] at hsorted
  exact of_decide_eq_true (hsorted.2.2 a ha b hb)

theorem countP_cut (p : ρ → Bool) :
    rows.countP p = ((order.sort rows).take n).countP p + ((order.sort rows).drop n).countP p := by
  rw [← List.countP_append, List.take_append_drop, (order.perm rows).countP_eq]

theorem countP_lt_of_mem_take (h : r ∈ (order.sort rows).take n) :
    rows.countP (fun s => f r < f s) < n := by
  have habove : ((order.sort rows).take n).countP (fun s => f r < f s) <
      ((order.sort rows).take n).length := by
    refine Nat.lt_of_le_of_ne List.countP_le_length fun heq => ?_
    simpa using List.countP_eq_length.mp heq r h
  have hbelow : ((order.sort rows).drop n).countP (fun s => f r < f s) = 0 := by
    refine List.countP_eq_zero.mpr fun s hs => ?_
    simpa using le_of_cut order h hs
  rw [countP_cut order, hbelow]
  exact Nat.lt_of_lt_of_le habove (List.length_take_le _ _)

theorem lt_countP_of_mem_drop (h : r ∈ (order.sort rows).drop n) :
    n < rows.countP fun s => f r ≤ f s := by
  have habove : ((order.sort rows).take n).countP (fun s => f r ≤ f s) = n := by
    rw [List.countP_eq_length.mpr fun s hs => by simpa using le_of_cut order hs h, List.length_take]
    refine Nat.min_eq_left (Nat.le_of_lt ?_)
    exact List.length_lt_of_drop_ne_nil (List.ne_nil_of_mem h)
  have hbelow : 0 < ((order.sort rows).drop n).countP fun s => f r ≤ f s :=
    List.countP_pos_iff.mpr ⟨r, h, by simp⟩
  rw [countP_cut order, habove]
  exact Nat.lt_add_of_pos_right hbelow

/-- A cut that splits no group of equal keys has the same rows above it in every arrangement. -/
theorem take_perm (h : ∀ r ∈ rows, ¬Splits f rows n r) :
    ((order.sort rows).take n).Perm
      (rows.filter fun r => (rows.countP fun s => f r ≤ f s) ≤ n) := by
  have habove : ((order.sort rows).take n).filter (fun r => (rows.countP fun s => f r ≤ f s) ≤ n) =
      (order.sort rows).take n := by
    refine List.filter_eq_self.mpr fun r hr => decide_eq_true (Nat.not_lt.mp fun hlt => ?_)
    exact h r (order.mem_sort.mp (List.mem_of_mem_take hr)) ⟨countP_lt_of_mem_take order hr, hlt⟩
  have hbelow : ((order.sort rows).drop n).filter (fun r => (rows.countP fun s => f r ≤ f s) ≤ n) =
      [] := by
    refine List.filter_eq_nil_iff.mpr fun r hr => ?_
    simpa using lt_countP_of_mem_drop order hr
  have hfilter := (order.perm rows).filter fun r => (rows.countP fun s => f r ≤ f s) ≤ n
  rw [← List.take_append_drop n (order.sort rows), List.filter_append, habove, hbelow,
    List.append_nil] at hfilter
  exact hfilter

theorem getElem_le_of_countP_le {k : Nat} (hk : k < (order.sort rows).length)
    (h : rows.countP (fun s => f r < f s) ≤ k) : f (order.sort rows)[k] ≤ f r := by
  by_contra hlt
  have hall : ((order.sort rows).take (k + 1)).countP (fun s => f r < f s) = k + 1 := by
    rw [List.countP_eq_length.mpr, List.length_take, Nat.min_eq_left hk]
    intro s hs
    rw [List.take_add_one, List.getElem?_eq_getElem hk] at hs
    refine decide_eq_true (Int.lt_of_lt_of_le (Int.not_le.mp hlt) ?_)
    rcases List.mem_append.mp hs with hs | hs
    · exact le_of_cut order hs (List.drop_eq_getElem_cons hk ▸ List.mem_cons_self)
    · rw [List.mem_singleton.mp hs]
  have hcut := @countP_cut _ f rows (k + 1) order fun s => f r < f s
  omega

theorem le_getElem_of_lt_countP {k : Nat} (hk : k < (order.sort rows).length)
    (h : k < rows.countP fun s => f r ≤ f s) : f r ≤ f (order.sort rows)[k] := by
  by_contra hlt
  have hnone : ((order.sort rows).drop k).countP (fun s => f r ≤ f s) = 0 := by
    refine List.countP_eq_zero.mpr fun s hs => ?_
    rw [decide_eq_true_eq, Int.not_le]
    refine Int.lt_of_le_of_lt ?_ (Int.not_le.mp hlt)
    rw [List.drop_eq_getElem_cons hk] at hs
    rcases List.mem_cons.mp hs with rfl | hs
    · exact Int.le_refl _
    · exact le_of_cut order (List.mem_take_iff_getElem.mpr ⟨k, by omega, rfl⟩) hs
  have htake : ((order.sort rows).take k).countP (fun s => f r ≤ f s) ≤ k :=
    List.countP_le_length.trans (List.length_take_le _ _)
  have hcut := @countP_cut _ f rows k order fun s => f r ≤ f s
  omega

theorem Splits.neighbours (h : Splits f rows n r) :
    ∃ pre a b post, order.sort rows = pre ++ a :: b :: post ∧ pre.length + 1 = n ∧ f a = f b := by
  obtain ⟨habove, hbelow⟩ := h
  obtain ⟨k, rfl⟩ : ∃ k, n = k + 1 := ⟨n - 1, by omega⟩
  have hlength : k + 1 < (order.sort rows).length := by
    rw [(order.perm rows).length_eq]
    exact Nat.lt_of_lt_of_le hbelow List.countP_le_length
  have hafter : (order.sort rows).drop (k + 1) =
      (order.sort rows)[k + 1] :: (order.sort rows).drop (k + 1 + 1) := List.drop_eq_getElem_cons hlength
  have hbefore : (order.sort rows).drop k =
      (order.sort rows)[k] :: (order.sort rows).drop (k + 1) :=
    List.drop_eq_getElem_cons (Nat.lt_of_succ_lt hlength)
  refine ⟨(order.sort rows).take k, (order.sort rows)[k], (order.sort rows)[k + 1],
    (order.sort rows).drop (k + 1 + 1), ?_, ?_, ?_⟩
  · rw [← hafter, ← hbefore, List.take_append_drop]
  · rw [List.length_take, Nat.min_eq_left (by omega)]
  · have hle : f (order.sort rows)[k + 1] ≤ f (order.sort rows)[k] :=
      le_of_cut order (List.mem_take_iff_getElem.mpr ⟨k, by omega, rfl⟩)
        (hafter ▸ List.mem_cons_self)
    have hhigh : f (order.sort rows)[k] ≤ f r :=
      getElem_le_of_countP_le order (Nat.lt_of_succ_lt hlength) (Nat.lt_succ_iff.mp habove)
    have hlow : f r ≤ f (order.sort rows)[k + 1] := le_getElem_of_lt_countP order hlength hbelow
    exact Int.le_antisymm (Int.le_trans hhigh hlow) hle

/-- Windows of `n` rows, each on an arrangement of its own, show together what one arrangement
has at its top. -/
theorem windows_perm (orders : Nat → OrderBy (desc f))
    (h : ∀ k, ∀ r ∈ rows, ¬Splits f rows (k * n) r) (m : Nat) :
    ((List.range m).flatMap fun k => (((orders k).sort rows).drop (k * n)).take n).Perm
      ((order.sort rows).take (m * n)) := by
  induction m with
  | zero => simp
  | succ m ih =>
    have htop : ((order.sort rows).take (m * n)).Perm (((orders m).sort rows).take (m * n)) :=
      (take_perm order (h m)).trans (take_perm (orders m) (h m)).symm
    have hnext : (((orders m).sort rows).take ((m + 1) * n)).Perm
        ((order.sort rows).take ((m + 1) * n)) :=
      (take_perm (orders m) (h (m + 1))).trans (take_perm order (h (m + 1))).symm
    rw [List.range_succ, List.flatMap_append, List.flatMap_singleton]
    refine ((ih.trans htop).append_right _).trans ?_
    rw [← List.take_add, ← Nat.succ_mul]
    exact hnext

end Cuts

theorem mem_window {rows : List ρ} {i start size : Nat} {a : ρ} (ha : rows[i]? = some a)
    (hstart : start ≤ i) (hsize : i < start + size) : a ∈ (rows.drop start).take size := by
  apply List.mem_of_getElem? (i := i - start)
  rw [List.getElem?_take_of_lt (by omega), List.getElem?_drop, Nat.add_sub_cancel' hstart, ha]

theorem two_le_count [DecidableEq ρ] {f : Nat → List ρ} {k n : Nat} {a : ρ}
    (hk : k + 1 < n) (ha : a ∈ f k) (ha' : a ∈ f (k + 1)) :
    2 ≤ ((List.range n).flatMap f).count a := by
  have hsplit : List.range n = List.range k ++ ([k, k + 1] ++ List.range' (k + 2) (n - (k + 2))) := by
    calc List.range n = List.range' 0 (k + (2 + (n - (k + 2)))) := by
          rw [List.range_eq_range']
          congr 1
          omega
      _ = List.range' 0 k ++ List.range' (0 + k) (2 + (n - (k + 2))) := List.range'_append_1.symm
      _ = List.range k ++ ([k, k + 1] ++ List.range' (k + 2) (n - (k + 2))) := by
          rw [Nat.zero_add, ← List.range'_append_1, List.range_eq_range']
          rfl
  have hfirst := List.count_pos_iff.mpr ha
  have hsecond := List.count_pos_iff.mpr ha'
  rw [hsplit]
  simp only [List.flatMap_append, List.flatMap_cons, List.flatMap_nil, List.count_append]
  omega

def answering [DecidableEq ρ] (rows arranged : List ρ) (hperm : arranged.Perm rows)
    (hsorted : arranged.Pairwise fun r s => le r s = true) : OrderBy le where
  sort rows' := if rows' = rows then arranged else order.sort rows'
  perm rows' := by
    by_cases h : rows' = rows
    · rw [if_pos h, h]
      exact hperm
    · rw [if_neg h]
      exact order.perm rows'
  sorted rows' := by
    by_cases h : rows' = rows
    · rw [if_pos h]
      exact hsorted
    · rw [if_neg h]
      exact order.sorted rows'

theorem answering_sort [DecidableEq ρ] {rows arranged : List ρ} (hperm : arranged.Perm rows)
    (hsorted : arranged.Pairwise fun r s => le r s = true) :
    (order.answering rows arranged hperm hsorted).sort rows = arranged := if_pos rfl

theorem exists_swapped [DecidableEq ρ] {f : ρ → Int} (order : OrderBy (desc f)) {rows : List ρ}
    {pre : List ρ} {a b : ρ} {post : List ρ} (h : order.sort rows = pre ++ a :: b :: post)
    (heq : f a = f b) : ∃ order' : OrderBy (desc f), order'.sort rows = pre ++ b :: a :: post := by
  have hperm : (pre ++ b :: a :: post).Perm rows :=
    (((List.Perm.swap a b post).append_left pre).trans (List.Perm.of_eq h.symm)).trans
      (order.perm rows)
  have hsorted := order.sorted rows
  rw [h, List.pairwise_append, List.pairwise_cons, List.pairwise_cons] at hsorted
  refine ⟨order.answering rows _ hperm ?_, order.answering_sort _ _⟩
  rw [List.pairwise_append, List.pairwise_cons, List.pairwise_cons]
  obtain ⟨hpre, ⟨ha, hb, hpost⟩, hcross⟩ := hsorted
  refine ⟨hpre, ⟨fun x hx => ?_, fun x hx => ha x (List.mem_cons_of_mem _ hx), hpost⟩,
    fun x hx y hy => hcross x hx y ?_⟩
  · rcases List.mem_cons.mp hx with rfl | hx
    · exact decide_eq_true heq.le
    · exact hb x hx
  · exact (List.Perm.swap a b post).mem_iff.mp hy

end OrderBy

end SupportApi.Lib
