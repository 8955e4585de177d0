import Mathlib.Algebra.BigOperators.Group.List.Basic
import Mathlib.Algebra.GroupWithZero.Nat
import SupportApi.Lib.OrderBy

universe u v

namespace SupportApi.Lib

variable {ρ : Type u}

theorem perm_flatMap_groups {κ : Type v} [DecidableEq κ] (key : ρ → κ) {keys : List κ}
    (hkeys : keys.Nodup) {rows : List ρ} (h : ∀ r ∈ rows, key r ∈ keys) :
    rows.Perm (keys.flatMap fun k => rows.filter fun r => key r = k) := by
  induction keys generalizing rows with
  | nil =>
    cases rows with
    | nil => exact .refl _
    | cons r rows => cases h r List.mem_cons_self
  | cons k keys ih =>
    obtain ⟨hk, hkeys⟩ := List.nodup_cons.mp hkeys
    have hrest : ∀ r ∈ rows.filter (fun r => !decide (key r = k)), key r ∈ keys := by
      intro r hr
      obtain ⟨hr, hne⟩ := List.mem_filter.mp hr
      exact (List.mem_cons.mp (h r hr)).resolve_left (by simpa using hne)
    have hgroup : ∀ k' ∈ keys, (rows.filter fun r => !decide (key r = k)).filter
        (fun r => decide (key r = k')) = rows.filter fun r => decide (key r = k') := by
      intro k' hk'
      rw [List.filter_filter]
      apply List.filter_congr
      intro r _
      rw [Bool.and_eq_left_iff_imp]
      simp only [decide_eq_true_eq, Bool.not_eq_true', decide_eq_false_iff_not]
      rintro rfl heq
      exact hk (heq ▸ hk')
    rw [List.flatMap_cons, ← List.flatMap_congr hgroup]
    exact (List.filter_append_perm _ rows).symm.trans ((ih hkeys hrest).append_left _)

namespace OrderBy

theorem countP_take_of_sorted {l : List Int} (h : l.Pairwise fun a b => b ≤ a) (n : Nat) (x : Int) :
    (l.take n).countP (fun a => x ≤ a) = min n (l.countP fun a => x ≤ a) := by
  induction l generalizing n with
  | nil => simp
  | cons a l ih =>
    obtain ⟨ha, hl⟩ := List.pairwise_cons.mp h
    cases n with
    | zero => simp
    | succ n =>
      rw [List.take_succ_cons, List.countP_cons, List.countP_cons, ih hl n]
      by_cases hx : x ≤ a
      · simp only [hx, decide_true, if_true]
        omega
      · have hnone : l.countP (fun b => decide (x ≤ b)) = 0 := by
          refine List.countP_eq_zero.mpr fun b hb => ?_
          rw [decide_eq_true_eq]
          exact fun hxb => hx (hxb.trans (ha b hb))
        simp [hx, hnone]

theorem eq_of_countP {l l' : List Int} (h : l.Pairwise fun a b => b ≤ a)
    (h' : l'.Pairwise fun a b => b ≤ a)
    (hcount : ∀ x, l.countP (fun a => x ≤ a) = l'.countP fun a => x ≤ a) : l = l' := by
  refine List.Perm.eq_of_pairwise (fun a b _ _ hab hba => Int.le_antisymm hba hab) h h' ?_
  refine List.perm_iff_count.mpr fun x => ?_
  have hsplit : ∀ m : List Int, m.countP (fun a => x ≤ a) =
      m.count x + m.countP fun a => x + 1 ≤ a := by
    intro m
    induction m with
    | nil => rfl
    | cons a m ih =>
      rw [List.countP_cons, List.countP_cons, List.count_cons, ih]
      simp only [decide_eq_true_eq, beq_iff_eq]
      split <;> split <;> split <;> omega
  have hx := hcount x
  rw [hsplit l, hsplit l', hcount (x + 1)] at hx
  exact Nat.add_right_cancel hx

variable {f : ρ → Int} (order : OrderBy (desc f))

theorem sorted_map (rows : List ρ) : ((order.sort rows).map f).Pairwise fun a b => b ≤ a :=
  List.pairwise_map.mpr ((order.sorted rows).imp of_decide_eq_true)

theorem countP_map_sort (rows : List ρ) (x : Int) :
    ((order.sort rows).map f).countP (fun a => x ≤ a) = rows.countP fun r => x ≤ f r := by
  rw [List.countP_map, (order.perm rows).countP_eq]
  rfl

theorem countP_top (rows : List ρ) (n : Nat) (x : Int) :
    ((order.sort rows).take n).countP (fun r => x ≤ f r) = min n (rows.countP fun r => x ≤ f r) := by
  rw [← countP_map_sort order rows, ← countP_take_of_sorted (sorted_map order rows), ← List.map_take,
    List.countP_map]
  rfl

theorem min_sum_min (n : Nat) (counts : List Nat) :
    min n (counts.map (min n)).sum = min n counts.sum := by
  induction counts with
  | nil => rfl
  | cons c counts ih =>
    rw [List.map_cons, List.sum_cons, List.sum_cons]
    omega

/-- The highest keys of the whole are among the highest of its parts. -/
theorem top_of_parts {κ : Type v} {keys : List κ} {part : κ → List ρ} {rows : List ρ}
    (h : rows.Perm (keys.flatMap part)) (order' : OrderBy (desc f)) (orders : κ → OrderBy (desc f))
    (n : Nat) : ((order.sort rows).take n).map f =
      ((order'.sort (keys.flatMap fun k => ((orders k).sort (part k)).take n)).take n).map f := by
  rw [List.map_take, List.map_take]
  apply eq_of_countP
  · exact (sorted_map order _).sublist (List.take_sublist _ _)
  · exact (sorted_map order' _).sublist (List.take_sublist _ _)
  intro x
  rw [countP_take_of_sorted (sorted_map order _), countP_take_of_sorted (sorted_map order' _),
    countP_map_sort, countP_map_sort, h.countP_eq, List.countP_flatMap, List.countP_flatMap]
  have hparts : keys.map (List.countP (fun r => decide (x ≤ f r)) ∘
      fun k => ((orders k).sort (part k)).take n) =
        (keys.map (List.countP (fun r => decide (x ≤ f r)) ∘ part)).map (min n) := by
    rw [List.map_map]
    exact List.map_congr_left fun k _ => countP_top (orders k) (part k) n x
  rw [hparts, min_sum_min]

end OrderBy

end SupportApi.Lib
