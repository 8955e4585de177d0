import Mathlib.Algebra.BigOperators.Group.Finset.Piecewise
import Mathlib.Algebra.Order.BigOperators.Group.Finset
import SupportApi.Lib.Machine

/-! Machines of processes that each have a bounded number of steps left.  An action is either
the arrival of a process, which gives it its steps, or takes one of them; so the steps taken
are bounded by the arrivals, and a machine that can always move drains. -/

universe u v w

namespace SupportApi.Lib.Machine

variable {σ : Type u} {α : Type v} {ι : Type w} [DecidableEq ι] {M : Machine σ α}

/-- From the states that satisfy `I`, an arrival adds at most `k` to what one process has left,
and every other action lowers what one process has left. -/
structure Budget (M : Machine σ α) (I : σ → Prop) (arrives : α → Bool) (left : σ → ι → ℕ)
    (k : ℕ) : Prop where
  keeps : M.Preserves I
  earns : ∀ s a t, I s → M.step s a = some t → arrives a = true →
    ∃ i, left t i ≤ left s i + k ∧ ∀ j, j ≠ i → left t j = left s j
  spends : ∀ s a t, I s → M.step s a = some t → arrives a = false →
    ∃ i, left t i < left s i ∧ ∀ j, j ≠ i → left t j = left s j

namespace Budget

variable {I : σ → Prop} {arrives : α → Bool} {left : σ → ι → ℕ} {k : ℕ}

theorem sum_insert {f : ι → ℕ} {F : Finset ι} (hF : ∀ i, i ∉ F → f i = 0) (i : ι) :
    ∑ j ∈ insert i F, f j = ∑ j ∈ F, f j := by
  refine (Finset.sum_subset (Finset.subset_insert i F) ?_).symm
  intro j _ hj
  exact hF j hj

theorem sum_erase {f g : ι → ℕ} {F : Finset ι} {i : ι} (hi : i ∈ F)
    (h : ∀ j, j ≠ i → g j = f j) :
    ∑ j ∈ F, g j + f i = ∑ j ∈ F, f j + g i := by
  have hrest : ∑ j ∈ F.erase i, g j = ∑ j ∈ F.erase i, f j :=
    Finset.sum_congr rfl fun j hj => h j (Finset.ne_of_mem_erase hj)
  have hf := Finset.sum_erase_add F f hi
  have hg := Finset.sum_erase_add F g hi
  omega

variable (h : Budget M I arrives left k)
include h

theorem spends_sum {s t : σ} {a : α} {F : Finset ι} (hs : I s) (hF : ∀ i, i ∉ F → left s i = 0)
    (hstep : M.step s a = some t) (ha : arrives a = false) :
    (∀ i, i ∉ F → left t i = 0) ∧ ∑ i ∈ F, left t i < ∑ i ∈ F, left s i := by
  obtain ⟨i, hlt, hrest⟩ := h.spends s a t hs hstep ha
  have hi : i ∈ F := by
    by_contra hi
    rw [hF i hi] at hlt
    exact Nat.not_lt_zero _ hlt
  refine ⟨fun j hj => ?_, ?_⟩
  · rw [hrest j (ne_of_mem_of_not_mem hi hj).symm]
    exact hF j hj
  · have := sum_erase hi hrest
    omega

theorem run_spent {s t : σ} {as : List α} (hs : I s) (hleft : ∀ i, left s i = 0)
    (hrun : M.run s as = some t) :
    ∃ F : Finset ι, (∀ i, i ∉ F → left t i = 0) ∧
      as.countP (fun a => !arrives a) + ∑ i ∈ F, left t i ≤ k * as.countP arrives := by
  have hhistory := run_history (M := M) (s := s) (I := fun as t => I t ∧
    ∃ F : Finset ι, (∀ i, i ∉ F → left t i = 0) ∧
      as.countP (fun a => !arrives a) + ∑ i ∈ F, left t i ≤ k * as.countP arrives)
    ⟨hs, ∅, fun i _ => hleft i, by simp⟩ ?_ hrun
  · exact hhistory.2
  rintro as t a u - ⟨ht, F, hF, hle⟩ hstep
  refine ⟨h.keeps t a u ht hstep, ?_⟩
  cases ha : arrives a with
  | true =>
    obtain ⟨i, hi, hrest⟩ := h.earns t a u ht hstep ha
    refine ⟨insert i F, fun j hj => ?_, ?_⟩
    · obtain ⟨hji, hjF⟩ := not_or.mp (mt Finset.mem_insert.mpr hj)
      rw [hrest j hji, hF j hjF]
    · have hsum := sum_erase (Finset.mem_insert_self i F) hrest
      rw [sum_insert hF] at hsum
      simp only [List.countP_append, List.countP_singleton, ha, Bool.not_true, Bool.false_eq_true,
        if_false, if_true, Nat.mul_add, Nat.mul_one]
      omega
  | false =>
    obtain ⟨hF', hlt⟩ := h.spends_sum ht hF hstep ha
    refine ⟨F, hF', ?_⟩
    simp only [List.countP_append, List.countP_singleton, ha, Bool.not_false, Bool.false_eq_true,
      if_false, if_true, Nat.mul_add, Nat.mul_zero]
    omega

/-- A machine that can move as long as a process has something left drains. -/
theorem drains (good : α → Prop)
    (hmoves : ∀ s, I s → (∃ i, left s i ≠ 0) →
      ∃ a t, arrives a = false ∧ good a ∧ M.step s a = some t)
    {s : σ} {F : Finset ι} (hs : I s) (hF : ∀ i, i ∉ F → left s i = 0) :
    ∃ as t, (∀ a ∈ as, arrives a = false ∧ good a) ∧ M.run s as = some t ∧
      ∀ i, left t i = 0 := by
  induction hn : ∑ i ∈ F, left s i using Nat.strong_induction_on generalizing s with
  | _ n ih =>
    by_cases hdone : ∃ i, left s i ≠ 0
    · obtain ⟨a, t, ha, hgood, hstep⟩ := hmoves s hs hdone
      obtain ⟨hF', hlt⟩ := h.spends_sum hs hF hstep ha
      obtain ⟨as, u, has, hrun, hu⟩ := ih _ (hn ▸ hlt) (h.keeps s a t hs hstep) hF' rfl
      refine ⟨a :: as, u, ?_, run_cons_some.mpr ⟨t, hstep, hrun⟩, hu⟩
      exact List.forall_mem_cons.mpr ⟨⟨ha, hgood⟩, has⟩
    · refine ⟨[], s, by simp, rfl, fun i => ?_⟩
      exact not_not.mp (not_exists.mp hdone i)

end Budget

end SupportApi.Lib.Machine
