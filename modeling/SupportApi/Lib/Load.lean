import Mathlib.Data.List.Nodup
import Mathlib.Data.List.Range

universe u v w

namespace SupportApi.Lib

variable {σ : Type u} {α : Type v}

section Loops

variable {f : σ → α → Option σ}

theorem foldlM_flatten (xss : List (List α)) (s : σ) :
    xss.flatten.foldlM f s = xss.foldlM (fun s xs => xs.foldlM f s) s := by
  induction xss generalizing s with
  | nil => rfl
  | cons xs xss ih =>
    rw [List.flatten_cons, List.foldlM_append, List.foldlM_cons]
    exact congrArg _ (funext ih)

theorem foldlM_of_step {I : List α → σ → Prop}
    (hstep : ∀ x xs s, I (x :: xs) s → ∃ s', f s x = some s' ∧ I xs s') {xs : List α} {s : σ}
    (h : I xs s) : ∃ s', xs.foldlM f s = some s' ∧ I [] s' := by
  induction xs generalizing s with
  | nil => exact ⟨s, rfl, h⟩
  | cons x xs ih =>
    obtain ⟨s', hs', hrest⟩ := hstep x xs s h
    obtain ⟨t, ht, hend⟩ := ih hrest
    refine ⟨t, ?_, hend⟩
    rw [List.foldlM_cons, hs']
    exact ht

end Loops

section Turns

theorem countP_mod {k j : Nat} (hj : j < k) (m : Nat) :
    (List.range (m * k)).countP (fun i => i % k = j) = m := by
  induction m with
  | zero => rw [Nat.zero_mul]; rfl
  | succ m ih =>
    have hround : (List.range k).countP (fun i => (m * k + i) % k = j) = 1 := by
      have hsame : ∀ i ∈ List.range k,
          decide ((m * k + i) % k = j) = true ↔ (i == j) = true := by
        intro i hi
        rw [Nat.mul_comm, Nat.mul_add_mod, Nat.mod_eq_of_lt (List.mem_range.mp hi)]
        simp
      rw [List.countP_congr hsame, ← List.count_eq_countP]
      exact List.count_eq_one_of_mem List.nodup_range (List.mem_range.mpr hj)
    rw [Nat.succ_mul, List.range_add, List.countP_append, ih, List.countP_map]
    exact congrArg (m + ·) hround

theorem countP_turns [DecidableEq α] {xs : List α} (hnodup : xs.Nodup) {x : α} (hx : x ∈ xs)
    (m : Nat) :
    (List.range (m * xs.length)).countP (fun i => xs[i % xs.length]? = some x) = m := by
  obtain ⟨j, hj, rfl⟩ := List.mem_iff_getElem.mp hx
  refine (List.countP_congr ?_).trans (countP_mod hj m)
  intro i _
  have hi : i % xs.length < xs.length := Nat.mod_lt _ (Nat.zero_lt_of_lt hj)
  rw [List.getElem?_eq_getElem hi, decide_eq_true_eq, decide_eq_true_eq, Option.some_inj,
    hnodup.getElem_inj_iff]

theorem flatMap_of_nodup {β : Type w} {xs : List α} (hnodup : xs.Nodup) {x : α} (hx : x ∈ xs)
    {f : α → List β} (h : ∀ y, y ≠ x → f y = []) : xs.flatMap f = f x := by
  induction xs with
  | nil => cases hx
  | cons y ys ih =>
    obtain ⟨hy, hys⟩ := List.nodup_cons.mp hnodup
    rw [List.flatMap_cons]
    rcases List.mem_cons.mp hx with rfl | hx
    · have hrest : ys.flatMap f = [] := by
        rw [List.flatMap_eq_nil_iff]
        exact fun z hz => h z fun heq => hy (heq ▸ hz)
      rw [hrest, List.append_nil]
    · rw [h y fun heq => hy (heq ▸ hx), List.nil_append, ih hys hx]

theorem countP_places {β : Type w} {xs : List α} {f : α → β} {g : Nat → β}
    (h : ∀ i x, xs[i]? = some x → f x = g i) (p : β → Bool) :
    xs.countP (fun x => p (f x)) = (List.range xs.length).countP fun i => p (g i) := by
  have hmap : xs.map f = (List.range xs.length).map g := by
    apply List.ext_getElem
    · rw [List.length_map, List.length_map, List.length_range]
    · intro i hi _
      rw [List.length_map] at hi
      rw [List.getElem_map, List.getElem_map, List.getElem_range]
      exact h i _ (List.getElem?_eq_getElem hi)
  have hcount := congrArg (List.countP p) hmap
  rw [List.countP_map, List.countP_map] at hcount
  exact hcount

end Turns

end SupportApi.Lib
