import Mathlib.Logic.Function.Basic
import SupportApi.Lib.Machine

/-! What one component of a machine sees of an interleaving: a run of its own, over the actions
that are its own. -/

universe u v w

namespace SupportApi.Lib

section Components

variable {ι : Type u} {β : Type v} [DecidableEq ι] {gone : ι → Bool} {i : ι}

theorem update_stays (f : ι → β) (hi : gone i = false) (d x : β) :
    (fun j => if gone j then d else Function.update f i x j) =
      Function.update (fun j => if gone j then d else f j) i x := by
  have hupdate := funext (Function.apply_update (fun j y => if gone j then d else y) f i x)
  rw [hi] at hupdate
  exact hupdate

theorem update_gone (f : ι → β) (hi : gone i = true) (d x : β) :
    (fun j => if gone j then d else Function.update f i x j) =
      fun j => if gone j then d else f j := by
  have hupdate := funext (Function.apply_update (fun j y => if gone j then d else y) f i x)
  have hself : (if gone i then d else x) = if gone i then d else f i := by rw [hi]; rfl
  rw [hself] at hupdate
  exact hupdate.trans (Function.update_eq_self i fun j => if gone j then d else f j)

end Components

namespace Machine

variable {σ : Type u} {τ : Type v} {α : Type w}

/-- `N` is `M` on what `view` reads, and only the actions that are `mine` reach it, as long as the
actions satisfy `P`. -/
structure SlicesAlong (P : σ → α → Prop) (M : Machine σ α) (N : Machine τ α) (view : σ → τ)
    (mine : α → Bool) : Prop where
  own : ∀ s a t, P s a → mine a = true → M.step s a = some t → N.step (view s) a = some (view t)
  others : ∀ s a t, P s a → mine a = false → M.step s a = some t → view t = view s

theorem SlicesAlong.run {P : σ → α → Prop} {M : Machine σ α} {N : Machine τ α} {view : σ → τ}
    {mine : α → Bool} (h : SlicesAlong P M N view mine) {s t : σ} {as : List α}
    (hP : M.Along P s as) (hrun : M.run s as = some t) :
    N.run (view s) (as.filter mine) = some (view t) := by
  induction as generalizing s with
  | nil =>
    cases hrun
    rfl
  | cons a as ih =>
    obtain ⟨u, hu, hrest⟩ := run_cons_some.mp hrun
    have has := ih (hP.2 u hu) hrest
    cases ha : mine a with
    | true =>
      rw [List.filter_cons_of_pos ha]
      exact run_cons_some.mpr ⟨view u, h.own s a u hP.1 ha hu, has⟩
    | false =>
      rw [List.filter_cons_of_neg (Bool.eq_false_iff.mp ha), ← h.others s a u hP.1 ha hu]
      exact has

structure Slices (M : Machine σ α) (N : Machine τ α) (view : σ → τ) (mine : α → Bool) : Prop where
  own : ∀ s a t, mine a = true → M.step s a = some t → N.step (view s) a = some (view t)
  others : ∀ s a t, mine a = false → M.step s a = some t → view t = view s

namespace Slices

variable {M : Machine σ α} {N : Machine τ α} {view : σ → τ} {mine : α → Bool}

theorem run (h : Slices M N view mine) {s t : σ} {as : List α} (hrun : M.run s as = some t) :
    N.run (view s) (as.filter mine) = some (view t) := by
  have halong : SlicesAlong (fun _ _ => True) M N view mine :=
    ⟨fun s a t _ => h.own s a t, fun s a t _ => h.others s a t⟩
  exact halong.run (along_iff.mpr fun _ _ _ _ _ _ => trivial) hrun

theorem along (h : Slices M N view mine) {P : τ → α → Prop} {s t : σ} {as : List α}
    (hrun : M.run s as = some t) (hP : M.Along (fun s a => mine a = true → P (view s) a) s as) :
    N.Along P (view s) (as.filter mine) := by
  induction as generalizing s with
  | nil => trivial
  | cons a as ih =>
    obtain ⟨u, hu, hrest⟩ := run_cons_some.mp hrun
    have has := ih hrest (hP.2 u hu)
    cases ha : mine a with
    | true =>
      rw [List.filter_cons_of_pos ha]
      exact .cons (h.own s a u ha hu) (hP.1 ha) has
    | false =>
      rw [List.filter_cons_of_neg (Bool.eq_false_iff.mp ha), ← h.others s a u ha hu]
      exact has

end Slices

end Machine

end SupportApi.Lib
