import Mathlib.Data.List.Nodup
import SupportApi.Lib.Machine

/-! Linearization.  If every step either leaves an object alone or is the point at
which one operation acts on it as it would alone, then the operations, in the order
of their points, are a serial execution that agrees with real time. -/

universe u v w

namespace SupportApi.Lib

variable {τ : Type u} {ι ο ρ : Type w}

/-- The operations of `order`, served one after the other, answer as recorded and
take the object from `v` to `v'`. -/
def Explains (serve : τ → ο → ρ × τ) (v : τ) : List (ι × ο × ρ) → τ → Prop
  | [], v' => v = v'
  | (_, o, r) :: order, v' => (serve v o).1 = r ∧ Explains serve (serve v o).2 order v'

variable {σ : Type u} {α : Type v}

/-- Every prefix of the run cuts the order into what was done by then and the rest. -/
def AgreesWithRealTime (M : Machine σ α) (done : σ → ι → Option (ο × ρ)) (s : σ) (as : List α)
    (order : List (ι × ο × ρ)) : Prop :=
  ∀ pre post u, as = pre ++ post → M.run s pre = some u →
    ∃ first last, order = first ++ last ∧
      ∀ i, i ∈ first.map Prod.fst ↔ done s i = none ∧ (done u i).isSome

variable {M : Machine σ α} {done : σ → ι → Option (ο × ρ)}

namespace AgreesWithRealTime

variable {s u : σ} {a : α} {as : List α} {order : List (ι × ο × ρ)}

theorem nil : AgreesWithRealTime M done s [] [] := by
  intro pre post v hsplit hv
  obtain ⟨rfl, rfl⟩ := List.append_eq_nil_iff.mp hsplit.symm
  obtain rfl := Option.some.inj hv
  refine ⟨[], [], rfl, fun i => ?_⟩
  cases done s i <;> simp

theorem skip (h : AgreesWithRealTime M done u as order) (hu : M.step s a = some u)
    (hdone : done u = done s) : AgreesWithRealTime M done s (a :: as) order := by
  intro pre post v hsplit hv
  cases pre with
  | nil =>
    obtain rfl := Option.some.inj hv
    refine ⟨[], order, rfl, fun i => ?_⟩
    cases done s i <;> simp
  | cons b pre =>
    obtain ⟨rfl, rfl⟩ := List.cons.inj hsplit
    obtain ⟨u', hu', hv⟩ := Machine.run_cons_some.mp hv
    cases hu.symm.trans hu'
    rw [← hdone]
    exact h pre post v rfl hv

theorem point [DecidableEq ι] (h : AgreesWithRealTime M done u as order) (hu : M.step s a = some u) {i : ι}
    {x : ο × ρ} (hi : done s i = none) (hdone : done u = Function.update (done s) i (some x))
    (hkept : ∀ pre post v, as = pre ++ post → M.run u pre = some v → (done v i).isSome) :
    AgreesWithRealTime M done s (a :: as) ((i, x) :: order) := by
  intro pre post v hsplit hv
  cases pre with
  | nil =>
    obtain rfl := Option.some.inj hv
    refine ⟨[], _, rfl, fun j => ?_⟩
    cases done s j <;> simp
  | cons b pre =>
    obtain ⟨rfl, rfl⟩ := List.cons.inj hsplit
    obtain ⟨u', hu', hv⟩ := Machine.run_cons_some.mp hv
    cases hu.symm.trans hu'
    obtain ⟨first, last, rfl, hfirst⟩ := h pre post v rfl hv
    refine ⟨(i, x) :: first, last, rfl, fun j => ?_⟩
    rw [List.map_cons, List.mem_cons, hfirst]
    by_cases hj : j = i
    · subst hj
      simp [hi, hkept pre post v rfl hv]
    · simp [hj, hdone]

end AgreesWithRealTime

variable [DecidableEq ι]

/-- `done s i` is the operation that `i` has completed by `s`, with its reply. -/
structure Linearizes (M : Machine σ α) (I : σ → Prop) (P : σ → α → Prop) (view : σ → τ)
    (done : σ → ι → Option (ο × ρ)) (serve : τ → ο → ρ × τ) : Prop where
  preserves : M.PreservesAlong P I
  point : ∀ s a t, I s → P s a → M.step s a = some t →
    (view t = view s ∧ done t = done s) ∨
      ∃ i o, done s i = none ∧ view t = (serve (view s) o).2 ∧
        done t = Function.update (done s) i (some (o, (serve (view s) o).1))

namespace Linearizes

variable {I : σ → Prop} {P : σ → α → Prop} {view : σ → τ} {serve : τ → ο → ρ × τ}

theorem kept (h : Linearizes M I P view done serve) {s t : σ} {as : List α} (hs : I s)
    (hP : M.Along P s as) (hrun : M.run s as = some t) {i : ι} {x : ο × ρ}
    (hx : done s i = some x) : done t i = some x := by
  induction as generalizing s with
  | nil => cases hrun; exact hx
  | cons a as ih =>
    obtain ⟨u, hu, ht⟩ := Machine.run_cons_some.mp hrun
    apply ih (h.preserves s a u hs hP.1 hu) (hP.2 u hu) ht
    rcases h.point s a u hs hP.1 hu with ⟨-, hdone⟩ | ⟨j, o, hj, -, hdone⟩
    · rw [hdone, hx]
    · rw [hdone, Function.update_of_ne, hx]
      rintro rfl
      cases hj.symm.trans hx

theorem order (h : Linearizes M I P view done serve) {s t : σ} {as : List α} (hs : I s)
    (hP : M.Along P s as) (hrun : M.run s as = some t) :
    ∃ order, Explains serve (view s) order (view t) ∧ (order.map Prod.fst).Nodup ∧
      (∀ i x, (i, x) ∈ order ↔ done s i = none ∧ done t i = some x) ∧
      AgreesWithRealTime M done s as order := by
  induction as generalizing s with
  | nil =>
    cases hrun
    refine ⟨[], rfl, List.nodup_nil, ?_, .nil⟩
    intro i x
    simp only [List.not_mem_nil, false_iff, not_and]
    intro hnone hsome
    cases hnone.symm.trans hsome
  | cons a as ih =>
    obtain ⟨u, hu, ht⟩ := Machine.run_cons_some.mp hrun
    have hI := h.preserves s a u hs hP.1 hu
    have hPu := hP.2 u hu
    obtain ⟨order, hexplains, hnodup, hmem, htime⟩ := ih hI hPu ht
    rcases h.point s a u hs hP.1 hu with ⟨hview, hdone⟩ | ⟨i, o, hi, hview, hdone⟩
    · rw [hdone] at hmem
      exact ⟨order, hview ▸ hexplains, hnodup, hmem, htime.skip hu hdone⟩
    · have hhere : done u i = some (o, (serve (view s) o).1) := by rw [hdone, Function.update_self]
      have hfresh : i ∉ order.map Prod.fst := by
        intro hi'
        obtain ⟨⟨j, x⟩, hx, rfl⟩ := List.mem_map.mp hi'
        have hnone := ((hmem j x).mp hx).1
        cases hnone.symm.trans hhere
      refine ⟨(i, o, (serve (view s) o).1) :: order, ⟨rfl, hview ▸ hexplains⟩,
        List.nodup_cons.mpr ⟨hfresh, hnodup⟩, ?_, htime.point hu hi hdone ?_⟩
      · intro j x
        rw [List.mem_cons, hmem]
        by_cases hj : j = i
        · subst hj
          simp [hi, hhere, h.kept hI hPu ht hhere, eq_comm]
        · simp [hj, hdone]
      · intro pre post v hsplit hv
        subst hsplit
        rw [h.kept hI hPu.left hv hhere]
        rfl

end Linearizes

end SupportApi.Lib
