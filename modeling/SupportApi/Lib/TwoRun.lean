import Mathlib.Data.Option.Basic

/-! Two runs of one request, from two states that agree on what its caller owns: both end
with the same result, agree again, and leave the rest alone. -/

universe u v w

namespace SupportApi.Lib

structure View (σ : Type u) where
  Agree : σ → σ → Prop
  Untouched : σ → σ → Prop
  refl : ∀ s, Untouched s s
  trans : ∀ {s t u}, Untouched s t → Untouched t u → Untouched s u

namespace View

variable {σ : Type u} {α : Type v} {β : Type w} (V : View σ) {s s' : σ}

structure Isolates (s s' : σ) (x x' : α × σ) : Prop where
  result : x.1 = x'.1
  agree : V.Agree x.2 x'.2
  untouched : V.Untouched s x.2
  untouched' : V.Untouched s' x'.2

namespace Isolates

variable {V}

theorem pure (h : V.Agree s s') (a : α) : V.Isolates s s' (a, s) (a, s') :=
  ⟨rfl, h, V.refl s, V.refl s'⟩

theorem comp {x x' : α × σ} {y y' : β × σ} (h : V.Isolates s s' x x')
    (h' : V.Isolates x.2 x'.2 y y') : V.Isolates s s' y y' where
  result := h'.result
  agree := h'.agree
  untouched := V.trans h.untouched h'.untouched
  untouched' := V.trans h.untouched' h'.untouched'

end Isolates

end View

variable {ε : Type u} {α : Type v} {β : Type w}

theorem map_ok {f : α → β} {x : Except ε α} {b : β} (h : x.map f = .ok b) :
    ∃ a, x = .ok a ∧ f a = b := by
  cases x with
  | error e => cases h
  | ok a =>
    cases h
    exact ⟨a, rfl, rfl⟩

theorem isSome_cases {x x' : Option α} (h : x.isSome = x'.isSome) :
    (x = none ∧ x' = none) ∨ ∃ a a', x = some a ∧ x' = some a' := by
  cases x with
  | none => exact .inl ⟨rfl, Option.not_isSome_iff_eq_none.mp (Bool.eq_false_iff.mp h.symm)⟩
  | some a =>
    obtain ⟨a', ha'⟩ := Option.isSome_iff_exists.mp h.symm
    exact .inr ⟨a, a', rfl, ha'⟩

theorem rel_of_isSome {R : α → α → Prop} {x x' : Option α} (h : x.isSome = x'.isSome)
    (hR : ∀ a a', x = some a → x' = some a' → R a a') : Option.Rel R x x' := by
  rcases isSome_cases h with ⟨rfl, rfl⟩ | ⟨a, a', rfl, rfl⟩
  · exact .none
  · exact .some (hR a a' rfl rfl)

theorem rel_cases {R : α → α → Prop} {x x' : Option α} (h : Option.Rel R x x') :
    (x = none ∧ x' = none) ∨ ∃ a a', x = some a ∧ x' = some a' ∧ R a a' := by
  cases h with
  | none => exact .inl ⟨rfl, rfl⟩
  | some h => exact .inr ⟨_, _, rfl, rfl, h⟩

/-- Two requests that fail alike, or succeed with related results. -/
inductive Replies (R : α → α → Prop) : Except ε α → Except ε α → Prop
  | error (e : ε) : Replies R (.error e) (.error e)
  | ok {a a' : α} (h : R a a') : Replies R (.ok a) (.ok a')

namespace Replies

variable {R : α → α → Prop} {S : β → β → Prop} {x x' : Except ε α}

theorem refl (hR : ∀ a, R a a) (x : Except ε α) : Replies R x x := by
  cases x with
  | error e => exact .error e
  | ok a => exact .ok (hR a)

theorem cases (h : Replies R x x') :
    (∃ e, x = .error e ∧ x' = .error e) ∨ ∃ a a', x = .ok a ∧ x' = .ok a' ∧ R a a' := by
  cases h with
  | error e => exact .inl ⟨e, rfl, rfl⟩
  | ok h => exact .inr ⟨_, _, rfl, rfl, h⟩

theorem of_map {f : α → β} (hf : ∀ a a', f a' = f a → R a a') (h : x'.map f = x.map f) :
    Replies R x x' := by
  cases x with
  | error e =>
    cases x' with
    | error e' =>
      cases h
      exact .error e
    | ok a' => cases h
  | ok a =>
    cases x' with
    | error e' => cases h
    | ok a' => exact .ok (hf a a' (Except.ok.inj h))

theorem map {f f' : α → β} (h : Replies R x x') (hf : ∀ a a', R a a' → S (f a) (f' a')) :
    Replies S (x.map f) (x'.map f') := by
  cases h with
  | error e => exact .error e
  | ok h => exact .ok (hf _ _ h)

end Replies

end SupportApi.Lib
