import SupportApi.Lib.Machine

/-! Machines whose actions carry the time.  An invariant may then speak of the clock: it holds
at all later times, and a step keeps it at the time of the step. -/

universe u v w

namespace SupportApi.Lib.Machine

variable {σ : Type u} {α : Type v} {τ : Type w} [LE τ]

/-- No action is earlier than `clock`, or than an action before it. -/
def Onward (now? : α → Option τ) (clock : τ) : List α → Prop
  | [] => True
  | a :: as => clock ≤ (now? a).getD clock ∧ Onward now? ((now? a).getD clock) as

theorem run_onward {M : Machine σ α} {now? : α → Option τ} {I : τ → σ → Prop}
    (later : ∀ clock clock' s, clock ≤ clock' → I clock s → I clock' s)
    (step : ∀ clock s a t, I clock s → (now? a).getD clock = clock → M.step s a = some t →
      I clock t)
    {clock : τ} {s t : σ} {as : List α} (hs : I clock s) (has : Onward now? clock as)
    (h : M.run s as = some t) : ∃ clock', I clock' t := by
  induction as generalizing s clock with
  | nil =>
    cases h
    exact ⟨clock, hs⟩
  | cons a as ih =>
    obtain ⟨u, hu, hrun⟩ := run_cons_some.mp h
    refine ih (step _ s a u (later _ _ s has.1 hs) ?_ hu) has.2 hrun
    cases now? a <;> rfl

end SupportApi.Lib.Machine
