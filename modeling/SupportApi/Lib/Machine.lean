import Mathlib.Data.List.Induction
import Mathlib.Order.Defs.Unbundled

/-! Guarded step machines: `step s a` is `none` when the action `a` is not
enabled in `s`.  A run executes a list of actions, and what is said of a run is
said of every state on the way or of every action at the state it is taken in. -/

universe u v

namespace SupportApi.Lib

structure Machine (σ : Type u) (α : Type v) where
  step : σ → α → Option σ

namespace Machine

variable {σ : Type u} {α : Type v} (M : Machine σ α)

def run (s : σ) : List α → Option σ
  | [] => some s
  | a :: as => (M.step s a).bind fun t => run t as

/-- Every state of the run of `as` from `s`, its ends included, satisfies `Q`. -/
def Throughout (Q : σ → Prop) (s : σ) : List α → Prop
  | [] => Q s
  | a :: as => Q s ∧ ∀ t, M.step s a = some t → Throughout Q t as

/-- Every action of the run of `as` from `s` satisfies `P` at the state it is taken in. -/
def Along (P : σ → α → Prop) (s : σ) : List α → Prop
  | [] => True
  | a :: as => P s a ∧ ∀ t, M.step s a = some t → Along P t as

def Preserves (I : σ → Prop) : Prop :=
  ∀ s a t, I s → M.step s a = some t → I t

def Occurs (P : σ → α → Prop) (s : σ) (as : List α) : Prop :=
  ∃ pre a post t, as = pre ++ a :: post ∧ M.run s pre = some t ∧ P t a

def PreservesAlong (P : σ → α → Prop) (I : σ → Prop) : Prop :=
  ∀ s a t, I s → P s a → M.step s a = some t → I t

variable {M}

@[simp] theorem run_nil (s : σ) : M.run s [] = some s := rfl

theorem run_cons_some {s u : σ} {a : α} {as : List α} :
    M.run s (a :: as) = some u ↔ ∃ t, M.step s a = some t ∧ M.run t as = some u := by
  simp only [run, Option.bind_eq_some_iff]

theorem along_cons {P : σ → α → Prop} {s t : σ} {a : α} {as : List α} (h : M.step s a = some t) :
    M.Along P s (a :: as) ↔ P s a ∧ M.Along P t as := by
  simp [Along, h]

theorem Along.cons {P : σ → α → Prop} {s t : σ} {a : α} {as : List α} (h : M.step s a = some t)
    (ha : P s a) (has : M.Along P t as) : M.Along P s (a :: as) :=
  (along_cons h).mpr ⟨ha, has⟩

theorem Along.left {P : σ → α → Prop} {s : σ} {as bs : List α} (h : M.Along P s (as ++ bs)) :
    M.Along P s as := by
  induction as generalizing s with
  | nil => trivial
  | cons a as ih => exact ⟨h.1, fun t ht => ih (h.2 t ht)⟩

theorem run_append (s : σ) (as bs : List α) :
    M.run s (as ++ bs) = (M.run s as).bind fun t => M.run t bs := by
  induction as generalizing s with
  | nil => rfl
  | cons a as ih =>
    simp only [List.cons_append, run, Option.bind_assoc]
    congr 1
    funext t
    exact ih t

theorem run_concat {s u : σ} {as : List α} {a : α} :
    M.run s (as ++ [a]) = some u ↔ ∃ t, M.run s as = some t ∧ M.step t a = some u := by
  simp [run_append, run, Option.bind_eq_some_iff]

theorem run_preserves {I : σ → Prop} (hI : M.Preserves I) {s t : σ} {as : List α}
    (hs : I s) (h : M.run s as = some t) : I t := by
  induction as generalizing s with
  | nil => cases h; exact hs
  | cons a as ih =>
    obtain ⟨u, hu, ht⟩ := run_cons_some.mp h
    exact ih (hI s a u hs hu) ht

theorem run_preserves_along {P : σ → α → Prop} {I : σ → Prop} (hI : M.PreservesAlong P I)
    {s t : σ} {as : List α} (hs : I s) (hP : M.Along P s as) (h : M.run s as = some t) :
    I t := by
  induction as generalizing s with
  | nil => cases h; exact hs
  | cons a as ih =>
    obtain ⟨u, hu, ht⟩ := run_cons_some.mp h
    exact ih (hI s a u hs hP.1 hu) (hP.2 u hu) ht

theorem run_rel {I : σ → Prop} {R : σ → σ → Prop} (hI : M.Preserves I)
    (refl : ∀ s, R s s) (trans : ∀ {s t u}, R s t → R t u → R s u)
    (step : ∀ s a t, I s → M.step s a = some t → R s t)
    {s t : σ} {as : List α} (hs : I s) (h : M.run s as = some t) : R s t := by
  induction as generalizing s with
  | nil => cases h; exact refl _
  | cons a as ih =>
    obtain ⟨u, hu, ht⟩ := run_cons_some.mp h
    exact trans (step s a u hs hu) (ih (hI s a u hs hu) ht)

theorem along_iff {P : σ → α → Prop} {s : σ} {as : List α} :
    M.Along P s as ↔
      ∀ bs a cs t, as = bs ++ a :: cs → M.run s bs = some t → P t a := by
  induction as generalizing s with
  | nil =>
    constructor
    · intro _ bs a cs t hsplit
      simp at hsplit
    · intro _
      trivial
  | cons b as ih =>
    constructor
    · intro h bs a cs t hsplit hrun
      cases bs with
      | nil =>
        cases hrun
        obtain ⟨rfl, rfl⟩ := List.cons.inj hsplit
        exact h.1
      | cons b' bs =>
        obtain ⟨rfl, rfl⟩ := List.cons.inj hsplit
        obtain ⟨u, hu, ht⟩ := run_cons_some.mp hrun
        exact ih.mp (h.2 u hu) bs a cs t rfl ht
    · intro h
      refine ⟨h [] b as s rfl rfl, fun u hu => ih.mpr ?_⟩
      intro bs a cs t hsplit hrun
      exact h (b :: bs) a cs t (by rw [hsplit]; rfl) (run_cons_some.mpr ⟨u, hu, hrun⟩)

theorem Along.right {P : σ → α → Prop} {s t : σ} {as bs : List α} (h : M.Along P s (as ++ bs))
    (hrun : M.run s as = some t) : M.Along P t bs := by
  induction as generalizing s with
  | nil => cases hrun; exact h
  | cons a as ih =>
    obtain ⟨u, hu, ht⟩ := run_cons_some.mp hrun
    exact ih (h.2 u hu) ht

theorem Throughout.start {Q : σ → Prop} {s : σ} {as : List α} (h : M.Throughout Q s as) :
    Q s := by
  cases as with
  | nil => exact h
  | cons a as => exact h.1

theorem throughout_iff {Q : σ → Prop} {s : σ} {as : List α} :
    M.Throughout Q s as ↔
      ∀ bs cs t, as = bs ++ cs → M.run s bs = some t → Q t := by
  induction as generalizing s with
  | nil =>
    constructor
    · intro h bs cs t hsplit hrun
      obtain ⟨rfl, rfl⟩ := List.append_eq_nil_iff.mp hsplit.symm
      cases hrun
      exact h
    · intro h
      exact h [] [] s rfl rfl
  | cons a as ih =>
    constructor
    · intro h bs cs t hsplit hrun
      cases bs with
      | nil => cases hrun; exact h.1
      | cons b bs =>
        obtain ⟨rfl, rfl⟩ := List.cons.inj hsplit
        obtain ⟨u, hu, ht⟩ := run_cons_some.mp hrun
        exact ih.mp (h.2 u hu) bs cs t rfl ht
    · intro h
      refine ⟨h [] (a :: as) s rfl rfl, fun u hu => ih.mpr ?_⟩
      intro bs cs t hsplit hrun
      exact h (a :: bs) cs t (by rw [hsplit]; rfl) (run_cons_some.mpr ⟨u, hu, hrun⟩)

theorem PreservesAlong.throughout {P : σ → α → Prop} {I : σ → Prop} (hI : M.PreservesAlong P I)
    {s : σ} {as : List α} (hs : I s) (hP : M.Along P s as) : M.Throughout I s as := by
  induction as generalizing s with
  | nil => exact hs
  | cons a as ih => exact ⟨hs, fun t ht => ih (hI s a t hs hP.1 ht) (hP.2 t ht)⟩

theorem Throughout.mono {Q R : σ → Prop} (hQR : ∀ s, Q s → R s) {s : σ} {as : List α}
    (h : M.Throughout Q s as) : M.Throughout R s as := by
  induction as generalizing s with
  | nil => exact hQR s h
  | cons a as ih => exact ⟨hQR s h.1, fun t ht => ih (h.2 t ht)⟩

theorem Throughout.cons {Q : σ → Prop} {s t : σ} {a : α} {as : List α} (h : M.step s a = some t)
    (hs : Q s) (has : M.Throughout Q t as) : M.Throughout Q s (a :: as) :=
  ⟨hs, fun _ hu => Option.some.inj (h.symm.trans hu) ▸ has⟩

theorem Throughout.step {Q : σ → Prop} {s t : σ} {a : α} {as : List α}
    (h : M.Throughout Q s (a :: as)) (hs : M.step s a = some t) : Q t :=
  (h.2 t hs).start

/-- What holds at the end of a run held at its start, or some step of the run made it true. -/
theorem run_origin (Q : σ → Prop) {s t : σ} {as : List α} (h : M.run s as = some t) (ht : Q t) :
    Q s ∨ ∃ pre a post u v, as = pre ++ a :: post ∧ M.run s pre = some u ∧ M.step u a = some v ∧
      ¬Q u ∧ Q v := by
  induction as generalizing s with
  | nil => cases h; exact Or.inl ht
  | cons a as ih =>
    obtain ⟨u, hu, hrun⟩ := run_cons_some.mp h
    rcases ih hrun with hQ | ⟨pre, b, post, v, w, rfl, hpre, hstep, hbefore, hafter⟩
    · by_cases hs : Q s
      · exact Or.inl hs
      · exact Or.inr ⟨[], a, as, s, u, rfl, rfl, hu, hs, hQ⟩
    · exact Or.inr ⟨a :: pre, b, post, v, w, rfl, run_cons_some.mpr ⟨u, hu, hpre⟩, hstep, hbefore,
        hafter⟩

theorem Occurs.append {P : σ → α → Prop} {s : σ} {as : List α} (h : M.Occurs P s as)
    (bs : List α) : M.Occurs P s (as ++ bs) := by
  obtain ⟨pre, a, post, t, rfl, hpre, ha⟩ := h
  exact ⟨pre, a, post ++ bs, t, by rw [List.append_assoc, List.cons_append], hpre, ha⟩

theorem occurs_concat {P : σ → α → Prop} {s t : σ} {as : List α} {a : α}
    (h : M.run s as = some t) (ha : P t a) : M.Occurs P s (as ++ [a]) :=
  ⟨as, a, [], t, rfl, h, ha⟩

/-- What is said of a state together with the run to it, by induction on the run from its end. -/
theorem run_history {I : List α → σ → Prop} {s : σ} (start : I [] s)
    (step : ∀ as t a u, M.run s as = some t → I as t → M.step t a = some u → I (as ++ [a]) u)
    {as : List α} {t : σ} (h : M.run s as = some t) : I as t := by
  induction as using List.reverseRecOn generalizing t with
  | nil =>
    cases h
    exact start
  | append_singleton as a ih =>
    obtain ⟨u, hu, ht⟩ := run_concat.mp h
    exact step as u a t hu (ih hu) ht

end Machine

end SupportApi.Lib
