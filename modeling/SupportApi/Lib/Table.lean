import Mathlib.Data.List.Nodup
import Mathlib.Data.List.Perm.Basic

universe u v

namespace SupportApi.Lib

variable {ρ : Type u} {κ : Type v}

structure Table (key : ρ → κ) where
  rows : List ρ
  nodup : (rows.map key).Nodup

namespace Table

variable {key : ρ → κ} [DecidableEq κ]

instance [DecidableEq ρ] : DecidableEq (Table key) := fun T U =>
  decidable_of_iff (T.rows = U.rows) (by cases T; cases U; simp)

def empty : Table key := ⟨[], List.nodup_nil⟩

def find? (T : Table key) (k : κ) : Option ρ := T.rows.find? fun r => key r = k

def select (T : Table key) (p : ρ → Bool) : List ρ := T.rows.filter p

theorem find?_eq_some_iff {T : Table key} {k : κ} {r : ρ} :
    T.find? k = some r ↔ r ∈ T.rows ∧ key r = k := by
  constructor
  · intro h
    exact ⟨List.mem_of_find?_eq_some h, by simpa using List.find?_some h⟩
  · rintro ⟨hr, rfl⟩
    cases h : T.find? (key r) with
    | none => simpa using List.find?_eq_none.mp h r hr
    | some r' =>
      have hr' : r' ∈ T.rows := List.mem_of_find?_eq_some h
      have hk : key r' = key r := by simpa using List.find?_some h
      rw [List.inj_on_of_nodup_map T.nodup hr' hr hk]

theorem find?_eq_none_iff {T : Table key} {k : κ} :
    T.find? k = none ↔ ∀ r ∈ T.rows, key r ≠ k := by
  simp [find?]

theorem find?_self {T : Table key} {r : ρ} (h : r ∈ T.rows) : T.find? (key r) = some r :=
  find?_eq_some_iff.mpr ⟨h, rfl⟩

theorem mem_of_find? {T : Table key} {k : κ} {r : ρ} (h : T.find? k = some r) : r ∈ T.rows :=
  (find?_eq_some_iff.mp h).1

theorem key_of_find? {T : Table key} {k : κ} {r : ρ} (h : T.find? k = some r) : key r = k :=
  (find?_eq_some_iff.mp h).2

def insert (T : Table key) (r : ρ) (h : T.find? (key r) = none) : Table key where
  rows := T.rows ++ [r]
  nodup := by
    rw [List.map_append, List.nodup_append]
    refine ⟨T.nodup, List.nodup_singleton _, ?_⟩
    intro k hk l hl
    obtain ⟨r', hr', rfl⟩ := List.mem_map.mp hk
    rw [List.map_singleton, List.mem_singleton] at hl
    subst hl
    exact find?_eq_none_iff.mp h r' hr'

/-- `UPDATE ... WHERE key = k` of columns other than the key. -/
def modify (T : Table key) (k : κ) (f : ρ → ρ) (hf : ∀ r, key (f r) = key r) : Table key where
  rows := T.rows.map fun r => if key r = k then f r else r
  nodup := by
    have hkeys : (T.rows.map fun r => if key r = k then f r else r).map key = T.rows.map key := by
      rw [List.map_map]
      apply List.map_congr_left
      intro r _
      simp only [Function.comp]
      split
      · exact hf r
      · rfl
    rw [hkeys]
    exact T.nodup

@[simp] theorem rows_insert (T : Table key) (r : ρ) (h : T.find? (key r) = none) :
    (T.insert r h).rows = T.rows ++ [r] := rfl

@[simp] theorem rows_modify (T : Table key) (k : κ) (f : ρ → ρ) (hf : ∀ r, key (f r) = key r) :
    (T.modify k f hf).rows = T.rows.map fun r => if key r = k then f r else r := rfl

theorem find?_insert (T : Table key) (r : ρ) (h : T.find? (key r) = none) (k : κ) :
    (T.insert r h).find? k = if key r = k then some r else T.find? k := by
  simp only [find?, rows_insert, List.find?_append]
  by_cases hk : key r = k
  · subst hk
    have hnone : T.rows.find? (fun r' => decide (key r' = key r)) = none := h
    rw [hnone]
    simp
  · simp [hk]

theorem find?_modify_self (T : Table key) (k : κ) (f : ρ → ρ) (hf : ∀ r, key (f r) = key r) :
    (T.modify k f hf).find? k = (T.find? k).map f := by
  cases h : T.find? k with
  | none =>
    rw [find?_eq_none_iff] at h
    apply find?_eq_none_iff.mpr
    intro r hr
    obtain ⟨r', hr', rfl⟩ := List.mem_map.mp hr
    rw [if_neg (h r' hr')]
    exact h r' hr'
  | some r =>
    obtain ⟨hr, rfl⟩ := find?_eq_some_iff.mp h
    apply find?_eq_some_iff.mpr
    exact ⟨List.mem_map.mpr ⟨r, hr, if_pos rfl⟩, hf r⟩

theorem find?_modify_of_ne (T : Table key) {k l : κ} (f : ρ → ρ) (hf : ∀ r, key (f r) = key r)
    (hne : l ≠ k) : (T.modify k f hf).find? l = T.find? l := by
  cases h : T.find? l with
  | none =>
    rw [find?_eq_none_iff] at h
    apply find?_eq_none_iff.mpr
    intro r hr
    obtain ⟨r', hr', rfl⟩ := List.mem_map.mp hr
    split
    · rw [hf]; exact h r' hr'
    · exact h r' hr'
  | some r =>
    obtain ⟨hr, rfl⟩ := find?_eq_some_iff.mp h
    exact find?_eq_some_iff.mpr ⟨List.mem_map.mpr ⟨r, hr, if_neg hne⟩, rfl⟩

theorem mem_modify {T : Table key} {k : κ} {f : ρ → ρ} {hf : ∀ r, key (f r) = key r} {r : ρ} :
    r ∈ (T.modify k f hf).rows ↔
      (r ∈ T.rows ∧ key r ≠ k) ∨ ∃ r', T.find? k = some r' ∧ f r' = r := by
  constructor
  · intro h
    obtain ⟨r', hr', rfl⟩ := List.mem_map.mp h
    by_cases hk : key r' = k
    · rw [if_pos hk]
      exact Or.inr ⟨r', find?_eq_some_iff.mpr ⟨hr', hk⟩, rfl⟩
    · rw [if_neg hk]
      exact Or.inl ⟨hr', hk⟩
  · rintro (⟨hr, hk⟩ | ⟨r', hr', rfl⟩)
    · exact List.mem_map.mpr ⟨r, hr, if_neg hk⟩
    · obtain ⟨hmem, hk⟩ := find?_eq_some_iff.mp hr'
      exact List.mem_map.mpr ⟨r', hmem, if_pos hk⟩

@[simp] theorem isSome_find?_modify (T : Table key) (k l : κ) (f : ρ → ρ)
    (hf : ∀ r, key (f r) = key r) : ((T.modify k f hf).find? l).isSome = (T.find? l).isSome := by
  by_cases hl : l = k
  · subst hl
    rw [find?_modify_self, Option.isSome_map]
  · rw [find?_modify_of_ne T f hf hl]

theorem isSome_find?_insert (T : Table key) (r : ρ) (h : T.find? (key r) = none) {k : κ}
    (hk : (T.find? k).isSome) : ((T.insert r h).find? k).isSome := by
  rw [find?_insert]
  split
  · rfl
  · exact hk

theorem select_modify (T : Table key) (k : κ) (f : ρ → ρ) (hf : ∀ r, key (f r) = key r)
    (p : ρ → Bool) (hp : ∀ r, p (f r) = p r) :
    (T.modify k f hf).select p = (T.select p).map fun r => if key r = k then f r else r := by
  simp only [select, rows_modify, List.filter_map]
  congr 1
  apply List.filter_congr
  intro r _
  simp only [Function.comp]
  split
  · exact hp r
  · rfl

theorem find?_map_congr {T U : Table key} {σ : Type*} {f : ρ → σ} {key' : σ → κ}
    (hkey : ∀ r, key' (f r) = key r) (h : T.rows.map f = U.rows.map f) (k : κ) :
    (T.find? k).map f = (U.find? k).map f := by
  have hfind : ∀ V : Table key,
      (V.find? k).map f = (V.rows.map f).find? fun r => decide (key' r = k) := by
    intro V
    rw [List.find?_map]
    simp only [Function.comp_def, hkey, find?]
  rw [hfind, hfind, h]

omit [DecidableEq κ] in
theorem select_map_congr {T U : Table key} {σ : Type*} {f : ρ → σ} {p : ρ → Bool} {q : σ → Bool}
    (hp : ∀ r, q (f r) = p r) (h : T.rows.map f = U.rows.map f) :
    (T.select p).map f = (U.select p).map f := by
  have hselect : ∀ V : Table key, (V.select p).map f = (V.rows.map f).filter q := by
    intro V
    rw [List.filter_map]
    simp only [Function.comp_def, hp, select]
  rw [hselect, hselect, h]

def restrict (T : Table key) (p : ρ → Bool) : Table key where
  rows := T.select p
  nodup := List.Nodup.sublist (List.Sublist.map key List.filter_sublist) T.nodup

omit [DecidableEq κ] in
theorem mem_restrict {T : Table key} {p : ρ → Bool} {r : ρ} :
    r ∈ (T.restrict p).rows ↔ r ∈ T.rows ∧ p r = true := List.mem_filter

theorem find?_restrict (T : Table key) (p : ρ → Bool) (k : κ) :
    (T.restrict p).find? k = (T.find? k).filter p := by
  apply Option.ext
  intro r
  rw [find?_eq_some_iff, mem_restrict, Option.filter_eq_some_iff, find?_eq_some_iff]
  exact and_right_comm

omit [DecidableEq κ] in
theorem ext {T U : Table key} (h : T.rows = U.rows) : T = U := by
  cases T
  cases U
  cases h
  rfl

theorem restrict_modify (T : Table key) (k : κ) (f : ρ → ρ) (hf : ∀ r, key (f r) = key r)
    (p : ρ → Bool) (hp : ∀ r, p (f r) = p r) :
    (T.modify k f hf).restrict p = (T.restrict p).modify k f hf :=
  ext (select_modify T k f hf p hp)

theorem modify_of_none (T : Table key) {k : κ} (f : ρ → ρ) (hf : ∀ r, key (f r) = key r)
    (h : T.find? k = none) : T.modify k f hf = T := by
  apply ext
  rw [rows_modify]
  conv_rhs => rw [← List.map_id T.rows]
  apply List.map_congr_left
  intro r hr
  exact if_neg (find?_eq_none_iff.mp h r hr)

omit [DecidableEq κ] in
theorem select_restrict (T : Table key) (p q : ρ → Bool) :
    (T.restrict p).select q = T.select fun r => p r && q r := by
  simp only [select, restrict, List.filter_filter]
  congr 1
  funext r
  rw [Bool.and_comm]

omit [DecidableEq κ] in
theorem select_restrict_of_imp (T : Table key) {p q : ρ → Bool}
    (h : ∀ r ∈ T.rows, q r = true → p r = true) : (T.restrict p).select q = T.select q := by
  rw [select_restrict]
  apply List.filter_congr
  intro r hr
  cases hq : q r with
  | false => exact Bool.and_false _
  | true => rw [h r hr hq, Bool.and_true]

omit [DecidableEq κ] in
theorem restrict_congr (T : Table key) {p q : ρ → Bool} (h : ∀ r ∈ T.rows, p r = q r) :
    T.restrict p = T.restrict q :=
  ext (List.filter_congr h)

omit [DecidableEq κ] in
theorem select_congr {T U : Table key} {p p' q : ρ → Bool} (h : T.restrict p = U.restrict p')
    (hT : ∀ r ∈ T.rows, q r = true → p r = true) (hU : ∀ r ∈ U.rows, q r = true → p' r = true) :
    T.select q = U.select q := by
  rw [← select_restrict_of_imp T hT, ← select_restrict_of_imp U hU, h]

end Table

end SupportApi.Lib
