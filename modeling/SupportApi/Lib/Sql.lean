import Mathlib.Data.List.Range

universe u v w

namespace SupportApi.Lib.Sql

inductive Token
  | text (s : String)
  | placeholder (n : Nat)
  deriving DecidableEq

abbrev Text := List Token

def Token.number : Token → Option Nat
  | .text _ => none
  | .placeholder n => some n

def Text.placeholders (t : Text) : List Nat := List.filterMap Token.number t

def separated (separator : String) (texts : List Text) : Text :=
  List.intercalate [.text separator] texts

def bound {α : Type u} (values : List α) (n : Nat) : Option α :=
  if n = 0 then none else values[n - 1]?

theorem separated_cons_cons (separator : String) (t t' : Text) (ts : List Text) :
    separated separator (t :: t' :: ts) = t ++ .text separator :: separated separator (t' :: ts) := by
  rw [separated, List.intercalate_cons_cons, List.append_assoc]
  rfl

namespace Text

@[simp] theorem placeholders_nil : placeholders [] = [] := rfl

@[simp] theorem placeholders_text (s : String) (t : Text) :
    placeholders (.text s :: t) = placeholders t := rfl

@[simp] theorem placeholders_placeholder (n : Nat) (t : Text) :
    placeholders (.placeholder n :: t) = n :: placeholders t := rfl

@[simp] theorem placeholders_append (t t' : Text) :
    placeholders (t ++ t') = t.placeholders ++ t'.placeholders := List.filterMap_append

@[simp] theorem placeholders_separated (separator : String) (ts : List Text) :
    (separated separator ts).placeholders = ts.flatMap placeholders := by
  induction ts with
  | nil => rfl
  | cons t ts ih =>
    cases ts with
    | nil => simp [separated]
    | cons t' ts =>
      rw [separated_cons_cons, placeholders_append, placeholders_text, ih]
      rfl

end Text

theorem mem_separated {separator : String} {x : Token} {ts : List Text}
    (h : x ∈ separated separator ts) : x = .text separator ∨ ∃ t ∈ ts, x ∈ t := by
  induction ts with
  | nil => cases h
  | cons t ts ih =>
    cases ts with
    | nil => exact .inr ⟨t, List.mem_singleton_self t, by simpa [separated] using h⟩
    | cons t' ts =>
      rw [separated_cons_cons, List.mem_append, List.mem_cons] at h
      rcases h with h | h | h
      · exact .inr ⟨t, List.mem_cons_self, h⟩
      · exact .inl h
      · exact (ih h).imp_right fun ⟨u, hu, hx⟩ => ⟨u, List.mem_cons_of_mem _ hu, hx⟩

section Bound

variable {α : Type u} {values : List α}

theorem bound_succ (values : List α) (i : Nat) : bound values (i + 1) = values[i]? := rfl

theorem bound_append {n : Nat} {a : α} (h : bound values n = some a) (rest : List α) :
    bound (values ++ rest) n = some a := by
  cases n with
  | zero => cases h
  | succ i =>
    rw [bound_succ] at h ⊢
    rw [List.getElem?_append_left (List.getElem?_eq_some_iff.mp h).1, h]

theorem bound_length (values : List α) (a : α) (rest : List α) :
    bound (values ++ a :: rest) (values.length + 1) = some a := by
  rw [bound_succ, List.getElem?_append_right (Nat.le_refl _), Nat.sub_self]
  rfl

end Bound

section Selection

variable {α : Type u} {ρ : Type v} {ι : Type w} [DecidableEq α]

/-- `column = value`, which is not true of a NULL. -/
def equal (column : ρ → Option α) (value : α) (row : ρ) : Bool := column row = some value

/-- One condition of a `WHERE` clause; a column that `schema` does not know and a placeholder
without a value are errors. -/
def condition (schema : String → Option (ρ → Option α)) (values : List α) :
    Text → Option (ρ → Bool)
  | [.text c, .text "=", .placeholder n] =>
    (schema c).bind fun column => (bound values n).map (equal column)
  | [.text "(", .text c, .text "=", .placeholder n, .text "OR", .text d, .text "IS",
      .text "NULL", .text ")"] =>
    (schema c).bind fun column => (schema d).bind fun other => (bound values n).map
      fun value row => equal column value row || (other row).isNone
  | _ => none

/-- The rows that a `WHERE` clause keeps, or all where there is none. -/
def selection (schema : String → Option (ρ → Option α)) (values : List α) :
    Text → Option (ρ → Bool)
  | [] => some fun _ => true
  | .text "WHERE" :: t => ((t.splitOn (.text "AND")).mapM (condition schema values)).map
    fun conditions row => conditions.all fun asks => asks row
  | _ => none

variable {schema : String → Option (ρ → Option α)} {values : List α} {text : ι → Text}
  {asks : ι → ρ → Bool}

@[simp] theorem condition_equal (c : String) (n : Nat) :
    condition schema values [.text c, .text "=", .placeholder n] =
      (schema c).bind fun column => (bound values n).map (equal column) := rfl

@[simp] theorem condition_equal_or_null (c d : String) (n : Nat) :
    condition schema values [.text "(", .text c, .text "=", .placeholder n, .text "OR", .text d,
        .text "IS", .text "NULL", .text ")"] =
      (schema c).bind fun column => (schema d).bind fun other => (bound values n).map
        fun value row => equal column value row || (other row).isNone := by
  simp only [condition]

theorem mapM_condition {cs : List ι} (h : ∀ c ∈ cs, condition schema values (text c) = some (asks c)) :
    (cs.map text).mapM (condition schema values) = some (cs.map asks) := by
  induction cs with
  | nil => rfl
  | cons c cs ih =>
    obtain ⟨hc, hcs⟩ := List.forall_mem_cons.mp h
    rw [List.map_cons, List.mapM_cons, hc, ih hcs]
    rfl

theorem selection_separated {cs : List ι} (hne : cs ≠ [])
    (hand : ∀ c ∈ cs, .text "AND" ∉ text c)
    (h : ∀ c ∈ cs, condition schema values (text c) = some (asks c)) :
    selection schema values (.text "WHERE" :: separated "AND" (cs.map text)) =
      some fun row => cs.all fun c => asks c row := by
  have hsplit : (separated "AND" (cs.map text)).splitOn (.text "AND") = cs.map text :=
    List.splitOn_intercalate _ (by simpa using hand) (by simpa using hne)
  simp only [selection, hsplit, mapM_condition h, Option.map_some, List.all_map, Function.comp_def]

end Selection

end SupportApi.Lib.Sql
