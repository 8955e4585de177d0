import Mathlib.Data.List.Basic

universe u

namespace SupportApi.Lib

variable {α : Type u}

def slice (xs : List α) (start stop : Nat) : List α := (xs.drop start).take (stop - start)

/-- What `for (let i = start; i < xs.length; i += size)` goes through: each `i` with
`xs.slice(i, i + size)`. -/
def chunksFrom (size : Nat) (hsize : 0 < size) (xs : List α) (start : Nat) :
    List (Nat × List α) :=
  if start < xs.length then
    (start, slice xs start (start + size)) :: chunksFrom size hsize xs (start + size)
  else []
termination_by xs.length - start

section Chunks

variable {size : Nat} {hsize : 0 < size} {xs : List α} {start : Nat}

theorem chunksFrom_flatten :
    ((chunksFrom size hsize xs start).map Prod.snd).flatten = xs.drop start := by
  fun_induction chunksFrom size hsize xs start with
  | case1 start hlt ih =>
    rw [List.map_cons, List.flatten_cons, ih]
    simp only [slice, Nat.add_sub_cancel_left]
    rw [← List.drop_drop, List.take_append_drop]
  | case2 start hge =>
    rw [List.map_nil, List.flatten_nil, List.drop_eq_nil_of_le (Nat.le_of_not_lt hge)]

theorem length_of_mem_chunksFrom {cut : Nat × List α} (h : cut ∈ chunksFrom size hsize xs start) :
    0 < cut.2.length ∧ cut.2.length ≤ size := by
  fun_induction chunksFrom size hsize xs start with
  | case1 start hlt ih =>
    rcases List.mem_cons.mp h with rfl | h
    · simp only [slice, List.length_take, List.length_drop]
      omega
    · exact ih h
  | case2 start hge => cases h

theorem subset_of_mem_chunksFrom {cut : Nat × List α} (h : cut ∈ chunksFrom size hsize xs start) :
    cut.2 ⊆ xs := by
  intro x hx
  have hmem : x ∈ ((chunksFrom size hsize xs start).map Prod.snd).flatten :=
    List.mem_flatten_of_mem (List.mem_map_of_mem h) hx
  rw [chunksFrom_flatten] at hmem
  exact List.mem_of_mem_drop hmem

end Chunks

section Rows

variable {width : Nat} {rows : List (List α)}

theorem length_flatten_rows (h : ∀ row ∈ rows, row.length = width) :
    rows.flatten.length = rows.length * width := by
  have hlengths : rows.map List.length = List.replicate rows.length width := by
    rw [List.map_congr_left h, List.map_const']
  rw [List.length_flatten, hlengths, List.sum_replicate_nat]

theorem getElem?_flatten_rows (h : ∀ row ∈ rows, row.length = width) {r c : Nat} (hc : c < width) :
    rows.flatten[r * width + c]? = rows[r]?.bind (·[c]?) := by
  induction rows generalizing r with
  | nil => rfl
  | cons row rows ih =>
    have hrow : row.length = width := h row List.mem_cons_self
    rw [List.flatten_cons]
    cases r with
    | zero =>
      rw [Nat.zero_mul, Nat.zero_add, List.getElem?_append_left (hrow ▸ hc)]
      rfl
    | succ r =>
      have hplace : (r + 1) * width + c = row.length + (r * width + c) := by
        rw [hrow, Nat.succ_mul]
        omega
      rw [hplace, List.getElem?_append_right (Nat.le_add_right _ _), Nat.add_sub_cancel_left,
        ih fun row hmem => h row (List.mem_cons_of_mem _ hmem)]
      rfl

end Rows

end SupportApi.Lib
