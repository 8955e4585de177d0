import SupportApi.Lib.Chunks
import SupportApi.Lib.Sql

universe u

namespace SupportApi.Seed

open Lib

variable {α : Type u}

def TOTAL_CONVERSATIONS : Nat := 200000

def TOTAL_MESSAGES : Nat := 1000000

def CHUNK_SIZE : Nat := 1000

/-- `INSERT INTO … VALUES …`, its rows not joined yet. -/
structure Insert (α : Type u) where
  into : String
  placeholders : List Sql.Text
  returning : String
  values : List α

def Insert.text (insert : Insert α) : Sql.Text :=
  .text insert.into :: (Sql.separated ", " insert.placeholders ++ [.text insert.returning])

inductive Effect (α : Type u)
  | query (insert : Insert α)
  | write (text : String)

def Effect.query? : Effect α → Option (Insert α)
  | .query insert => some insert
  | .write _ => none

def queries (effects : List (Effect α)) : List (Insert α) := effects.filterMap Effect.query?

def rowPlaceholders (width rowIdx : Nat) : Sql.Text :=
  .text "(" ::
    (Sql.separated ", " ((List.range width).map fun colIdx =>
      [.placeholder (rowIdx * width + colIdx + 1)]) ++ [.text ")"])

/-- The loop the three inserts share. -/
def insertChunks (width : Nat) (into returning label : String) (total : Nat)
    (rows : List (List α)) : List (Effect α) :=
  (chunksFrom CHUNK_SIZE (by decide) rows 0).flatMap fun (i, chunk) =>
    [.query {
        into
        placeholders := chunk.mapIdx fun rowIdx _ => rowPlaceholders width rowIdx
        returning
        values := chunk.flatten },
      .write ("\r  → " ++ label ++ ": " ++ toString (min (i + CHUNK_SIZE) total) ++ "/" ++
        toString total ++ " rows")]

def insertConversations (conversationRows : List (List α)) : List (Effect α) :=
  insertChunks 11
    ("INSERT INTO conversations (tenant_id, subject, description, status, priority, " ++
      "assigned_agent_id, customer_email, customer_name, resolved_at, created_at, updated_at) " ++
      "VALUES ")
    " RETURNING id, tenant_id, status" "conversations" TOTAL_CONVERSATIONS conversationRows

def insertMessages (messageRows : List (List α)) : List (Effect α) :=
  insertChunks 5
    "INSERT INTO messages (conversation_id, sender_type, body, is_internal, created_at) VALUES "
    "" "messages" TOTAL_MESSAGES messageRows

/-- `insert` writes the rows of `chunk`, each cell in its own place. -/
structure Insert.Loads (insert : Insert α) (chunk : List (List α)) : Prop where
  rows : insert.placeholders ≠ []
  numbers : insert.text.placeholders = List.range' 1 insert.values.length
  cells : insert.placeholders.map (fun row => row.placeholders.map (Sql.bound insert.values)) =
    chunk.map (·.map some)

structure Load (rows : List (List α)) (inserts : List (Insert α)) : Prop where
  chunks : ∃ chunks, chunks.flatten = rows ∧ List.Forall₂ Insert.Loads inserts chunks
  nothing : rows = [] → inserts = []

theorem placeholders_rowPlaceholders (width rowIdx : Nat) :
    (rowPlaceholders width rowIdx).placeholders = List.range' (rowIdx * width + 1) width := by
  simp only [rowPlaceholders, Sql.Text.placeholders_text, Sql.Text.placeholders_append,
    Sql.Text.placeholders_separated, Sql.Text.placeholders_nil, List.append_nil, List.flatMap_map,
    Sql.Text.placeholders_placeholder]
  rw [← List.map_eq_flatMap, List.range'_eq_map_range]
  apply List.map_congr_left
  intro colIdx _
  omega

theorem flatMap_rowPlaceholders (width : Nat) (chunk : List (List α)) :
    (chunk.mapIdx fun rowIdx _ => rowPlaceholders width rowIdx).flatMap Sql.Text.placeholders =
      List.range' 1 (chunk.length * width) := by
  induction chunk using List.reverseRecOn with
  | nil => simp
  | append_singleton chunk row ih =>
    rw [List.mapIdx_concat, List.flatMap_append, ih, List.flatMap_singleton,
      placeholders_rowPlaceholders, List.length_append, List.length_singleton, Nat.add_mul,
      Nat.one_mul, Nat.add_comm _ 1, List.range'_append_1]

section Cells

variable {width : Nat} {chunk : List (List α)}

theorem map_bound_rowPlaceholders (h : ∀ row ∈ chunk, row.length = width) {r : Nat}
    {row : List α} (hrow : chunk[r]? = some row) :
    (rowPlaceholders width r).placeholders.map (Sql.bound chunk.flatten) = row.map some := by
  have hwidth : row.length = width := h row (List.mem_of_getElem? hrow)
  rw [placeholders_rowPlaceholders]
  apply List.ext_getElem
  · rw [List.length_map, List.length_range', List.length_map, hwidth]
  · intro c hc _
    rw [List.length_map, List.length_range'] at hc
    have hcell := getElem?_flatten_rows h hc (r := r)
    rw [hrow, Option.bind_some] at hcell
    rw [List.getElem_map, List.getElem_map, List.getElem_range', Nat.one_mul,
      Nat.add_right_comm, Sql.bound_succ, hcell, List.getElem?_eq_getElem]

theorem map_bound_placeholders (h : ∀ row ∈ chunk, row.length = width) :
    (chunk.mapIdx fun rowIdx _ => rowPlaceholders width rowIdx).map
        (fun row => row.placeholders.map (Sql.bound chunk.flatten)) = chunk.map (·.map some) := by
  apply List.ext_getElem?
  intro r
  rw [List.getElem?_map, List.getElem?_mapIdx, List.getElem?_map]
  cases hrow : chunk[r]? with
  | none => rfl
  | some row => simp only [Option.map_some, map_bound_rowPlaceholders h hrow]

end Cells

section Loop

variable {width : Nat} {into returning label : String} {total : Nat} {rows : List (List α)}

theorem queries_append (effects effects' : List (Effect α)) :
    queries (effects ++ effects') = queries effects ++ queries effects' := List.filterMap_append

theorem queries_insertChunks :
    queries (insertChunks width into returning label total rows) =
      ((chunksFrom CHUNK_SIZE (by decide) rows 0).map Prod.snd).map fun chunk =>
        ⟨into, chunk.mapIdx fun rowIdx _ => rowPlaceholders width rowIdx, returning,
          chunk.flatten⟩ := by
  unfold insertChunks
  induction chunksFrom CHUNK_SIZE (by decide) rows 0 with
  | nil => rfl
  | cons cut cuts ih =>
    rw [List.flatMap_cons, queries_append, ih]
    rfl

theorem loads (h : ∀ row ∈ rows, row.length = width) (hne : rows ≠ []) :
    Insert.Loads ⟨into, rows.mapIdx fun rowIdx _ => rowPlaceholders width rowIdx, returning,
      rows.flatten⟩ rows where
  rows := by
    simp only [ne_eq, List.mapIdx_eq_nil_iff]
    exact hne
  numbers := by
    simp only [Insert.text, Sql.Text.placeholders_text, Sql.Text.placeholders_append,
      Sql.Text.placeholders_separated, Sql.Text.placeholders_nil, List.append_nil,
      flatMap_rowPlaceholders, length_flatten_rows h]
  cells := map_bound_placeholders h

theorem insertChunks_load (h : ∀ row ∈ rows, row.length = width) :
    Load rows (queries (insertChunks width into returning label total rows)) := by
  rw [queries_insertChunks]
  refine ⟨⟨(chunksFrom CHUNK_SIZE (by decide) rows 0).map Prod.snd, chunksFrom_flatten, ?_⟩, ?_⟩
  · rw [List.forall₂_map_left_iff, List.forall₂_same]
    intro chunk hchunk
    obtain ⟨cut, hcut, rfl⟩ := List.mem_map.mp hchunk
    exact loads (fun row hrow => h row (subset_of_mem_chunksFrom hcut hrow))
      (List.ne_nil_of_length_pos (length_of_mem_chunksFrom hcut).1)
  · rintro rfl
    rw [chunksFrom]
    rfl

end Loop

end SupportApi.Seed
