import SupportApi.Lib.Table

universe u v w

namespace SupportApi.Lib.Table

variable {ρ : Type u} {κ : Type v} {σ : Type w} {key : ρ → κ}

/-- `U` has the records of `T`, in their order, and others after them. -/
def Retains (record : ρ → σ) (T U : Table key) : Prop := T.rows.map record <+: U.rows.map record

namespace Retains

variable {record : ρ → σ} {T U V : Table key}

theorem refl (T : Table key) : Retains record T T := List.prefix_refl _

theorem trans (h : Retains record T U) (h' : Retains record U V) : Retains record T V :=
  List.IsPrefix.trans h h'

theorem of_eq (h : U = T) : Retains record T U := h ▸ List.prefix_refl _

theorem of_append {rows : List ρ} (h : U.rows = T.rows ++ rows) : Retains record T U := by
  rw [Retains, h, List.map_append]
  exact List.prefix_append _ _

variable [DecidableEq κ]

theorem insert (T : Table key) (r : ρ) (h : T.find? (key r) = none) :
    Retains record T (T.insert r h) := of_append (rows_insert T r h)

theorem modify (T : Table key) {k : κ} {f : ρ → ρ} (hf : ∀ r, key (f r) = key r)
    (hrecord : ∀ r, T.find? k = some r → record (f r) = record r) :
    Retains record T (T.modify k f hf) := by
  have hmap : (T.modify k f hf).rows.map record = T.rows.map record := by
    rw [rows_modify, List.map_map]
    apply List.map_congr_left
    intro r hr
    simp only [Function.comp]
    split
    · rename_i hk
      subst hk
      exact hrecord r (find?_self hr)
    · rfl
  change T.rows.map record <+: (T.modify k f hf).rows.map record
  exact hmap ▸ List.prefix_refl _

theorem find? (h : Retains record T U) (keyOf : σ → κ) (hkey : ∀ r, keyOf (record r) = key r)
    {k : κ} {r : ρ} (hr : T.find? k = some r) :
    ∃ r', U.find? k = some r' ∧ record r' = record r := by
  obtain ⟨r', hr', hrecord⟩ :=
    List.mem_map.mp (h.subset (List.mem_map_of_mem (mem_of_find? hr)))
  have hsame : key r' = k := by
    rw [← hkey, hrecord, hkey]
    exact key_of_find? hr
  exact ⟨r', hsame ▸ find?_self hr', hrecord⟩

end Retains

end SupportApi.Lib.Table
