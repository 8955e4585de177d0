import Mathlib.Data.Finset.Card
import Mathlib.Data.List.Sort
import Mathlib.Data.Prod.Lex
import Mathlib.Order.Bounds.Defs

universe u v

namespace SupportApi.Lib

structure SortedSet (μ : Type u) (σ : Type v) [LinearOrder μ] [LinearOrder σ] where
  entries : List (σ ×ₗ μ)
  sorted : entries.Pairwise (· ≤ ·)
  nodup : (entries.map fun e => (ofLex e).2).Nodup

namespace SortedSet

variable {μ : Type u} {σ : Type v} [LinearOrder μ] [LinearOrder σ]

def empty : SortedSet μ σ := ⟨[], .nil, .nil⟩

def members (S : SortedSet μ σ) : List μ := S.entries.map fun e => (ofLex e).2

def card (S : SortedSet μ σ) : Nat := S.entries.length

def removeUpTo (S : SortedSet μ σ) (bound : σ) : SortedSet μ σ where
  entries := S.entries.filter fun e => bound < (ofLex e).1
  sorted := S.sorted.filter _
  nodup := S.nodup.sublist (List.filter_sublist.map _)

/-- Add a member, unless it is there already. -/
def addNX (S : SortedSet μ σ) (score : σ) (member : μ) : SortedSet μ σ :=
  if h : member ∈ S.members then S
  else
    { entries := S.entries.orderedInsert (· ≤ ·) (toLex (score, member))
      sorted := S.sorted.orderedInsert _ _
      nodup := by
        have hperm := (List.perm_orderedInsert (· ≤ ·) (toLex (score, member)) S.entries).map
          fun e => (ofLex e).2
        rw [hperm.nodup_iff]
        exact List.nodup_cons.mpr ⟨h, S.nodup⟩ }

def remove (S : SortedSet μ σ) (member : μ) : SortedSet μ σ where
  entries := S.entries.filter fun e => (ofLex e).2 ≠ member
  sorted := S.sorted.filter _
  nodup := S.nodup.sublist (List.filter_sublist.map _)

def add (S : SortedSet μ σ) (score : σ) (member : μ) : SortedSet μ σ :=
  (S.remove member).addNX score member

def first? (S : SortedSet μ σ) : Option (σ ×ₗ μ) := S.entries.head?

variable (S : SortedSet μ σ)

theorem card_le_card {s : Finset μ} (h : ∀ m ∈ s, m ∈ S.members) : s.card ≤ S.card := by
  calc s.card ≤ S.members.toFinset.card :=
        Finset.card_le_card fun m hm => List.mem_toFinset.mpr (h m hm)
    _ ≤ S.members.length := List.toFinset_card_le _
    _ = S.card := List.length_map _

theorem addNX_perm {score : σ} {member : μ} (h : member ∉ S.members) :
    (S.addNX score member).entries.Perm (toLex (score, member) :: S.entries) := by
  rw [addNX, dif_neg h]
  exact List.perm_orderedInsert _ _ _

theorem add_eq_addNX {score : σ} {member : μ} (h : member ∉ S.members) :
    S.add score member = S.addNX score member := by
  have hkept : (S.entries.filter fun e => (ofLex e).2 ≠ member) = S.entries :=
    List.filter_eq_self.mpr fun e he => decide_eq_true fun heq => h (List.mem_map.mpr ⟨e, he, heq⟩)
  have hremove : S.remove member = S := by
    cases S
    simp only [remove] at hkept ⊢
    simp only [hkept]
  rw [add, hremove]

theorem card_addNX_ne_zero (score : σ) (member : μ) : (S.addNX score member).card ≠ 0 := by
  unfold addNX
  split
  · rename_i h
    obtain ⟨e, he, -⟩ := List.mem_map.mp h
    exact List.length_pos_of_mem he |>.ne'
  · rw [card, List.orderedInsert_length]
    exact Nat.succ_ne_zero _

theorem first?_isLeast (h : S.card ≠ 0) :
    ∃ e, S.first? = some e ∧ IsLeast {score | ∃ m, toLex (score, m) ∈ S.entries} (ofLex e).1 := by
  have hsorted := S.sorted
  unfold card at h
  unfold first?
  cases hentries : S.entries with
  | nil => simp [hentries] at h
  | cons e es =>
    rw [hentries] at hsorted
    refine ⟨e, rfl, ⟨(ofLex e).2, List.mem_cons_self⟩, ?_⟩
    rintro score ⟨m, hm⟩
    rcases List.mem_cons.mp hm with heq | hm
    · rw [← heq]
      rfl
    · exact Prod.Lex.monotone_fst_ofLex (List.rel_of_pairwise_cons hsorted hm)

end SortedSet

end SupportApi.Lib
