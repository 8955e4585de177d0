import Mathlib.Data.List.Basic
import SupportApi.Data.Entities

namespace SupportApi.Uuid

theorem hexValue_digitChar {d : Nat} (h : d < 16) : hexValue (Nat.digitChar d) = some d := by
  revert d
  decide

theorem digitChar_ne {d : Nat} (h : d < 16) : Nat.digitChar d ≠ '-' ∧ Nat.digitChar d ≠ '\x7b' := by
  revert d
  decide

def shift (acc : Nat) (ds : List Nat) : Nat := ds.foldl (fun acc d => acc * 16 + d) acc

theorem digits_append {n acc : Nat} {ds : List Nat} (hds : ∀ d ∈ ds, d < 16)
    (hn : n + ds.length ≤ 32) (rest : List Char) :
    digits n acc (ds.map Nat.digitChar ++ rest) = digits (n + ds.length) (shift acc ds) rest := by
  induction ds generalizing n acc with
  | nil => rfl
  | cons d ds ih =>
    obtain ⟨hd, hds⟩ := List.forall_mem_cons.mp hds
    rw [List.length_cons] at hn
    rw [List.map_cons, List.cons_append, digits, if_neg (digitChar_ne hd).1, hexValue_digitChar hd]
    simp only [if_pos (show n < 32 by omega)]
    rw [ih hds (by omega), List.length_cons]
    congr 1
    omega

theorem digits_group {n acc : Nat} {ds : List Nat} (hds : ∀ d ∈ ds, d < 16) (hne : ds ≠ [])
    (hpos : 0 < n) (hgroup : n % 4 = 0) (hn : n + ds.length ≤ 32) (rest : List Char) :
    digits n acc ('-' :: (ds.map Nat.digitChar ++ rest)) =
      digits (n + ds.length) (shift acc ds) rest := by
  obtain ⟨d, ds, rfl⟩ := List.exists_cons_of_ne_nil hne
  have hhead : ((d :: ds).map Nat.digitChar ++ rest).head? ≠ some '-' := by simp
  have hlt : n < 32 := by
    rw [List.length_cons] at hn
    omega
  rw [digits, if_pos rfl, if_pos ⟨hpos, hlt, hgroup, hhead⟩, digits_append hds hn]

theorem shift_digits (N k : Nat) (hk : k ≤ 32) :
    shift 0 ((List.range k).map fun i => N / 16 ^ (31 - i) % 16) = N / 16 ^ (32 - k) % 16 ^ k := by
  induction k with
  | zero => simp [shift, Nat.mod_one]
  | succ k ih =>
    have hdiv : N / 16 ^ (32 - k) = N / 16 ^ (31 - k) / 16 := by
      rw [Nat.div_div_eq_div_mul, ← Nat.pow_succ]
      congr 2
      omega
    have hstep : N / 16 ^ (31 - k) % 16 ^ (k + 1) =
        N / 16 ^ (31 - k) % 16 + 16 * (N / 16 ^ (31 - k) / 16 % 16 ^ k) := by
      rw [Nat.pow_succ', Nat.mod_mul]
    have hlast : 32 - (k + 1) = 31 - k := by omega
    rw [List.range_succ, List.map_append, shift, List.foldl_append]
    change shift 0 _ * 16 + N / 16 ^ (31 - k) % 16 = _
    rw [ih (by omega), hlast, hstep, hdiv]
    omega

theorem shift_append (acc : Nat) (ds ds' : List Nat) :
    shift acc (ds ++ ds') = shift (shift acc ds) ds' := List.foldl_append

def nibbles (u : Uuid) : List Nat := (List.range 32).map fun i => u.bits.toNat / 16 ^ (31 - i) % 16

theorem nibbles_lt (u : Uuid) : ∀ d ∈ u.nibbles, d < 16 := by
  intro d hd
  obtain ⟨i, -, rfl⟩ := List.mem_map.mp hd
  exact Nat.mod_lt _ (by decide)

theorem shift_nibbles (u : Uuid) : shift 0 u.nibbles = u.bits.toNat := by
  have hlt : u.bits.toNat < 16 ^ 32 := u.bits.isLt
  rw [nibbles, shift_digits _ 32 (Nat.le_refl _), Nat.sub_self, Nat.pow_zero, Nat.div_one,
    Nat.mod_eq_of_lt hlt]

theorem digits_text (u : Uuid) : digits 0 0 u.text = some u.bits.toNat := by
  have hhex : u.hex = u.nibbles.map Nat.digitChar := by simp [hex, nibbles]
  have hlength : u.nibbles.length = 32 := by simp [nibbles]
  have hfirst : (u.nibbles.take 8).length = 8 := by rw [List.length_take, hlength]; rfl
  have hlast : (u.nibbles.drop 20).length = 12 := by rw [List.length_drop, hlength]
  have hgroup : ∀ n, n + 4 ≤ 32 → ((u.nibbles.drop n).take 4).length = 4 := by
    intro n hn
    rw [List.length_take, List.length_drop, hlength]
    omega
  have hdrop : ∀ n, ∀ d ∈ u.nibbles.drop n, d < 16 := fun n d hd =>
    u.nibbles_lt d (List.mem_of_mem_drop hd)
  have htake : ∀ n, ∀ d ∈ (u.nibbles.drop n).take 4, d < 16 := fun n d hd =>
    hdrop n d (List.mem_of_mem_take hd)
  have hne : ∀ {ds : List Nat} {n}, ds.length = n + 1 → ds ≠ [] := by
    rintro _ n hds rfl
    cases hds
  have hjoin : ∀ n, (u.nibbles.drop n).take 4 ++ u.nibbles.drop (n + 4) = u.nibbles.drop n := by
    intro n
    rw [← List.drop_drop, List.take_append_drop]
  have htext : u.text = (u.nibbles.take 8).map Nat.digitChar ++
      ('-' :: (((u.nibbles.drop 8).take 4).map Nat.digitChar ++
      ('-' :: (((u.nibbles.drop 12).take 4).map Nat.digitChar ++
      ('-' :: (((u.nibbles.drop 16).take 4).map Nat.digitChar ++
      ('-' :: ((u.nibbles.drop 20).map Nat.digitChar ++ [])))))))) := by
    simp [text, hhex, List.map_take, List.map_drop]
  rw [htext, digits_append (fun d hd => u.nibbles_lt d (List.mem_of_mem_take hd)) (by omega), hfirst,
    digits_group (htake 8) (hne (hgroup 8 (by omega))) (by omega) (by omega)
      (by rw [hgroup 8 (by omega)]; omega), hgroup 8 (by omega),
    digits_group (htake 12) (hne (hgroup 12 (by omega))) (by omega) (by omega)
      (by rw [hgroup 12 (by omega)]; omega), hgroup 12 (by omega),
    digits_group (htake 16) (hne (hgroup 16 (by omega))) (by omega) (by omega)
      (by rw [hgroup 16 (by omega)]; omega), hgroup 16 (by omega),
    digits_group (hdrop 20) (hne hlast) (by omega) (by omega) (by omega), hlast]
  have hall : shift (shift (shift (shift (shift 0 (u.nibbles.take 8)) ((u.nibbles.drop 8).take 4))
      ((u.nibbles.drop 12).take 4)) ((u.nibbles.drop 16).take 4)) (u.nibbles.drop 20) =
      u.bits.toNat := by
    rw [← shift_nibbles u, ← shift_append, ← shift_append, ← shift_append, ← shift_append,
      hjoin 16, hjoin 12, hjoin 8, List.take_append_drop]
  rw [hall]
  rfl

theorem parse_text (u : Uuid) : parse (String.ofList u.text) = some u := by
  have hbrace : ¬(u.text.head? = some '\x7b' ∧ u.text.getLast? = some '\x7d') := by
    rintro ⟨hhead, -⟩
    have hfirst : u.text.head? = some (Nat.digitChar (u.bits.toNat / 16 ^ 31 % 16)) := rfl
    rw [hfirst] at hhead
    exact (digitChar_ne (Nat.mod_lt _ (by decide))).2 (Option.some.inj hhead)
  simp only [parse, String.toList_ofList, if_neg hbrace, digits_text, Option.map_some]
  rw [BitVec.ofNat_toNat]
  rfl

end SupportApi.Uuid
