import Mathlib.Data.Nat.Basic

namespace SupportApi.Lib

def utf8 (cs : List Char) : List UInt8 := cs.flatMap String.utf8EncodeChar

@[simp] theorem utf8_nil : utf8 [] = [] := rfl

@[simp] theorem utf8_append (cs ds : List Char) : utf8 (cs ++ ds) = utf8 cs ++ utf8 ds :=
  List.flatMap_append

theorem length_le_length_utf8 (cs : List Char) : cs.length ≤ (utf8 cs).length := by
  induction cs with
  | nil => simp
  | cons c cs ih =>
    have hpos := Char.utf8Size_pos c
    simp only [utf8, List.flatMap_cons, List.length_append, List.length_cons,
      String.length_utf8EncodeChar] at *
    omega

theorem length_utf8 {cs : List Char} (h : ∀ c ∈ cs, c.utf8Size = 1) :
    (utf8 cs).length = cs.length := by
  induction cs with
  | nil => simp
  | cons c cs ih =>
    have htail := ih fun d hd => h d (List.mem_cons_of_mem c hd)
    simp only [utf8, List.flatMap_cons, List.length_append, List.length_cons,
      String.length_utf8EncodeChar, h c List.mem_cons_self] at *
    omega

namespace Base64

def alphabet : List Char :=
  "ABCDEFGHIJKLMNOPQRSTUVWXYZabcdefghijklmnopqrstuvwxyz0123456789-_".toList

def sextet (n : Nat) : Char := alphabet.getD (n % 64) 'A'

def encode : List UInt8 → List Char
  | [] => []
  | [a] => [sextet (a.toNat / 4), sextet (a.toNat * 16)]
  | [a, b] =>
    [sextet (a.toNat / 4), sextet (a.toNat * 16 + b.toNat / 16), sextet (b.toNat * 4)]
  | a :: b :: c :: rest =>
    sextet (a.toNat / 4) :: sextet (a.toNat * 16 + b.toNat / 16) ::
      sextet (b.toNat * 4 + c.toNat / 64) :: sextet c.toNat :: encode rest

theorem encode_append {as : List UInt8} (bs : List UInt8) (h : 3 ∣ as.length) :
    encode (as ++ bs) = encode as ++ encode bs := by
  induction as using encode.induct with
  | case1 => simp [encode]
  | case2 => simp at h
  | case3 => simp at h
  | case4 a b c rest ih =>
    have hrest : 3 ∣ rest.length := by
      simp only [List.length_cons] at h
      omega
    simp [encode, ih hrest]

theorem length_encode {as : List UInt8} (h : 3 ∣ as.length) :
    (encode as).length = as.length / 3 * 4 := by
  induction as using encode.induct with
  | case1 => simp [encode]
  | case2 => simp at h
  | case3 => simp at h
  | case4 a b c rest ih =>
    have hrest : 3 ∣ rest.length := by
      simp only [List.length_cons] at h
      omega
    simp only [encode, List.length_cons, ih hrest]
    omega

end Base64

end SupportApi.Lib
