import Mathlib.Data.List.Basic

/-! UTF-16: a character is one code unit or a pair of surrogates. -/
namespace Utf16

def units (c : Char) : List UInt16 :=
  if c.toNat < 0x10000 then [UInt16.ofNat c.toNat]
  else
    let n := c.toNat - 0x10000
    [UInt16.ofNat (0xD800 + n / 0x400), UInt16.ofNat (0xDC00 + n % 0x400)]

def encode (s : String) : List UInt16 := s.toList.flatMap units

/-- A surrogate without its other half is no character. -/
def decodeChars : List UInt16 → Option (List Char)
  | [] => some []
  | u :: rest =>
    if u.toNat < 0xD800 ∨ 0xE000 ≤ u.toNat then
      (decodeChars rest).map fun cs => Char.ofNat u.toNat :: cs
    else
      match rest with
      | [] => none
      | v :: rest =>
        if u.toNat < 0xDC00 ∧ 0xDC00 ≤ v.toNat ∧ v.toNat < 0xE000 then
          (decodeChars rest).map fun cs =>
            Char.ofNat (0x10000 + (u.toNat - 0xD800) * 0x400 + (v.toNat - 0xDC00)) :: cs
        else none

def decode (text : List UInt16) : Option String := (decodeChars text).map String.ofList

theorem char_toNat (c : Char) : c.toNat < 0xD800 ∨ 0xE000 ≤ c.toNat ∧ c.toNat < 0x110000 := by
  have hvalid : c.toNat.isValidChar := c.valid
  unfold Nat.isValidChar at hvalid
  omega

theorem decodeChars_single {u : UInt16} (hu : u.toNat < 0xD800 ∨ 0xE000 ≤ u.toNat)
    (rest : List UInt16) :
    decodeChars (u :: rest) = (decodeChars rest).map fun cs => Char.ofNat u.toNat :: cs := by
  cases rest <;> simp only [decodeChars, if_pos hu]

theorem decodeChars_units (c : Char) (rest : List UInt16) :
    decodeChars (units c ++ rest) = (decodeChars rest).map fun cs => c :: cs := by
  have hc := char_toNat c
  have hchar : Char.ofNat c.toNat = c := Char.ofNat_toNat c
  unfold units
  split
  · rename_i hsmall
    have hu : (UInt16.ofNat c.toNat).toNat = c.toNat :=
      UInt16.toNat_ofNat_of_lt' hsmall
    rw [List.singleton_append, decodeChars_single (by omega), hu, hchar]
  · rename_i hlarge
    have hu : (UInt16.ofNat (0xD800 + (c.toNat - 0x10000) / 0x400)).toNat =
        0xD800 + (c.toNat - 0x10000) / 0x400 := UInt16.toNat_ofNat_of_lt' (by simp only [UInt16.size]; omega)
    have hv : (UInt16.ofNat (0xDC00 + (c.toNat - 0x10000) % 0x400)).toNat =
        0xDC00 + (c.toNat - 0x10000) % 0x400 := UInt16.toNat_ofNat_of_lt' (by simp only [UInt16.size]; omega)
    have hnat : 0x10000 + (c.toNat - 0x10000) / 0x400 * 0x400 + (c.toNat - 0x10000) % 0x400 =
        c.toNat := by omega
    simp only [List.cons_append, List.nil_append, decodeChars, hu, hv, Nat.add_sub_cancel_left]
    rw [if_neg (by omega), if_pos (by omega), hnat, hchar]

theorem decode_encode (s : String) : decode (encode s) = some s := by
  have hchars : ∀ cs : List Char, decodeChars (cs.flatMap units) = some cs := by
    intro cs
    induction cs with
    | nil => rfl
    | cons c cs ih => rw [List.flatMap_cons, decodeChars_units, ih, Option.map_some]
  rw [decode, encode, hchars, Option.map_some, String.ofList_toList]

end Utf16
