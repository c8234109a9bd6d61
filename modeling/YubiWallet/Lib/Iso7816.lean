import YubiWallet.Lib.Endian

/-! Command APDUs as the receiver of ISO 7816-4 tells them apart: by the total
length and the fifth byte alone. -/
namespace Iso7816
open Endian

inductive Form where
  | short | extended
deriving DecidableEq, Repr

/-- A command with its two optional parts. `le` is the encoded value: zero stands
for the largest response of the form. -/
structure Command where
  cla : UInt8
  ins : UInt8
  p1 : UInt8
  p2 : UInt8
  data : Option (List UInt8)
  le : Option Nat
deriving DecidableEq, Repr

/-- The part behind the header, in the cases 2S, 3S and 4S. -/
def decodeShort (lc : UInt8) (body : List UInt8) :
    Option (Option (List UInt8) × Option Nat) :=
  if body = [] then some (none, some lc.toNat)
  else if lc.toNat = 0 then none
  else if body.length = lc.toNat then some (some body, none)
  else if body.length = lc.toNat + 1 then
    some (some (body.take lc.toNat), some (beNat (body.drop lc.toNat)))
  else none

/-- The part behind the zero byte, in the cases 2E, 3E and 4E. -/
def decodeExtended (body : List UInt8) : Option (Option (List UInt8) × Option Nat) :=
  let n := beNat (body.take 2)
  let rest := body.drop 2
  if body.length < 2 then none
  else if rest = [] then some (none, some n)
  else if n = 0 then none
  else if rest.length = n then some (some rest, none)
  else if rest.length = n + 2 then some (some (rest.take n), some (beNat (rest.drop n)))
  else none

/-- The form of a command is told by its fifth byte: zero with more bytes behind it
announces the extended form. -/
def decode : List UInt8 → Option (Form × Command)
  | [cla, ins, p1, p2] => some (.short, ⟨cla, ins, p1, p2, none, none⟩)
  | cla :: ins :: p1 :: p2 :: c5 :: body =>
    if c5 = 0 ∧ body ≠ [] then
      (decodeExtended body).map fun (data, le) => (.extended, ⟨cla, ins, p1, p2, data, le⟩)
    else
      (decodeShort c5 body).map fun (data, le) => (.short, ⟨cla, ins, p1, p2, data, le⟩)
  | _ => none

theorem decode_zero (cla ins p1 p2 : UInt8) {body : List UInt8} (h : body ≠ []) :
    decode (cla :: ins :: p1 :: p2 :: 0 :: body) =
      (decodeExtended body).map fun (data, le) => (.extended, ⟨cla, ins, p1, p2, data, le⟩) :=
  if_pos ⟨rfl, h⟩

theorem decode_extended (cla ins p1 p2 : UInt8) {lc data le : List UInt8}
    (hlc : lc.length = 2) (hle : le.length = 2) (hdata : data ≠ [])
    (hn : beNat lc = data.length) :
    decode (cla :: ins :: p1 :: p2 :: 0 :: (lc ++ data ++ le)) =
      some (.extended, ⟨cla, ins, p1, p2, some data, some (beNat le)⟩) := by
  have hpos : 0 < data.length := List.length_pos_iff.mpr hdata
  have hne : lc ++ data ++ le ≠ [] := by simp [hdata]
  have htake : (lc ++ data ++ le).take 2 = lc := by
    rw [List.append_assoc, ← hlc, List.take_append_length]
  have hdrop : (lc ++ data ++ le).drop 2 = data ++ le := by
    rw [List.append_assoc, ← hlc, List.drop_append_length]
  have hrest : data ++ le ≠ [] := by simp [hdata]
  rw [decode_zero _ _ _ _ hne]
  simp only [decodeExtended, htake, hdrop, hn]
  rw [if_neg (by simp only [List.length_append]; omega), if_neg hrest, if_neg (by omega),
    if_neg (by simp only [List.length_append]; omega),
    if_pos (by simp only [List.length_append]; omega), List.take_append_length,
    List.drop_append_length]
  rfl

/-- Case 3E: data, and no response expected. -/
theorem decode_extended_data (cla ins p1 p2 : UInt8) {lc data : List UInt8}
    (hlc : lc.length = 2) (hdata : data ≠ []) (hn : beNat lc = data.length) :
    decode (cla :: ins :: p1 :: p2 :: 0 :: (lc ++ data)) =
      some (.extended, ⟨cla, ins, p1, p2, some data, none⟩) := by
  have hpos : 0 < data.length := List.length_pos_iff.mpr hdata
  have hne : lc ++ data ≠ [] := by simp [hdata]
  have htake : (lc ++ data).take 2 = lc := by rw [← hlc, List.take_append_length]
  have hdrop : (lc ++ data).drop 2 = data := by rw [← hlc, List.drop_append_length]
  rw [decode_zero _ _ _ _ hne]
  simp only [decodeExtended, htake, hdrop, hn]
  rw [if_neg (by simp only [List.length_append]; omega), if_neg hdata, if_neg (by omega),
    if_true]
  rfl

/-- An extended length field that announces fewer bytes than there are leaves bytes over. -/
theorem decode_extended_short_lc (cla ins p1 p2 : UInt8) {lc data le : List UInt8}
    (hlc : lc.length = 2) (hle : le.length = 2) (hn : beNat lc + 2 < data.length) :
    decode (cla :: ins :: p1 :: p2 :: 0 :: (lc ++ data ++ le)) = none := by
  have hne : lc ++ data ++ le ≠ [] := by
    intro h
    have := congrArg List.length h
    simp only [List.length_append, List.length_nil] at this
    omega
  have htake : (lc ++ data ++ le).take 2 = lc := by
    rw [List.append_assoc, ← hlc, List.take_append_length]
  have hdrop : (lc ++ data ++ le).drop 2 = data ++ le := by
    rw [List.append_assoc, ← hlc, List.drop_append_length]
  have hrest : data ++ le ≠ [] := by
    intro h
    have := congrArg List.length h
    simp only [List.length_append, List.length_nil] at this
    omega
  rw [decode_zero _ _ _ _ hne]
  simp only [decodeExtended, htake, hdrop]
  rw [if_neg (by simp only [List.length_append]; omega), if_neg hrest]
  by_cases h0 : beNat lc = 0
  · rw [if_pos h0]
    rfl
  · rw [if_neg h0, if_neg (by simp only [List.length_append]; omega),
      if_neg (by simp only [List.length_append]; omega)]
    rfl

theorem decode_nonzero (cla ins p1 p2 : UInt8) {c5 : UInt8} (h : c5 ≠ 0) (body : List UInt8) :
    decode (cla :: ins :: p1 :: p2 :: c5 :: body) =
      (decodeShort c5 body).map fun (data, le) => (.short, ⟨cla, ins, p1, p2, data, le⟩) :=
  if_neg fun hzero => h hzero.1

theorem lc_toNat {data : List UInt8} (h : data.length ≤ 255) :
    (UInt8.ofNat data.length).toNat = data.length := by
  rw [UInt8.toNat_ofNat']
  omega

theorem lc_ne_zero {data : List UInt8} (hne : data ≠ []) (h : data.length ≤ 255) :
    UInt8.ofNat data.length ≠ 0 := by
  intro hzero
  have hlen := lc_toNat h
  have hpos := List.length_pos_iff.mpr hne
  rw [hzero, UInt8.toNat_zero] at hlen
  omega

/-- Case 3S: data, and no response expected. -/
theorem decode_short_data (cla ins p1 p2 : UInt8) {data : List UInt8} (hne : data ≠ [])
    (h : data.length ≤ 255) :
    decode (cla :: ins :: p1 :: p2 :: UInt8.ofNat data.length :: data) =
      some (.short, ⟨cla, ins, p1, p2, some data, none⟩) := by
  have hpos := List.length_pos_iff.mpr hne
  rw [decode_nonzero _ _ _ _ (lc_ne_zero hne h), decodeShort, lc_toNat h, if_neg hne,
    if_neg (by omega), if_pos rfl]
  rfl

/-- Case 4S: data, and an expected length. -/
theorem decode_short_data_le (cla ins p1 p2 le : UInt8) {data : List UInt8} (hne : data ≠ [])
    (h : data.length ≤ 255) :
    decode (cla :: ins :: p1 :: p2 :: UInt8.ofNat data.length :: (data ++ [le])) =
      some (.short, ⟨cla, ins, p1, p2, some data, some le.toNat⟩) := by
  have hpos := List.length_pos_iff.mpr hne
  have hbody : data ++ [le] ≠ [] := by simp
  have hle : beNat [le] = le.toNat := by simp [beNat]
  rw [decode_nonzero _ _ _ _ (lc_ne_zero hne h), decodeShort, lc_toNat h, if_neg hbody,
    if_neg (by omega), List.length_append, List.length_singleton, if_neg (by omega), if_pos rfl,
    List.take_append_length, List.drop_append_length, hle]
  rfl

/-- Without data, the zero in the place of the length announces 256 bytes of response. -/
theorem decode_short_empty (cla ins p1 p2 : UInt8) :
    decode [cla, ins, p1, p2, 0] = some (.short, ⟨cla, ins, p1, p2, none, some 0⟩) := rfl

/-- Case 2S: no data, and an expected length. -/
theorem decode_short_le (cla ins p1 p2 le : UInt8) :
    decode [cla, ins, p1, p2, le] = some (.short, ⟨cla, ins, p1, p2, none, some le.toNat⟩) := by
  have hbody : ¬ (le = 0 ∧ ([] : List UInt8) ≠ []) := fun h => h.2 rfl
  simp only [decode]
  rw [if_neg hbody]
  rfl

/-- Two zeros are no command of any case. -/
theorem decode_short_empty_le (cla ins p1 p2 le : UInt8) :
    decode [cla, ins, p1, p2, 0, le] = none := rfl

end Iso7816
