import YubiWallet.Lib.Endian
import Mathlib.Data.Nat.Log

/-! Tag-length-value elements with one-byte tags and definite lengths of at most
four length bytes, as smart-card data fields use them. -/
namespace Ber
open Endian

abbrev Element := UInt8 × List UInt8

/-- The shortest definite form of `n`. -/
def encodeLength (n : Nat) : List UInt8 :=
  if n < 0x80 then [UInt8.ofNat n]
  else UInt8.ofNat (0x80 + (Nat.log 256 n + 1)) :: beBytes (Nat.log 256 n + 1) n

def encodeElement (e : Element) : List UInt8 := e.1 :: encodeLength e.2.length ++ e.2

/-- One byte below 80, or 81..84 and that many bytes, most significant first. -/
def readLength : List UInt8 → Option (Nat × List UInt8)
  | [] => none
  | b :: bs =>
    let k := b.toNat - 0x80
    if b.toNat < 0x80 then some (b.toNat, bs)
    else if 1 ≤ k ∧ k ≤ 4 ∧ k ≤ bs.length then some (beNat (bs.take k), bs.drop k)
    else none

def readElement : List UInt8 → Option (Element × List UInt8)
  | [] => none
  | tag :: bs =>
    match readLength bs with
    | some (n, bs) => if n ≤ bs.length then some ((tag, bs.take n), bs.drop n) else none
    | none => none

theorem readLength_rest {bs rest : List UInt8} {n : Nat}
    (h : readLength bs = some (n, rest)) : rest.length < bs.length := by
  cases bs with
  | nil => simp [readLength] at h
  | cons b bs =>
    simp only [readLength] at h
    split at h
    · obtain ⟨-, rfl⟩ : b.toNat = n ∧ bs = rest := by simpa using h
      simp
    · split at h
      · obtain ⟨-, rfl⟩ : _ ∧ bs.drop (b.toNat - 0x80) = rest := by simpa using h
        simp only [List.length_drop, List.length_cons]
        omega
      · simp at h

theorem readElement_rest {bs rest : List UInt8} {e : Element}
    (h : readElement bs = some (e, rest)) : rest.length < bs.length := by
  cases bs with
  | nil => simp [readElement] at h
  | cons tag bs =>
    simp only [readElement] at h
    split at h
    · rename_i n bs' hl
      have hlt := readLength_rest hl
      split at h
      · obtain ⟨-, rfl⟩ : _ ∧ bs'.drop n = rest := by simpa using h
        simp only [List.length_drop, List.length_cons]
        omega
      · simp at h
    · simp at h

/-- All elements of a data field, which must end with the last one. -/
def readElements (bs : List UInt8) : Option (List Element) :=
  if bs = [] then some []
  else
    match h : readElement bs with
    | some (e, rest) =>
      have : rest.length < bs.length := readElement_rest h
      (readElements rest).map (e :: ·)
    | none => none
termination_by bs.length

@[simp] theorem readElements_nil : readElements [] = some [] := by
  rw [readElements]
  simp

theorem readElements_of_readElement {bs rest : List UInt8} {e : Element}
    (h : readElement bs = some (e, rest)) :
    readElements bs = (readElements rest).map (e :: ·) := by
  have hne : bs ≠ [] := by
    rintro rfl
    simp [readElement] at h
  rw [readElements, if_neg hne]
  split
  · rename_i e' rest' h'
    obtain ⟨rfl, rfl⟩ : e' = e ∧ rest' = rest := by simpa [h] using h'.symm
    rfl
  · rename_i h'
    simp [h] at h'

/-- The value of the first element with the tag. The elements in front of it must be
well formed; what stands behind it is not looked at. -/
def find (tag : UInt8) (bs : List UInt8) : Option (List UInt8) :=
  match h : readElement bs with
  | some (e, rest) =>
    have : rest.length < bs.length := readElement_rest h
    if e.1 = tag then some e.2 else find tag rest
  | none => none
termination_by bs.length

theorem find_of_readElement {bs rest : List UInt8} {e : Element} (tag : UInt8)
    (h : readElement bs = some (e, rest)) :
    find tag bs = if e.1 = tag then some e.2 else find tag rest := by
  rw [find]
  split
  · rename_i e' rest' h'
    obtain ⟨rfl, rfl⟩ : e' = e ∧ rest' = rest := by simpa [h] using h'.symm
    rfl
  · rename_i h'
    simp [h] at h'

theorem find_of_none {bs : List UInt8} (tag : UInt8) (h : readElement bs = none) :
    find tag bs = none := by
  rw [find]
  split
  · rename_i h'
    simp [h] at h'
  · rfl

theorem readLength_short {n : Nat} (h : n < 0x80) (rest : List UInt8) :
    readLength (UInt8.ofNat n :: rest) = some (n, rest) := by
  have hn : (UInt8.ofNat n).toNat = n := by
    rw [UInt8.toNat_ofNat']
    omega
  simp [readLength, hn, h]

theorem readLength_long {k n : Nat} (hk : 1 ≤ k) (hk4 : k ≤ 4) (h : n < 256 ^ k)
    (rest : List UInt8) :
    readLength (UInt8.ofNat (0x80 + k) :: beBytes k n ++ rest) = some (n, rest) := by
  have hb : (UInt8.ofNat (0x80 + k)).toNat = 0x80 + k := by
    rw [UInt8.toNat_ofNat']
    omega
  have htake : (beBytes k n ++ rest).take k = beBytes k n := by simp
  have hdrop : (beBytes k n ++ rest).drop k = rest := by simp
  simp only [List.cons_append, readLength, hb]
  rw [if_neg (by omega), Nat.add_sub_cancel_left, if_pos (by simp; omega), htake, hdrop,
    beNat_beBytes h]

/-- An element is read back from any encoding of its length. -/
theorem readElement_append {len v : List UInt8} (tag : UInt8) (rest : List UInt8)
    (hlen : readLength (len ++ (v ++ rest)) = some (v.length, v ++ rest)) :
    readElement (tag :: len ++ v ++ rest) = some ((tag, v), rest) := by
  simp [readElement, hlen]

/-- A length as it stands in the data. -/
inductive LengthField where
  | short (b : UInt8) (small : b.toNat < 0x80)
  | long (bs : List UInt8) (count : 1 ≤ bs.length ∧ bs.length ≤ 4)

namespace LengthField

def value : LengthField → Nat
  | .short b _ => b.toNat
  | .long bs _ => beNat bs

def bytes : LengthField → List UInt8
  | .short b _ => [b]
  | .long bs _ => UInt8.ofNat (0x80 + bs.length) :: bs

end LengthField

/-- An element as it stands in the data. -/
structure Wire where
  tag : UInt8
  length : LengthField
  value : List UInt8
  fits : value.length = length.value

def Wire.bytes (w : Wire) : List UInt8 := w.tag :: w.length.bytes ++ w.value

def wireBytes (ws : List Wire) : List UInt8 := ws.flatMap Wire.bytes

@[simp] theorem wireBytes_nil : wireBytes [] = [] := rfl

@[simp] theorem wireBytes_cons (w : Wire) (ws : List Wire) :
    wireBytes (w :: ws) = w.bytes ++ wireBytes ws := rfl

/-- Elements with other tags, one with the tag and the value `v`, and any bytes. -/
def Locates (tag : UInt8) (v data : List UInt8) : Prop :=
  ∃ (skipped : List Wire) (w : Wire) (rest : List UInt8),
    data = wireBytes skipped ++ w.bytes ++ rest ∧ (∀ e ∈ skipped, e.tag ≠ tag) ∧
    w.tag = tag ∧ w.value = v

theorem readLength_bytes (l : LengthField) (rest : List UInt8) :
    readLength (l.bytes ++ rest) = some (l.value, rest) := by
  cases l with
  | short b small => simp [LengthField.bytes, LengthField.value, readLength, small]
  | long bs count =>
    obtain ⟨h1, h4⟩ := count
    have hb : (UInt8.ofNat (0x80 + bs.length)).toNat = 0x80 + bs.length := by
      rw [UInt8.toNat_ofNat']
      omega
    have htake : (bs ++ rest).take bs.length = bs := List.take_append_length
    have hdrop : (bs ++ rest).drop bs.length = rest := List.drop_append_length
    simp only [LengthField.bytes, LengthField.value, List.cons_append, readLength, hb]
    rw [if_neg (by omega), Nat.add_sub_cancel_left,
      if_pos ⟨h1, h4, by rw [List.length_append]; omega⟩, htake, hdrop]

/-- What is read as a length is a length field. -/
theorem exists_of_readLength {bs rest : List UInt8} {n : Nat}
    (h : readLength bs = some (n, rest)) :
    ∃ l : LengthField, l.value = n ∧ bs = l.bytes ++ rest := by
  cases bs with
  | nil => simp [readLength] at h
  | cons b bs =>
    simp only [readLength] at h
    by_cases hsmall : b.toNat < 0x80
    · rw [if_pos hsmall] at h
      obtain ⟨rfl, rfl⟩ : b.toNat = n ∧ bs = rest := by simpa using h
      exact ⟨.short b hsmall, rfl, rfl⟩
    · obtain ⟨k, hk⟩ := Nat.exists_eq_add_of_le (Nat.le_of_not_lt hsmall)
      have hb : UInt8.ofNat (0x80 + k) = b := by rw [← hk, UInt8.ofNat_toNat]
      rw [if_neg hsmall, hk, Nat.add_sub_cancel_left] at h
      split at h
      · rename_i hcount
        obtain ⟨h1, h4, hfit⟩ := hcount
        obtain ⟨rfl, rfl⟩ : beNat (bs.take k) = n ∧ bs.drop k = rest := by simpa using h
        have hlen : (bs.take k).length = k := List.length_take_of_le hfit
        have hcount : 1 ≤ (bs.take k).length ∧ (bs.take k).length ≤ 4 := by
          rw [hlen]
          exact ⟨h1, h4⟩
        refine ⟨.long (bs.take k) hcount, rfl, ?_⟩
        rw [LengthField.bytes, hlen, hb, List.cons_append, List.take_append_drop]
      · cases h

theorem readElement_bytes (w : Wire) (rest : List UInt8) :
    readElement (w.bytes ++ rest) = some ((w.tag, w.value), rest) := by
  have hlen := readLength_bytes w.length (w.value ++ rest)
  rw [← w.fits] at hlen
  exact readElement_append w.tag rest hlen

/-- What is read as an element is one of the grammar. -/
theorem exists_of_readElement {bs rest : List UInt8} {e : Element}
    (h : readElement bs = some (e, rest)) :
    ∃ w : Wire, (w.tag, w.value) = e ∧ bs = w.bytes ++ rest := by
  cases bs with
  | nil => simp [readElement] at h
  | cons tag bs =>
    simp only [readElement] at h
    split at h
    · rename_i n bs' hlen
      obtain ⟨l, rfl, rfl⟩ := exists_of_readLength hlen
      split at h
      · rename_i hfit
        obtain ⟨rfl, rfl⟩ : (tag, bs'.take l.value) = e ∧ bs'.drop l.value = rest := by
          simpa using h
        refine ⟨⟨tag, l, bs'.take l.value, by rw [List.length_take]; omega⟩, rfl, ?_⟩
        rw [Wire.bytes, List.append_assoc _ (bs'.take l.value), List.take_append_drop,
          List.cons_append]
      · cases h
    · cases h

/-- Searching steps over elements with other tags. -/
theorem find_skip {tag : UInt8} {skipped : List Wire} (rest : List UInt8)
    (h : ∀ e ∈ skipped, e.tag ≠ tag) : find tag (wireBytes skipped ++ rest) = find tag rest := by
  induction skipped with
  | nil => rfl
  | cons w skipped ih =>
    have hread := readElement_bytes w (wireBytes skipped ++ rest)
    rw [wireBytes_cons, List.append_assoc, find_of_readElement tag hread,
      if_neg (h w List.mem_cons_self), ih fun e he => h e (List.mem_cons_of_mem w he)]

/-- The search succeeds exactly on the grammar. -/
theorem find_eq_some_iff (tag : UInt8) (v data : List UInt8) :
    find tag data = some v ↔ Locates tag v data := by
  constructor
  · intro h
    -- induction on the rounds of the search
    fun_induction find tag data with
    | case1 data e rest hread _ htag =>
      obtain ⟨w, rfl, rfl⟩ := exists_of_readElement hread
      exact ⟨[], w, rest, rfl, by simp, htag, Option.some.inj h⟩
    | case2 data e rest hread _ hne ih =>
      obtain ⟨w, rfl, rfl⟩ := exists_of_readElement hread
      obtain ⟨skipped, target, tail, rfl, hskipped, htag, hv⟩ := ih h
      refine ⟨w :: skipped, target, tail, ?_, List.forall_mem_cons.mpr ⟨hne, hskipped⟩, htag, hv⟩
      rw [wireBytes_cons, List.append_assoc, List.append_assoc, List.append_assoc]
    | case3 data hread => cases h
  · intro h
    obtain ⟨skipped, w, rest, rfl, hskipped, htag, rfl⟩ := h
    rw [List.append_assoc, find_skip _ hskipped,
      find_of_readElement tag (readElement_bytes w rest), if_pos htag]

end Ber
