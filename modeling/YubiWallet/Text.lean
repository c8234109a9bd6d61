import YubiWallet.Lib.Endian
import Mathlib.Data.Nat.Digits.Defs

/-! Bytes, strings and their encodings, as the Rust standard library and the `hex`
and `bs58` crates have them. -/
namespace YubiWallet

abbrev Bytes := List UInt8

/-- An array `[u8; n]`. -/
abbrev BytesN (n : Nat) := { b : Bytes // b.length = n }

def BytesN.fill (n : Nat) (b : UInt8) : BytesN n := ⟨List.replicate n b, List.length_replicate⟩

/-- `slice.try_into()` for arrays. -/
def toArray (n : Nat) (b : Bytes) : Option (BytesN n) :=
  if h : b.length = n then some ⟨b, h⟩ else none

/-- The Unicode property White_Space. -/
def isWhitespace (c : Char) : Bool :=
  let n := c.toNat
  (0x09 ≤ n && n ≤ 0x0D) || n == 0x20 || n == 0x85 || n == 0xA0 || n == 0x1680 ||
    (0x2000 ≤ n && n ≤ 0x200A) || n == 0x2028 || n == 0x2029 || n == 0x202F ||
    n == 0x205F || n == 0x3000

def trim (s : String) : String :=
  String.ofList ((s.toList.dropWhile isWhitespace).reverse.dropWhile isWhitespace).reverse

def asciiLower (c : Char) : Char :=
  if 'A' ≤ c ∧ c ≤ 'Z' then Char.ofNat (c.toNat + 32) else c

def toAsciiLowercase (s : String) : String := String.ofList (s.toList.map asciiLower)

def split (s : String) (sep : Char) : List String := (s.toList.splitOn sep).map String.ofList

def splitWhitespace (s : String) : List String :=
  ((s.toList.splitOnP isWhitespace).filter fun w => !w.isEmpty).map String.ofList

/-- Three fields without the separator come apart again. -/
theorem split_three {a s c t : String} {sep : Char} (ht : t.toList = [sep])
    (ha : sep ∉ a.toList) (hs : sep ∉ s.toList) (hc : sep ∉ c.toList) :
    split (a ++ t ++ s ++ t ++ c) sep = [a, s, c] := by
  have hchars : (a ++ t ++ s ++ t ++ c).toList =
      a.toList ++ sep :: (s.toList ++ sep :: c.toList) := by
    simp [ht]
  rw [split, hchars, List.splitOn_append_cons_self_of_not_mem ha,
    List.splitOn_append_cons_self_of_not_mem hs, List.splitOn_eq_singleton hc]
  simp

/-- The UTF-8 bytes. -/
def asBytes (s : String) : Bytes := s.toList.flatMap String.utf8EncodeChar

theorem asBytes_inj {s t : String} : asBytes s = asBytes t ↔ s = t := by
  refine ⟨fun h => ?_, congrArg asBytes⟩
  have hbytes : s.toList.utf8Encode = t.toList.utf8Encode := congrArg List.toByteArray h
  rwa [String.utf8Encode_toList, String.utf8Encode_toList, String.toByteArray_inj] at hbytes

/-- `strip_prefix("0x").unwrap_or(s)` -/
def stripPrefix0x : List Char → List Char
  | '0' :: 'x' :: cs => cs
  | cs => cs

/-- `trim_start_matches("0x")`: every leading `0x` goes. -/
def trimStartMatches0x : List Char → List Char
  | '0' :: 'x' :: cs => trimStartMatches0x cs
  | cs => cs

def hexDigit (c : Char) : Option Nat :=
  if '0' ≤ c ∧ c ≤ '9' then some (c.toNat - '0'.toNat)
  else if 'a' ≤ c ∧ c ≤ 'f' then some (c.toNat - 'a'.toNat + 10)
  else if 'A' ≤ c ∧ c ≤ 'F' then some (c.toNat - 'A'.toNat + 10)
  else none

/-- One digit of `u8::from_str_radix(_, 16)`, with its overflow check. -/
def pushHexDigit (n : Nat) (c : Char) : Option Nat :=
  match hexDigit c with
  | some d => if n * 16 + d < 256 then some (n * 16 + d) else none
  | none => none

/-- `u8::from_str_radix(_, 16).ok()`: a leading plus sign is allowed. -/
def u8FromStrRadix16 (cs : List Char) : Option UInt8 :=
  let digits := match cs with
    | '+' :: ds => ds
    | ds => ds
  if digits = [] then none else (digits.foldlM pushHexDigit 0).map UInt8.ofNat

def nibble (n : Nat) : Char := Char.ofNat (if n < 10 then 48 + n else 87 + n)
def nibbleUpper (n : Nat) : Char := Char.ofNat (if n < 10 then 48 + n else 55 + n)

def byteDigits (b : UInt8) : List Char := [nibble (b.toNat / 16), nibble (b.toNat % 16)]

/-- `{:02x}` -/
def fmt02x (b : UInt8) : String := String.ofList (byteDigits b)

/-- `{:#04x}` -/
def fmtHash04x (b : UInt8) : String := "0x" ++ fmt02x b

/-- `{:04X}` -/
def fmt04X (w : UInt16) : String :=
  String.ofList [nibbleUpper (w.toNat / 4096 % 16), nibbleUpper (w.toNat / 256 % 16),
    nibbleUpper (w.toNat / 16 % 16), nibbleUpper (w.toNat % 16)]

namespace Hex

def encode (b : Bytes) : String := String.ofList (b.flatMap byteDigits)

theorem encode_toList (b : Bytes) : (encode b).toList = b.flatMap byteDigits := by
  simp [encode]

theorem encode_length (b : Bytes) : (encode b).length = 2 * b.length := by
  rw [← String.length_toList, encode_toList]
  induction b with
  | nil => rfl
  | cons x b ih =>
    rw [List.flatMap_cons, List.length_append, ih, List.length_cons]
    simp only [byteDigits, List.length_cons, List.length_nil]
    omega

theorem encode_isHexDigit (b : Bytes) : ∀ c ∈ (encode b).toList, (hexDigit c).isSome := by
  have hbyte : ∀ n : Fin 256, (byteDigits (UInt8.ofNat n)).all fun c => (hexDigit c).isSome := by
    decide +kernel
  rw [encode_toList]
  intro c hc
  obtain ⟨x, -, hx⟩ := List.mem_flatMap.mp hc
  exact List.all_eq_true.mp (hbyte ⟨x.toNat, x.toNat_lt⟩) c (by simpa using hx)

inductive FromHexError where
  | invalidHexCharacter (c : Char) (index : Nat)
  | oddLength
deriving DecidableEq, Repr

def val (c : UInt8) (index : Nat) : Except FromHexError UInt8 :=
  match hexDigit (Char.ofNat c.toNat) with
  | some d => .ok (UInt8.ofNat d)
  | none => .error (.invalidHexCharacter (Char.ofNat c.toNat) index)

def decodePairs : Nat → Bytes → Except FromHexError Bytes
  | i, hi :: lo :: rest => do
    let h ← val hi i
    let l ← val lo (i + 1)
    let tail ← decodePairs (i + 2) rest
    pure ((h <<< 4 ||| l) :: tail)
  | _, _ => pure []

def decode (s : String) : Except FromHexError Bytes :=
  if (asBytes s).length % 2 ≠ 0 then .error .oddLength else decodePairs 0 (asBytes s)

/-- A digit is one byte of UTF-8, and reads back as its value. -/
theorem val_nibble {n : Nat} (h : n < 16) :
    ∃ c, String.utf8EncodeChar (nibble n) = [c] ∧ ∀ index, val c index = .ok (UInt8.ofNat n) := by
  have hdigit : ∀ k : Fin 16, String.utf8EncodeChar (nibble k) = [UInt8.ofNat (nibble k).toNat] ∧
      hexDigit (Char.ofNat (UInt8.ofNat (nibble k).toNat).toNat) = some k.val := by decide
  obtain ⟨hchar, hval⟩ := hdigit ⟨n, h⟩
  refine ⟨_, hchar, fun index => ?_⟩
  rw [val, hval]

theorem byteDigits_utf8 (x : UInt8) :
    ∃ hi lo, (byteDigits x).flatMap String.utf8EncodeChar = [hi, lo] ∧
      (∀ index, val hi index = .ok (UInt8.ofNat (x.toNat / 16))) ∧
      ∀ index, val lo index = .ok (UInt8.ofNat (x.toNat % 16)) := by
  have hx := x.toNat_lt
  obtain ⟨hi, hhi, hvhi⟩ := val_nibble (n := x.toNat / 16) (by omega)
  obtain ⟨lo, hlo, hvlo⟩ := val_nibble (n := x.toNat % 16) (by omega)
  exact ⟨hi, lo, by simp [byteDigits, hhi, hlo], hvhi, hvlo⟩

theorem halves (b : UInt8) :
    UInt8.ofNat (b.toNat / 16) <<< 4 ||| UInt8.ofNat (b.toNat % 16) = b := by
  have hall : ∀ n : Fin 256, UInt8.ofNat ((UInt8.ofNat n).toNat / 16) <<< 4 |||
      UInt8.ofNat ((UInt8.ofNat n).toNat % 16) = UInt8.ofNat n := by decide +kernel
  simpa using hall ⟨b.toNat, b.toNat_lt⟩

/-- The UTF-8 bytes of the digits, two for each byte. -/
theorem asBytes_encode_cons (x : UInt8) (b : Bytes) :
    asBytes (encode (x :: b)) =
      (byteDigits x).flatMap String.utf8EncodeChar ++ asBytes (encode b) := by
  rw [asBytes, asBytes, encode_toList, encode_toList, List.flatMap_cons, List.flatMap_append]

theorem asBytes_encode_length (b : Bytes) : (asBytes (encode b)).length = 2 * b.length := by
  induction b with
  | nil => rfl
  | cons x b ih =>
    obtain ⟨hi, lo, hutf8, -⟩ := byteDigits_utf8 x
    rw [asBytes_encode_cons, hutf8, List.length_append, ih, List.length_cons, List.length_cons,
      List.length_cons, List.length_nil]
    omega

theorem decodePairs_encode (b : Bytes) (index : Nat) :
    decodePairs index (asBytes (encode b)) = .ok b := by
  induction b generalizing index with
  | nil => rfl
  | cons x b ih =>
    obtain ⟨hi, lo, hutf8, hvhi, hvlo⟩ := byteDigits_utf8 x
    rw [asBytes_encode_cons, hutf8, List.cons_append, List.cons_append, List.nil_append,
      decodePairs, hvhi, hvlo, ih]
    change Except.ok ((UInt8.ofNat (x.toNat / 16) <<< 4 ||| UInt8.ofNat (x.toNat % 16)) :: b) = _
    rw [halves]

theorem decode_encode (b : Bytes) : decode (encode b) = .ok b := by
  have hlen := asBytes_encode_length b
  rw [decode, if_neg (by omega), decodePairs_encode]

theorem encode_append (a b : Bytes) : encode (a ++ b) = encode a ++ encode b := by
  rw [encode, encode, encode, List.flatMap_append, String.ofList_append]

/-- No digit is an `x`, so there is no prefix to take off. -/
theorem trimStartMatches0x_encode (b : Bytes) :
    trimStartMatches0x (encode b).toList = (encode b).toList := by
  have hdigits := encode_isHexDigit b
  generalize (encode b).toList = cs at hdigits
  rw [trimStartMatches0x.eq_def]
  split
  · have hx := hdigits 'x' (by simp)
    exact absurd hx (by decide)
  · rfl

end Hex

namespace Bs58

def alphabet : List Char :=
  "123456789ABCDEFGHJKLMNPQRSTUVWXYZabcdefghijkmnopqrstuvwxyz".toList

/-- One `1` for each leading zero byte, then the number the bytes spell, in base 58. -/
def encode (b : Bytes) : String :=
  let zeros := (b.takeWhile (· = 0)).length
  let digits := (Nat.digits 58 (Endian.beNat b)).reverse
  String.ofList (List.replicate zeros '1' ++ digits.map fun d => alphabet.getD d '1')

theorem encode_ne_empty {b : Bytes} (h : b ≠ []) : encode b ≠ "" := by
  intro hempty
  have hlist := congrArg String.toList hempty
  simp only [encode, String.toList_ofList, String.toList_empty, List.append_eq_nil_iff,
    List.map_eq_nil_iff, List.reverse_eq_nil_iff, Nat.digits_eq_nil_iff_eq_zero,
    List.replicate_eq_nil_iff, List.length_eq_zero_iff] at hlist
  obtain ⟨hzeros, hvalue⟩ := hlist
  -- the number is zero, so all bytes are, and they count as leading ones
  have hall : b = List.replicate b.length 0 := by
    rw [← Endian.beBytes_zero, ← hvalue, Endian.beBytes_beNat]
  cases b with
  | nil => exact h rfl
  | cons x b =>
    obtain rfl : x = 0 := (List.cons.inj hall).1
    simp at hzeros

end Bs58
end YubiWallet
