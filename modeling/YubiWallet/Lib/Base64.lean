import Mathlib.Data.List.Basic

/-! The standard base64 encoding, padded. The decoder takes what the encoder writes and
nothing else: the padding must be there, and the bits that it stands for must be zero. -/
namespace Base64

/-- The symbol of a value below 64. -/
def symbol (n : Nat) : UInt8 :=
  if n < 26 then UInt8.ofNat (65 + n)
  else if n < 52 then UInt8.ofNat (97 + (n - 26))
  else if n < 62 then UInt8.ofNat (48 + (n - 52))
  else if n = 62 then 43
  else 47

def value (c : UInt8) : Option Nat :=
  let n := c.toNat
  if 65 ≤ n ∧ n ≤ 90 then some (n - 65)
  else if 97 ≤ n ∧ n ≤ 122 then some (n - 97 + 26)
  else if 48 ≤ n ∧ n ≤ 57 then some (n - 48 + 52)
  else if n = 43 then some 62
  else if n = 47 then some 63
  else none

def pad : UInt8 := 61

def encode : List UInt8 → List UInt8
  | [] => []
  | [a] => [symbol (a.toNat / 4), symbol (a.toNat % 4 * 16), pad, pad]
  | [a, b] =>
    [symbol (a.toNat / 4), symbol (a.toNat % 4 * 16 + b.toNat / 16), symbol (b.toNat % 16 * 4), pad]
  | a :: b :: c :: rest =>
    symbol (a.toNat / 4) :: symbol (a.toNat % 4 * 16 + b.toNat / 16) ::
      symbol (b.toNat % 16 * 4 + c.toNat / 64) :: symbol (c.toNat % 64) :: encode rest

/-- The bytes of a group: three for four symbols, and one less for each pad. -/
def decodeGroup (s t u v : UInt8) : Option (List UInt8) := do
  let x ← value s
  let y ← value t
  let a := UInt8.ofNat (x * 4 + y / 16)
  if u = pad then
    if v = pad ∧ y % 16 = 0 then some [a] else none
  else do
    let z ← value u
    let b := UInt8.ofNat (y % 16 * 16 + z / 4)
    if v = pad then
      if z % 4 = 0 then some [a, b] else none
    else do
      let w ← value v
      some [a, b, UInt8.ofNat (z % 4 * 64 + w)]

/-- Only the last group may be padded. -/
def decode : List UInt8 → Option (List UInt8)
  | [] => some []
  | s :: t :: u :: v :: rest => do
    let front ← decodeGroup s t u v
    if rest = [] then some front
    else if v = pad then none
    else do
      let back ← decode rest
      some (front ++ back)
  | _ => none

theorem value_symbol {n : Nat} (h : n < 64) : value (symbol n) = some n := by
  have hall : ∀ k : Fin 64, value (symbol k) = some k.val := by decide
  exact hall ⟨n, h⟩

theorem symbol_ne_pad {n : Nat} (h : n < 64) : symbol n ≠ pad := by
  have hall : ∀ k : Fin 64, symbol k ≠ pad := by decide
  exact hall ⟨n, h⟩

theorem symbol_of_value {c : UInt8} {n : Nat} (h : value c = some n) :
    n < 64 ∧ symbol n = c := by
  have hall : ∀ k : Fin 256, (value (UInt8.ofNat k)).all fun m =>
      decide (m < 64 ∧ symbol m = UInt8.ofNat k) := by decide +kernel
  have hc := hall ⟨c.toNat, c.toNat_lt⟩
  simp only [UInt8.ofNat_toNat, h, Option.all_some, decide_eq_true_eq] at hc
  exact hc

/-- The bytes of a number below 256. -/
theorem ofNat_eq {n : Nat} {a : UInt8} (h : n = a.toNat) : UInt8.ofNat n = a := by
  rw [h, UInt8.ofNat_toNat]

theorem toNat_ofNat_of_lt {n : Nat} (h : n < 256) : (UInt8.ofNat n).toNat = n := by
  rw [UInt8.toNat_ofNat']
  omega

theorem decodeGroup_three (a b c : UInt8) :
    decodeGroup (symbol (a.toNat / 4)) (symbol (a.toNat % 4 * 16 + b.toNat / 16))
      (symbol (b.toNat % 16 * 4 + c.toNat / 64)) (symbol (c.toNat % 64)) = some [a, b, c] := by
  have ha := a.toNat_lt
  have hb := b.toNat_lt
  have hc := c.toNat_lt
  have hu := symbol_ne_pad (by omega : b.toNat % 16 * 4 + c.toNat / 64 < 64)
  have hv := symbol_ne_pad (by omega : c.toNat % 64 < 64)
  rw [decodeGroup, value_symbol (by omega), value_symbol (by omega), value_symbol (by omega),
    value_symbol (by omega)]
  simp only [Option.bind_eq_bind, Option.bind_some, if_neg hu, if_neg hv]
  rw [ofNat_eq (a := a) (by omega), ofNat_eq (a := b) (by omega), ofNat_eq (a := c) (by omega)]

theorem decodeGroup_two (a b : UInt8) :
    decodeGroup (symbol (a.toNat / 4)) (symbol (a.toNat % 4 * 16 + b.toNat / 16))
      (symbol (b.toNat % 16 * 4)) pad = some [a, b] := by
  have ha := a.toNat_lt
  have hb := b.toNat_lt
  have hu := symbol_ne_pad (by omega : b.toNat % 16 * 4 < 64)
  rw [decodeGroup, value_symbol (by omega), value_symbol (by omega), value_symbol (by omega)]
  simp only [Option.bind_eq_bind, Option.bind_some, if_neg hu, if_true]
  rw [if_pos (by omega), ofNat_eq (a := a) (by omega), ofNat_eq (a := b) (by omega)]

theorem decodeGroup_one (a : UInt8) :
    decodeGroup (symbol (a.toNat / 4)) (symbol (a.toNat % 4 * 16)) pad pad = some [a] := by
  have ha := a.toNat_lt
  rw [decodeGroup, value_symbol (by omega), value_symbol (by omega)]
  simp only [Option.bind_eq_bind, Option.bind_some, if_true, true_and]
  rw [if_pos (by omega), ofNat_eq (a := a) (by omega)]

/-- A group is read in one way only, and without padding it stands for three bytes. -/
theorem encode_of_decodeGroup {s t u v : UInt8} {front : List UInt8}
    (h : decodeGroup s t u v = some front) :
    encode front = [s, t, u, v] ∧ (v ≠ pad → front.length = 3) := by
  simp only [decodeGroup, Option.bind_eq_bind, Option.bind_eq_some_iff] at h
  obtain ⟨x, hx, y, hy, h⟩ := h
  obtain ⟨hx64, rfl⟩ := symbol_of_value hx
  obtain ⟨hy64, rfl⟩ := symbol_of_value hy
  have ha := toNat_ofNat_of_lt (by omega : x * 4 + y / 16 < 256)
  have hfirst : (x * 4 + y / 16) / 4 = x := by omega
  split at h
  · rename_i hu
    split at h
    · rename_i hv
      obtain ⟨hv, hbits⟩ := hv
      obtain rfl := Option.some.inj h
      refine ⟨?_, fun hne => absurd hv hne⟩
      have hsecond : (x * 4 + y / 16) % 4 * 16 = y := by omega
      rw [encode, ha, hu, hv, hfirst, hsecond]
    · cases h
  · simp only [Option.bind_eq_some_iff] at h
    obtain ⟨z, hz, h⟩ := h
    obtain ⟨hz64, rfl⟩ := symbol_of_value hz
    have hb := toNat_ofNat_of_lt (by omega : y % 16 * 16 + z / 4 < 256)
    have hsecond : (x * 4 + y / 16) % 4 * 16 + (y % 16 * 16 + z / 4) / 16 = y := by omega
    split at h
    · rename_i hv
      split at h
      · rename_i hbits
        obtain rfl := Option.some.inj h
        refine ⟨?_, fun hne => absurd hv hne⟩
        have hthird : (y % 16 * 16 + z / 4) % 16 * 4 = z := by omega
        rw [encode, ha, hb, hv, hfirst, hsecond, hthird]
      · cases h
    · simp only [Option.bind_eq_some_iff] at h
      obtain ⟨w, hw, h⟩ := h
      obtain ⟨hw64, rfl⟩ := symbol_of_value hw
      have hc := toNat_ofNat_of_lt (by omega : z % 4 * 64 + w < 256)
      obtain rfl := Option.some.inj h
      refine ⟨?_, fun _ => rfl⟩
      have hthird : (y % 16 * 16 + z / 4) % 16 * 4 + (z % 4 * 64 + w) / 64 = z := by omega
      have hfourth : (z % 4 * 64 + w) % 64 = w := by omega
      rw [encode, ha, hb, hc, encode, hfirst, hsecond, hthird, hfourth]

theorem encode_eq_nil {b : List UInt8} (h : encode b = []) : b = [] := by
  cases b with
  | nil => rfl
  | cons a b =>
    cases b with
    | nil => cases h
    | cons a' b =>
      cases b with
      | nil => cases h
      | cons a'' b => cases h

/-- Encoding goes by groups of three bytes. -/
theorem encode_append {front : List UInt8} (h : front.length = 3) (back : List UInt8) :
    encode (front ++ back) = encode front ++ encode back := by
  obtain ⟨a, b, c, rfl⟩ := List.length_eq_three.mp h
  rfl

theorem decode_encode (b : List UInt8) : decode (encode b) = some b := by
  fun_induction encode b with
  | case1 => rfl
  | case2 a => rw [decode, decodeGroup_one]; rfl
  | case3 a b => rw [decode, decodeGroup_two]; rfl
  | case4 a b c rest ih =>
    rw [decode, decodeGroup_three]
    simp only [Option.bind_eq_bind, Option.bind_some]
    by_cases hrest : encode rest = []
    · rw [if_pos hrest, encode_eq_nil hrest]
    · have hc := c.toNat_lt
      rw [if_neg hrest, if_neg (symbol_ne_pad (by omega)), ih]
      rfl

/-- The decoder accepts the encodings and nothing else. -/
theorem decode_eq_some_iff (s b : List UInt8) : decode s = some b ↔ s = encode b := by
  constructor
  · intro h
    fun_induction decode s generalizing b with
    | case1 =>
      obtain rfl := Option.some.inj h
      rfl
    | case2 s t u v rest ih =>
      simp only [Option.bind_eq_bind, Option.bind_eq_some_iff] at h
      obtain ⟨front, hfront, h⟩ := h
      obtain ⟨hencode, hthree⟩ := encode_of_decodeGroup hfront
      split at h
      · rename_i hrest
        rw [← Option.some.inj h, hencode, hrest]
      · split at h
        · cases h
        · rename_i hv
          obtain ⟨back, hback, h⟩ := Option.bind_eq_some_iff.mp h
          rw [← Option.some.inj h, encode_append (hthree hv), hencode, ← ih back hback]
          rfl
    | case3 => cases h
  · intro h
    rw [h, decode_encode]

end Base64
