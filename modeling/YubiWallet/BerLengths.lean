import YubiWallet.GeneralAuthenticate

/-! The length encoder of the PIV applet against its length decoder. -/
namespace YubiWallet.Piv
open Endian

/-- The decoder, set on `enc`, gives `n` and stops right behind `enc`. -/
def ReadsAs (n : Nat) (pre enc rest : Bytes) : Prop :=
  readBerLen (pre ++ enc ++ rest) pre.length = .ok (n, pre.length + enc.length)

/-- The encoding of `n` reads back wherever it stands, and no shorter one does. -/
def EncodesShortest (n : Nat) : Prop :=
  (∀ pre rest, ReadsAs n pre (berLen n) rest) ∧
    ∀ pre enc rest, ReadsAs n pre enc rest → (berLen n).length ≤ enc.length

theorem readBerLen_eq_ok_iff (data : Bytes) (i n next : Nat) :
    readBerLen data i = .ok (n, next) ↔
      next ≤ data.length ∧ Ber.readLength (data.drop i) = some (n, data.drop next) := by
  have hread := readBerLen_toOption data i
  constructor
  · intro h
    rw [h] at hread
    exact ⟨readBerLen_le h, hread.symm⟩
  · intro h
    obtain ⟨hle, hlen⟩ := h
    rw [hlen] at hread
    cases hr : readBerLen data i with
    | error e =>
      rw [hr] at hread
      cases hread
    | ok r =>
      obtain ⟨m, stop⟩ := r
      have hstop := readBerLen_le hr
      rw [hr] at hread
      obtain ⟨hm, hdrop⟩ : m = n ∧ data.drop stop = data.drop next := by
        simpa [Except.toOption] using hread
      -- both indices leave the same number of bytes
      have hcount := congrArg List.length hdrop
      simp only [List.length_drop] at hcount
      have hnext : stop = next := by omega
      rw [hm, hnext]

/-- Where an encoding stands does not matter. -/
theorem readsAs_iff (n : Nat) (pre enc rest : Bytes) :
    ReadsAs n pre enc rest ↔ Ber.readLength (enc ++ rest) = some (n, rest) := by
  have hfront : (pre ++ enc ++ rest).drop pre.length = enc ++ rest := by
    rw [List.append_assoc, List.drop_append_length]
  have hback : (pre ++ enc ++ rest).drop (pre.length + enc.length) = rest := by
    rw [← List.length_append, List.drop_append_length]
  rw [ReadsAs, readBerLen_eq_ok_iff, hfront, hback]
  constructor
  · intro h
    exact h.2
  · intro h
    exact ⟨by simp only [List.length_append]; omega, h⟩

/-- An encoding of `n` is one byte for lengths below 80, or a count and enough bytes. -/
theorem length_of_readLength {n : Nat} {enc rest : Bytes}
    (h : Ber.readLength (enc ++ rest) = some (n, rest)) :
    enc.length = 1 ∧ n < 0x80 ∨ 2 ≤ enc.length ∧ n < 256 ^ (enc.length - 1) := by
  obtain ⟨l, hvalue, hbytes⟩ := Ber.exists_of_readLength h
  have henc : enc = l.bytes := List.append_cancel_right hbytes
  rw [henc, ← hvalue]
  cases l with
  | short b small => exact Or.inl ⟨rfl, small⟩
  | long bs count =>
    have hlen : (Ber.LengthField.long bs count).bytes.length = bs.length + 1 := rfl
    rw [hlen, Nat.add_sub_cancel]
    exact Or.inr ⟨by omega, beNat_lt bs⟩

theorem berLen_shortest {n : Nat} {enc rest : Bytes}
    (h : Ber.readLength (enc ++ rest) = some (n, rest)) (hn : n < 2 ^ 24) :
    (berLen n).length ≤ enc.length := by
  rw [berLen_length]
  cases length_of_readLength h with
  | inl hshort =>
    rw [if_pos hshort.2]
    omega
  | inr hlong =>
    obtain ⟨htwo, hbytes⟩ := hlong
    have hbound : ∀ k, enc.length - 1 ≤ k → n < 256 ^ k :=
      fun k hk => hbytes.trans_le (Nat.pow_le_pow_right (by decide) hk)
    have hone := hbound 1
    have htwo := hbound 2
    split_ifs <;> omega

/-- From `2^24` on the encoder still writes three bytes, and the decoder reads them. -/
theorem readLength_berLen_large {n : Nat} (h : 2 ^ 24 ≤ n) (rest : Bytes) :
    Ber.readLength (berLen n ++ rest) = some (n % 2 ^ 24, rest) := by
  have hbytes : berLen n = UInt8.ofNat (0x80 + 3) :: beBytes 3 (n % 2 ^ 24) := by
    have hhigh : UInt8.ofNat (n % 2 ^ 24 / 256 / 256) = UInt8.ofNat (n / 256 / 256) := by
      rw [← UInt8.toNat_inj, UInt8.toNat_ofNat', UInt8.toNat_ofNat']
      omega
    have hmid : UInt8.ofNat (n % 2 ^ 24 / 256) = UInt8.ofNat (n / 256) := by
      rw [← UInt8.toNat_inj, UInt8.toNat_ofNat', UInt8.toNat_ofNat']
      omega
    have hlow : UInt8.ofNat (n % 2 ^ 24) = UInt8.ofNat n := by
      rw [← UInt8.toNat_inj, UInt8.toNat_ofNat', UInt8.toNat_ofNat']
      omega
    simp only [beBytes, List.nil_append, List.cons_append, hhigh, hmid, hlow]
    rw [berLen, if_neg (by omega), if_neg (by omega), if_neg (by omega), shiftRight_eight,
      shiftRight_sixteen]
    rfl
  rw [hbytes]
  exact Ber.readLength_long (k := 3) (by omega) (by omega) (by omega) rest

/-- The encoder covers three length bytes of the four that the decoder reads. -/
theorem berLen_encodesShortest_iff (n : Nat) : EncodesShortest n ↔ n < 2 ^ 24 := by
  constructor
  · intro h
    by_contra hlarge
    have hread := (readsAs_iff n [] (berLen n) []).mp (h.1 [] [])
    rw [readLength_berLen_large (by omega)] at hread
    obtain ⟨hmod, -⟩ := Prod.mk.inj (Option.some.inj hread)
    omega
  · intro h
    constructor
    · intro pre rest
      rw [readsAs_iff]
      exact readLength_berLen h rest
    · intro pre enc rest hread
      rw [readsAs_iff] at hread
      exact berLen_shortest hread h

/-- The first length that takes four bytes. -/
theorem berLen_four_bytes : ¬ ∀ n < 2 ^ 32, EncodesShortest n := by
  intro h
  have hsmall := (berLen_encodesShortest_iff (2 ^ 24)).mp (h (2 ^ 24) (by omega))
  omega

end YubiWallet.Piv
