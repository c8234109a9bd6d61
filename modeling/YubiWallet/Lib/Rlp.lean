import YubiWallet.Lib.Format

/-! The recursive length prefix: byte strings, numbers and lists, each in its only form. -/
namespace Rlp
open Endian

def digits (n : Nat) : List UInt8 :=
  if n = 0 then [] else digits (n / 256) ++ [UInt8.ofNat n]
termination_by n
decreasing_by exact Nat.div_lt_self (by omega) (by decide)

theorem digits_zero : digits 0 = [] := by
  rw [digits, if_pos rfl]

theorem digits_of_pos {n : Nat} (h : 0 < n) : digits n = digits (n / 256) ++ [UInt8.ofNat n] := by
  rw [digits, if_neg (by omega)]

theorem beNat_digits (n : Nat) : beNat (digits n) = n := by
  induction n using Nat.strongRecOn with
  | ind n ih =>
    by_cases h : n = 0
    · rw [h, digits_zero, beNat_nil]
    · have hpos : 0 < n := Nat.pos_of_ne_zero h
      rw [digits_of_pos hpos, beNat_concat, ih (n / 256) (Nat.div_lt_self hpos (by decide)),
        UInt8.toNat_ofNat']
      omega

def Minimal (c : List UInt8) : Prop := c.head? ≠ some 0

instance (c : List UInt8) : Decidable (Minimal c) := inferInstanceAs (Decidable (_ ≠ _))

theorem minimal_nil : Minimal [] := by decide

theorem digits_minimal (n : Nat) : Minimal (digits n) := by
  induction n using Nat.strongRecOn with
  | ind n ih =>
    by_cases h : n = 0
    · rw [h, digits_zero]
      exact minimal_nil
    · have hpos : 0 < n := Nat.pos_of_ne_zero h
      have hdiv := ih (n / 256) (Nat.div_lt_self hpos (by decide))
      have hvalue := beNat_digits (n / 256)
      rw [digits_of_pos hpos]
      cases hfront : digits (n / 256) with
      | cons x xs =>
        rw [hfront] at hdiv
        exact hdiv
      | nil =>
        -- one digit, the number itself
        rw [hfront, beNat_nil] at hvalue
        intro hzero
        have hbyte := congrArg UInt8.toNat (Option.some.inj hzero)
        rw [UInt8.toNat_ofNat'] at hbyte
        change n % 256 = 0 at hbyte
        omega

/-- A first byte that is not zero gives the number its length. -/
theorem beNat_pos {c : List UInt8} (h : Minimal c) (hne : c ≠ []) : 0 < beNat c := by
  induction c using List.reverseRecOn with
  | nil => exact absurd rfl hne
  | append_singleton cs y ih =>
    rw [beNat_concat]
    cases cs with
    | nil =>
      have hy : y.toNat ≠ 0 := fun hy => h (congrArg some (UInt8.toNat_inj.mp hy))
      rw [beNat_nil]
      omega
    | cons x xs =>
      have hpos := ih h (List.cons_ne_nil _ _)
      omega

theorem digits_beNat {c : List UInt8} (h : Minimal c) : digits (beNat c) = c := by
  induction c using List.reverseRecOn with
  | nil => exact digits_zero
  | append_singleton cs y ih =>
    have hy := y.toNat_lt
    have hpos := beNat_pos h (by simp)
    have hfront : Minimal cs := by
      cases cs with
      | nil => exact minimal_nil
      | cons x xs => exact h
    rw [beNat_concat] at hpos ⊢
    have hdiv : (beNat cs * 256 + y.toNat) / 256 = beNat cs := by omega
    have hmod : UInt8.ofNat (beNat cs * 256 + y.toNat) = y := by
      apply UInt8.toNat_inj.mp
      rw [UInt8.toNat_ofNat']
      omega
    rw [digits_of_pos hpos, hdiv, hmod, ih hfront]

theorem digits_length_le (k : Nat) {n : Nat} (h : n < 256 ^ k) : (digits n).length ≤ k := by
  induction k generalizing n with
  | zero =>
    obtain rfl : n = 0 := by simpa using h
    rw [digits_zero]
    exact le_refl 0
  | succ k ih =>
    by_cases hn : n = 0
    · rw [hn, digits_zero]
      exact Nat.zero_le _
    · have hdiv : n / 256 < 256 ^ k := by
        rw [Nat.div_lt_iff_lt_mul (by decide), ← pow_succ]
        exact h
      have hlen := ih hdiv
      rw [digits_of_pos (Nat.pos_of_ne_zero hn), List.length_append, List.length_singleton]
      omega

theorem lt_of_digits {k : Nat} {c : List UInt8} (h : c.length ≤ k) : beNat c < 256 ^ k :=
  (beNat_lt c).trans_le (Nat.pow_le_pow_right (by decide) h)

theorem lt_digits_length {k n : Nat} (h : 256 ^ k ≤ n) : k < (digits n).length := by
  have hlt := beNat_lt (digits n)
  rw [beNat_digits] at hlt
  exact (Nat.pow_lt_pow_iff_right (by decide)).mp (lt_of_le_of_lt h hlt)

/-- A length below 56 in one byte, a longer one behind the number of its digits. -/
def writeHeader (offset n : Nat) : List UInt8 :=
  if n < 56 then [UInt8.ofNat (offset + n)]
  else UInt8.ofNat (offset + 55 + (digits n).length) :: digits n

/-- The digits of a length that needs them. -/
def readLong (k : Nat) (b : List UInt8) : Option (Below (2 ^ 64) × List UInt8) :=
  if h : k ≤ b.length ∧ k ≤ 8 ∧ Minimal (b.take k) ∧ 56 ≤ beNat (b.take k) then
    some (⟨beNat (b.take k), by
      have hlen : (b.take k).length ≤ 8 := by
        rw [List.length_take_of_le h.1]
        exact h.2.1
      exact lt_of_digits hlen⟩, b.drop k)
  else none

def readHeader (offset : Nat) : List UInt8 → Option (Below (2 ^ 64) × List UInt8)
  | [] => none
  | t :: b =>
    if h : offset ≤ t.toNat ∧ t.toNat - offset < 56 then
      some (⟨t.toNat - offset, h.2.trans (by decide)⟩, b)
    else if offset ≤ t.toNat then readLong (t.toNat - offset - 55) b
    else none

theorem readLong_eq_some_iff (k : Nat) (b : List UInt8) (n : Below (2 ^ 64))
    (rest : List UInt8) :
    readLong k b = some (n, rest) ↔
      56 ≤ n.val ∧ (digits n.val).length = k ∧ b = digits n.val ++ rest := by
  unfold readLong
  constructor
  · intro h
    by_cases hk : k ≤ b.length ∧ k ≤ 8 ∧ Minimal (b.take k) ∧ 56 ≤ beNat (b.take k)
    · rw [dif_pos hk] at h
      obtain ⟨rfl, rfl⟩ := Prod.mk.inj (Option.some.inj h)
      simp only [digits_beNat hk.2.2.1]
      exact ⟨hk.2.2.2, List.length_take_of_le hk.1, (List.take_append_drop k b).symm⟩
    · rw [dif_neg hk] at h
      cases h
  · intro h
    obtain ⟨hbig, rfl, rfl⟩ := h
    have htake : (digits n.val ++ rest).take (digits n.val).length = digits n.val :=
      List.take_left
    have hlen : (digits n.val).length ≤ 8 := digits_length_le 8 n.property
    rw [dif_pos ⟨by simp, hlen, by rw [htake]; exact digits_minimal _, by
      rw [htake, beNat_digits]
      exact hbig⟩]
    simp only [htake, beNat_digits, List.drop_left]

/-- Both kinds of header leave room for the lengths of eight bytes. -/
def header (offset : Nat) (hoffset : offset + 63 < 256) : Format (Below (2 ^ 64)) where
  write n := writeHeader offset n.val
  read := readHeader offset
  read_iff b n rest := by
    unfold writeHeader
    constructor
    · intro h
      cases b with
      | nil => cases h
      | cons t b =>
        have ht := t.toNat_lt
        rw [readHeader] at h
        by_cases hshort : offset ≤ t.toNat ∧ t.toNat - offset < 56
        · rw [dif_pos hshort] at h
          obtain ⟨rfl, rfl⟩ := Prod.mk.inj (Option.some.inj h)
          have hsum : offset + (t.toNat - offset) = t.toNat := by omega
          simp only [if_pos hshort.2, hsum, UInt8.ofNat_toNat]
          rfl
        · rw [dif_neg hshort] at h
          split at h
          · rename_i hle
            obtain ⟨hbig, hlen, rfl⟩ := (readLong_eq_some_iff _ _ _ _).mp h
            have hsum : offset + 55 + (digits n.val).length = t.toNat := by
              rw [hlen]
              omega
            rw [if_neg (by omega), hsum, UInt8.ofNat_toNat]
            rfl
          · cases h
    · intro h
      subst h
      split
      · rename_i hsmall
        have htag : (UInt8.ofNat (offset + n.val)).toNat = offset + n.val := by
          rw [UInt8.toNat_ofNat']
          omega
        have hsub : offset + n.val - offset = n.val := Nat.add_sub_cancel_left _ _
        rw [List.singleton_append, readHeader]
        simp only [htag, hsub]
        rw [dif_pos ⟨Nat.le_add_right _ _, hsmall⟩]
      · rename_i hbig
        have hlen : (digits n.val).length ≤ 8 := digits_length_le 8 n.property
        have hpos : 0 < (digits n.val).length :=
          lt_digits_length (by rw [pow_zero]; omega)
        have htag : (UInt8.ofNat (offset + 55 + (digits n.val).length)).toNat =
            offset + 55 + (digits n.val).length := by
          rw [UInt8.toNat_ofNat']
          omega
        have hsub : offset + 55 + (digits n.val).length - offset - 55 = (digits n.val).length := by
          omega
        rw [List.cons_append, readHeader]
        simp only [htag]
        rw [dif_neg (by omega), if_pos (by omega), hsub]
        exact (readLong_eq_some_iff _ _ _ _).mpr ⟨by omega, rfl, rfl⟩

theorem writeHeader_length_le (offset : Nat) {n : Nat} (h : n < 2 ^ 64) :
    (writeHeader offset n).length ≤ 9 := by
  unfold writeHeader
  split
  · simp
  · have hlen : (digits n).length ≤ 8 := digits_length_le 8 h
    rw [List.length_cons]
    omega

abbrev Payload := { b : List UInt8 // b.length < 2 ^ 64 }

/-- One byte below 80 stands for itself. -/
def Single (b : List UInt8) : Prop := b.length = 1 ∧ b.getD 0 0 < 0x80

instance (b : List UInt8) : Decidable (Single b) := inferInstanceAs (Decidable (_ ∧ _))

def headed : Format Payload := (header 0x80 (by decide)).counted Format.byte

theorem write_headed (b : Payload) :
    headed.write b = writeHeader 0x80 b.val.length ++ b.val :=
  Format.write_counted_byte _ b

/-- What has a header does not begin with a byte below 80. -/
theorem headed_tag {b : Payload} {t : UInt8} {rest rest' : List UInt8}
    (h : t :: rest = headed.write b ++ rest') : ¬ t < 0x80 := by
  rw [write_headed, writeHeader] at h
  rw [UInt8.lt_iff_toNat_lt]
  change ¬ t.toNat < 128
  split at h
  · obtain ⟨rfl, -⟩ := List.cons.inj h
    rw [UInt8.toNat_ofNat']
    omega
  · have hlen : (digits b.val.length).length ≤ 8 := digits_length_le 8 b.property
    obtain ⟨rfl, -⟩ := List.cons.inj h
    rw [UInt8.toNat_ofNat']
    omega

def readString : List UInt8 → Option (Payload × List UInt8)
  | [] => none
  | t :: rest =>
    if t < 0x80 then some (⟨[t], by simp⟩, rest)
    else match headed.read (t :: rest) with
      | some (b, rest) => if Single b.val then none else some (b, rest)
      | none => none

def string : Format Payload where
  write b := if Single b.val then b.val else headed.write b
  read := readString
  read_iff b c rest := by
    constructor
    · intro h
      cases b with
      | nil => cases h
      | cons t b =>
        rw [readString] at h
        by_cases ht : t < 0x80
        · rw [if_pos ht] at h
          obtain ⟨rfl, rfl⟩ := Prod.mk.inj (Option.some.inj h)
          rw [if_pos ⟨rfl, ht⟩]
          rfl
        · rw [if_neg ht] at h
          split at h
          · rename_i c' rest' hread
            split at h
            · cases h
            · rename_i hsingle
              obtain ⟨rfl, rfl⟩ := Prod.mk.inj (Option.some.inj h)
              rw [if_neg hsingle]
              exact (headed.read_iff _ _ _).mp hread
          · cases h
    · intro h
      subst h
      split
      · rename_i hsingle
        obtain ⟨⟨c, hc⟩, hlen, htag⟩ := c, hsingle
        obtain ⟨t, rfl⟩ := List.length_eq_one_iff.mp hlen
        exact if_pos htag
      · rename_i hsingle
        cases hcons : headed.write c ++ rest with
        | nil =>
          have hlen := congrArg List.length hcons
          rw [write_headed, writeHeader] at hlen
          split at hlen
          · simp at hlen
          · simp at hlen
        | cons t b =>
          have htag := headed_tag hcons.symm
          have hread := headed.read_write c rest
          rw [hcons] at hread
          rw [readString, if_neg htag, hread]
          exact if_neg hsingle

theorem write_string_length_le (b : Payload) : (string.write b).length ≤ b.val.length + 9 := by
  change (if Single b.val then b.val else headed.write b).length ≤ _
  split
  · exact Nat.le_add_right _ _
  · have hheader := writeHeader_length_le 0x80 b.property
    rw [write_headed, List.length_append]
    omega

/-- Numbers of at most `k` bytes. -/
def number (k : Nat) (hk : k < 2 ^ 64) : Format (Below (256 ^ k)) :=
  (string.refine fun b => b.val.length ≤ k ∧ Minimal b.val).iso
    (fun b => ⟨beNat b.val.val, lt_of_digits b.property.1⟩)
    (fun n => ⟨⟨digits n.val, (digits_length_le k n.property).trans_lt hk⟩,
      digits_length_le k n.property, digits_minimal n.val⟩)
    (fun b => Subtype.ext (Subtype.ext (digits_beNat b.property.2)))
    (fun n => Subtype.ext (beNat_digits n.val))

theorem write_number_length_le (k : Nat) (hk : k < 2 ^ 64) (n : Below (256 ^ k)) :
    ((number k hk).write n).length ≤ k + 9 := by
  have hlen := write_string_length_le
    ⟨digits n.val, (digits_length_le k n.property).trans_lt hk⟩
  exact hlen.trans (Nat.add_le_add_right (digits_length_le k n.property) 9)

/-- Whatever `F` writes, as the payload of a list. -/
def list {α : Type} (F : Format α) : Format { a : α // (F.write a).length < 2 ^ 64 } :=
  F.sized (header 0xC0 (by decide))

/-- What `list` writes for a payload. -/
def writeList (payload : List UInt8) : List UInt8 := writeHeader 0xC0 payload.length ++ payload

end Rlp
