import YubiWallet.Lib.Format

/-! Positive integers and pairs of them in DER, with lengths below 128. -/
namespace Der
open Endian

/-- The bytes of a number, as few as its value and a clear sign bit allow. -/
def content (n : Nat) : List UInt8 :=
  if n < 128 then [UInt8.ofNat n] else content (n / 256) ++ [UInt8.ofNat n]
termination_by n
decreasing_by exact Nat.div_lt_self (by omega) (by decide)

theorem content_of_lt {n : Nat} (h : n < 128) : content n = [UInt8.ofNat n] := by
  rw [content, if_pos h]

theorem content_of_le {n : Nat} (h : 128 ≤ n) :
    content n = content (n / 256) ++ [UInt8.ofNat n] := by
  rw [content, if_neg (not_lt.mpr h)]

theorem beNat_content (n : Nat) : beNat (content n) = n := by
  induction n using Nat.strongRecOn with
  | ind n ih =>
    by_cases h : n < 128
    · rw [content_of_lt h]
      simp [beNat]
      omega
    · rw [content_of_le (not_lt.mp h), beNat_concat,
        ih (n / 256) (Nat.div_lt_self (by omega) (by decide)), UInt8.toNat_ofNat']
      omega

/-- The rules of the encoding: at least one byte, no sign bit, and no zero in front that the
sign bit does not ask for. -/
def Minimal (c : List UInt8) : Prop :=
  ∃ x cs, c = x :: cs ∧ x < 128 ∧ (x = 0 → ∀ y ys, cs = y :: ys → 128 ≤ y)

theorem content_length_le (k : Nat) {n : Nat} (h : n < 128 * 256 ^ k) :
    (content n).length ≤ k + 1 := by
  induction k generalizing n with
  | zero =>
    rw [content_of_lt (by simpa using h)]
    simp
  | succ k ih =>
    by_cases hn : n < 128
    · rw [content_of_lt hn]
      simp
    · have hdiv : n / 256 < 128 * 256 ^ k := by
        rw [Nat.div_lt_iff_lt_mul (by decide), mul_assoc, ← pow_succ]
        exact h
      have hlen := ih hdiv
      rw [content_of_le (not_lt.mp hn), List.length_append, List.length_singleton]
      omega

theorem content_minimal (n : Nat) : Minimal (content n) := by
  induction n using Nat.strongRecOn with
  | ind n ih =>
    by_cases h : n < 128
    · rw [content_of_lt h]
      refine ⟨_, [], rfl, ?_, fun _ y ys hnil => nomatch hnil⟩
      rw [UInt8.lt_iff_toNat_lt, UInt8.toNat_ofNat']
      change n % 256 < 128
      omega
    · obtain ⟨x, cs, hcs, hx, hzero⟩ := ih (n / 256) (Nat.div_lt_self (by omega) (by decide))
      have hvalue := beNat_content (n / 256)
      rw [content_of_le (not_lt.mp h), hcs]
      refine ⟨x, cs ++ [UInt8.ofNat n], rfl, hx, fun hx0 y ys hcons => ?_⟩
      cases cs with
      | cons z zs =>
        obtain ⟨rfl, -⟩ : z = y ∧ zs ++ [UInt8.ofNat n] = ys := by simpa using hcons
        exact hzero hx0 z zs rfl
      | nil =>
        obtain ⟨rfl, -⟩ : UInt8.ofNat n = y ∧ [] = ys := by simpa using hcons
        rw [hcs, hx0] at hvalue
        have hdiv : n / 256 = 0 := hvalue.symm
        rw [UInt8.le_iff_toNat_le, UInt8.toNat_ofNat']
        change 128 ≤ n % 256
        omega

/-- No other bytes obey the rules. -/
theorem content_beNat {c : List UInt8} (h : Minimal c) : content (beNat c) = c := by
  induction c using List.reverseRecOn with
  | nil =>
    obtain ⟨x, cs, hnil, -⟩ := h
    cases hnil
  | append_singleton cs y ih =>
    obtain ⟨x, cs', hcons, hx, hzero⟩ := h
    have hy := y.toNat_lt
    rw [beNat_concat]
    cases cs with
    | nil =>
      obtain ⟨rfl, rfl⟩ : y = x ∧ [] = cs' := by simpa using hcons
      have hx128 : y.toNat < 128 := UInt8.lt_iff_toNat_lt.mp hx
      rw [beNat_nil, Nat.zero_mul, Nat.zero_add, content_of_lt hx128, UInt8.ofNat_toNat]
      rfl
    | cons z zs =>
      obtain ⟨rfl, rfl⟩ : z = x ∧ zs ++ [y] = cs' := by simpa using hcons
      have hfront : Minimal (z :: zs) := by
        refine ⟨z, zs, rfl, hx, fun hz0 u us hzs => ?_⟩
        exact hzero hz0 u (us ++ [y]) (by rw [hzs]; rfl)
      have hrec := ih hfront
      -- the value is at least 128, by the first byte or by the rule for a zero in front
      have hbig : 128 ≤ beNat (z :: zs) * 256 + y.toNat := by
        by_cases hfirst : beNat (z :: zs) = 0
        · have hzs : z :: zs = [0] := by
            rw [← hrec, hfirst, content_of_lt (by decide)]
            rfl
          obtain ⟨rfl, rfl⟩ := List.cons.inj hzs
          have hle := UInt8.le_iff_toNat_le.mp (hzero rfl y [] rfl)
          change 128 ≤ y.toNat at hle
          omega
        · omega
      have hdiv : (beNat (z :: zs) * 256 + y.toNat) / 256 = beNat (z :: zs) := by omega
      have hmod : UInt8.ofNat (beNat (z :: zs) * 256 + y.toNat) = y := by
        apply UInt8.toNat_inj.mp
        rw [UInt8.toNat_ofNat']
        omega
      rw [content_of_le hbig, hdiv, hmod, hrec]

instance (c : List UInt8) : Decidable (Minimal c) :=
  match c with
  | [] => isFalse fun ⟨_, _, h, _⟩ => nomatch h
  | [x] => decidable_of_iff (x < 128)
      ⟨fun h => ⟨x, [], rfl, h, fun _ _ _ hnil => nomatch hnil⟩, fun ⟨_, _, h, hx, _⟩ => by
        obtain ⟨rfl, rfl⟩ := List.cons.inj h
        exact hx⟩
  | x :: y :: ys => decidable_of_iff (x < 128 ∧ (x = 0 → 128 ≤ y))
      ⟨fun h => ⟨x, y :: ys, rfl, h.1, fun hx0 _ _ hcons => (List.cons.inj hcons).1 ▸ h.2 hx0⟩,
        fun ⟨_, _, h, hx, hzero⟩ => by
          obtain ⟨rfl, rfl⟩ := List.cons.inj h
          exact ⟨hx, fun hx0 => hzero hx0 y ys rfl⟩⟩

/-- A short length: one byte below 128. -/
def shortLength : Format (Below 128) :=
  (Format.byte.refine fun x => x.toNat < 128).iso (fun x => ⟨x.val.toNat, x.property⟩)
    (fun n => ⟨UInt8.ofNat n.val, by
      rw [UInt8.toNat_ofNat']
      have hn := n.property
      omega⟩)
    (fun x => Subtype.ext UInt8.ofNat_toNat)
    (fun n => Subtype.ext <| by
      have hn := n.property
      simp only [UInt8.toNat_ofNat']
      omega)

/-- Numbers whose encoding has a short length. -/
abbrev ShortInt := { n : Nat // (content n).length < 128 }

def minimalBytes : Format { c : { c : List UInt8 // c.length < 128 } // Minimal c.val } :=
  (shortLength.counted Format.byte).refine fun c => Minimal c.val

def integer : Format ShortInt :=
  ((Format.marker [0x02]).pair minimalBytes).iso
    (fun x => ⟨beNat x.2.val.val, by
      rw [content_beNat x.2.property]
      exact x.2.val.property⟩)
    (fun n => ((), ⟨⟨content n.val, n.property⟩, content_minimal n.val⟩))
    (fun x => Prod.ext rfl (Subtype.ext (Subtype.ext (content_beNat x.2.property))))
    (fun n => Subtype.ext (beNat_content n.val))

theorem write_integer (n : ShortInt) :
    integer.write n = 0x02 :: UInt8.ofNat (content n.val).length :: content n.val :=
  congrArg (0x02 :: ·) (Format.write_counted_byte shortLength ⟨content n.val, n.property⟩)

/-- A pair of numbers, as a sequence. -/
abbrev ShortPair :=
  { x : ShortInt × ShortInt // ((integer.pair integer).write x).length < 128 }

def sequence : Format ShortPair :=
  ((Format.marker [0x30]).pair ((integer.pair integer).sized shortLength)).iso
    (fun x => x.2) (fun x => ((), x)) (fun _ => rfl) fun _ => rfl

theorem write_sequence (x : ShortPair) :
    sequence.write x = 0x30 :: UInt8.ofNat ((integer.pair integer).write x.val).length ::
      (integer.write x.val.1 ++ integer.write x.val.2) := rfl

end Der
