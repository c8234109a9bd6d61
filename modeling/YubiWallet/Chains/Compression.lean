import YubiWallet.Chains.BitcoinSpend
import YubiWallet.Secp256k1

/-! The compressed form of a key is that of no other key: the field of the coordinates is a
prime field, so that X leaves two values for Y, of different parities. -/
namespace YubiWallet.Secp256k1
open Endian

/-- The field has prime order by Lucas's test, as have the large factors below it. -/
theorem prime_field1 : Nat.Prime 173378833005251801 := by
  apply Ecdsa.prime_of_factors 6 [2, 2, 2, 5, 5, 2621, 24809, 13331831]
  · simp only [List.forall_mem_cons, List.not_mem_nil, false_imp_iff, implies_true, and_true]
    norm_num
  · norm_num
  · simp only [Nat.reduceSub]
    reduce_mod_char
  · simp only [List.forall_mem_cons, List.not_mem_nil, false_imp_iff, implies_true, and_true,
      and_self_left, Nat.reduceSub, Nat.reduceDiv]
    refine ⟨?_, ?_, ?_, ?_, ?_⟩ <;> reduce_mod_char <;> decide

theorem prime_field2 : Nat.Prime 22149492674086928081353 := by
  apply Ecdsa.prime_of_factors 5 [2, 2, 2, 3, 5323, 173378833005251801]
  · simp only [List.forall_mem_cons, List.not_mem_nil, false_imp_iff, implies_true, and_true,
      prime_field1]
    norm_num
  · norm_num
  · simp only [Nat.reduceSub]
    reduce_mod_char
  · simp only [List.forall_mem_cons, List.not_mem_nil, false_imp_iff, implies_true, and_true,
      and_self_left, Nat.reduceSub, Nat.reduceDiv]
    refine ⟨?_, ?_, ?_, ?_⟩ <;> reduce_mod_char <;> decide

theorem prime_field3 : Nat.Prime 132896956044521568488119 := by
  apply Ecdsa.prime_of_factors 6 [2, 3, 22149492674086928081353]
  · simp only [List.forall_mem_cons, List.not_mem_nil, false_imp_iff, implies_true, and_true,
      prime_field2]
    norm_num
  · norm_num
  · simp only [Nat.reduceSub]
    reduce_mod_char
  · simp only [List.forall_mem_cons, List.not_mem_nil, false_imp_iff, implies_true, and_true,
      Nat.reduceSub, Nat.reduceDiv]
    refine ⟨?_, ?_, ?_⟩ <;> reduce_mod_char <;> decide

theorem prime_field4 : Nat.Prime 255515944373312847190720520512484175977 := by
  apply Ecdsa.prime_of_factors 3 [2, 2, 2, 7, 7, 11, 1627, 2657, 4423, 41201, 96557, 7240687, 107590001]
  · simp only [List.forall_mem_cons, List.not_mem_nil, false_imp_iff, implies_true, and_true]
    norm_num
  · norm_num
  · simp only [Nat.reduceSub]
    reduce_mod_char
  · simp only [List.forall_mem_cons, List.not_mem_nil, false_imp_iff, implies_true, and_true,
      and_self_left, Nat.reduceSub, Nat.reduceDiv]
    refine ⟨?_, ?_, ?_, ?_, ?_, ?_, ?_, ?_, ?_, ?_⟩ <;> reduce_mod_char <;> decide

theorem prime_field5 : Nat.Prime 205115282021455665897114700593932402728804164701536103180137503955397371 := by
  apply Ecdsa.prime_of_factors 10 [2, 3, 5, 29, 29, 31, 7723, 132896956044521568488119, 255515944373312847190720520512484175977]
  · simp only [List.forall_mem_cons, List.not_mem_nil, false_imp_iff, implies_true, and_true,
      prime_field3, prime_field4]
    norm_num
  · norm_num
  · simp only [Nat.reduceSub]
    reduce_mod_char
  · simp only [List.forall_mem_cons, List.not_mem_nil, false_imp_iff, implies_true, and_true,
      and_self_left, Nat.reduceSub, Nat.reduceDiv]
    refine ⟨?_, ?_, ?_, ?_, ?_, ?_, ?_, ?_⟩ <;> reduce_mod_char <;> decide

theorem p_prime : p.Prime := by
  unfold p
  apply Ecdsa.prime_of_factors 3 [2, 3, 7, 13441, 205115282021455665897114700593932402728804164701536103180137503955397371]
  · simp only [List.forall_mem_cons, List.not_mem_nil, false_imp_iff, implies_true, and_true,
      prime_field5]
    norm_num
  · norm_num
  · simp only [Nat.reduceSub]
    reduce_mod_char
  · simp only [List.forall_mem_cons, List.not_mem_nil, false_imp_iff, implies_true, and_true,
      Nat.reduceSub, Nat.reduceDiv]
    refine ⟨?_, ?_, ?_, ?_, ?_⟩ <;> reduce_mod_char <;> decide

end YubiWallet.Secp256k1

namespace YubiWallet.Chains.Bitcoin
open Endian
open Secp256k1 (OnCurve pointX pointY)

/-- An uncompressed point of the curve. -/
structure Point (pk : Bytes) : Prop where
  length : pk.length = 65
  head : pk.getD 0 0 = 0x04
  onCurve : OnCurve pk

/-- The parity of Y is that of its last byte. -/
theorem parity_last {pk : Bytes} {last : UInt8} (hlen : pk.length = 65) (hlast : pk[64]? = some last) :
    last &&& 1 = 0 ↔ pointY pk % 2 = 0 := by
  have hsplit : pk.drop 33 = (pk.drop 33).take 31 ++ [last] := by
    have hend : pk.drop 64 = [last] := by
      rw [List.drop_eq_getElem_cons (by omega), List.drop_of_length_le (by omega)]
      exact congrArg (· :: []) (Option.some.inj ((List.getElem?_eq_getElem _).symm.trans hlast))
    calc pk.drop 33 = (pk.drop 33).take 31 ++ (pk.drop 33).drop 31 :=
          (List.take_append_drop 31 _).symm
      _ = (pk.drop 33).take 31 ++ [last] := by rw [List.drop_drop, hend]
  have hbit : ∀ n : Fin 256, UInt8.ofNat n &&& 1 = 0 ↔ n.val % 2 = 0 := by
    decide +kernel
  have hlow := hbit ⟨last.toNat, last.toNat_lt⟩
  rw [UInt8.ofNat_toNat] at hlow
  rw [hlow, pointY, hsplit, beNat_concat]
  simp only
  omega

theorem compress_eq {pk : Bytes} (hlen : pk.length = 65) :
    compress pk = .ok ((if pointY pk % 2 = 0 then 0x02 else 0x03) :: (pk.drop 1).take 32) := by
  have hlast : pk[64]? = some pk[64] := List.getElem?_eq_getElem (by omega)
  rw [compress, hlast]
  simp only [parity_last hlen hlast]

/-- A point is its first byte, X and Y. -/
theorem Point.ext {pk pk' : Bytes} (h : Point pk) (h' : Point pk')
    (hx : (pk.drop 1).take 32 = (pk'.drop 1).take 32) (hy : pointY pk = pointY pk') : pk = pk' := by
  have hparts : ∀ {b : Bytes}, Point b →
      b = 0x04 :: ((b.drop 1).take 32 ++ beBytes 32 (pointY b)) := by
    intro b hb
    have hlen := hb.length
    have hy : beBytes 32 (pointY b) = b.drop 33 := by
      have hbytes := beBytes_beNat (b.drop 33)
      rwa [List.length_drop, hlen] at hbytes
    cases b with
    | nil => cases hlen
    | cons x b =>
      obtain rfl : x = 0x04 := hb.head
      rw [hy]
      exact congrArg (0x04 :: ·) (List.take_append_drop 32 b).symm
  rw [hparts h, hparts h', hx, hy]

/-- Keys of the curve with the same compressed form are the same key. -/
theorem compress_eq_iff {pk pk' : Bytes} (h : Point pk) (h' : Point pk') :
    compress pk = compress pk' ↔ pk = pk' := by
  constructor
  · intro heq
    rw [compress_eq h.length, compress_eq h'.length] at heq
    obtain ⟨hparity, hx⟩ := List.cons.inj (Except.ok.inj heq)
    have hpointX : pointX pk = pointX pk' := congrArg beNat hx
    obtain ⟨-, hlt, hsq⟩ := h.onCurve
    obtain ⟨-, hlt', hsq'⟩ := h'.onCurve
    rw [hpointX, ← hsq'] at hsq
    refine h.ext h' hx (Ecdsa.root_unique Secp256k1.p_prime (by decide) hlt hlt' hsq ?_)
    split_ifs at hparity with heven heven'
    · omega
    · cases hparity
    · cases hparity
    · omega
  · intro heq
    rw [heq]

/-- The generator, and the key opposite to it. -/
def generator : Bytes :=
  0x04 :: beBytes 32 0x79be667ef9dcbbac55a06295ce870b07029bfcdb2dce28d959f2815b16f81798 ++
    beBytes 32 0x483ada7726a3c4655da4fbfc0e1108a8fd17b448a68554199c47d08ffb10d4b8

def opposite : Bytes :=
  0x04 :: beBytes 32 0x79be667ef9dcbbac55a06295ce870b07029bfcdb2dce28d959f2815b16f81798 ++
    beBytes 32 0xb7c52588d95c3b9aa25b0403f1eef75702e84bb7597aabe663b82f6f04ef2777

theorem compress_eq_iff_opposite : compress generator = compress opposite ↔ generator = opposite :=
  compress_eq_iff ⟨by decide +kernel, by decide +kernel, by decide +kernel⟩
    ⟨by decide +kernel, by decide +kernel, by decide +kernel⟩

end YubiWallet.Chains.Bitcoin
