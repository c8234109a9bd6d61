import YubiWallet.Eth
import YubiWallet.Lib.Ecdsa
import Mathlib.Tactic.NormNum.Prime
import Mathlib.Tactic.ReduceModChar

/-! The curve secp256k1: the equation of its points and the order of its group. -/
namespace YubiWallet.Secp256k1
open Endian

/-- The prime of the coordinates. -/
def p : Nat := 0xFFFFFFFFFFFFFFFFFFFFFFFFFFFFFFFFFFFFFFFFFFFFFFFFFFFFFFFEFFFFFC2F

def pointX (pk : Bytes) : Nat := beNat ((pk.drop 1).take 32)
def pointY (pk : Bytes) : Nat := beNat (pk.drop 33)

/-- The coordinates of `04 || X || Y` are those of a point of the curve. -/
def OnCurve (pk : Bytes) : Prop :=
  pointX pk < p ∧ pointY pk < p ∧ pointY pk ^ 2 % p = (pointX pk ^ 3 + 7) % p

instance (pk : Bytes) : Decidable (OnCurve pk) :=
  inferInstanceAs (Decidable (_ ∧ _ ∧ _))

/-- The order is prime by Lucas's test, as are the large factors below it. -/
theorem prime_factor1 : Nat.Prime 107361793816595537 := by
  apply Ecdsa.prime_of_factors 3 [2, 2, 2, 2, 16699, 85831, 4681609]
  · simp only [List.forall_mem_cons, List.not_mem_nil, false_imp_iff, implies_true, and_true]
    norm_num
  · norm_num
  · simp only [Nat.reduceSub]
    reduce_mod_char
  · simp only [List.forall_mem_cons, List.not_mem_nil, false_imp_iff, implies_true, and_true,
      and_self_left, Nat.reduceSub, Nat.reduceDiv]
    refine ⟨?_, ?_, ?_, ?_⟩ <;> reduce_mod_char <;> decide

theorem prime_factor2 : Nat.Prime 174723607534414371449 := by
  apply Ecdsa.prime_of_factors 3 [2, 2, 2, 17, 59, 4051, 120233, 44706919]
  · simp only [List.forall_mem_cons, List.not_mem_nil, false_imp_iff, implies_true, and_true]
    norm_num
  · norm_num
  · simp only [Nat.reduceSub]
    reduce_mod_char
  · simp only [List.forall_mem_cons, List.not_mem_nil, false_imp_iff, implies_true, and_true,
      and_self_left, Nat.reduceSub, Nat.reduceDiv]
    refine ⟨?_, ?_, ?_, ?_, ?_, ?_⟩ <;> reduce_mod_char <;> decide

theorem prime_factor3 : Nat.Prime 545358713 := by
  apply Ecdsa.prime_of_factors 5 [2, 2, 2, 41, 59, 28181]
  · simp only [List.forall_mem_cons, List.not_mem_nil, false_imp_iff, implies_true, and_true]
    norm_num
  · norm_num
  · simp only [Nat.reduceSub]
    reduce_mod_char
  · simp only [List.forall_mem_cons, List.not_mem_nil, false_imp_iff, implies_true, and_true,
      and_self_left, Nat.reduceSub, Nat.reduceDiv]
    refine ⟨?_, ?_, ?_, ?_⟩ <;> reduce_mod_char <;> decide

theorem prime_factor4 : Nat.Prime 297159362677 := by
  apply Ecdsa.prime_of_factors 2 [2, 2, 3, 3, 11, 461, 1627771]
  · simp only [List.forall_mem_cons, List.not_mem_nil, false_imp_iff, implies_true, and_true]
    norm_num
  · norm_num
  · simp only [Nat.reduceSub]
    reduce_mod_char
  · simp only [List.forall_mem_cons, List.not_mem_nil, false_imp_iff, implies_true, and_true,
      and_self_left, Nat.reduceSub, Nat.reduceDiv]
    refine ⟨?_, ?_, ?_, ?_, ?_⟩ <;> reduce_mod_char <;> decide

theorem prime_factor5 : Nat.Prime 29047611873442575647497758179 := by
  apply Ecdsa.prime_of_factors 2 [2, 293, 305873, 545358713, 297159362677]
  · simp only [List.forall_mem_cons, List.not_mem_nil, false_imp_iff, implies_true, and_true,
      prime_factor3, prime_factor4]
    norm_num
  · norm_num
  · simp only [Nat.reduceSub]
    reduce_mod_char
  · simp only [List.forall_mem_cons, List.not_mem_nil, false_imp_iff, implies_true, and_true,
      Nat.reduceSub, Nat.reduceDiv]
    refine ⟨?_, ?_, ?_, ?_, ?_⟩ <;> reduce_mod_char <;> decide

theorem prime_factor6 : Nat.Prime 341948486974166000522343609283189 := by
  apply Ecdsa.prime_of_factors 2 [2, 2, 3, 3, 3, 109, 29047611873442575647497758179]
  · simp only [List.forall_mem_cons, List.not_mem_nil, false_imp_iff, implies_true, and_true,
      prime_factor5]
    norm_num
  · norm_num
  · simp only [Nat.reduceSub]
    reduce_mod_char
  · simp only [List.forall_mem_cons, List.not_mem_nil, false_imp_iff, implies_true, and_true,
      and_self_left, Nat.reduceSub, Nat.reduceDiv]
    refine ⟨?_, ?_, ?_, ?_⟩ <;> reduce_mod_char <;> decide

theorem n_prime : n.Prime := by
  unfold n
  apply Ecdsa.prime_of_factors 7 [2, 2, 2, 2, 2, 2, 3, 149, 631, 107361793816595537,
    174723607534414371449, 341948486974166000522343609283189]
  · simp only [List.forall_mem_cons, List.not_mem_nil, false_imp_iff, implies_true, and_true,
      prime_factor1, prime_factor2, prime_factor6]
    norm_num
  · norm_num
  · simp only [Nat.reduceSub]
    reduce_mod_char
  · simp only [List.forall_mem_cons, List.not_mem_nil, false_imp_iff, implies_true, and_true,
      and_self_left, Nat.reduceSub, Nat.reduceDiv]
    refine ⟨?_, ?_, ?_, ?_, ?_, ?_, ?_⟩ <;> reduce_mod_char <;> decide

instance : Fact n.Prime := ⟨n_prime⟩

end YubiWallet.Secp256k1
