import Mathlib.Algebra.Field.ZMod
import Mathlib.Algebra.Module.Basic
import Mathlib.Data.List.Prime
import Mathlib.NumberTheory.LucasPrimality

/-! Recovery of a public key from an ECDSA signature, over a group whose order is prime. -/
namespace Ecdsa

section Recovery
variable {F G : Type*} [Field F] [AddCommGroup G] [Module F G]

/-- A group of points with its generator. The points with the x-coordinate `x` are
told apart by the parity of `y`; there are two of them, opposite to each other, or none. -/
structure Curve (F G : Type*) [Field F] [AddCommGroup G] [Module F G] where
  generator : G
  lift : F → Bool → Option G
  lift_not : ∀ x odd, lift x (!odd) = (lift x odd).map fun R => -R
  lift_ne_zero : ∀ x odd R, lift x odd = some R → R ≠ 0

namespace Curve
variable (C : Curve F G)

/-- `r⁻¹(sR - zG)` for the point `R` that `r` and the parity give. -/
def candidate (z r s : F) (R : G) : G := r⁻¹ • (s • R - z • C.generator)

/-- The recovered key; the neutral element is not one. -/
def recover [DecidableEq G] (z r s : F) (odd : Bool) : Option G :=
  (C.lift r odd).bind fun R =>
    if C.candidate z r s R = 0 then none else some (C.candidate z r s R)

theorem candidate_neg (z r s : F) (R : G) : C.candidate z r (-s) (-R) = C.candidate z r s R := by
  rw [candidate, candidate, neg_smul_neg]

/-- The candidates of the two points with one x-coordinate are different. -/
theorem candidate_ne {z r s : F} {R : G} (hr : r ≠ 0) (hs : s ≠ 0) (h2 : (2 : F) ≠ 0)
    (hR : R ≠ 0) : C.candidate z r s R ≠ C.candidate z r s (-R) := by
  intro heq
  have hinner : s • R - z • C.generator = s • -R - z • C.generator :=
    smul_right_injective G (inv_ne_zero hr) heq
  have hopposite : s • R = s • -R := sub_left_injective hinner
  have htwice : ((2 : F) * s) • R = 0 := by
    rw [mul_smul, two_smul]
    nth_rewrite 2 [hopposite]
    rw [smul_neg, add_neg_cancel]
  cases smul_eq_zero.mp htwice with
  | inl hzero => exact mul_ne_zero h2 hs hzero
  | inr hzero => exact hR hzero

/-- Without division: a candidate is the key that satisfies the signature's equation. -/
theorem candidate_eq_iff {z r s : F} {R q : G} (hr : r ≠ 0) :
    C.candidate z r s R = q ↔ s • R - z • C.generator = r • q := by
  rw [candidate, inv_smul_eq_iff₀ hr]

variable [DecidableEq G]

theorem recover_eq_some_iff {z r s : F} {odd : Bool} {q : G} :
    C.recover z r s odd = some q ↔
      ∃ R, C.lift r odd = some R ∧ C.candidate z r s R = q ∧ q ≠ 0 := by
  unfold recover
  cases C.lift r odd with
  | none => simp
  | some R =>
    by_cases hzero : C.candidate z r s R = 0
    · simp only [Option.bind_some, if_pos hzero]
      constructor
      · intro h
        cases h
      · rintro ⟨_, ⟨⟩, rfl, hq⟩
        exact absurd hzero hq
    · simp only [Option.bind_some, if_neg hzero, Option.some.injEq]
      constructor
      · rintro rfl
        exact ⟨R, rfl, rfl, hzero⟩
      · rintro ⟨_, rfl, rfl, -⟩
        rfl

/-- Negating `s` exchanges the two recovery ids. -/
theorem recover_neg (z r s : F) (odd : Bool) :
    C.recover z r (-s) (!odd) = C.recover z r s odd := by
  unfold recover
  rw [C.lift_not]
  cases C.lift r odd with
  | none => rfl
  | some R => simp only [Option.map_some, Option.bind_some, candidate_neg]

/-- A key is recovered by at most one of the two recovery ids. -/
theorem recover_unique {z r s : F} {q : G} (hr : r ≠ 0) (hs : s ≠ 0) (h2 : (2 : F) ≠ 0)
    {odd odd' : Bool} (h : C.recover z r s odd = some q) (h' : C.recover z r s odd' = some q) :
    odd = odd' := by
  by_contra hne
  obtain rfl : odd' = !odd := by
    cases odd <;> cases odd' <;> first | rfl | exact absurd rfl hne
  obtain ⟨R, hR, hq, -⟩ := C.recover_eq_some_iff.mp h
  obtain ⟨R', hR', hq', -⟩ := C.recover_eq_some_iff.mp h'
  rw [C.lift_not, hR] at hR'
  obtain rfl : -R = R' := Option.some.inj hR'
  exact C.candidate_ne hr hs h2 (C.lift_ne_zero r odd R hR) (hq.trans hq'.symm)

end Curve
end Recovery

/-- Lucas's test, with the prime factors of `p - 1` in a list. -/
theorem prime_of_factors {p : Nat} (a : ZMod p) (qs : List Nat) (hprime : ∀ q ∈ qs, q.Prime)
    (hprod : qs.prod = p - 1) (hpow : a ^ (p - 1) = 1)
    (hdiv : ∀ q ∈ qs, a ^ ((p - 1) / q) ≠ 1) : p.Prime := by
  apply lucas_primality p a hpow
  intro q hq hdvd
  apply hdiv
  apply mem_list_primes_of_dvd_prod hq.prime (fun x hx => (hprime x hx).prime)
  rwa [hprod]

/-- Modulo an odd prime, the two square roots of a number have different parities. -/
theorem root_unique {p : Nat} (hp : p.Prime) (hodd : p % 2 = 1) {y y' : Nat} (hy : y < p)
    (hy' : y' < p) (hsq : y ^ 2 % p = y' ^ 2 % p) (hparity : y % 2 = y' % 2) : y = y' := by
  wlog hle : y' ≤ y generalizing y y'
  · exact (this hy' hy hsq.symm hparity.symm (by omega)).symm
  have hdvd : p ∣ (y + y') * (y - y') := by
    rw [← Nat.sq_sub_sq]
    exact (Nat.modEq_iff_dvd' (Nat.pow_le_pow_left hle 2)).mp hsq.symm
  cases hp.dvd_mul.mp hdvd with
  | inl hsum =>
    -- the sum is even and below `2 * p`, so it is zero
    obtain ⟨k, hk⟩ := hsum
    have hk2 : k < 2 := by
      by_contra hge
      have hmul : p * 2 ≤ p * k := Nat.mul_le_mul_left p (by omega)
      omega
    interval_cases k <;> omega
  | inr hdiff =>
    have hzero := Nat.eq_zero_of_dvd_of_lt hdiff (by omega)
    omega

end Ecdsa
