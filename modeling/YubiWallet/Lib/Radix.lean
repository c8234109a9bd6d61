import Mathlib.Data.Nat.Digits.Lemmas

/-! Numerals, most significant digit first. Leading zeros count: a numeral is its number of
leading zeros and its value, in every base, so changing the base loses nothing. -/
namespace Radix

def value (b : Nat) (ds : List Nat) : Nat := Nat.ofDigits b ds.reverse

def zeros (ds : List Nat) : Nat := (ds.takeWhile (· = 0)).length

def numeral (b z n : Nat) : List Nat := List.replicate z 0 ++ (Nat.digits b n).reverse

/-- The same number of zeros and the same value, in another base. -/
def recode (b c : Nat) (ds : List Nat) : List Nat := numeral c (zeros ds) (value b ds)

theorem value_cons (b d : Nat) (ds : List Nat) :
    value b (d :: ds) = value b ds + b ^ ds.length * d := by
  rw [value, List.reverse_cons, Nat.ofDigits_append, Nat.ofDigits_singleton, List.length_reverse]
  rfl

theorem value_concat (b d : Nat) (ds : List Nat) : value b (ds ++ [d]) = d + b * value b ds := by
  rw [value, List.reverse_append, List.reverse_singleton, List.singleton_append, Nat.ofDigits_cons]
  rfl

theorem value_zeros_append (b z : Nat) (ds : List Nat) :
    value b (List.replicate z 0 ++ ds) = value b ds := by
  induction z with
  | zero => rfl
  | succ z ih => rw [List.replicate_succ, List.cons_append, value_cons, ih, Nat.mul_zero, Nat.add_zero]

theorem value_numeral (b z n : Nat) : value b (numeral b z n) = n := by
  rw [numeral, value_zeros_append, value, List.reverse_reverse, Nat.ofDigits_digits]

theorem zeros_cons_zero (ds : List Nat) : zeros (0 :: ds) = zeros ds + 1 := by
  simp [zeros]

theorem zeros_cons_of_ne {d : Nat} (h : d ≠ 0) (ds : List Nat) : zeros (d :: ds) = 0 := by
  simp [zeros, h]

/-- The digits of a number do not begin with zero. -/
theorem zeros_digits (b n : Nat) : zeros (Nat.digits b n).reverse = 0 := by
  cases hds : (Nat.digits b n).reverse with
  | nil => rfl
  | cons d ds =>
    refine zeros_cons_of_ne (fun hd => ?_) ds
    have hlist : Nat.digits b n = ds.reverse ++ [d] := by
      rw [← List.reverse_reverse (Nat.digits b n), hds, List.reverse_cons]
    have hn : n ≠ 0 := by
      rintro rfl
      simp at hlist
    have hlast := Nat.getLast_digit_ne_zero b hn
    rw [List.getLast_congr _ (by simp) hlist, List.getLast_append_singleton] at hlast
    exact hlast hd

theorem zeros_numeral (b z n : Nat) : zeros (numeral b z n) = z := by
  induction z with
  | zero => exact zeros_digits b n
  | succ z ih =>
    rw [numeral, List.replicate_succ, List.cons_append, zeros_cons_zero]
    exact congrArg (· + 1) ih

/-- Every list of digits is a numeral. -/
theorem numeral_zeros_value {b : Nat} (hb : 1 < b) {ds : List Nat} (h : ∀ d ∈ ds, d < b) :
    numeral b (zeros ds) (value b ds) = ds := by
  induction ds with
  | nil => simp [numeral, zeros, value]
  | cons d ds ih =>
    by_cases hd : d = 0
    · subst hd
      rw [zeros_cons_zero, value_cons, Nat.mul_zero, Nat.add_zero, numeral, List.replicate_succ,
        List.cons_append]
      exact congrArg (0 :: ·) (ih fun d' hd' => h d' (List.mem_cons_of_mem _ hd'))
    · rw [zeros_cons_of_ne hd, numeral, List.replicate_zero, List.nil_append, value]
      refine (List.reverse_eq_iff.mpr (Nat.digits_ofDigits b hb _ ?_ ?_))
      · exact fun d' hd' => h d' (List.mem_reverse.mp hd')
      · intro hne
        rwa [List.getLast_reverse, List.head_cons]

theorem numeral_lt {b : Nat} (hb : 1 < b) (z n : Nat) : ∀ d ∈ numeral b z n, d < b := by
  intro d hd
  cases List.mem_append.mp hd with
  | inl hzero =>
    rw [List.eq_of_mem_replicate hzero]
    omega
  | inr hdigit => exact Nat.digits_lt_base hb (List.mem_reverse.mp hdigit)

theorem recode_lt {c : Nat} (hc : 1 < c) (b : Nat) (ds : List Nat) : ∀ d ∈ recode b c ds, d < c :=
  numeral_lt hc _ _

/-- Back in the first base, the digits are what they were. -/
theorem recode_recode {b : Nat} (hb : 1 < b) (c : Nat) {ds : List Nat} (h : ∀ d ∈ ds, d < b) :
    recode c b (recode b c ds) = ds := by
  rw [recode, recode, zeros_numeral, value_numeral, numeral_zeros_value hb h]

end Radix
