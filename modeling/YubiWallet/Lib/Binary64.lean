import Mathlib.Algebra.Order.Field.Basic
import Mathlib.Algebra.Order.Field.Rat
import Mathlib.Data.Nat.Cast.Order.Field
import Mathlib.Data.Nat.Log
import Mathlib.Tactic.FieldSimp
import Mathlib.Tactic.Linarith
import Mathlib.Tactic.Positivity
import Mathlib.Tactic.Ring

/-! Floating-point numbers of 64 bits, with exact arithmetic on their values. A magnitude counts
units of 2^-1074, the least positive one. -/
namespace Binary64

/-- The binary places behind the point. -/
@[irreducible] def places : Nat := 1074

/-- The units in 1. -/
def scale : Nat := 2 ^ places

theorem scale_pos : 0 < scale := Nat.two_pow_pos places

/-- `mantissa * 2 ^ shift` units. Only the numbers at the lower end have a short mantissa. -/
structure Magnitude where
  mantissa : Nat
  shift : Nat
  mantissa_lt : mantissa < 2 ^ 53
  shift_le : shift ≤ 2045
  normal : shift = 0 ∨ 2 ^ 52 ≤ mantissa
deriving DecidableEq

def Magnitude.units (x : Magnitude) : Nat := x.mantissa * 2 ^ x.shift

def Magnitude.toRat (x : Magnitude) : ℚ := x.units / scale

inductive Number where
  | nan
  | infinite (negative : Bool)
  | finite (negative : Bool) (magnitude : Magnitude)
deriving DecidableEq

/-- The integer nearest to `n / d`, the even one of two. -/
def divEven (n d : Nat) : Nat :=
  if 2 * (n % d) < d ∨ 2 * (n % d) = d ∧ n / d % 2 = 0 then n / d else n / d + 1

theorem div_le_divEven (n d : Nat) : n / d ≤ divEven n d := by
  rw [divEven]
  split
  · exact Nat.le_refl _
  · exact Nat.le_succ _

theorem divEven_le (n d : Nat) : divEven n d ≤ n / d + 1 := by
  rw [divEven]
  split
  · exact Nat.le_succ _
  · exact Nat.le_refl _

/-- Half of the divisor is the most that rounding adds or takes away. -/
theorem divEven_close (n : Nat) {d : Nat} (hd : 0 < d) :
    2 * n ≤ 2 * (divEven n d * d) + d ∧ 2 * (divEven n d * d) ≤ 2 * n + d := by
  have hn := Nat.div_add_mod' n d
  have hlt := Nat.mod_lt n hd
  rw [divEven]
  split
  · omega
  · rw [Nat.add_one_mul (n / d)]
    omega

/-- How far the mantissa of 53 bits is from the unit. -/
def shiftFor (n d : Nat) : Nat := Nat.log2 (n / d) - 52

theorem lt_two_pow_shiftFor (n d : Nat) : n / d < 2 ^ 53 * 2 ^ shiftFor n d := by
  rw [← Nat.pow_add]
  refine Nat.lt_log2_self.trans_le (Nat.pow_le_pow_right Nat.two_pos ?_)
  rw [shiftFor]
  omega

theorem two_pow_shiftFor_le {n d : Nat} (h : shiftFor n d ≠ 0) :
    2 ^ 52 * 2 ^ shiftFor n d ≤ n / d := by
  have hlog : Nat.log2 (n / d) = 52 + shiftFor n d := by
    rw [shiftFor] at h ⊢
    omega
  rw [← Nat.pow_add, ← hlog]
  refine Nat.log2_self_le fun hzero => h ?_
  rw [shiftFor, hzero]
  rfl

def mantissaFor (n d : Nat) : Nat := divEven n (d * 2 ^ shiftFor n d)

theorem mantissaFor_le (n d : Nat) : mantissaFor n d ≤ 2 ^ 53 := by
  refine (divEven_le _ _).trans ?_
  rw [← Nat.div_div_eq_div_mul]
  refine Nat.succ_le_of_lt (Nat.div_lt_of_lt_mul ?_)
  exact (lt_two_pow_shiftFor n d).trans_eq (Nat.mul_comm _ _)

theorem mantissaFor_normal (n d : Nat) : shiftFor n d = 0 ∨ 2 ^ 52 ≤ mantissaFor n d := by
  by_cases h : shiftFor n d = 0
  · exact .inl h
  · refine .inr (le_trans ?_ (div_le_divEven _ _))
    rw [← Nat.div_div_eq_div_mul]
    exact (Nat.le_div_iff_mul_le (Nat.two_pow_pos _)).mpr (two_pow_shiftFor_le h)

theorem carry_lt : 2 ^ 52 < 2 ^ 53 := Nat.pow_lt_pow_right (by omega) (by omega)

/-- The number nearest to `n / d` units, the even one of two, unless it is too large. A mantissa
that is rounded up to 2^53 is one bit shorter. -/
def roundUnits (n d : Nat) : Option Magnitude :=
  if h : mantissaFor n d < 2 ^ 53 ∧ shiftFor n d ≤ 2045 then
    some ⟨mantissaFor n d, shiftFor n d, h.1, h.2, mantissaFor_normal n d⟩
  else if h : mantissaFor n d = 2 ^ 53 ∧ shiftFor n d + 1 ≤ 2045 then
    some ⟨2 ^ 52, shiftFor n d + 1, carry_lt, h.2, .inr (Nat.le_refl _)⟩
  else none

/-- The number nearest to `n / d`. -/
def round (n d : Nat) : Option Magnitude := roundUnits (n * scale) d

theorem units_of_roundUnits {n d : Nat} {x : Magnitude} (h : roundUnits n d = some x) :
    x.units = mantissaFor n d * 2 ^ shiftFor n d := by
  rw [roundUnits] at h
  split at h
  · rw [← Option.some.inj h]
    rfl
  · split at h
    · next hcarry =>
      rw [← Option.some.inj h, hcarry.1]
      change 2 ^ 52 * 2 ^ (shiftFor n d + 1) = _
      rw [← Nat.pow_add, ← Nat.pow_add]
      congr 1
      omega
    · cases h

/-- The error is half a unit, or half of the last place of the mantissa. -/
theorem roundUnits_close {n d : Nat} (hd : 0 < d) {x : Magnitude} (h : roundUnits n d = some x) :
    2 ^ 53 * n ≤ 2 ^ 53 * (x.units * d) + (n + 2 ^ 52 * d) ∧
      2 ^ 53 * (x.units * d) ≤ 2 ^ 53 * n + (n + 2 ^ 52 * d) := by
  have hclose := divEven_close n (d := d * 2 ^ shiftFor n d) (Nat.mul_pos hd (Nat.two_pow_pos _))
  have hunits : x.units * d = mantissaFor n d * (d * 2 ^ shiftFor n d) := by
    rw [units_of_roundUnits h]
    ring
  have hulp : 2 ^ 52 * (d * 2 ^ shiftFor n d) ≤ n + 2 ^ 52 * d := by
    by_cases hzero : shiftFor n d = 0
    · rw [hzero]
      omega
    · have hle := (Nat.le_div_iff_mul_le hd).mp (two_pow_shiftFor_le hzero)
      have hcomm : 2 ^ 52 * (d * 2 ^ shiftFor n d) = 2 ^ 52 * 2 ^ shiftFor n d * d := by ring
      omega
  rw [hunits, mantissaFor]
  omega

theorem log2_lt {q a b : Nat} (hq : q ≠ 0) (h : q < 2 ^ a * 2 ^ b) : Nat.log2 q < a + b := by
  rwa [Nat.log2_lt hq, Nat.pow_add]

/-- Below 2^1023 nothing is too large. -/
theorem roundUnits_exists {n d k : Nat} (hk : k ≤ 1023) (h : n / d < 2 ^ k * scale) :
    ∃ x, roundUnits n d = some x := by
  have hshift : shiftFor n d + 1 ≤ 2045 := by
    by_cases hzero : n / d = 0
    · rw [shiftFor, hzero]
      decide
    · have hlog := log2_lt hzero h
      rw [places] at hlog
      rw [shiftFor]
      omega
  rw [roundUnits]
  split
  · exact ⟨_, rfl⟩
  · next hsmall =>
    have hle := mantissaFor_le n d
    rw [dif_pos ⟨by omega, hshift⟩]
    exact ⟨_, rfl⟩

theorem round_close {n d : Nat} (hd : 0 < d) {x : Magnitude} (h : round n d = some x) :
    |x.toRat - n / d| ≤ n / d / 2 ^ 53 + 1 / scale := by
  obtain ⟨hle, hge⟩ := roundUnits_close hd h
  have hd' : (0 : ℚ) < d := Nat.cast_pos.mpr hd
  have hscale : (0 : ℚ) < scale := Nat.cast_pos.mpr scale_pos
  have hle' : (2 : ℚ) ^ 53 * (n * scale) ≤
      2 ^ 53 * (x.units * d) + (n * scale + 2 ^ 52 * d) := by exact_mod_cast hle
  have hge' : (2 : ℚ) ^ 53 * (x.units * d) ≤
      2 ^ 53 * (n * scale) + (n * scale + 2 ^ 52 * d) := by exact_mod_cast hge
  have hdiff : |(x.units : ℚ) * d - scale * n| ≤ n * scale / 2 ^ 53 + d := by
    rw [abs_sub_le_iff]
    constructor <;> linarith
  calc |x.toRat - n / d| = |(x.units : ℚ) * d - scale * n| / (scale * d) := by
        rw [Magnitude.toRat, div_sub_div _ _ hscale.ne' hd'.ne', abs_div,
          abs_of_pos (mul_pos hscale hd')]
    _ ≤ (n * scale / 2 ^ 53 + d) / (scale * d) := by gcongr
    _ = n / d / 2 ^ 53 + 1 / scale := by field_simp

theorem round_exists {n d k : Nat} (hk : k ≤ 1023) (hd : 0 < d) (h : (n / d : ℚ) < 2 ^ k) :
    ∃ x, round n d = some x := by
  refine roundUnits_exists hk ((Nat.div_lt_iff_lt_mul hd).mpr ?_)
  have hd' : (0 : ℚ) < d := Nat.cast_pos.mpr hd
  have hlt := mul_lt_mul_of_pos_right ((div_lt_iff₀ hd').mp h) (Nat.cast_pos.mpr scale_pos)
  have hcast : n * scale < 2 ^ k * d * scale := by exact_mod_cast hlt
  rwa [Nat.mul_right_comm] at hcast

def Number.ofRound (negative : Bool) : Option Magnitude → Number
  | none => .infinite negative
  | some x => .finite negative x

def Magnitude.mul (x y : Magnitude) : Option Magnitude := round (x.units * y.units) (scale * scale)

def Number.mul : Number → Number → Number
  | .nan, _ => .nan
  | _, .nan => .nan
  | .infinite s, .infinite t => .infinite (s != t)
  | .infinite s, .finite t y => if y.mantissa = 0 then .nan else .infinite (s != t)
  | .finite s x, .infinite t => if x.mantissa = 0 then .nan else .infinite (s != t)
  | .finite s x, .finite t y => .ofRound (s != t) (x.mul y)

/-- A cast to an unsigned integer: the integral part, as far as it is in the range. -/
def Number.toUnsigned (max : Nat) : Number → Nat
  | .nan => 0
  | .infinite negative => if negative then 0 else max
  | .finite negative x => if negative then 0 else min (x.units / scale) max

theorem Number.toUnsigned_le (max : Nat) (x : Number) : x.toUnsigned max ≤ max := by
  cases x with
  | nan => exact Nat.zero_le _
  | infinite negative =>
    cases negative
    · exact Nat.le_refl _
    · exact Nat.zero_le _
  | finite negative x =>
    cases negative
    · exact Nat.min_le_right _ _
    · exact Nat.zero_le _

theorem units_mul_div (x y : Magnitude) :
    ((x.units * y.units : Nat) : ℚ) / (scale * scale : Nat) = x.toRat * y.toRat := by
  rw [Magnitude.toRat, Magnitude.toRat, div_mul_div_comm, Nat.cast_mul, Nat.cast_mul]

theorem mul_close {x y z : Magnitude} (h : x.mul y = some z) :
    |z.toRat - x.toRat * y.toRat| ≤ x.toRat * y.toRat / 2 ^ 53 + 1 / scale := by
  have hclose := round_close (Nat.mul_pos scale_pos scale_pos) h
  rwa [units_mul_div] at hclose

theorem mul_exists {x y : Magnitude} {k : Nat} (hk : k ≤ 1023) (h : x.toRat * y.toRat < 2 ^ k) :
    ∃ z, x.mul y = some z := by
  refine round_exists hk (Nat.mul_pos scale_pos scale_pos) ?_
  rwa [units_mul_div]

theorem floor_close (x : Magnitude) :
    ((x.units / scale : Nat) : ℚ) ≤ x.toRat ∧ x.toRat ≤ (x.units / scale : Nat) + 1 := by
  refine ⟨Nat.cast_div_le, ?_⟩
  rw [Magnitude.toRat, div_le_iff₀ (Nat.cast_pos.mpr scale_pos)]
  have hlt := Nat.lt_mul_of_div_lt (Nat.lt_add_one (x.units / scale)) scale_pos
  exact_mod_cast Nat.le_of_lt hlt

/-- The rounding error of a factor in a product. -/
theorem factor_close {v w x : ℚ} (hw : 0 ≤ w) (hw' : 4 * w ≤ scale)
    (h : |x - v| ≤ v / 2 ^ 53 + 1 / scale) : |x * w - v * w| ≤ v * w / 2 ^ 53 + 1 / 4 := by
  have hscale : (0 : ℚ) < scale := Nat.cast_pos.mpr scale_pos
  have hpart : 1 / scale * w ≤ 1 / 4 := by
    rw [one_div_mul_eq_div, div_le_iff₀ hscale]
    linarith
  calc |x * w - v * w| = |x - v| * w := by rw [← sub_mul, abs_mul, abs_of_nonneg hw]
    _ ≤ (v / 2 ^ 53 + 1 / scale) * w := mul_le_mul_of_nonneg_right h hw
    _ = v * w / 2 ^ 53 + 1 / scale * w := by ring
    _ ≤ v * w / 2 ^ 53 + 1 / 4 := by linarith

/-- A quotient is rounded, multiplied by a number that is not too large, rounded again and
truncated. -/
theorem toUnsigned_mul_close {n d k max : Nat} (hd : 0 < d) (hk : k ≤ 1023) (hmax : max < 2 ^ k)
    {y : Magnitude} (hy : 1 ≤ y.toRat) (hy' : 4 * y.toRat ≤ scale)
    (hsmall : 2 * (n / d * y.toRat) + 4 ≤ max) :
    |(((Number.ofRound false (round n d)).mul (.finite false y)).toUnsigned max : ℚ) -
      n / d * y.toRat| ≤ 2 + n / d * y.toRat / 2 ^ 51 := by
  have hlt : (max : ℚ) < 2 ^ k := by exact_mod_cast hmax
  have hv : (0 : ℚ) ≤ n / d := by positivity
  have hle : (n / d : ℚ) ≤ n / d * y.toRat := le_mul_of_one_le_right hv hy
  obtain ⟨x, hx⟩ := round_exists hk hd (show (n / d : ℚ) < 2 ^ k by linarith)
  have hfactor := factor_close (by linarith) hy' (round_close hd hx)
  obtain ⟨hfactor₁, hfactor₂⟩ := abs_sub_le_iff.mp hfactor
  obtain ⟨z, hz⟩ := mul_exists (x := x) (y := y) hk (by linarith)
  obtain ⟨hz₁, hz₂⟩ := abs_sub_le_iff.mp (mul_close hz)
  have hscale : 1 / (scale : ℚ) ≤ 1 / 4 :=
    one_div_le_one_div_of_le (by norm_num) (by linarith)
  obtain ⟨hfloor₁, hfloor₂⟩ := floor_close z
  have hrange : z.units / scale ≤ max := by
    have hcast : ((z.units / scale : Nat) : ℚ) ≤ max := by linarith
    exact_mod_cast hcast
  rw [hx]
  change |((Number.ofRound false (x.mul y)).toUnsigned max : ℚ) - _| ≤ _
  rw [hz]
  change |((min (z.units / scale) max : Nat) : ℚ) - _| ≤ _
  rw [Nat.min_eq_left hrange, abs_sub_le_iff]
  constructor <;> linarith

/-- What a text stands for, but for its sign: `decimal` is `digits * 10 ^ exponent`. -/
inductive Literal where
  | nan
  | infinite
  | decimal (digits : Nat) (exponent : Int)
deriving DecidableEq

def decimalNum (digits : Nat) (exponent : Int) : Nat := digits * 10 ^ exponent.toNat

def decimalDen (exponent : Int) : Nat := 10 ^ (-exponent).toNat

theorem decimalDen_pos (exponent : Int) : 0 < decimalDen exponent :=
  Nat.pow_pos (Nat.succ_pos 9)

def decimalValue (digits : Nat) (exponent : Int) : ℚ :=
  decimalNum digits exponent / decimalDen exponent

def Literal.number (negative : Bool) : Literal → Number
  | .nan => .nan
  | .infinite => .infinite negative
  | .decimal digits exponent =>
    .ofRound negative (round (decimalNum digits exponent) (decimalDen exponent))

def digit (c : Char) : Nat := c.toNat - '0'.toNat

def digitsValue (ds : List Char) : Nat := ds.foldl (fun n c => 10 * n + digit c) 0

/-- An exponent that has reached 2^16 does not take in further digits. -/
def exponentValue (ds : List Char) : Nat :=
  ds.foldl (fun n c => if n < 0x10000 then 10 * n + digit c else n) 0

def splitSign : List Char → Bool × List Char
  | '-' :: s => (true, s)
  | '+' :: s => (false, s)
  | s => (false, s)

/-- The part behind the letter of the exponent. -/
def scientific (s : List Char) : Option Int :=
  let (negative, s) := splitSign s
  if s = [] ∨ ¬ s.all Char.isDigit then none
  else some (if negative then -exponentValue s else exponentValue s)

/-- The digits behind a point, and what comes behind them. -/
def fraction : List Char → List Char × List Char
  | '.' :: s => (s.takeWhile Char.isDigit, s.dropWhile Char.isDigit)
  | s => ([], s)

def parseNumber (s : List Char) : Option Literal :=
  let whole := s.takeWhile Char.isDigit
  let (behind, s) := fraction (s.dropWhile Char.isDigit)
  if whole = [] ∧ behind = [] then none
  else
    let digits := digitsValue (whole ++ behind)
    match s with
    | [] => some (.decimal digits (-behind.length))
    | c :: s =>
      if c = 'e' ∨ c = 'E' then
        (scientific s).map fun e => .decimal digits (e - behind.length)
      else none

def parseInfNan (s : List Char) : Option Literal :=
  let s := String.ofList (s.map Char.toLower)
  if s = "inf" ∨ s = "infinity" then some .infinite
  else if s = "nan" then some .nan
  else none

/-- The sign of a text, and the rest. -/
def literal (s : String) : Option (Bool × Literal) :=
  let (negative, s) := splitSign s.toList
  (parseNumber s <|> parseInfNan s).map fun l => (negative, l)

def parse (s : String) : Except String Number :=
  if s = "" then .error "cannot parse float from empty string"
  else match literal s with
    | none => .error "invalid float literal"
    | some (negative, l) => .ok (l.number negative)

theorem parse_of_literal {s : String} {negative : Bool} {l : Literal} {x : Number}
    (h : literal s = some (negative, l)) (hx : parse s = .ok x) : x = l.number negative := by
  rw [parse] at hx
  split at hx
  · cases hx
  · rw [h] at hx
    exact (Except.ok.inj hx).symm

end Binary64
