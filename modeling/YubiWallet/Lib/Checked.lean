import Mathlib.Algebra.Order.Group.Nat

/-! Functions of a language that checks its indices, slices and sums: such a function
returns a value or an error, or it panics. A loop that runs out of rounds counts as one that
panics, so a function that returns also terminates. -/
namespace Checked

/-- The widths of an index. -/
inductive Width where
  | w32 | w64
deriving DecidableEq, Repr

def Width.bits : Width → Nat
  | .w32 => 32
  | .w64 => 64

inductive Panic where
  | index | slice | window | overflow | expect | endless
deriving DecidableEq, Repr

abbrev Run (ε α : Type) := ExceptT ε (Except Panic) α

section Operations
variable {ε α σ : Type}

def crash (p : Panic) : Run ε α := ExceptT.mk (.error p)

/-- `xs[i]` -/
def index (xs : List α) (i : Nat) : Run ε α :=
  match xs[i]? with
  | some a => pure a
  | none => crash .index

/-- `xs[start..stop]` -/
def slice (xs : List α) (start stop : Nat) : Run ε (List α) :=
  if start ≤ stop ∧ stop ≤ xs.length then pure ((xs.drop start).take (stop - start))
  else crash .slice

def add (w : Width) (a b : Nat) : Run ε Nat :=
  if a + b < 2 ^ w.bits then pure (a + b) else crash .overflow

def sub (a b : Nat) : Run ε Nat := if b ≤ a then pure (a - b) else crash .overflow

/-- Bits that are shifted out count as an overflow. -/
def shiftLeft (w : Width) (a n : Nat) : Run ε Nat :=
  if a <<< n < 2 ^ w.bits then pure (a <<< n) else crash .overflow

def checkedAdd (w : Width) (a b : Nat) : Option Nat :=
  if a + b < 2 ^ w.bits then some (a + b) else none

def expect : Option α → Run ε α
  | some a => pure a
  | none => crash .expect

/-- Rounds until one gives a value, at most `fuel`. -/
def loop (body : σ → Run ε (α ⊕ σ)) : Nat → σ → Run ε α
  | 0, _ => crash .endless
  | fuel + 1, s => do
    match ← body s with
    | .inl a => pure a
    | .inr s' => loop body fuel s'

end Operations

/-- A list that fits in memory: a slice has fewer elements than half of what an index can
count. -/
def Fits {α : Type} (w : Width) (xs : List α) : Prop := xs.length < 2 ^ (w.bits - 1)

theorem Fits.mono {α : Type} {w : Width} {xs ys : List α} (h : Fits w xs)
    (hle : ys.length ≤ xs.length) : Fits w ys := Nat.lt_of_le_of_lt hle h

theorem Width.two_pow_bits (w : Width) : 2 ^ w.bits = 2 * 2 ^ (w.bits - 1) := by
  cases w <;> rfl

theorem Width.two_pow_32_le (w : Width) : 2 ^ 32 ≤ 2 ^ w.bits := by
  cases w <;> decide

theorem Width.two_pow_31_le (w : Width) : 2 ^ 31 ≤ 2 ^ (w.bits - 1) := by
  cases w <;> decide

/-- An index into the list can be moved on a little. -/
theorem Fits.add_lt {α : Type} {w : Width} {xs : List α} (h : Fits w xs) {i n : Nat}
    (hi : i ≤ xs.length) (hn : n < 2 ^ 31) : i + n < 2 ^ w.bits := by
  have htwo := w.two_pow_bits
  have h31 := w.two_pow_31_le
  unfold Fits at h
  omega

section Returns
variable {ε α β σ : Type}

/-- The function does not panic, and this is what it returns. -/
def Returns (p : Run ε α) (r : Except ε α) : Prop := p.run = .ok r

namespace Returns

theorem pure (a : α) : Returns (pure a : Run ε α) (.ok a) := rfl

theorem throw (e : ε) : Returns (throw e : Run ε α) (.error e) := rfl

theorem bind {p : Run ε α} {f : α → Run ε β} {r : Except ε α} {g : α → Except ε β}
    (hp : Returns p r) (hf : ∀ a, r = .ok a → Returns (f a) (g a)) :
    Returns (p >>= f) (r >>= g) := by
  unfold Returns at hp
  unfold Returns
  rw [ExceptT.run_bind, hp]
  cases r with
  | error e => rfl
  | ok a => exact hf a rfl

/-- An error ends the function. -/
theorem bind_error {p : Run ε α} {e : ε} (hp : Returns p (.error e)) (f : α → Run ε β) :
    Returns (p >>= f) (.error e) := by
  unfold Returns at hp
  unfold Returns
  rw [ExceptT.run_bind, hp]
  rfl

/-- A step that gives a value. -/
theorem step {p : Run ε α} {f : α → Run ε β} {a : α} {r : Except ε β} (hp : Returns p (.ok a))
    (hf : Returns (f a) r) : Returns (p >>= f) r := by
  unfold Returns at hp
  unfold Returns
  rw [ExceptT.run_bind, hp]
  exact hf

theorem index {xs : List α} {i : Nat} {a : α} (h : xs[i]? = some a) :
    Returns (Checked.index xs i : Run ε α) (.ok a) := by
  unfold Checked.index
  rw [h]
  exact Returns.pure a

/-- Indices below the length are in bounds. -/
theorem index_getD {xs : List α} {i : Nat} (h : i < xs.length) (d : α) :
    Returns (Checked.index xs i : Run ε α) (.ok (xs.getD i d)) := by
  apply index
  rw [List.getD_eq_getElem?_getD, List.getElem?_eq_getElem h]
  rfl

theorem slice {xs : List α} {start stop : Nat} (hle : start ≤ stop) (hstop : stop ≤ xs.length) :
    Returns (Checked.slice xs start stop : Run ε (List α))
      (.ok ((xs.drop start).take (stop - start))) := by
  unfold Checked.slice
  rw [if_pos ⟨hle, hstop⟩]
  exact Returns.pure _

theorem add {w : Width} {a b : Nat} (h : a + b < 2 ^ w.bits) :
    Returns (Checked.add w a b : Run ε Nat) (.ok (a + b)) := by
  unfold Checked.add
  rw [if_pos h]
  exact Returns.pure _

theorem sub {a b : Nat} (h : b ≤ a) : Returns (Checked.sub a b : Run ε Nat) (.ok (a - b)) := by
  unfold Checked.sub
  rw [if_pos h]
  exact Returns.pure _

theorem shiftLeft {w : Width} {a n : Nat} (h : a <<< n < 2 ^ w.bits) :
    Returns (Checked.shiftLeft w a n : Run ε Nat) (.ok (a <<< n)) := by
  unfold Checked.shiftLeft
  rw [if_pos h]
  exact Returns.pure _

theorem expect {o : Option α} {a : α} (h : o = some a) :
    Returns (Checked.expect o : Run ε α) (.ok a) := by
  rw [h]
  exact Returns.pure a

/-- A loop returns when each round does and, if it goes on, comes closer to its end. The
measure is the variant; what is returned is the same from the next state on. -/
theorem loop {body : σ → Run ε (α ⊕ σ)} (spec : σ → Except ε α) (measure : σ → Nat)
    (hround : ∀ s, Returns (body s) ((spec s).map .inl) ∨
      ∃ s', Returns (body s) (.ok (.inr s')) ∧ measure s' < measure s ∧ spec s = spec s')
    {fuel : Nat} {s : σ} (hfuel : measure s < fuel) :
    Returns (Checked.loop body fuel s) (spec s) := by
  induction fuel generalizing s with
  | zero => omega
  | succ fuel ih =>
    unfold Checked.loop
    cases hround s with
    | inl hlast =>
      cases hspec : spec s with
      | error e =>
        rw [hspec] at hlast
        exact bind_error hlast _
      | ok a =>
        rw [hspec] at hlast
        exact step hlast (Returns.pure a)
    | inr hnext =>
      obtain ⟨s', hbody, hless, hsame⟩ := hnext
      rw [hsame]
      exact step hbody (ih (by omega))

end Returns
end Returns
end Checked
