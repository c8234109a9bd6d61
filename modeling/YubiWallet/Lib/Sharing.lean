import Mathlib
import YubiWallet.Lib.Counting
import YubiWallet.Lib.Transition

/-! Programs that share one environment. They take turns in any order, an operation each time,
and nothing is assumed about the answers. -/
namespace Interaction
open Prog Transition
variable {ι Op : Type} {Ans : Op → Type} {α : Type}

/-- What one of the programs has done. -/
def own [DecidableEq ι] (i : ι) (ls : List (ι × Event Op Ans)) : Trace Op Ans :=
  ls.filterMap fun l => if l.1 = i then some l.2 else none

section Own
variable [DecidableEq ι]

theorem own_append (i : ι) (ls ls' : List (ι × Event Op Ans)) :
    own i (ls ++ ls') = own i ls ++ own i ls' := List.filterMap_append

theorem own_single_self (i : ι) (e : Event Op Ans) : own i [(i, e)] = [e] := by simp [own]

theorem own_single_of_ne {i j : ι} (h : j ≠ i) (e : Event Op Ans) : own i [(j, e)] = [] := by
  simp [own, h]

/-- What all have done together is the sum of what each has done. -/
theorem countP_eq_sum [Fintype ι] (kind : Event Op Ans → Bool) (ls : List (ι × Event Op Ans)) :
    ls.countP (fun l => kind l.2) = ∑ i, (own i ls).countP kind := by
  induction ls with
  | nil => simp [own]
  | cons l ls ih =>
    have hown : ∀ i, (own i (l :: ls)).countP kind =
        (own i ls).countP kind + if l.1 = i then (if kind l.2 then 1 else 0) else 0 := by
      intro i
      by_cases hi : l.1 = i
      · simp [own, hi, List.countP_cons]
      · simp [own, hi]
    simp only [hown, Finset.sum_add_distrib, Finset.sum_ite_eq, Finset.mem_univ, if_true,
      List.countP_cons, ih]

end Own

variable [DecidableEq ι]

/-- One of the programs performs its next operation. The state is what is left of each. -/
inductive Turn : (ι → Prog Op Ans α) → ι × Event Op Ans → (ι → Prog Op Ans α) → Prop
  | act {p : ι → Prog Op Ans α} (i : ι) {op : Op} {next : Ans op → Prog Op Ans α}
      (hnext : p i = .ask op next) (x : Ans op) :
      Turn p (i, ⟨op, x⟩) (Function.update p i (next x))

/-- What is always the case for a program is always the case for what is left of it. -/
theorem always_left {p q : ι → Prog Op Ans α} {ls : List (ι × Event Op Ans)}
    (hrun : Run Turn p ls q) {i : ι} {Q : Trace Op Ans → α → Prop} (hp : Always (p i) Q) :
    Always (q i) fun t a => Q (own i ls ++ t) a := by
  induction hrun with
  | nil => exact hp
  | snoc _ hturn ih =>
    cases hturn with
    | act j hnext x =>
      by_cases hj : j = i
      · subst hj
        rw [hnext] at ih
        rw [Function.update_self, own_append, own_single_self]
        refine Always.mono (ih x) fun t a ht => ?_
        rwa [List.append_assoc]
      · rw [Function.update_of_ne (Ne.symm hj), own_append, own_single_of_ne hj, List.append_nil]
        exact ih

theorem Prog.Always.exists (hans : ∀ op, Nonempty (Ans op)) {p : Prog Op Ans α}
    {Q : Trace Op Ans → α → Prop} (hp : Always p Q) : ∃ t a, Q t a := by
  induction p generalizing Q with
  | done a => exact ⟨[], a, hp⟩
  | ask op next ih =>
    obtain ⟨x⟩ := hans op
    obtain ⟨t, a, ht⟩ := ih x (hp x)
    exact ⟨⟨op, x⟩ :: t, a, ht⟩

/-- What one of the programs has done is the beginning of a course that is always the case. -/
theorem own_begins (hans : ∀ op, Nonempty (Ans op)) {p q : ι → Prog Op Ans α}
    {ls : List (ι × Event Op Ans)} (hrun : Run Turn p ls q) {i : ι} {Q : Trace Op Ans → α → Prop}
    (hp : Always (p i) Q) : ∃ t a, Q (own i ls ++ t) a :=
  Prog.Always.exists hans (always_left hrun hp)

/-- The bounds of the programs add up. -/
theorem countP_le_sum [Fintype ι] (hans : ∀ op, Nonempty (Ans op)) {p q : ι → Prog Op Ans α}
    {ls : List (ι × Event Op Ans)} (hrun : Run Turn p ls q) {kind : Event Op Ans → Bool}
    {bound : ι → Nat} (hp : ∀ i, AtMost kind (bound i) (p i)) :
    ls.countP (fun l => kind l.2) ≤ ∑ i, bound i := by
  rw [countP_eq_sum]
  refine Finset.sum_le_sum fun i _ => ?_
  obtain ⟨t, a, ht⟩ := own_begins hans hrun (hp i)
  exact (List.countP_append ▸ Nat.le_add_right _ _ : (own i ls).countP kind ≤
    (own i ls ++ t).countP kind).trans ht

end Interaction
