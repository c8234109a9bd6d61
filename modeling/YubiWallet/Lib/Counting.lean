import Mathlib.Algebra.GroupWithZero.Nat
import YubiWallet.Lib.Interaction

/-! How often an event occurs in the runs of a program. -/
namespace Interaction
open Prog
variable {Op : Type} {Ans : Op → Type} {α β ε ε' : Type}

/-- At most `n` events of the kind, whatever the answers are. -/
def AtMost (kind : Event Op Ans → Bool) (n : Nat) (p : Prog Op Ans α) : Prop :=
  Always p fun t _ => t.countP kind ≤ n

namespace AtMost
variable {kind : Event Op Ans → Bool} {m n : Nat}

theorem mono {p : Prog Op Ans α} (hp : AtMost kind m p) (h : m ≤ n) : AtMost kind n p :=
  Always.mono hp fun _ _ ht => ht.trans h

/-- Operations whose events are never of the kind. -/
theorem of_only {P : Op → Prop} {p : Prog Op Ans α} (hp : Only P p)
    (h : ∀ e : Event Op Ans, P e.op → kind e = false) : AtMost kind 0 p := by
  refine Always.mono hp fun t _ ht => ?_
  have hnone : t.countP kind = 0 := by
    rw [List.countP_eq_zero]
    intro e he hkind
    rw [h e (ht e he)] at hkind
    cases hkind
  exact hnone.le

theorem pure (a : α) : AtMost kind n (pure a : Prog Op Ans α) := Nat.zero_le n

theorem bind {p : Prog Op Ans α} {f : α → Prog Op Ans β} (hp : AtMost kind m p)
    (hf : ∀ a, AtMost kind n (f a)) : AtMost kind (m + n) (p >>= f) := by
  unfold AtMost at *
  rw [always_bind]
  refine hp.mono fun t a ht => (hf a).mono fun t' b ht' => ?_
  rw [List.countP_append]
  exact Nat.add_le_add ht ht'

theorem map {p : Prog Op Ans α} (hp : AtMost kind n p) (f : α → β) : AtMost kind n (f <$> p) := by
  unfold AtMost at *
  rwa [always_map]

/-- Over a list, the bounds of the elements add up. -/
theorem mapM {f : α → Prog Op Ans β} {bound : α → Nat} (hf : ∀ a, AtMost kind (bound a) (f a))
    (as : List α) : AtMost kind (as.map bound).sum (as.mapM f) := by
  induction as with
  | nil => exact AtMost.pure []
  | cons a as ih =>
    rw [List.mapM_cons, List.map_cons, List.sum_cons]
    exact (hf a).bind fun b => ih.bind fun bs => AtMost.pure (n := 0) (b :: bs)

theorem bind_action {p : Action Op Ans ε α} {f : α → Action Op Ans ε β}
    (hp : AtMost kind m p.run) (hf : ∀ a, AtMost kind n (f a).run) :
    AtMost kind (m + n) (p >>= f).run := by
  rw [ExceptT.run_bind]
  refine AtMost.bind hp fun r => ?_
  cases r with
  | ok a => exact hf a
  | error e => exact AtMost.pure _

theorem ofExcept_bind {x : Except ε α} {f : α → Action Op Ans ε β}
    (hf : ∀ a, x = .ok a → AtMost kind n (f a).run) :
    AtMost kind n (Action.ofExcept x >>= f).run := by
  cases x with
  | ok a => exact hf a rfl
  | error e => exact AtMost.pure _

theorem mapErr {p : Action Op Ans ε α} (hp : AtMost kind n p.run) (f : ε → ε') :
    AtMost kind n (Action.mapErr f p).run := AtMost.map hp (Except.mapError f)

end AtMost
end Interaction
