import YubiWallet.Lib.Interaction

/-! Refusals: failures of one kind, and whether they come before the operations of
another. -/
namespace Interaction
open Prog
variable {Op : Type} {Ans : Op → Type} {α β ε : Type}

/-- The action never fails with an error of the kind. -/
def Never (kind : ε → Prop) (p : Action Op Ans ε α) : Prop :=
  Always p.run fun _ r => ∀ e, r = .error e → ¬ kind e

/-- When it fails with an error of the kind, all operations so far were quiet. -/
def Early (kind : ε → Prop) (quiet : Op → Prop) (p : Action Op Ans ε α) : Prop :=
  Always p.run fun t r => ∀ e, r = .error e → kind e → ∀ ev ∈ t, quiet ev.op

namespace Never
variable {kind : ε → Prop}

theorem pure (a : α) : Never kind (pure a : Action Op Ans ε α) := fun _ h => nomatch h

theorem ofExcept {x : Except ε α} (h : ∀ e, x = .error e → ¬ kind e) :
    Never kind (Action.ofExcept x : Action Op Ans ε α) := h

theorem mono {kind' : ε → Prop} {p : Action Op Ans ε α} (hp : Never kind' p)
    (h : ∀ e, kind e → kind' e) : Never kind p :=
  Always.mono hp fun _ _ hr e he hkind => hr e he (h e hkind)

/-- A check that is known to pass. -/
theorem ofExcept_ok {x : Except ε α} {a : α} (h : x = .ok a) :
    Never kind (Action.ofExcept x : Action Op Ans ε α) :=
  ofExcept fun e he => by
    rw [h] at he
    cases he

theorem bind {p : Action Op Ans ε α} {f : α → Action Op Ans ε β} (hp : Never kind p)
    (hf : ∀ a, Never kind (f a)) : Never kind (p >>= f) := by
  apply Action.always_bind_of hp
  · intro t e h e' he'
    exact h e' (by rw [Except.error.inj he'])
  · intro t a _
    exact hf a

end Never

namespace Early
variable {kind : ε → Prop} {quiet : Op → Prop}

theorem of_only {p : Action Op Ans ε α} (h : Only quiet p.run) : Early kind quiet p :=
  Always.mono h fun _ _ ht _ _ _ => ht

theorem of_never {p : Action Op Ans ε α} (h : Never kind p) : Early kind quiet p :=
  Always.mono h fun _ _ hr e he hkind => absurd hkind (hr e he)

theorem throw (e : ε) : Early kind quiet (throw e : Action Op Ans ε α) :=
  of_only (Action.only_throw e)

/-- Behind quiet operations, everything is still early. -/
theorem bind_only {p : Action Op Ans ε α} {f : α → Action Op Ans ε β} (hp : Only quiet p.run)
    (hf : ∀ a, Early kind quiet (f a)) : Early kind quiet (p >>= f) := by
  apply Action.always_bind_of hp
  · intro t e ht _ _ _
    exact ht
  · intro t a ht
    refine Always.mono (hf a) fun t' r hr e he hkind => ?_
    exact List.forall_mem_append.mpr ⟨ht, hr e he hkind⟩

theorem ofExcept_bind {x : Except ε α} {f : α → Action Op Ans ε β}
    (hf : ∀ a, x = .ok a → Early kind quiet (f a)) :
    Early kind quiet (Action.ofExcept x >>= f) := by
  apply Action.always_ofExcept_bind_of
  · intro e _ _ _ _ ev hev
    cases hev
  · exact hf

end Early
end Interaction
