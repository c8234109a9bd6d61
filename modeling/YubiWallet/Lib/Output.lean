import YubiWallet.Lib.Interaction

/-! What a program shows: the events of one kind, picked by `obs`, and the result, where
they do not depend on what happened before. -/
namespace Interaction
open Prog

variable {Op W : Type} {Ans : Op → Type} {α β ε ε' : Type}
variable {obs : Event Op Ans → Option W} {env : Env Op Ans}

/-- From every history, the run against `env` ends in `r` and shows `out`. -/
def Yields (obs : Event Op Ans → Option W) (env : Env Op Ans) (p : Prog Op Ans α)
    (out : List W) (r : α) : Prop :=
  ∀ h, (run env p h).1 = r ∧ (run env p h).2.filterMap obs = out

namespace Yields

theorem pure (a : α) : Yields obs env (pure a : Prog Op Ans α) [] a := fun _ => ⟨rfl, rfl⟩

theorem perform {op : Op} {x : Ans op} (hans : ∀ h, env h op = x) :
    Yields obs env (perform op) (obs ⟨op, x⟩).toList x := by
  intro h
  rw [run_perform, hans h]
  refine ⟨rfl, ?_⟩
  cases hx : obs ⟨op, x⟩ <;> simp [hx]

theorem bind {p : Prog Op Ans α} {f : α → Prog Op Ans β} {out out' : List W} {a : α} {r : β}
    (hp : Yields obs env p out a) (hf : Yields obs env (f a) out' r) :
    Yields obs env (p >>= f) (out ++ out') r := by
  intro h
  obtain ⟨hres, hout⟩ := hp h
  rw [run_bind, hres]
  obtain ⟨hres', hout'⟩ := hf (h ++ (run env p h).2)
  exact ⟨hres', by rw [List.filterMap_append, hout, hout']⟩

theorem map {p : Prog Op Ans α} {out : List W} {a : α} (hp : Yields obs env p out a)
    (f : α → β) : Yields obs env (f <$> p) out (f a) := by
  intro h
  obtain ⟨hres, hout⟩ := hp h
  rw [run_map]
  exact ⟨congrArg f hres, hout⟩

/-- A program that performs nothing that is shown. -/
theorem of_only {P : Op → Prop} {p : Prog Op Ans α} {r : α} (hp : Only P p)
    (hobs : ∀ e, P e.op → obs e = none) (hrun : ∀ h, (run env p h).1 = r) :
    Yields obs env p [] r := by
  intro h
  have hall := Always.run hp env h
  exact ⟨hrun h, List.filterMap_eq_nil_iff.mpr fun e he => hobs e (hall e he)⟩

end Yields

namespace Action

theorem yields_ofExcept (r : Except ε α) :
    Yields obs env (ofExcept r : Action Op Ans ε α).run [] r := Yields.pure r

theorem yields_lift {p : Prog Op Ans α} {out : List W} {a : α} (hp : Yields obs env p out a) :
    Yields obs env (liftM p : Action Op Ans ε α).run out (.ok a) := hp.map Except.ok

theorem yields_mapErr {p : Action Op Ans ε α} {out : List W} {r : Except ε α}
    (hp : Yields obs env p.run out r) (f : ε → ε') :
    Yields obs env (mapErr f p).run out (r.mapError f) := hp.map (Except.mapError f)

/-- Behind a success the second action goes on, behind a failure there is nothing. -/
theorem yields_bind {p : Action Op Ans ε α} {f : α → Action Op Ans ε β} {out out' : List W}
    {a : α} {r : Except ε β} (hp : Yields obs env p.run out (.ok a))
    (hf : Yields obs env (f a).run out' r) : Yields obs env (p >>= f).run (out ++ out') r := by
  rw [ExceptT.run_bind]
  exact hp.bind hf

theorem yields_bind_error {p : Action Op Ans ε α} {f : α → Action Op Ans ε β} {out : List W}
    {e : ε} (hp : Yields obs env p.run out (.error e)) :
    Yields obs env (p >>= f).run out (.error e) := by
  rw [ExceptT.run_bind, ← List.append_nil out]
  exact hp.bind (Yields.pure _)

end Action
end Interaction
