import YubiWallet.Lib.Interaction

/-! Programs that read a secret, and an observer who does not: whatever is seen of a run with
one secret can be seen of a run with another. -/
namespace Interaction
open Prog
variable {Op : Type} {Ans : Op → Type} {V α α' β β' ε ε' : Type}

namespace Prog

theorem Gives.of_bind {p : Prog Op Ans α} {f : α → Prog Op Ans β} {t : Trace Op Ans} {b : β}
    (h : Gives (p >>= f) t b) : ∃ t₁ a t₂, t = t₁ ++ t₂ ∧ Gives p t₁ a ∧ Gives (f a) t₂ b := by
  change Gives (p.bind f) t b at h
  induction p generalizing t with
  | done a => exact ⟨[], a, t, rfl, ⟨rfl, rfl⟩, h⟩
  | ask op next ih =>
    obtain ⟨x, u, rfl, hu⟩ := h
    obtain ⟨t₁, a, t₂, rfl, hp, hf⟩ := ih x hu
    exact ⟨⟨op, x⟩ :: t₁, a, t₂, rfl, ⟨x, t₁, rfl, hp⟩, hf⟩

theorem Gives.of_map {p : Prog Op Ans α} {f : α → β} {t : Trace Op Ans} {b : β}
    (h : Gives (f <$> p) t b) : ∃ a, Gives p t a ∧ f a = b := by
  rw [← bind_pure_comp] at h
  obtain ⟨t₁, a, t₂, rfl, hp, rfl, hb⟩ := h.of_bind
  exact ⟨a, by rwa [List.append_nil], hb⟩

theorem gives_run (env : Env Op Ans) (p : Prog Op Ans α) (h : Trace Op Ans) :
    Gives p (run env p h).2 (run env p h).1 := by
  induction p generalizing h with
  | done a => exact ⟨rfl, rfl⟩
  | ask op next ih => exact ⟨env h op, _, rfl, ih _ _⟩

/-- A run depends only on the answers behind the history it starts from. -/
theorem run_congr {env env' : Env Op Ans} (p : Prog Op Ans α) {h : Trace Op Ans}
    (heq : ∀ t op, env (h ++ t) op = env' (h ++ t) op) : run env p h = run env' p h := by
  induction p generalizing h with
  | done a => rfl
  | ask op next ih =>
    have hfirst : env h op = env' h op := by simpa using heq [] op
    have hrest : run env (next (env h op)) (h ++ [⟨op, env h op⟩]) =
        run env' (next (env h op)) (h ++ [⟨op, env h op⟩]) := ih _ fun t op' => by
      rw [List.append_assoc]
      exact heq _ op'
    simp only [run, hrest, ← hfirst]

/-- Some environment leads to a given course. -/
theorem Gives.exists_env (hans : ∀ op, Nonempty (Ans op)) {p : Prog Op Ans α} {t : Trace Op Ans}
    {a : α} (hp : Gives p t a) (h : Trace Op Ans) : ∃ env : Env Op Ans, run env p h = (a, t) := by
  classical
  induction p generalizing t h with
  | done b =>
    obtain ⟨rfl, rfl⟩ := hp
    exact ⟨fun _ op => Classical.choice (hans op), rfl⟩
  | ask op next ih =>
    obtain ⟨x, u, rfl, hu⟩ := hp
    obtain ⟨env, henv⟩ := ih x hu (h ++ [⟨op, x⟩])
    -- the environment that answers `x` to `op` at `h`, and is `env` everywhere else
    let env' : Env Op Ans := fun h' op' =>
      if hop : h' = h ∧ op = op' then hop.2 ▸ x else env h' op'
    have hfirst : env' h op = x := by simp [env']
    have hlater : run env' (next x) (h ++ [⟨op, x⟩]) = run env (next x) (h ++ [⟨op, x⟩]) := by
      refine run_congr _ fun t op' => ?_
      have hne : h ++ [⟨op, x⟩] ++ t ≠ h := by
        intro heq
        have hlen := congrArg List.length heq
        simp only [List.length_append, List.length_cons] at hlen
        omega
      exact dif_neg fun hop => hne hop.1
    refine ⟨env', ?_⟩
    simp only [run, hfirst, hlater, henv]

end Prog

/-- What an observer sees of an event, what is taken for granted of the secrets, and what the
secrets are to be replaced by. -/
structure Observer (Op : Type) (Ans : Op → Type) (V : Type) where
  view : Event Op Ans → V
  actual : Event Op Ans → Prop
  replaced : Event Op Ans → Prop

/-- Every course of `p` looks like a course of `q` with the secrets replaced. -/
def Mimics (O : Observer Op Ans V) (R : α → α' → Prop) (p : Prog Op Ans α)
    (q : Prog Op Ans α') : Prop :=
  ∀ t a, Gives p t a → (∀ e ∈ t, O.actual e) →
    ∃ t' a', Gives q t' a' ∧ (∀ e ∈ t', O.replaced e) ∧ t'.map O.view = t.map O.view ∧ R a a'

/-- Both succeed with related results, or both fail with one error. -/
def Both (R : α → α' → Prop) : Except ε α → Except ε α' → Prop
  | .ok a, .ok a' => R a a'
  | .error e, .error e' => e = e'
  | _, _ => False

theorem both_eq : (Both Eq : Except ε α → Except ε α → Prop) = Eq := by
  funext r r'
  cases r <;> cases r' <;> simp [Both]

namespace Mimics
variable {O : Observer Op Ans V} {R : α → α' → Prop} {S : β → β' → Prop}

theorem pure {a : α} {a' : α'} (h : R a a') :
    Mimics O R (pure a : Prog Op Ans α) (pure a') := by
  intro t b hb _
  obtain ⟨rfl, rfl⟩ := hb
  exact ⟨[], a', Gives.pure a', by simp, rfl, h⟩

theorem perform {op op' : Op} {R : Ans op → Ans op' → Prop}
    (h : ∀ x, O.actual ⟨op, x⟩ →
      ∃ x', O.replaced ⟨op', x'⟩ ∧ O.view ⟨op', x'⟩ = O.view ⟨op, x⟩ ∧ R x x') :
    Mimics O R (perform op : Prog Op Ans (Ans op)) (perform op') := by
  intro t a ha hactual
  obtain ⟨x, u, rfl, rfl, rfl⟩ := ha
  obtain ⟨x', hreplaced, hview, hR⟩ := h x (hactual _ List.mem_cons_self)
  refine ⟨[⟨op', x'⟩], x', Gives.perform op' x', ?_, ?_, hR⟩
  · intro e he
    rw [List.mem_singleton.mp he]
    exact hreplaced
  · rw [List.map_singleton, List.map_singleton, hview]

theorem bind {p : Prog Op Ans α} {q : Prog Op Ans α'} {f : α → Prog Op Ans β}
    {g : α' → Prog Op Ans β'} (hp : Mimics O R p q)
    (hf : ∀ a a', R a a' → Mimics O S (f a) (g a')) : Mimics O S (p >>= f) (q >>= g) := by
  intro t b hb hactual
  obtain ⟨t₁, a, t₂, rfl, hp₁, hf₂⟩ := hb.of_bind
  obtain ⟨hactual₁, hactual₂⟩ := List.forall_mem_append.mp hactual
  obtain ⟨u₁, a', hq, hreplaced₁, hview₁, hR⟩ := hp t₁ a hp₁ hactual₁
  obtain ⟨u₂, b', hg, hreplaced₂, hview₂, hS⟩ := hf a a' hR t₂ b hf₂ hactual₂
  refine ⟨u₁ ++ u₂, b', hq.bind hg, List.forall_mem_append.mpr ⟨hreplaced₁, hreplaced₂⟩, ?_, hS⟩
  rw [List.map_append, List.map_append, hview₁, hview₂]

theorem map {p : Prog Op Ans α} {q : Prog Op Ans α'} {f : α → β} {g : α' → β'}
    (hp : Mimics O R p q) (hf : ∀ a a', R a a' → S (f a) (g a')) :
    Mimics O S (f <$> p) (g <$> q) := by
  rw [← bind_pure_comp, ← bind_pure_comp]
  exact hp.bind fun a a' h => Mimics.pure (hf a a' h)

/-- A program whose events need no replacement. -/
theorem refl_of_only {P : Op → Prop} {p : Prog Op Ans α} (hp : Only P p)
    (h : ∀ e : Event Op Ans, P e.op → O.replaced e) : Mimics O Eq p p := by
  intro t a ha _
  have honly := Always.of_gives hp ha
  exact ⟨t, a, ha, fun e he => h e (honly e he), rfl, rfl⟩

theorem mapM {f g : β → Prog Op Ans α} (hf : ∀ b, Mimics O Eq (f b) (g b)) (bs : List β) :
    Mimics O Eq (bs.mapM f) (bs.mapM g) := by
  induction bs with
  | nil => exact Mimics.pure rfl
  | cons b bs ih =>
    rw [List.mapM_cons, List.mapM_cons]
    refine (hf b).bind fun a a' ha => ih.bind fun as as' has => Mimics.pure ?_
    rw [ha, has]

/-- A failure ends both. -/
theorem bind_action {p : Action Op Ans ε α} {q : Action Op Ans ε α'}
    {f : α → Action Op Ans ε β} {g : α' → Action Op Ans ε β'} (hp : Mimics O (Both R) p.run q.run)
    (hf : ∀ a a', R a a' → Mimics O (Both S) (f a).run (g a').run) :
    Mimics O (Both S) (p >>= f).run (q >>= g).run := by
  rw [ExceptT.run_bind, ExceptT.run_bind]
  refine hp.bind fun r r' hr => ?_
  cases r with
  | ok a =>
    cases r' with
    | ok a' => exact hf a a' hr
    | error e' => exact hr.elim
  | error e =>
    cases r' with
    | ok a' => exact hr.elim
    | error e' => exact Mimics.pure hr

/-- The same first action, and then two that give the same results. -/
theorem bind_same {p q : Action Op Ans ε α} {f g : α → Action Op Ans ε β}
    (hp : Mimics O Eq p.run q.run) (hf : ∀ a, Mimics O Eq (f a).run (g a).run) :
    Mimics O Eq (p >>= f).run (q >>= g).run := by
  rw [← both_eq] at hp ⊢
  refine hp.bind_action fun a a' ha => ?_
  rw [both_eq, ha]
  exact hf a'

/-- Every run has a counterpart against some other environment. -/
theorem run {p : Prog Op Ans α} {q : Prog Op Ans α'} (hm : Mimics O R p q)
    (hans : ∀ op, Nonempty (Ans op)) (env : Env Op Ans) (h : Trace Op Ans)
    (hactual : ∀ e ∈ (Prog.run env p h).2, O.actual e) :
    ∃ env' : Env Op Ans, (∀ e ∈ (Prog.run env' q h).2, O.replaced e) ∧
      (Prog.run env' q h).2.map O.view = (Prog.run env p h).2.map O.view ∧
      R (Prog.run env p h).1 (Prog.run env' q h).1 := by
  obtain ⟨t', a', hq, hreplaced, hview, hR⟩ := hm _ _ (gives_run env p h) hactual
  obtain ⟨env', henv'⟩ := hq.exists_env hans h
  refine ⟨env', ?_⟩
  rw [henv']
  exact ⟨hreplaced, hview, hR⟩

end Mimics
end Interaction
