import Mathlib.Data.List.Infix

/-! Interactive programs against an arbitrary environment. A program is a finite
tree of operations; the environment answers each one from everything that
happened before. Nothing is assumed about the answers. -/
namespace Interaction

/-- A program performs an operation, sees its answer and goes on. -/
inductive Prog (Op : Type) (Ans : Op → Type) (α : Type) where
  | done (a : α)
  | ask (op : Op) (next : Ans op → Prog Op Ans α)

/-- One operation together with the answer it got. -/
structure Event (Op : Type) (Ans : Op → Type) where
  op : Op
  ans : Ans op

abbrev Trace (Op : Type) (Ans : Op → Type) := List (Event Op Ans)

abbrev Env (Op : Type) (Ans : Op → Type) := Trace Op Ans → (op : Op) → Ans op

variable {Op : Type} {Ans : Op → Type} {α β ε ε' : Type}

namespace Prog

def bind : Prog Op Ans α → (α → Prog Op Ans β) → Prog Op Ans β
  | .done a, f => f a
  | .ask op next, f => .ask op fun x => (next x).bind f

instance : Monad (Prog Op Ans) where
  pure := .done
  bind := .bind

def perform (op : Op) : Prog Op Ans (Ans op) := .ask op .done

theorem bind_pure_right (p : Prog Op Ans α) : p.bind .done = p := by
  induction p with
  | done a => rfl
  | ask op next ih => exact congrArg (Prog.ask op) (funext ih)

theorem bind_assoc {γ : Type} (p : Prog Op Ans α) (f : α → Prog Op Ans β)
    (g : β → Prog Op Ans γ) : (p.bind f).bind g = p.bind fun a => (f a).bind g := by
  induction p with
  | done a => rfl
  | ask op next ih => exact congrArg (Prog.ask op) (funext ih)

instance : LawfulMonad (Prog Op Ans) :=
  LawfulMonad.mk' _ (fun p => bind_pure_right p) (fun _ _ => rfl) (fun p f g => bind_assoc p f g)

/-- Run against `env`, which has already seen `h`. The second component holds the
new events only. -/
def run (env : Env Op Ans) : Prog Op Ans α → Trace Op Ans → α × Trace Op Ans
  | .done a, _ => (a, [])
  | .ask op next, h =>
    let out := (next (env h op)).run env (h ++ [⟨op, env h op⟩])
    (out.1, ⟨op, env h op⟩ :: out.2)

@[simp] theorem run_pure (env : Env Op Ans) (a : α) (h : Trace Op Ans) :
    run env (pure a : Prog Op Ans α) h = (a, []) := rfl

@[simp] theorem run_perform (env : Env Op Ans) (op : Op) (h : Trace Op Ans) :
    run env (perform op) h = (env h op, [⟨op, env h op⟩]) := rfl

theorem run_bind (env : Env Op Ans) (p : Prog Op Ans α) (f : α → Prog Op Ans β)
    (h : Trace Op Ans) :
    run env (p >>= f) h =
      ((run env (f (run env p h).1) (h ++ (run env p h).2)).1,
        (run env p h).2 ++ (run env (f (run env p h).1) (h ++ (run env p h).2)).2) := by
  change run env (p.bind f) h = _
  induction p generalizing h with
  | done a => simp [Prog.bind, run]
  | ask op next ih => simp [Prog.bind, run, ih]

theorem run_map (env : Env Op Ans) (p : Prog Op Ans α) (f : α → β) (h : Trace Op Ans) :
    run env (f <$> p) h = (f (run env p h).1, (run env p h).2) := by
  rw [← bind_pure_comp, run_bind]
  simp

/-- Every recorded answer is one the environment gave. -/
theorem run_answers (env : Env Op Ans) (p : Prog Op Ans α) (h : Trace Op Ans) :
    ∀ e ∈ (run env p h).2, ∃ h', e.ans = env h' e.op := by
  induction p generalizing h with
  | done a => simp [run]
  | ask op next ih =>
    intro e he
    rcases List.mem_cons.mp he with rfl | he
    · exact ⟨h, rfl⟩
    · exact ih _ _ e he

/-- `Q` holds of the trace and the result, whatever the answers are. -/
def Always : Prog Op Ans α → (Trace Op Ans → α → Prop) → Prop
  | .done a, Q => Q [] a
  | .ask op next, Q => ∀ x, (next x).Always fun t a => Q (⟨op, x⟩ :: t) a

@[simp] theorem always_pure (a : α) (Q : Trace Op Ans → α → Prop) :
    Always (pure a : Prog Op Ans α) Q ↔ Q [] a := Iff.rfl

@[simp] theorem always_perform (op : Op) (Q : Trace Op Ans → Ans op → Prop) :
    Always (perform op) Q ↔ ∀ x, Q [⟨op, x⟩] x := Iff.rfl

theorem always_bind (p : Prog Op Ans α) (f : α → Prog Op Ans β)
    (Q : Trace Op Ans → β → Prop) :
    Always (p >>= f) Q ↔ Always p fun t a => Always (f a) fun t' b => Q (t ++ t') b := by
  change Always (p.bind f) Q ↔ _
  induction p generalizing Q with
  | done a => simp [Prog.bind, Always]
  | ask op next ih => simp only [Prog.bind, Always, ih, List.cons_append]

@[simp] theorem always_map (p : Prog Op Ans α) (f : α → β) (Q : Trace Op Ans → β → Prop) :
    Always (f <$> p) Q ↔ Always p fun t a => Q t (f a) := by
  rw [← bind_pure_comp, always_bind]
  simp

theorem Always.mono {p : Prog Op Ans α} {Q R : Trace Op Ans → α → Prop}
    (hp : Always p Q) (hQR : ∀ t a, Q t a → R t a) : Always p R := by
  induction p generalizing Q R with
  | done a => exact hQR _ _ hp
  | ask op next ih => exact fun x => ih x (hp x) fun t a => hQR _ _

theorem Always.and {p : Prog Op Ans α} {Q R : Trace Op Ans → α → Prop}
    (hQ : Always p Q) (hR : Always p R) : Always p fun t a => Q t a ∧ R t a := by
  induction p generalizing Q R with
  | done a => exact ⟨hQ, hR⟩
  | ask op next ih => exact fun x => ih x (hQ x) (hR x)

theorem Always.of_forall (p : Prog Op Ans α) {Q : Trace Op Ans → α → Prop}
    (h : ∀ t a, Q t a) : Always p Q := by
  induction p generalizing Q with
  | done a => exact h _ _
  | ask op next ih => exact fun x => ih x fun t a => h _ _

/-- What each run for an element gives stands in the list of what they give. -/
theorem Always.mapM {R : α → β → Prop} {f : α → Prog Op Ans β}
    (hf : ∀ a, Always (f a) fun _ b => R a b) (as : List α) :
    Always (as.mapM f) fun _ bs => ∀ b ∈ bs, ∃ a ∈ as, R a b := by
  induction as with
  | nil =>
    intro b hb
    cases hb
  | cons a as ih =>
    rw [List.mapM_cons, always_bind]
    refine (hf a).mono fun t b hb => ?_
    rw [always_bind]
    refine ih.mono fun t' bs hbs b' hb' => ?_
    cases List.mem_cons.mp hb' with
    | inl hfirst =>
      subst hfirst
      exact ⟨a, List.mem_cons_self, hb⟩
    | inr hrest =>
      obtain ⟨a', ha', hR⟩ := hbs b' hrest
      exact ⟨a', List.mem_cons_of_mem _ ha', hR⟩

/-- What always holds holds of the run against any environment. -/
theorem Always.run {p : Prog Op Ans α} {Q : Trace Op Ans → α → Prop}
    (hp : Always p Q) (env : Env Op Ans) (h : Trace Op Ans) :
    Q (Prog.run env p h).2 (Prog.run env p h).1 := by
  induction p generalizing Q h with
  | done a => exact hp
  | ask op next ih => exact ih _ (hp _) _

/-- A run depends only on the environment's answers behind the history it starts from. -/
theorem run_cons_eq {env env' : Env Op Ans} {e : Event Op Ans}
    (hshift : ∀ h op, env' (e :: h) op = env h op) (p : Prog Op Ans α) (h : Trace Op Ans) :
    run env' p (e :: h) = run env p h := by
  induction p generalizing h with
  | done a => rfl
  | ask op next ih => simp only [run, hshift, List.cons_append, ih]

/-- Every sequence of answers is one that some environment gives. -/
theorem always_of_forall_run {good : Event Op Ans → Prop} (hgood : ∀ op, ∃ x, good ⟨op, x⟩)
    {p : Prog Op Ans α} {Q : Trace Op Ans → α → Prop}
    (hall : ∀ env : Env Op Ans, (∀ h op, good ⟨op, env h op⟩) →
      Q (run env p []).2 (run env p []).1) :
    Always p fun t a => (∀ e ∈ t, good e) → Q t a := by
  classical
  induction p generalizing Q with
  | done a =>
    choose ans hans using hgood
    exact fun _ => hall (fun _ op => ans op) fun _ op => hans op
  | ask op next ih =>
    intro x
    by_cases hx : good ⟨op, x⟩
    · have hnext := ih x (Q := fun t a => Q (⟨op, x⟩ :: t) a) fun env henv => ?_
      · exact hnext.mono fun t a hQ ht => hQ fun e he => ht e (List.mem_cons_of_mem _ he)
      -- the environment that answers `x` first, and then as `env` does
      let env' : Env Op Ans := fun h op' =>
        match h with
        | [] => if heq : op = op' then heq ▸ x else env [] op'
        | _ :: h => env h op'
      have hfirst : env' [] op = x := by simp [env']
      have henv' : ∀ h op', good ⟨op', env' h op'⟩ := by
        intro h op'
        cases h with
        | cons e h => exact henv h op'
        | nil =>
          by_cases heq : op = op'
          · subst heq
            rwa [hfirst]
          · simpa [env', heq] using henv [] op'
      have hrun := hall env' henv'
      simpa only [run, hfirst, List.nil_append, run_cons_eq fun _ _ => rfl] using hrun
    · exact Always.of_forall _ fun t a ht => absurd (ht _ List.mem_cons_self) hx

/-- When each operation has an answer in `good`, what holds of all runs against the
environments that answer within `good` is what holds of all sequences of such answers. -/
theorem forall_run_iff_always {good : Event Op Ans → Prop} (hgood : ∀ op, ∃ x, good ⟨op, x⟩)
    (p : Prog Op Ans α) (Q : Trace Op Ans → α → Prop) :
    (∀ env : Env Op Ans, (∀ h op, good ⟨op, env h op⟩) →
        ∀ h, Q (run env p h).2 (run env p h).1) ↔
      Always p fun t a => (∀ e ∈ t, good e) → Q t a := by
  constructor
  · exact fun hall => always_of_forall_run hgood fun env henv => hall env henv []
  · intro hp env henv h
    refine hp.run env h fun e he => ?_
    obtain ⟨h', hans⟩ := run_answers env p h e he
    have hgoodans := henv h' e.op
    rwa [← hans] at hgoodans

theorem forall_run_iff (hans : ∀ op, Nonempty (Ans op)) (p : Prog Op Ans α)
    (Q : Trace Op Ans → α → Prop) :
    (∀ (env : Env Op Ans) (h : Trace Op Ans), Q (run env p h).2 (run env p h).1) ↔
      Always p Q := by
  have hgood : ∀ op, ∃ _ : Ans op, True := fun op => (hans op).elim fun x => ⟨x, trivial⟩
  have h := @forall_run_iff_always _ _ _ (fun _ => True) hgood p Q
  simpa using h

/-- Some answers lead to the trace and the result. -/
def Gives : Prog Op Ans α → Trace Op Ans → α → Prop
  | .done a, t, b => t = [] ∧ a = b
  | .ask op next, t, b => ∃ x t', t = ⟨op, x⟩ :: t' ∧ (next x).Gives t' b

theorem Gives.pure (a : α) : Gives (pure a : Prog Op Ans α) [] a := ⟨rfl, rfl⟩

theorem Gives.perform (op : Op) (x : Ans op) :
    Gives (perform op : Prog Op Ans (Ans op)) [⟨op, x⟩] x := ⟨x, [], rfl, rfl, rfl⟩

theorem Gives.bind {p : Prog Op Ans α} {f : α → Prog Op Ans β} {t t' : Trace Op Ans} {a : α}
    {b : β} (hp : Gives p t a) (hf : Gives (f a) t' b) : Gives (p >>= f) (t ++ t') b := by
  change Gives (p.bind f) (t ++ t') b
  induction p generalizing t with
  | done c =>
    obtain ⟨rfl, rfl⟩ := hp
    exact hf
  | ask op next ih =>
    obtain ⟨x, u, rfl, hu⟩ := hp
    exact ⟨x, u ++ t', rfl, ih x hu⟩

theorem Gives.map {p : Prog Op Ans α} {t : Trace Op Ans} {a : α} (hp : Gives p t a)
    (f : α → β) : Gives (f <$> p) t (f a) := by
  have h := hp.bind (f := fun x => Pure.pure (f x)) (Gives.pure (f a))
  simpa using h

/-- What always holds holds of every possible course. -/
theorem Always.of_gives {p : Prog Op Ans α} {Q : Trace Op Ans → α → Prop} {t : Trace Op Ans}
    {a : α} (hp : Always p Q) (h : Gives p t a) : Q t a := by
  induction p generalizing Q t with
  | done b =>
    obtain ⟨rfl, rfl⟩ := h
    exact hp
  | ask op next ih =>
    obtain ⟨x, u, rfl, hu⟩ := h
    exact ih x (Q := fun t b => Q (⟨op, x⟩ :: t) b) (hp x) hu

/-- Every operation that the program performs satisfies `P`. -/
def Only (P : Op → Prop) (p : Prog Op Ans α) : Prop :=
  Always p fun t _ => ∀ e ∈ t, P e.op

theorem Only.pure {P : Op → Prop} (a : α) : Only P (pure a : Prog Op Ans α) := by
  simp [Only]

theorem Only.perform {P : Op → Prop} {op : Op} (h : P op) :
    Only P (perform op : Prog Op Ans (Ans op)) := by
  simp [Only, h]

theorem Only.bind {P : Op → Prop} {p : Prog Op Ans α} {f : α → Prog Op Ans β}
    (hp : Only P p) (hf : ∀ a, Only P (f a)) : Only P (p >>= f) := by
  unfold Only at *
  rw [always_bind]
  refine hp.mono fun t a ht => (hf a).mono fun t' b ht' e he => ?_
  cases List.mem_append.mp he with
  | inl he =>
    exact ht e he
  | inr he =>
    exact ht' e he

theorem Only.map {P : Op → Prop} {p : Prog Op Ans α} (hp : Only P p) (f : α → β) :
    Only P (f <$> p) := by
  unfold Only at *
  rwa [always_map]

theorem Only.mapM {P : Op → Prop} {f : α → Prog Op Ans β} (hf : ∀ a, Only P (f a))
    (as : List α) : Only P (as.mapM f) := by
  induction as with
  | nil => exact Only.pure []
  | cons a as ih =>
    rw [List.mapM_cons]
    exact (hf a).bind fun b => ih.bind fun bs => Only.pure (b :: bs)

theorem Only.mono {P P' : Op → Prop} {p : Prog Op Ans α} (hp : Only P p)
    (h : ∀ op, P op → P' op) : Only P' p :=
  Always.mono hp fun _ _ ht e he => h _ (ht e he)

/-- Environments that agree on the operations of a program give it the same run. -/
theorem Only.run_eq {P : Op → Prop} {p : Prog Op Ans α} (hp : Only P p) {env env' : Env Op Ans}
    (heq : ∀ h op, P op → env h op = env' h op) (h : Trace Op Ans) :
    run env p h = run env' p h := by
  induction p generalizing h with
  | done a => rfl
  | ask op next ih =>
    have hfirst : env h op = env' h op := heq h op <| by
      have hrun := Always.run hp env h
      exact hrun _ List.mem_cons_self
    have hnext : Only P (next (env h op)) :=
      Always.mono (hp (env h op)) fun _ _ ht e he => ht e (List.mem_cons_of_mem _ he)
    simp only [run, ih _ hnext, ← hfirst]

end Prog

abbrev Action (Op : Type) (Ans : Op → Type) (ε α : Type) := ExceptT ε (Prog Op Ans) α

namespace Action
open Prog

def ofExcept (r : Except ε α) : Action Op Ans ε α := ExceptT.mk (pure r)

/-- Rewrite the error of a failing action. -/
def mapErr (f : ε → ε') (p : Action Op Ans ε α) : Action Op Ans ε' α :=
  ExceptT.mk ((Except.mapError f) <$> p.run)

/-- A program whose answer may be an error. -/
def demand (f : ε → ε') (p : Prog Op Ans (Except ε α)) : Action Op Ans ε' α := do
  let x ← liftM p
  ofExcept (x.mapError f)

theorem ofExcept_map (r : Except ε α) (f : α → β) :
    (ofExcept (r.map f) : Action Op Ans ε β) = ofExcept r >>= fun a => pure (f a) := by
  cases r <;> rfl

theorem ofExcept_map_bind {γ : Type} (r : Except ε α) (f : α → β) (g : β → Action Op Ans ε γ) :
    ofExcept (r.map f) >>= g = ofExcept r >>= fun a => g (f a) := by
  cases r <;> rfl

@[simp] theorem always_pure (a : α) (Q : Trace Op Ans → Except ε α → Prop) :
    Always (pure a : Action Op Ans ε α).run Q ↔ Q [] (.ok a) := Iff.rfl

@[simp] theorem always_throw (e : ε) (Q : Trace Op Ans → Except ε α → Prop) :
    Always (throw e : Action Op Ans ε α).run Q ↔ Q [] (.error e) := Iff.rfl

@[simp] theorem always_ofExcept (r : Except ε α) (Q : Trace Op Ans → Except ε α → Prop) :
    Always (ofExcept r : Action Op Ans ε α).run Q ↔ Q [] r := Iff.rfl

@[simp] theorem always_lift (p : Prog Op Ans α) (Q : Trace Op Ans → Except ε α → Prop) :
    Always (liftM p : Action Op Ans ε α).run Q ↔ Always p fun t a => Q t (.ok a) :=
  always_map p Except.ok Q

@[simp] theorem always_mapErr (f : ε → ε') (p : Action Op Ans ε α)
    (Q : Trace Op Ans → Except ε' α → Prop) :
    Always (mapErr f p).run Q ↔ Always p.run fun t r => Q t (r.mapError f) :=
  always_map p.run (Except.mapError f) Q

/-- Sequencing: a failure of the first action ends the run. -/
theorem always_bind (p : Action Op Ans ε α) (f : α → Action Op Ans ε β)
    (Q : Trace Op Ans → Except ε β → Prop) :
    Always (p >>= f).run Q ↔ Always p.run fun t r =>
      match r with
      | .ok a => Always (f a).run fun t' r' => Q (t ++ t') r'
      | .error e => Q t (.error e) := by
  rw [ExceptT.run_bind, Prog.always_bind]
  constructor <;> intro hp <;> refine hp.mono fun t r hr => ?_ <;> cases r with
  | ok a => simpa using hr
  | error e => simpa [ExceptT.run_bind] using hr

/-- A success is an answer that is no error. -/
theorem always_demand {p : Prog Op Ans (Except ε α)} {R : Trace Op Ans → Except ε α → Prop}
    (hp : Always p R) (f : ε → ε') :
    Always (demand f p).run fun t r => ∀ a, r = .ok a → R t (.ok a) := by
  refine (always_bind _ _ _).mpr ((always_lift p _).mpr ?_)
  refine hp.mono fun t x hx => ?_
  cases x with
  | error e => exact fun _ h => nomatch h
  | ok a =>
    intro b h
    obtain rfl := Except.ok.inj h
    rwa [List.append_nil]

/-- The rule of sequencing: what holds of the first action leads to `Q` if it fails, and
is what the second one starts from if it succeeds. -/
theorem always_bind_of {p : Action Op Ans ε α} {f : α → Action Op Ans ε β}
    {R : Trace Op Ans → Except ε α → Prop} {Q : Trace Op Ans → Except ε β → Prop}
    (hp : Always p.run R) (herror : ∀ t e, R t (.error e) → Q t (.error e))
    (hok : ∀ t a, R t (.ok a) → Always (f a).run fun t' r => Q (t ++ t') r) :
    Always (p >>= f).run Q := by
  rw [always_bind]
  refine hp.mono fun t r hr => ?_
  cases r with
  | ok a => exact hok t a hr
  | error e => exact herror t e hr

theorem always_mapErr_bind_of {g : ε → ε'} {p : Action Op Ans ε α}
    {f : α → Action Op Ans ε' β} {R : Trace Op Ans → Except ε α → Prop}
    {Q : Trace Op Ans → Except ε' β → Prop} (hp : Always p.run R)
    (herror : ∀ t e, R t (.error e) → Q t (.error (g e)))
    (hok : ∀ t a, R t (.ok a) → Always (f a).run fun t' r => Q (t ++ t') r) :
    Always (mapErr g p >>= f).run Q := by
  rw [always_bind, always_mapErr]
  refine hp.mono fun t r hr => ?_
  cases r with
  | ok a => exact hok t a hr
  | error e => exact herror t e hr

theorem always_ofExcept_bind_of {x : Except ε α} {f : α → Action Op Ans ε β}
    {Q : Trace Op Ans → Except ε β → Prop} (herror : ∀ e, x = .error e → Q [] (.error e))
    (hok : ∀ a, x = .ok a → Always (f a).run Q) : Always (ofExcept x >>= f).run Q := by
  cases x with
  | ok a => exact hok a rfl
  | error e => exact herror e rfl

@[simp] theorem run_ofExcept (env : Env Op Ans) (r : Except ε α) (h : Trace Op Ans) :
    Prog.run env (ofExcept r : Action Op Ans ε α).run h = (r, []) := rfl

theorem run_lift (env : Env Op Ans) (p : Prog Op Ans α) (h : Trace Op Ans) :
    Prog.run env (liftM p : Action Op Ans ε α).run h =
      (.ok (Prog.run env p h).1, (Prog.run env p h).2) := Prog.run_map env p Except.ok h

theorem run_bind_ok {env : Env Op Ans} {p : Action Op Ans ε α} {f : α → Action Op Ans ε β}
    {h t : Trace Op Ans} {a : α} (hp : Prog.run env p.run h = (.ok a, t)) :
    Prog.run env (p >>= f).run h =
      ((Prog.run env (f a).run (h ++ t)).1, t ++ (Prog.run env (f a).run (h ++ t)).2) := by
  rw [ExceptT.run_bind, Prog.run_bind, hp]

theorem run_bind_error {env : Env Op Ans} {p : Action Op Ans ε α} {f : α → Action Op Ans ε β}
    {h t : Trace Op Ans} {e : ε} (hp : Prog.run env p.run h = (.error e, t)) :
    Prog.run env (p >>= f).run h = (.error e, t) := by
  rw [ExceptT.run_bind, Prog.run_bind, hp]
  simp

/-- A success goes through a success of the first action. -/
theorem exists_of_run_bind_ok {env : Env Op Ans} {p : Action Op Ans ε α}
    {f : α → Action Op Ans ε β} {h : Trace Op Ans} {b : β}
    (hrun : (Prog.run env (p >>= f).run h).1 = .ok b) :
    ∃ a h', (Prog.run env p.run h).1 = .ok a ∧ (Prog.run env (f a).run h').1 = .ok b := by
  cases hp : Prog.run env p.run h with
  | mk r t =>
    cases r with
    | error e =>
      rw [run_bind_error hp] at hrun
      cases hrun
    | ok a =>
      rw [run_bind_ok hp] at hrun
      exact ⟨a, h ++ t, rfl, hrun⟩

theorem run_ofExcept_bind (env : Env Op Ans) (r : Except ε α) (f : α → Action Op Ans ε β)
    (h : Trace Op Ans) :
    (Prog.run env (ofExcept r >>= f).run h).1 =
      r >>= fun a => (Prog.run env (f a).run h).1 := by
  cases r with
  | ok a =>
    rw [run_bind_ok (run_ofExcept env (.ok a) h), List.append_nil]
    rfl
  | error e =>
    rw [run_bind_error (run_ofExcept env (.error e) h)]
    rfl

theorem run_bind_ofExcept (env : Env Op Ans) (p : Action Op Ans ε α) (g : α → Except ε β)
    (h : Trace Op Ans) :
    (Prog.run env (p >>= fun a => ofExcept (g a)).run h).1 = (Prog.run env p.run h).1 >>= g := by
  rw [ExceptT.run_bind, Prog.run_bind]
  cases hp : (Prog.run env p.run h).1 with
  | ok a => rfl
  | error e => rfl

theorem gives_pure (a : α) : Gives (pure a : Action Op Ans ε α).run [] (.ok a) := ⟨rfl, rfl⟩

theorem gives_ofExcept (r : Except ε α) : Gives (ofExcept r : Action Op Ans ε α).run [] r :=
  ⟨rfl, rfl⟩

theorem gives_lift {p : Prog Op Ans α} {t : Trace Op Ans} {a : α} (hp : Gives p t a) :
    Gives (liftM p : Action Op Ans ε α).run t (.ok a) := hp.map Except.ok

theorem gives_mapErr {p : Action Op Ans ε α} {t : Trace Op Ans} {r : Except ε α}
    (hp : Gives p.run t r) (f : ε → ε') : Gives (mapErr f p).run t (r.mapError f) :=
  hp.map (Except.mapError f)

theorem gives_bind {p : Action Op Ans ε α} {f : α → Action Op Ans ε β} {t t' : Trace Op Ans}
    {a : α} {r : Except ε β} (hp : Gives p.run t (.ok a)) (hf : Gives (f a).run t' r) :
    Gives (p >>= f).run (t ++ t') r := by
  rw [ExceptT.run_bind]
  exact hp.bind hf

theorem gives_ofExcept_bind {x : Except ε α} {f : α → Action Op Ans ε β} {t : Trace Op Ans}
    {a : α} {r : Except ε β} (hx : x = .ok a) (hf : Gives (f a).run t r) :
    Gives (ofExcept x >>= f).run t r := by
  subst hx
  exact gives_bind (gives_ofExcept (.ok a)) hf

theorem gives_bind_ofExcept {p : Action Op Ans ε α} {t : Trace Op Ans} {r : Except ε α}
    (hp : Gives p.run t r) (g : α → Except ε β) :
    Gives (p >>= fun x => ofExcept (g x)).run t (r >>= g) := by
  rw [ExceptT.run_bind, ← List.append_nil t]
  refine hp.bind ?_
  cases r with
  | ok a => exact gives_ofExcept (g a)
  | error e => exact Gives.pure (Except.error e)

theorem gives_bind_pure {p : Action Op Ans ε α} {t : Trace Op Ans} {a : α}
    (hp : Gives p.run t (.ok a)) (g : α → β) :
    Gives (p >>= fun x => pure (g x)).run t (.ok (g a)) := by
  have h := gives_bind (f := fun x => pure (g x)) hp (gives_pure (g a))
  rwa [List.append_nil] at h

theorem only_ofExcept {P : Op → Prop} (r : Except ε α) :
    Only P (ofExcept r : Action Op Ans ε α).run := Only.pure r

theorem only_throw {P : Op → Prop} (e : ε) :
    Only P (throw e : Action Op Ans ε α).run := Only.pure _

theorem only_lift {P : Op → Prop} {p : Prog Op Ans α} (hp : Only P p) :
    Only P (liftM p : Action Op Ans ε α).run := hp.map Except.ok

theorem only_mapErr {P : Op → Prop} {p : Action Op Ans ε α} (hp : Only P p.run) (f : ε → ε') :
    Only P (mapErr f p).run := hp.map (Except.mapError f)

theorem only_bind {P : Op → Prop} {p : Action Op Ans ε α} {f : α → Action Op Ans ε β}
    (hp : Only P p.run) (hf : ∀ a, Only P (f a).run) : Only P (p >>= f).run := by
  rw [ExceptT.run_bind]
  refine hp.bind fun r => ?_
  cases r with
  | ok a => exact hf a
  | error e => exact Only.pure _

/-- A check that fails ends the action before the rest is performed. -/
theorem only_ofExcept_bind {P : Op → Prop} (r : Except ε α) {f : α → Action Op Ans ε β}
    (hf : ∀ a, r = .ok a → Only P (f a).run) : Only P (ofExcept r >>= f).run := by
  cases r with
  | ok a => exact hf a rfl
  | error e => exact Only.pure _

end Action

section Staged
open Prog
variable {W A : Type}

/-- The requests among the events, each with its answer. -/
def observed (obs : Event Op Ans → Option (W × A)) (t : Trace Op Ans) : List (W × A) :=
  t.filterMap obs

theorem observed_append (obs : Event Op Ans → Option (W × A)) (t t' : Trace Op Ans) :
    observed obs (t ++ t') = observed obs t ++ observed obs t' := List.filterMap_append

/-- Requests `ex` with outcome `r` that follow the plan `ws`: they are an initial part of
it, a bad answer comes last and means failure, success means that all were made. -/
structure Follows (good : A → Prop) (ws : List W) (ex : List (W × A)) (r : Except ε α) :
    Prop where
  order : ex.map Prod.fst <+: ws
  stops : ∀ u w a v, ex = u ++ (w, a) :: v → ¬ good a → v = [] ∧ ∀ x, r ≠ .ok x
  complete : ∀ x, r = .ok x → ex.map Prod.fst = ws

theorem Follows.nil (good : A → Prop) (r : Except ε α) :
    Follows good ([] : List W) [] r :=
  ⟨List.prefix_rfl, by simp, fun _ _ => rfl⟩

theorem Follows.single {good : A → Prop} (w : W) {a : A} {r : Except ε α}
    (h : ¬ good a → ∀ x, r ≠ .ok x) : Follows good [w] [(w, a)] r where
  order := List.prefix_rfl
  stops := by
    intro u w' a' v hex hbad
    cases u with
    | nil =>
      obtain ⟨⟨rfl, rfl⟩, rfl⟩ : (w = w' ∧ a = a') ∧ [] = v := by simpa using hex
      exact ⟨rfl, h hbad⟩
    | cons y u => simp at hex
  complete := fun _ _ => rfl

/-- A failure keeps following every longer plan. -/
theorem Follows.error_append {good : A → Prop} {ws vs : List W} {ex : List (W × A)} {e : ε}
    (h : Follows good ws ex (.error e : Except ε α)) :
    Follows good (ws ++ vs) ex (.error e : Except ε β) where
  order := h.order.trans (List.prefix_append ws vs)
  stops := fun u w a v hex hbad => ⟨(h.stops u w a v hex hbad).1, by simp⟩
  complete := by simp

theorem Follows.append {good : A → Prop} {ws vs : List W} {ex ex' : List (W × A)} {x : α}
    {r : Except ε β} (h : Follows good ws ex (.ok x : Except ε α)) (h' : Follows good vs ex' r) :
    Follows good (ws ++ vs) (ex ++ ex') r where
  order := by simpa [h.complete x rfl] using h'.order
  stops := by
    intro u w a v hex hbad
    rcases List.append_eq_append_iff.mp hex with ⟨m, -, hv⟩ | ⟨m, hex0, hv⟩
    · exact h'.stops m w a v hv hbad
    · cases m with
      | nil => exact h'.stops [] w a v (by simpa using hv.symm) hbad
      | cons y m =>
        obtain ⟨rfl, rfl⟩ : (w, a) = y ∧ v = m ++ ex' := by simpa using hv
        exact absurd rfl ((h.stops u w a m hex0 hbad).2 x)
  complete := fun y hy => by simp [h.complete x rfl, h'.complete y hy]

/-- In a run that follows a plan, every answer but the last is good. -/
theorem Follows.good_of_next {good : A → Prop} {ws : List W} {ex : List (W × A)}
    {r : Except ε α} (h : Follows good ws ex r) {u v : List (W × A)} {w : W} {a : A}
    (hex : ex = u ++ (w, a) :: v) (hv : v ≠ []) : good a := by
  by_contra hbad
  exact hv (h.stops u w a v hex hbad).1

/-- In a successful run, every answer is good. -/
theorem Follows.good_of_ok {good : A → Prop} {ws : List W} {ex : List (W × A)} {x : α}
    (h : Follows good ws ex (.ok x : Except ε α)) : ∀ p ∈ ex, good p.2 := by
  intro p hp
  obtain ⟨u, v, hex⟩ := List.append_of_mem hp
  by_contra hbad
  exact (h.stops u p.1 p.2 v hex hbad).2 x rfl

/-- The requests of a fixed list, each made only after the one before it was answered well. -/
def Staged (obs : Event Op Ans → Option (W × A)) (good : A → Prop)
    (p : Action Op Ans ε α) (ws : List W) : Prop :=
  Always p.run fun t r => Follows good ws (observed obs t) r

theorem Staged.silent {obs : Event Op Ans → Option (W × A)} {good : A → Prop}
    {p : Action Op Ans ε α} (hp : Always p.run fun t _ => observed obs t = []) :
    Staged obs good p [] :=
  hp.mono fun t r ht => by rw [ht]; exact Follows.nil good r

theorem Staged.throw {obs : Event Op Ans → Option (W × A)} {good : A → Prop} (e : ε)
    (ws : List W) : Staged obs good (throw e : Action Op Ans ε α) ws :=
  (Follows.nil good (.error e : Except ε α)).error_append

theorem Staged.bind {obs : Event Op Ans → Option (W × A)} {good : A → Prop}
    {p : Action Op Ans ε α} {f : α → Action Op Ans ε β} {ws vs : List W}
    (hp : Staged obs good p ws) (hf : ∀ a, Staged obs good (f a) vs) :
    Staged obs good (p >>= f) (ws ++ vs) := by
  refine Action.always_bind_of hp (fun t e ht => ht.error_append) fun t a ht => ?_
  refine Always.mono (hf a) fun t' r' ht' => ?_
  rw [observed_append]
  exact ht.append ht'

/-- A check that may fail adds no request. -/
theorem Staged.ofExcept_bind {obs : Event Op Ans → Option (W × A)} {good : A → Prop}
    (x : Except ε α) {f : α → Action Op Ans ε β} {ws : List W}
    (hf : ∀ a, x = .ok a → Staged obs good (f a) ws) :
    Staged obs good (Action.ofExcept x >>= f) ws :=
  Action.always_ofExcept_bind_of
    (fun e _ => (Follows.nil good (.error e : Except ε α)).error_append) hf

/-- A successful result stands in the relation `reads` to the last request and its answer. -/
def FromLast (obs : Event Op Ans → Option (W × A)) (reads : W → A → α → Prop)
    (p : Action Op Ans ε α) : Prop :=
  Always p.run fun t r => ∀ x, r = .ok x →
    ∃ u w a, observed obs t = u ++ [(w, a)] ∧ reads w a x

theorem FromLast.mono {obs : Event Op Ans → Option (W × A)} {reads reads' : W → A → α → Prop}
    {p : Action Op Ans ε α} (hp : FromLast obs reads p)
    (h : ∀ w a x, reads w a x → reads' w a x) : FromLast obs reads' p :=
  Always.mono hp fun _ _ hr x hx =>
    let ⟨u, w, a, hu, ha⟩ := hr x hx
    ⟨u, w, a, hu, h w a x ha⟩

theorem FromLast.bind {obs : Event Op Ans → Option (W × A)} {reads : W → A → β → Prop}
    (p : Action Op Ans ε α) {f : α → Action Op Ans ε β} (hf : ∀ a, FromLast obs reads (f a)) :
    FromLast obs reads (p >>= f) := by
  have htrue : Always p.run fun _ _ => True := Always.of_forall p.run fun _ _ => trivial
  refine Action.always_bind_of htrue (fun _ _ _ _ h => nomatch h) fun t a _ => ?_
  refine Always.mono (hf a) fun t' r' hr x hx => ?_
  obtain ⟨u, w, b, hu, hb⟩ := hr x hx
  exact ⟨observed obs t ++ u, w, b, by rw [observed_append, hu, List.append_assoc], hb⟩

theorem FromLast.ofExcept_bind {obs : Event Op Ans → Option (W × A)} {reads : W → A → β → Prop}
    (x : Except ε α) {f : α → Action Op Ans ε β}
    (hf : ∀ a, x = .ok a → FromLast obs reads (f a)) :
    FromLast obs reads (Action.ofExcept x >>= f) :=
  Action.always_ofExcept_bind_of (fun _ _ _ h => nomatch h) hf

theorem FromLast.throw {obs : Event Op Ans → Option (W × A)} {reads : W → A → α → Prop} (e : ε) :
    FromLast obs reads (throw e : Action Op Ans ε α) := by
  intro x hx
  simp at hx

/-- Reading the result of an action further is reading its last answer further. -/
theorem FromLast.ofExcept {obs : Event Op Ans → Option (W × A)} {reads : W → A → α → Prop}
    {p : Action Op Ans ε α} (hp : FromLast obs reads p) (g : α → Except ε β) :
    FromLast obs (fun w a y => ∃ x, reads w a x ∧ g x = .ok y)
      (p >>= fun x => Action.ofExcept (g x)) := by
  refine Action.always_bind_of hp (fun _ _ _ _ h => nomatch h) fun t x hr => ?_
  rw [Action.always_ofExcept, List.append_nil]
  intro y hy
  obtain ⟨u, w, a, hu, ha⟩ := hr x rfl
  exact ⟨u, w, a, hu, x, ha, hy⟩

/-- No answer to the operation is one to a request in `final`. -/
def Avoids (obs : Event Op Ans → Option (W × A)) (final : W → Prop) (op : Op) : Prop :=
  ∀ x w a, obs ⟨op, x⟩ = some (w, a) → ¬ final w

/-- What `reads` reads off the answer to a request in `final` is the result. -/
def Settles (obs : Event Op Ans → Option (W × A)) (final : W → Prop) (reads : W → A → α → Prop)
    (p : Action Op Ans ε α) : Prop :=
  Always p.run fun t r =>
    ∀ w a, (w, a) ∈ observed obs t → final w → ∀ x, reads w a x → r = .ok x

theorem not_final_of_avoids {obs : Event Op Ans → Option (W × A)} {final : W → Prop}
    {t : Trace Op Ans} (ht : ∀ e ∈ t, Avoids obs final e.op) {w : W} {a : A}
    (h : (w, a) ∈ observed obs t) : ¬ final w := by
  obtain ⟨e, he, hobs⟩ := List.mem_filterMap.mp h
  exact ht e he e.ans w a hobs

theorem Settles.of_only {obs : Event Op Ans → Option (W × A)} {final : W → Prop}
    {reads : W → A → α → Prop} {p : Action Op Ans ε α} (hp : Only (Avoids obs final) p.run) :
    Settles obs final reads p :=
  Always.mono hp fun _ _ ht _ _ h hfinal => absurd hfinal (not_final_of_avoids ht h)

/-- Behind other requests, the final one still settles the result. -/
theorem Settles.bind {obs : Event Op Ans → Option (W × A)} {final : W → Prop}
    {reads : W → A → β → Prop} {p : Action Op Ans ε α} {f : α → Action Op Ans ε β}
    (hp : Only (Avoids obs final) p.run) (hf : ∀ a, Settles obs final reads (f a)) :
    Settles obs final reads (p >>= f) := by
  apply Action.always_bind_of hp
  · intro t e ht w a h hfinal
    exact absurd hfinal (not_final_of_avoids ht h)
  · intro t y ht
    refine Always.mono (hf y) fun t' r hr w a h hfinal => ?_
    rw [observed_append] at h
    cases List.mem_append.mp h with
    | inl hbefore => exact absurd hfinal (not_final_of_avoids ht hbefore)
    | inr hbehind => exact hr w a hbehind hfinal

theorem Settles.ofExcept_bind {obs : Event Op Ans → Option (W × A)} {final : W → Prop}
    {reads : W → A → β → Prop} {x : Except ε α} {f : α → Action Op Ans ε β}
    (hf : ∀ a, x = .ok a → Settles obs final reads (f a)) :
    Settles obs final reads (Action.ofExcept x >>= f) := by
  apply Action.always_ofExcept_bind_of
  · intro e _ w a h
    cases h
  · exact hf

/-- Reading the result further is reading the final answer further. -/
theorem Settles.ofExcept {obs : Event Op Ans → Option (W × A)} {final : W → Prop}
    {reads : W → A → α → Prop} {p : Action Op Ans ε α} (hp : Settles obs final reads p)
    (g : α → Except ε β) :
    Settles obs final (fun w a y => ∃ x, reads w a x ∧ g x = .ok y)
      (p >>= fun x => Action.ofExcept (g x)) := by
  apply Action.always_bind_of hp
  · intro t e hr w a h hfinal y hy
    obtain ⟨x, hx, -⟩ := hy
    cases hr w a h hfinal x hx
  · intro t z hr
    rw [Action.always_ofExcept, List.append_nil]
    intro w a h hfinal y hy
    obtain ⟨x, hx, hg⟩ := hy
    obtain rfl := Except.ok.inj (hr w a h hfinal x hx)
    exact hg

theorem Settles.mapErr {obs : Event Op Ans → Option (W × A)} {final : W → Prop}
    {reads : W → A → α → Prop} {p : Action Op Ans ε α} (hp : Settles obs final reads p)
    (g : ε → ε') : Settles obs final reads (Action.mapErr g p) := by
  unfold Settles
  rw [Action.always_mapErr]
  refine Always.mono hp fun t r hr w a h hfinal x hx => ?_
  rw [hr w a h hfinal x hx]
  rfl

theorem Settles.mono {obs : Event Op Ans → Option (W × A)} {final : W → Prop}
    {reads reads' : W → A → α → Prop} {p : Action Op Ans ε α} (hp : Settles obs final reads p)
    (h : ∀ w a x, reads' w a x → reads w a x) : Settles obs final reads' p :=
  Always.mono hp fun _ _ hr w a hmem hfinal x hx => hr w a hmem hfinal x (h w a x hx)

end Staged
end Interaction
