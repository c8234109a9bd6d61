import YubiWallet.Lib.Interaction

/-! Requests that keep to a protocol, whatever the answers are: each one is allowed in the
state that the requests before it and their answers have led to. -/
namespace Interaction
open Prog
variable {Op : Type} {Ans : Op → Type} {α β ε ε' S W A : Type}

/-- The requests that a state allows, and the state behind a request and its answer. -/
structure Protocol (S W A : Type) where
  Allows : S → W → Prop
  next : S → W × A → S

namespace Protocol
variable (P : Protocol S W A)

def after (s : S) (ex : List (W × A)) : S := ex.foldl P.next s

/-- Each request is allowed where it is made. -/
def Keeps : S → List (W × A) → Prop
  | _, [] => True
  | s, e :: ex => P.Allows s e.1 ∧ Keeps (P.next s e) ex

theorem after_append (s : S) (ex ex' : List (W × A)) :
    P.after s (ex ++ ex') = P.after (P.after s ex) ex' := List.foldl_append

theorem keeps_append (s : S) (ex ex' : List (W × A)) :
    P.Keeps s (ex ++ ex') ↔ P.Keeps s ex ∧ P.Keeps (P.after s ex) ex' := by
  induction ex generalizing s with
  | nil =>
    rw [List.nil_append]
    exact (and_iff_right trivial).symm
  | cons e ex ih =>
    change P.Allows s e.1 ∧ P.Keeps (P.next s e) (ex ++ ex') ↔ _
    rw [ih, ← and_assoc]
    rfl

/-- Requests that are allowed in a state and do not change it. -/
theorem keeps_of_steady {s : S} {ex : List (W × A)}
    (h : ∀ e ∈ ex, P.Allows s e.1 ∧ P.next s e = s) : P.Keeps s ex ∧ P.after s ex = s := by
  induction ex with
  | nil => exact ⟨trivial, rfl⟩
  | cons e ex ih =>
    obtain ⟨hallows, hnext⟩ := h e List.mem_cons_self
    obtain ⟨hkeeps, hafter⟩ := ih fun e' he' => h e' (List.mem_cons_of_mem _ he')
    refine ⟨⟨hallows, ?_⟩, ?_⟩
    · rwa [hnext]
    · change P.after (P.next s e) ex = s
      rwa [hnext]

variable (obs : Event Op Ans → Option (W × A))

/-- The action keeps to the protocol from `s` on, and leads to `s'` if it succeeds. -/
def Leads (s : S) (p : Action Op Ans ε α) (s' : S) : Prop :=
  Always p.run fun t r =>
    P.Keeps s (observed obs t) ∧ ∀ a, r = .ok a → P.after s (observed obs t) = s'

/-- The program keeps to the protocol in whatever state it begins. -/
def Everywhere (p : Prog Op Ans α) : Prop := ∀ s, Always p fun t _ => P.Keeps s (observed obs t)

variable {P} {obs} {s s' s'' : S}

namespace Leads

theorem bind {p : Action Op Ans ε α} {f : α → Action Op Ans ε β} (hp : P.Leads obs s p s')
    (hf : ∀ a, P.Leads obs s' (f a) s'') : P.Leads obs s (p >>= f) s'' := by
  refine Action.always_bind_of hp (fun t e ht => ⟨ht.1, fun _ h => nomatch h⟩) fun t a ht => ?_
  obtain ⟨hkeeps, hafter⟩ := ht
  have hmid := hafter a rfl
  refine Always.mono (hf a) fun t' r ht' => ?_
  rw [observed_append, keeps_append, after_append, hmid]
  exact ⟨⟨hkeeps, ht'.1⟩, ht'.2⟩

theorem ofExcept_bind (x : Except ε α) {f : α → Action Op Ans ε β}
    (hf : ∀ a, x = .ok a → P.Leads obs s (f a) s') :
    P.Leads obs s (Action.ofExcept x >>= f) s' :=
  Action.always_ofExcept_bind_of (fun _ _ => ⟨trivial, fun _ h => nomatch h⟩) hf

/-- Operations that are no requests, or requests that leave the state as it is. -/
theorem steady {Q : Op → Prop} {p : Action Op Ans ε α} (hp : Only Q p.run)
    (hsteady : ∀ op x e, Q op → obs ⟨op, x⟩ = some e → P.Allows s e.1 ∧ P.next s e = s) :
    P.Leads obs s p s := by
  refine Always.mono hp fun t r ht => ?_
  have hall : ∀ e ∈ observed obs t, P.Allows s e.1 ∧ P.next s e = s := by
    intro e he
    obtain ⟨ev, hev, hobs⟩ := List.mem_filterMap.mp he
    exact hsteady ev.op ev.ans e (ht ev hev) hobs
  obtain ⟨hkeeps, hafter⟩ := P.keeps_of_steady hall
  exact ⟨hkeeps, fun _ _ => hafter⟩

theorem pure (a : α) : P.Leads obs s (Pure.pure a : Action Op Ans ε α) s :=
  ⟨trivial, fun _ _ => rfl⟩

theorem ofExcept (x : Except ε α) : P.Leads obs s (Action.ofExcept x : Action Op Ans ε α) s :=
  ⟨trivial, fun _ _ => rfl⟩

theorem throw (e : ε) : P.Leads obs s (MonadExcept.throw e : Action Op Ans ε α) s :=
  ⟨trivial, fun _ h => nomatch h⟩

end Leads

namespace Everywhere

theorem of_leads {p : Action Op Ans ε α} (hp : ∀ s, P.Leads obs s p s') :
    P.Everywhere obs p.run := fun s => Always.mono (hp s) fun _ _ h => h.1

theorem pure (a : α) : P.Everywhere obs (Pure.pure a : Prog Op Ans α) := fun _ => trivial

theorem bind {p : Prog Op Ans α} {f : α → Prog Op Ans β} (hp : P.Everywhere obs p)
    (hf : ∀ a, P.Everywhere obs (f a)) : P.Everywhere obs (p >>= f) := by
  intro s
  rw [always_bind]
  refine (hp s).mono fun t a ht => ?_
  refine (hf a (P.after s (observed obs t))).mono fun t' b ht' => ?_
  rw [observed_append, keeps_append]
  exact ⟨ht, ht'⟩

theorem map {p : Prog Op Ans α} (hp : P.Everywhere obs p) (f : α → β) :
    P.Everywhere obs (f <$> p) := by
  intro s
  rw [always_map]
  exact hp s

theorem mapM {f : α → Prog Op Ans β} (hf : ∀ a, P.Everywhere obs (f a)) (as : List α) :
    P.Everywhere obs (as.mapM f) := by
  induction as with
  | nil => exact Everywhere.pure []
  | cons a as ih =>
    rw [List.mapM_cons]
    exact (hf a).bind fun b => ih.bind fun bs => Everywhere.pure (b :: bs)

/-- Operations that are no requests. -/
theorem silent {Q : Op → Prop} {p : Prog Op Ans α} (hp : Only Q p)
    (hsilent : ∀ op x, Q op → obs ⟨op, x⟩ = none) : P.Everywhere obs p := by
  refine fun s => Always.mono hp fun t _ ht => ?_
  have hnil : observed obs t = [] :=
    List.filterMap_eq_nil_iff.mpr fun e he => hsilent e.op e.ans (ht e he)
  rw [hnil]
  trivial

theorem bind_action {p : Action Op Ans ε α} {f : α → Action Op Ans ε β}
    (hp : P.Everywhere obs p.run) (hf : ∀ a, P.Everywhere obs (f a).run) :
    P.Everywhere obs (p >>= f).run := by
  rw [ExceptT.run_bind]
  refine hp.bind fun r => ?_
  cases r with
  | ok a => exact hf a
  | error e => exact Everywhere.pure _

theorem ofExcept_bind (x : Except ε α) {f : α → Action Op Ans ε β}
    (hf : ∀ a, P.Everywhere obs (f a).run) :
    P.Everywhere obs (Action.ofExcept x >>= f).run :=
  bind_action (Everywhere.pure x) hf

end Everywhere

end Protocol
end Interaction
