import YubiWallet.Lib.Interaction

/-! Programs that work with two worlds. A program for one of them is a program for both,
and what it does in its own world is what it does alone. -/
namespace Interaction
variable {Op Op' : Type} {Ans : Op → Type} {Ans' : Op' → Type} {α β ε : Type}

/-- Each operation is answered as in its own world. -/
abbrev Either (Ans : Op → Type) (Ans' : Op' → Type) : Op ⊕ Op' → Type := Sum.elim Ans Ans'

namespace Event

def inl (e : Event Op Ans) : Event (Op ⊕ Op') (Either Ans Ans') := ⟨.inl e.op, e.ans⟩

def inr (e : Event Op' Ans') : Event (Op ⊕ Op') (Either Ans Ans') := ⟨.inr e.op, e.ans⟩

end Event

namespace Prog

def inl : Prog Op Ans α → Prog (Op ⊕ Op') (Either Ans Ans') α
  | .done a => .done a
  | .ask op next => .ask (.inl op) fun x => (next x).inl

/-- An operation of the second world. -/
def request (op : Op') : Prog (Op ⊕ Op') (Either Ans Ans') (Ans' op) :=
  @perform (Op ⊕ Op') (Either Ans Ans') (.inr op)

theorem always_request (op : Op') :
    Always (request op : Prog (Op ⊕ Op') (Either Ans Ans') (Ans' op)) fun t x =>
      t = [Event.inr ⟨op, x⟩] := fun _ => rfl

theorem always_inl (p : Prog Op Ans α) (Q : Trace (Op ⊕ Op') (Either Ans Ans') → α → Prop) :
    Always p.inl Q ↔ Always p fun t a => Q (t.map Event.inl) a := by
  induction p generalizing Q with
  | done a => exact Iff.rfl
  | ask op next ih => exact forall_congr' fun x => ih x fun t a => Q (Event.inl ⟨op, x⟩ :: t) a

end Prog

namespace Action

def inl (p : Action Op Ans ε α) : Action (Op ⊕ Op') (Either Ans Ans') ε α := ExceptT.mk p.run.inl

@[simp] theorem always_inl (p : Action Op Ans ε α)
    (Q : Trace (Op ⊕ Op') (Either Ans Ans') → Except ε α → Prop) :
    Prog.Always p.inl.run Q ↔ Prog.Always p.run fun t r => Q (t.map Event.inl) r :=
  Prog.always_inl p.run Q

theorem always_inl_of {p : Action Op Ans ε α} {R : Trace Op Ans → Except ε α → Prop}
    (hp : Prog.Always p.run R) :
    Prog.Always (p.inl : Action (Op ⊕ Op') (Either Ans Ans') ε α).run fun t r =>
      ∃ u, t = u.map Event.inl ∧ R u r :=
  (always_inl p _).mpr (hp.mono fun u _ hu => ⟨u, rfl, hu⟩)

end Action
end Interaction
