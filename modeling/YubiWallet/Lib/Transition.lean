import Mathlib.Logic.Relation

/-! Labelled transition systems and the properties that hold along their runs. -/
namespace Transition
variable {S L : Type}

/-- `Run step s ls t`: the labels `ls`, taken in order, lead from `s` to `t`. -/
inductive Run (step : S → L → S → Prop) : S → List L → S → Prop
  | nil (s : S) : Run step s [] s
  | snoc {s t u : S} {ls : List L} {l : L} :
      Run step s ls t → step t l u → Run step s (ls ++ [l]) u

/-- What holds at the start and is kept by every step holds at the end of every run. -/
theorem Run.invariant {step : S → L → S → Prop} {I : S → Prop} {s t : S} {ls : List L}
    (h : Run step s ls t) (h0 : I s) (hstep : ∀ s l t, I s → step s l t → I t) : I t := by
  induction h with
  | nil => exact h0
  | snoc _ hl ih => exact hstep _ _ _ ih hl

theorem Run.append {step : S → L → S → Prop} {s t u : S} {ls ls' : List L}
    (h : Run step s ls t) (h' : Run step t ls' u) : Run step s (ls ++ ls') u := by
  induction h' with
  | nil =>
    rw [List.append_nil]
    exact h
  | snoc _ hl ih =>
    rw [← List.append_assoc]
    exact ih.snoc hl

/-- A run to a good state stays within the good states, when no step leads back into them. -/
theorem Run.within {step : S → L → S → Prop} {good : S → Prop}
    (hback : ∀ s l t, step s l t → good t → good s) {s t : S} {ls : List L}
    (h : Run step s ls t) (ht : good t) : Run (fun s l t => step s l t ∧ good t) s ls t := by
  induction h with
  | nil => exact Run.nil _
  | snoc _ hl ih => exact (ih (hback _ _ _ hl ht)).snoc ⟨hl, ht⟩

/-- Forward simulation: when each step can be followed by a run of the other system, each run
can be. -/
theorem Run.simulate {S' L' : Type} {step : S → L → S → Prop} {step' : S' → L' → S' → Prop}
    {R : S → S' → Prop}
    (hstep : ∀ s l t s', R s s' → step s l t → ∃ ls t', Run step' s' ls t' ∧ R t t')
    {s t : S} {ls : List L} (h : Run step s ls t) {s' : S'} (hs : R s s') :
    ∃ ls' t', Run step' s' ls' t' ∧ R t t' := by
  induction h with
  | nil => exact ⟨[], s', Run.nil _, hs⟩
  | snoc _ hl ih =>
    obtain ⟨ls', t', hrun, ht⟩ := ih
    obtain ⟨more, u', hmore, hu⟩ := hstep _ _ _ _ ht hl
    exact ⟨ls' ++ more, u', hrun.append hmore, hu⟩

end Transition
