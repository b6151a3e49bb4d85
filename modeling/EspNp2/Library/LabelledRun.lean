import Mathlib.Algebra.Group.Nat.Defs
import Mathlib.Data.List.Induction

/-!
Runs of a labelled transition system, with the labels of a run as a list that
grows at its end.
-/

namespace EspNp2.Library.LabelledRun

variable {State Label : Type*} {step : State → Label → State → Prop}

inductive Run (step : State → Label → State → Prop) : State → List Label → State → Prop
  | nil (state : State) : Run step state [] state
  | snoc {start middle last : State} {labels : List Label} {label : Label} :
      Run step start labels middle → step middle label last →
      Run step start (labels ++ [label]) last

theorem run_nil_iff {start last : State} : Run step start [] last ↔ start = last := by
  constructor
  · intro h
    generalize hlabels : ([] : List Label) = labels at h
    cases h with
    | nil => rfl
    | snoc _ _ => simp at hlabels
  · rintro rfl
    exact .nil start

theorem run_snoc_iff {start last : State} {labels : List Label} {label : Label} :
    Run step start (labels ++ [label]) last ↔
      ∃ middle, Run step start labels middle ∧ step middle label last := by
  constructor
  · intro h
    generalize hlabels : labels ++ [label] = all at h
    cases h with
    | nil => simp at hlabels
    | snoc hrun hstep =>
        obtain ⟨rfl, hlabel⟩ := List.append_inj' hlabels rfl
        obtain rfl : label = _ := by simpa using hlabel
        exact ⟨_, hrun, hstep⟩
  · rintro ⟨middle, hrun, hstep⟩
    exact .snoc hrun hstep

theorem run_append_iff {start last : State} {left right : List Label} :
    Run step start (left ++ right) last ↔
      ∃ middle, Run step start left middle ∧ Run step middle right last := by
  induction right using List.reverseRecOn generalizing last with
  | nil => simp [run_nil_iff]
  | append_singleton right label ih =>
      rw [← List.append_assoc, run_snoc_iff]
      simp only [ih, run_snoc_iff]
      constructor
      · rintro ⟨state, ⟨middle, hleft, hright⟩, hstep⟩
        exact ⟨middle, hleft, state, hright, hstep⟩
      · rintro ⟨middle, hleft, state, hright, hstep⟩
        exact ⟨state, ⟨middle, hleft, hright⟩, hstep⟩

theorem run_cons_iff {start last : State} {label : Label} {labels : List Label} :
    Run step start (label :: labels) last ↔
      ∃ middle, step start label middle ∧ Run step middle labels last := by
  have hone : ∀ middle, Run step start ([] ++ [label]) middle ↔ step start label middle := by
    intro middle
    simp only [run_snoc_iff, run_nil_iff, exists_eq_left']
  rw [show label :: labels = ([] ++ [label]) ++ labels from rfl, run_append_iff]
  simp only [hone]

/-- An invariant of the labels and the state a run has reached. -/
theorem Run.invariant {start last : State} {labels : List Label}
    {P : List Label → State → Prop} (h : Run step start labels last) (hstart : P [] start)
    (hstep : ∀ labels state label next, P labels state → step state label next →
      P (labels ++ [label]) next) : P labels last := by
  induction h with
  | nil => exact hstart
  | snoc hrun hnext ih => exact hstep _ _ _ _ ih hnext

/-- `P` relates every label to the labels before it. -/
def AtEach (P : List Label → Label → Prop) (labels : List Label) : Prop :=
  ∀ before label after, labels = before ++ label :: after → P before label

theorem atEach_nil (P : List Label → Label → Prop) : AtEach P [] := by
  intro before label after hsplit
  simp at hsplit

theorem atEach_snoc_iff {P : List Label → Label → Prop} {labels : List Label} {last : Label} :
    AtEach P (labels ++ [last]) ↔ AtEach P labels ∧ P labels last := by
  constructor
  · intro h
    refine ⟨fun before label after hsplit => ?_, h labels last [] rfl⟩
    exact h before label (after ++ [last]) (by simp [hsplit])
  · rintro ⟨h, hlast⟩ before label after hsplit
    rcases List.eq_nil_or_concat after with rfl | ⟨after, final, rfl⟩
    · obtain ⟨rfl, hlabel⟩ := List.append_inj' hsplit rfl
      obtain rfl : last = label := by simpa using hlabel
      exact hlast
    · rw [List.concat_eq_append, ← List.cons_append, ← List.append_assoc] at hsplit
      obtain ⟨rfl, -⟩ := List.append_inj' hsplit rfl
      exact h before label after rfl

end EspNp2.Library.LabelledRun
