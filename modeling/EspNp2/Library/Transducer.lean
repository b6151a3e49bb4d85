import Mathlib.Data.List.Basic
import Mathlib.Data.List.Induction

/-!
Machines that read one input at a time and answer each with a list of outputs.
-/

namespace EspNp2.Library.Transducer

variable {State Input Output : Type*}

/-- The state after a list of inputs, with all outputs in order. -/
def run (step : State → Input → State × List Output) : State → List Input → State × List Output
  | s, [] => (s, [])
  | s, input :: rest =>
      let (next, outputs) := step s input
      let (last, more) := run step next rest
      (last, outputs ++ more)

variable (step : State → Input → State × List Output)

@[simp] theorem run_nil (s : State) : run step s [] = (s, []) := rfl

theorem run_cons (s : State) (input : Input) (rest : List Input) :
    run step s (input :: rest) =
      ((run step (step s input).1 rest).1,
        (step s input).2 ++ (run step (step s input).1 rest).2) :=
  rfl

theorem run_append (s : State) (left right : List Input) :
    run step s (left ++ right) =
      ((run step (run step s left).1 right).1,
        (run step s left).2 ++ (run step (run step s left).1 right).2) := by
  induction left generalizing s with
  | nil => rfl
  | cons input left ih => rw [List.cons_append, run_cons, run_cons, ih, List.append_assoc]

/-- Running over blocks is running over their concatenation. -/
theorem run_blocks {Block : Type*} (expand : Block → List Input) (s : State)
    (blocks : List Block) :
    run (fun s block => run step s (expand block)) s blocks =
      run step s (blocks.flatMap expand) := by
  induction blocks generalizing s with
  | nil => rfl
  | cons block blocks ih => rw [List.flatMap_cons, run_append, run_cons, ih]

/-- An invariant of the state. -/
theorem run_invariant {P : State → Prop} (hstep : ∀ s input, P s → P (step s input).1)
    {s : State} (h : P s) (inputs : List Input) : P (run step s inputs).1 := by
  induction inputs generalizing s with
  | nil => exact h
  | cons input inputs ih => exact ih (hstep s input h)

/-- An invariant of the state, of the inputs read so far and of their outputs. -/
theorem run_history {P : State → List Input → List Output → Prop}
    (hstep : ∀ s past out input, P s past out →
      P (step s input).1 (past ++ [input]) (out ++ (step s input).2))
    {s : State} (h : P s [] []) (inputs : List Input) :
    P (run step s inputs).1 inputs (run step s inputs).2 := by
  induction inputs using List.reverseRecOn with
  | nil => exact h
  | append_singleton inputs input ih =>
      rw [run_append, run_cons, run_nil, List.append_nil]
      exact hstep _ _ _ input ih

end EspNp2.Library.Transducer
