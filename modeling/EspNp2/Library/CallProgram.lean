import EspNp2.Library.LabelledRun

/-!
Programs that make calls to an environment and go on with its replies. A program may
be stopped between any two calls; `Safe` says what holds at every such point and what
holds when the program returns, whatever the environment replies.
-/

namespace EspNp2.Library.CallProgram

open EspNp2.Library.LabelledRun

inductive Program (Call : Type) (Reply : Call → Type) (α : Type) where
  | done (value : α)
  | call (request : Call) (next : Reply request → Program Call Reply α)

variable {Call : Type} {Reply : Call → Type} {State α β : Type}

namespace Program

def bind : Program Call Reply α → (α → Program Call Reply β) → Program Call Reply β
  | .done value, rest => rest value
  | .call request next, rest => .call request fun reply => (next reply).bind rest

instance : Monad (Program Call Reply) where
  pure := .done
  bind := bind

end Program

/-- One call. -/
def perform (request : Call) : Program Call Reply (Reply request) := .call request .done

/-- The value of a program that makes no further call. -/
def Program.value? : Program Call Reply α → Option α
  | .done value => some value
  | .call .. => none

theorem Program.eq_done {p : Program Call Reply α} {value : α} (h : p.value? = some value) :
    p = .done value := by
  cases p with
  | done value' => rw [Option.some.inj h]
  | call request next => cases h

/-- A call with its reply. -/
abbrev Label (Call : Type) (Reply : Call → Type) := (request : Call) × Reply request

variable (answers : State → (request : Call) → Reply request → State → Prop)

/-- The environment answers the next call of a program. -/
inductive Step : Program Call Reply α × State → Label Call Reply →
    Program Call Reply α × State → Prop
  | call {request : Call} {next : Reply request → Program Call Reply α} {reply : Reply request}
      {state state' : State} (h : answers state request reply state') :
      Step (.call request next, state) ⟨request, reply⟩ (next reply, state')

/-- `between` holds whenever the program is stopped, and `after` when it returns. -/
def Safe (between : List (Label Call Reply) → State → Prop)
    (after : List (Label Call Reply) → α → State → Prop) (trace : List (Label Call Reply)) :
    Program Call Reply α → State → Prop
  | .done value, state => between trace state ∧ after trace value state
  | .call request next, state => between trace state ∧ ∀ reply state',
      answers state request reply state' →
        Safe between after (trace ++ [⟨request, reply⟩]) (next reply) state'

section Rules

variable {answers} {between : List (Label Call Reply) → State → Prop}
  {after after' : List (Label Call Reply) → α → State → Prop} {trace : List (Label Call Reply)}
  {p : Program Call Reply α} {state state' : State}

theorem Safe.stopped (h : Safe answers between after trace p state) : between trace state := by
  cases p with
  | done value => exact h.1
  | call request next => exact h.1

theorem Safe.mono {between' : List (Label Call Reply) → State → Prop}
    (h : Safe answers between after trace p state)
    (hbetween : ∀ trace state, between trace state → between' trace state)
    (hafter : ∀ trace value state, after trace value state → after' trace value state) :
    Safe answers between' after' trace p state := by
  induction p generalizing trace state with
  | done value => exact ⟨hbetween _ _ h.1, hafter _ _ _ h.2⟩
  | call request next ih =>
      exact ⟨hbetween _ _ h.1, fun reply state' hanswer => ih reply (h.2 reply state' hanswer)⟩

/-- A program that returns is stopped there. -/
theorem Safe.ending (h : Safe answers between after trace p state) :
    Safe answers between (fun trace value state => between trace state ∧ after trace value state)
      trace p state := by
  induction p generalizing trace state with
  | done value => exact ⟨h.1, h⟩
  | call request next ih =>
      exact ⟨h.1, fun reply state' hanswer => ih reply (h.2 reply state' hanswer)⟩

/-- The calls made so far stay in the trace. -/
theorem Safe.extends (h : Safe answers between after trace p state) :
    Safe answers between (fun trace' value state => trace <+: trace' ∧ after trace' value state)
      trace p state := by
  induction p generalizing trace state with
  | done value => exact ⟨h.1, List.prefix_refl _, h.2⟩
  | call request next ih =>
      refine ⟨h.1, fun reply state' hanswer => ?_⟩
      refine (ih reply (h.2 reply state' hanswer)).mono (fun _ _ h => h) ?_
      rintro trace' value state'' ⟨hextends, hafter⟩
      exact ⟨(List.prefix_append _ _).trans hextends, hafter⟩

/-- A sequence of two programs. -/
theorem Safe.bind {rest : α → Program Call Reply β}
    {final : List (Label Call Reply) → β → State → Prop}
    (h : Safe answers between
      (fun trace value state => Safe answers between final trace (rest value) state)
        trace p state) :
    Safe answers between final trace (p.bind rest) state := by
  induction p generalizing trace state with
  | done value => exact h.2
  | call request next ih =>
      exact ⟨h.1, fun reply state' hanswer => ih reply (h.2 reply state' hanswer)⟩

theorem safe_done {value : α} (hbetween : between trace state) (hafter : after trace value state) :
    Safe answers between after trace (.done value) state :=
  ⟨hbetween, hafter⟩

/-- A call and what follows it. -/
theorem safe_perform {request : Call} {rest : Reply request → Program Call Reply α}
    (hbetween : between trace state) (hnext : ∀ reply state', answers state request reply state' →
      Safe answers between after (trace ++ [⟨request, reply⟩]) (rest reply) state') :
    Safe answers between after trace (perform request >>= rest) state :=
  ⟨hbetween, hnext⟩

/-- Wherever a safe program is stopped, the rest of it is safe. -/
theorem Safe.run {labels : List (Label Call Reply)} {rest : Program Call Reply α}
    (h : Safe answers between after trace p state)
    (hrun : Run (Step answers) (p, state) labels (rest, state')) :
    Safe answers between after (trace ++ labels) rest state' := by
  refine hrun.invariant (P := fun labels last =>
    Safe answers between after (trace ++ labels) last.1 last.2) (by simpa using h) ?_
  intro labels current label next hsafe hstep
  cases hstep with
  | call hanswer =>
      rw [← List.append_assoc]
      exact hsafe.2 _ _ hanswer

theorem Safe.result {labels : List (Label Call Reply)} {value : α}
    (h : Safe answers between after trace p state)
    (hrun : Run (Step answers) (p, state) labels (.done value, state')) :
    after (trace ++ labels) value state' :=
  (h.run hrun).2

end Rules

section Execution

variable (serve : State → (request : Call) → Reply request × State)

/-- At most `calls` calls of a program, in an environment that computes its replies. -/
def execute : Nat → Program Call Reply α × State →
    List (Label Call Reply) × Program Call Reply α × State
  | _, (.done value, state) => ([], .done value, state)
  | 0, (p, state) => ([], p, state)
  | calls + 1, (.call request next, state) =>
      let reply := serve state request
      let rest := execute calls (next reply.1, reply.2)
      (⟨request, reply.1⟩ :: rest.1, rest.2)

theorem execute_run (hserve : ∀ state request,
      answers state request (serve state request).1 (serve state request).2)
    (calls : Nat) (start : Program Call Reply α × State) :
    Run (Step answers) start (execute serve calls start).1 (execute serve calls start).2 := by
  induction calls generalizing start with
  | zero =>
      obtain ⟨p, state⟩ := start
      cases p <;> exact .nil _
  | succ calls ih =>
      obtain ⟨p, state⟩ := start
      cases p with
      | done value => exact .nil _
      | call request next =>
          rw [execute]
          simp only
          rw [run_cons_iff]
          exact ⟨_, .call (hserve state request), ih _⟩

theorem execute_result (hserve : ∀ state request,
      answers state request (serve state request).1 (serve state request).2)
    {calls : Nat} {start : Program Call Reply α × State} {value : α}
    (h : (execute serve calls start).2.1.value? = some value) :
    Run (Step answers) start (execute serve calls start).1
      (.done value, (execute serve calls start).2.2) := by
  have hrun := execute_run answers serve hserve calls start
  rwa [← Program.eq_done h]

end Execution

end EspNp2.Library.CallProgram
