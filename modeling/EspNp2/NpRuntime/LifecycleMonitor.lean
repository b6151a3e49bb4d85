import EspNp2.NpRuntime.Lifecycle

/-!
What a thread knows of the life cycle.  Each thread has a watch with the facts that its own
accesses have shown; they stay true whatever the others do.  The owner alone initializes and
ends the life cycle, so it also knows how far these have come.
-/

namespace EspNp2.NpRuntime.LifecycleMonitor

open Library.Concurrent
open Lifecycle

section Watches

/-- The place of a state in the order of the life cycle. -/
def State.rank : State → Nat
  | .created => 0
  | .initializing => 1
  | .ready => 2
  | .running => 3
  | .stopRequested => 4
  | .stopping => 5
  | .stopped => 6
  | .failed => 6

/-- The terminal state of a finalized outcome. -/
def TerminalOutcome.finalState : TerminalOutcome → Option State
  | .finalizedStoppedNone => some .stopped
  | .finalizedStoppedExternal => some .stopped
  | .finalizedFailed => some .failed
  | _ => none

/-- The core from `pccore_init` to `pccore_term`, and the run that has reached `running`. -/
structure CoreWatch where
  inits : Nat := 0
  terms : Nat := 0
  /-- The observer that the last `run` was given. -/
  observer : Option Observer := none
  running : Bool := false
  /-- The observer of the run that has reached `running`. -/
  due : Option Observer := none
  /-- It was called behind the last `pccore_exec`. -/
  observed : Bool := false
deriving DecidableEq, Repr

structure Watch where
  claimed : Bool := false
  fatal : Bool := false
  closed : Bool := false
  stop : Bool := false
  /-- How far the owner has brought the state before a stop. -/
  reached : Nat := 0
  stopping : Bool := false
  ended : Bool := false
  final : Option TerminalOutcome := none
  published : Bool := false
  core : CoreWatch := {}
deriving DecidableEq, Repr

/-- A stop is settled: the state has passed `running`, and the outcome has a reason. -/
def StopSettled (memory : Memory) : Prop :=
  stopRequested memory.state = true ∧ memory.outcome ≠ .openNone ∧
    memory.outcome ≠ .finalizedStoppedNone

/-- What any thread knows. -/
structure Knows (w : Watch) (memory : Memory) : Prop where
  claimed : w.claimed = true → memory.outcome ≠ .openNone
  fatal : w.fatal = true → memory.outcome.failure = true
  closed : w.closed = true → TerminalOutcome.finalState memory.outcome ≠ none
  stop : w.stop = true → StopSettled memory

/-- What the owner knows of the words besides. -/
structure OwnerSees (w : Watch) (memory : Memory) : Prop where
  reached_le : w.reached ≤ State.rank memory.state
  reached : State.rank memory.state < 4 → w.reached = State.rank memory.state
  stopping : w.stopping = true ↔ memory.state = .stopping
  ended : w.ended = true ↔ memory.state = .stopped ∨ memory.state = .failed
  final : ∀ outcome, w.final = some outcome ↔
    memory.outcome = outcome ∧ TerminalOutcome.finalState outcome ≠ none
  terminal : w.ended = true → w.final.bind TerminalOutcome.finalState = some memory.state
  behind : w.final ≠ none → w.stopping = true ∨ w.ended = true

structure OwnerKnows (w : Watch) (memory : Memory) : Prop extends OwnerSees w memory where
  running : w.core.running = true ↔ 3 ≤ w.reached

def Watch.seeState (w : Watch) (state : State) : Watch :=
  { w with stop := w.stop || state = .stopRequested }

def Watch.seeOutcome (w : Watch) (outcome : TerminalOutcome) : Watch :=
  { w with
    claimed := w.claimed || outcome ≠ .openNone
    fatal := w.fatal || outcome.failure
    closed := w.closed || (TerminalOutcome.finalState outcome).isSome }

/-- The exchanges of the state that a thread may make. -/
def Watch.moveState (w : Watch) (party : Party) (expected desired : State) : Option Watch :=
  match desired with
  | .initializing | .ready | .running =>
      if party = .owner ∧ State.rank desired = State.rank expected + 1 then
        some { w with reached := State.rank desired }
      else none
  | .stopRequested =>
      if State.rank expected < 4 ∧ w.claimed then some { w with stop := true } else none
  | .stopping =>
      if party = .owner ∧ expected.active then some { w with stopping := true } else none
  | .stopped | .failed =>
      if party = .owner ∧ expected = .stopping ∧
          w.final.bind TerminalOutcome.finalState = some desired then
        some { w with stopping := false, ended := true, published := true }
      else none
  | .created => none

/-- The exchanges of the outcome that a thread may make. -/
def Watch.moveOutcome (w : Watch) (party : Party) (expected desired : TerminalOutcome) :
    Option Watch :=
  match desired with
  | .openNone => none
  | .openExternal => if expected = .openNone then some (w.seeOutcome .openExternal) else none
  | .fatalPending =>
      if expected = .openNone ∨ expected = .openExternal then some (w.seeOutcome .fatalPending)
      else none
  | desired =>
      if party = .owner ∧ w.stopping ∧ (finalize expected).map Prod.fst = some desired then
        some { w.seeOutcome desired with final := some desired }
      else none

/-- The answers that a call may give. -/
def Watch.answer (w : Watch) : LifecycleCall → Bool → Option Watch
  | .helper .markFailure, true => if w.fatal then some w else none
  | .helper .markFailure, false => if w.closed then some w else none
  | .helper .requestStop, true => if w.stop then some w else none
  | .finishCleanup, true => if w.published then some { w with published := false } else none
  | .finishCleanup, false => if w.published then none else some w
  | _, _ => some w

/-- The calls of the core and of the observer, in the order of the owner. -/
def CoreWatch.observe (w : CoreWatch) : OpLabel Op Result → Option CoreWatch
  | ⟨.beginRuntimeCall, .run observer⟩ => some { w with observer := observer }
  | ⟨.casState _ _ .running, (true, _)⟩ =>
      if w.running then none
      else some { w with running := true, due := w.observer, observed := false }
  | ⟨.pccoreInit, _⟩ => if w.inits = 0 then some { w with inits := 1 } else none
  | ⟨.pccoreReset, _⟩ => if w.inits = 1 ∧ w.terms = 0 then some w else none
  | ⟨.pccoreExec, _⟩ =>
      if w.inits = 1 ∧ w.terms = 0 ∧ (w.due ≠ none → w.observed) then
        some { w with observed := false }
      else none
  | ⟨.pccoreTerm, _⟩ =>
      if w.inits = 1 ∧ w.terms = 0 ∧ (w.due ≠ none → w.observed) then some { w with terms := 1 }
      else none
  | ⟨.observe observer, _⟩ =>
      some { w with observed := w.observed || w.due = some observer }
  | ⟨.finishRuntimeCall .destroy _, _⟩ => if w.terms = w.inits then some w else none
  | _ => some w

@[simp] theorem CoreWatch.observe_casState_fails (w : CoreWatch) (weak : Bool)
    (expected desired found : State) :
    w.observe ⟨.casState weak expected desired, (false, found)⟩ = some w := by
  cases desired <;> rfl

/-- The results that a runtime call may give. -/
def Watch.result (w : Watch) : RuntimeCall → RuntimeResult → Bool
  | .destroy, _ => true
  | _, .stopped => w.ended ∧ w.final.bind TerminalOutcome.finalState = some .stopped
  | _, .runtimeFailed => w.ended ∧ w.final.bind TerminalOutcome.finalState = some .failed
  | _, _ => true

/-- What a thread learns from one of its accesses. -/
def Watch.access (party : Party) (w : Watch) : OpLabel Op Result → Option Watch
  | ⟨.loadState, state⟩ => some (w.seeState state)
  | ⟨.loadOutcome, outcome⟩ => some (w.seeOutcome outcome)
  | ⟨.casState _ expected desired, (exchanged, found)⟩ =>
      if exchanged then w.moveState party expected desired else some (w.seeState found)
  | ⟨.casOutcome expected desired, (exchanged, found)⟩ =>
      if exchanged then w.moveOutcome party expected desired else some (w.seeOutcome found)
  | ⟨.finishCall call result, _⟩ => w.answer call result
  | ⟨.finishRuntimeCall call result, _⟩ => if w.result call result then some w else none
  | _ => some w

def observe (party : Party) (w : Watch) (label : OpLabel Op Result) : Option Watch :=
  match party with
  | .owner => do
      let core ← w.core.observe label
      let w ← w.access .owner label
      return { w with core := core }
  | .helper number => w.access (.helper number) label

/-- A memory that fits what a thread knows. -/
structure Fits (party : Party) (w : Watch) (memory : Memory) : Prop where
  knows : Knows w memory
  owner : party = .owner → OwnerKnows w memory

/-- A thread reckons with the results that fit what it knows. -/
def monitor (party : Party) : Monitor Watch Op Result where
  expects w label := ∃ memory memory', Fits party w memory ∧ Acts memory label.1 label.2 memory'
  observe := observe party

end Watches

end EspNp2.NpRuntime.LifecycleMonitor
