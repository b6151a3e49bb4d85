import EspNp2.Library.Concurrent

/-!
The life cycle of the runtime, `np2runtime_lifecycle.cpp`: a state and a terminal outcome
in two atomic words.  One owner drives them, and any number of helpers request a stop or
mark a failure.  Every load and every compare-exchange is a step of its own, and a weak
compare-exchange may fail without a reason.
-/

namespace EspNp2.NpRuntime.Lifecycle

open Library.Concurrent

section Memory

inductive State where
  | created
  | initializing
  | ready
  | running
  | stopRequested
  | stopping
  | stopped
  | failed
deriving DecidableEq, Repr

inductive TerminalOutcome where
  | openNone
  | openExternal
  | fatalPending
  | finalizedStoppedNone
  | finalizedStoppedExternal
  | finalizedFailed
deriving DecidableEq, Repr

inductive StopReason where
  | none
  | external
  | fatal
deriving DecidableEq, Repr

def TerminalOutcome.stopReason : TerminalOutcome → StopReason
  | .openExternal | .finalizedStoppedExternal => .external
  | .fatalPending | .finalizedFailed => .fatal
  | .openNone | .finalizedStoppedNone => .none

/-- `Lifecycle::failure` of an outcome. -/
def TerminalOutcome.failure (outcome : TerminalOutcome) : Bool :=
  outcome = .fatalPending ∨ outcome = .finalizedFailed

/-- `Lifecycle::stop_requested` of a state. -/
def stopRequested (state : State) : Bool :=
  state = .stopRequested ∨ state = .stopping ∨ state = .stopped ∨ state = .failed

def State.active (state : State) : Bool :=
  state = .created ∨ state = .initializing ∨ state = .ready ∨ state = .running ∨
    state = .stopRequested

structure Memory where
  state : State := .created
  outcome : TerminalOutcome := .openNone
deriving DecidableEq, Repr

end Memory

section Operations

inductive Party where
  | owner
  | helper (number : Nat)
deriving DecidableEq, Repr

inductive HelperCall where
  | requestStop
  | markFailure
deriving DecidableEq, Repr

inductive LifecycleCall where
  | beginInitialization
  | completeInitialization
  | beginRunning
  | beginStopping
  | finishCleanup
  | helper (call : HelperCall)
deriving DecidableEq, Repr

/-- An observer of the owner's iterations, as `run` is given it. -/
abbrev Observer := Nat

inductive RuntimeCall where
  | initializeRuntime
  | run (observer : Option Observer)
  | destroy
deriving DecidableEq, Repr

inductive RuntimeResult where
  | ok
  | stopped
  | invalidState
  | runtimeFailed
deriving DecidableEq, Repr

/-- A step of a thread: an access to one of the words, a call into the core or to an
observer, or the mark of a call. -/
inductive Op where
  | loadState
  | loadOutcome
  | casState (weak : Bool) (expected desired : State)
  | casOutcome (expected desired : TerminalOutcome)
  | pccoreInit
  | pccoreReset
  | pccoreExec
  | pccoreTerm
  | observe (observer : Observer)
  | scrnmngHaserror
  | exitRequested
  | beginCall
  | beginHelperCall
  | finishCall (call : LifecycleCall) (result : Bool)
  | beginRuntimeCall
  | finishRuntimeCall (call : RuntimeCall) (result : RuntimeResult)

/-- A compare-exchange tells whether it has exchanged, and else what it has found. -/
@[reducible] def Result : Op → Type
  | .loadState => State
  | .loadOutcome => TerminalOutcome
  | .casState _ _ _ => Bool × State
  | .casOutcome _ _ => Bool × TerminalOutcome
  | .observe _ => Bool
  | .scrnmngHaserror => Bool
  | .exitRequested => Bool
  | .beginCall => LifecycleCall
  | .beginHelperCall => HelperCall
  | .beginRuntimeCall => RuntimeCall
  | _ => Unit

inductive Acts (memory : Memory) : (request : Op) → Result request → Memory → Prop
  | loadState : Acts memory .loadState memory.state memory
  | loadOutcome : Acts memory .loadOutcome memory.outcome memory
  | casState (weak : Bool) (desired : State) :
      Acts memory (.casState weak memory.state desired) (true, memory.state)
        { memory with state := desired }
  | casStateFails (weak : Bool) (expected desired : State)
      (hfails : weak = true ∨ memory.state ≠ expected) :
      Acts memory (.casState weak expected desired) (false, memory.state) memory
  | casOutcome (desired : TerminalOutcome) :
      Acts memory (.casOutcome memory.outcome desired) (true, memory.outcome)
        { memory with outcome := desired }
  | casOutcomeFails (expected desired : TerminalOutcome) :
      Acts memory (.casOutcome expected desired) (false, memory.outcome) memory
  | pccoreInit : Acts memory .pccoreInit () memory
  | pccoreReset : Acts memory .pccoreReset () memory
  | pccoreExec : Acts memory .pccoreExec () memory
  | pccoreTerm : Acts memory .pccoreTerm () memory
  | observe (observer : Observer) (stop : Bool) : Acts memory (.observe observer) stop memory
  | scrnmngHaserror (error : Bool) : Acts memory .scrnmngHaserror error memory
  | exitRequested (exit : Bool) : Acts memory .exitRequested exit memory
  | beginCall (call : LifecycleCall) : Acts memory .beginCall call memory
  | beginHelperCall (call : HelperCall) : Acts memory .beginHelperCall call memory
  | finishCall (call : LifecycleCall) (result : Bool) :
      Acts memory (.finishCall call result) () memory
  | beginRuntimeCall (call : RuntimeCall) : Acts memory .beginRuntimeCall call memory
  | finishRuntimeCall (call : RuntimeCall) (result : RuntimeResult) :
      Acts memory (.finishRuntimeCall call result) () memory

abbrev Code := Thread Op Result

abbrev Label := Party × OpLabel Op Result

end Operations

section Functions

/-- A loop around a compare-exchange: it begins with a value that was read, and a failed
exchange gives the next one. -/
def casLoop {V : Type} (start : V) (round : V → Code (V ⊕ Bool)) : Code Bool :=
  iterate round start

def claimExternalStop : Code Bool :=
  casLoop .openNone fun current => do
    if current = .openExternal then
      return .inr true
    else if current ≠ .openNone then
      return .inr false
    else
      let (exchanged, found) ← perform (Op.casOutcome current .openExternal)
      return if exchanged then .inr true else .inl found

def claimFatal : Code Bool := do
  let expected ← perform Op.loadOutcome
  casLoop expected fun current => do
    if current = .fatalPending then
      return .inr true
    else if current ≠ .openNone ∧ current ≠ .openExternal then
      return .inr false
    else
      let (exchanged, found) ← perform (Op.casOutcome current .fatalPending)
      return if exchanged then .inr true else .inl found

/-- A strong compare-exchange of the state, as the three steps of the initialization make
it. -/
def advance (expected desired : State) : Code Bool := do
  let (exchanged, _) ← perform (Op.casState false expected desired)
  return exchanged

def beginInitialization : Code Bool := advance .created .initializing

def completeInitialization : Code Bool := advance .initializing .ready

def beginRunning : Code Bool := advance .ready .running

def requestStop : Code Bool := do
  let current ← perform Op.loadState
  casLoop current fun current => do
    if current = .stopped ∨ current = .failed ∨ current = .stopping then
      return .inr false
    else if current = .stopRequested then
      return .inr true
    else if ¬ current.active then
      return .inr false
    else
      let _ ← claimExternalStop
      let (exchanged, found) ← perform (Op.casState true current .stopRequested)
      return if exchanged then .inr true else .inl found

def markFailure : Code Bool := do
  let claimed ← claimFatal
  if ¬ claimed then
    return false
  else
    let current ← perform Op.loadState
    casLoop current fun current => do
      if current = .stopped ∨ current = .failed then
        return .inr true
      else if current = .stopping ∨ current = .stopRequested then
        return .inr true
      else if ¬ current.active then
        return .inr false
      else
        let (exchanged, found) ← perform (Op.casState true current .stopRequested)
        return if exchanged then .inr true else .inl found

def beginStopping : Code Bool := do
  let current ← perform Op.loadState
  casLoop current fun current => do
    if current = .stopping then
      return .inr true
    else if current = .stopped ∨ current = .failed ∨ ¬ current.active then
      return .inr false
    else
      let (exchanged, found) ← perform (Op.casState true current .stopping)
      return if exchanged then .inr true else .inl found

/-- What `finish_cleanup` makes of an outcome, with the state that goes with it. -/
def finalize : TerminalOutcome → Option (TerminalOutcome × State)
  | .openNone => some (.finalizedStoppedNone, .stopped)
  | .openExternal => some (.finalizedStoppedExternal, .stopped)
  | .fatalPending => some (.finalizedFailed, .failed)
  | _ => none

def finishCleanup : Code Bool := do
  let state ← perform Op.loadState
  if state ≠ .stopping then
    return false
  else
    let expected ← perform Op.loadOutcome
    casLoop expected fun current => do
      match finalize current with
      | none => return .inr false
      | some (desired, finalState) =>
          let (exchanged, found) ← perform (Op.casOutcome current desired)
          if exchanged then
            let (published, _) ← perform (Op.casState false .stopping finalState)
            return .inr published
          else
            return .inl found

def HelperCall.code : HelperCall → Code Bool
  | .requestStop => Lifecycle.requestStop
  | .markFailure => Lifecycle.markFailure

def LifecycleCall.code : LifecycleCall → Code Bool
  | .beginInitialization => Lifecycle.beginInitialization
  | .completeInitialization => Lifecycle.completeInitialization
  | .beginRunning => Lifecycle.beginRunning
  | .beginStopping => Lifecycle.beginStopping
  | .finishCleanup => Lifecycle.finishCleanup
  | .helper call => call.code

end Functions

section System

/-- An owner that makes the calls of the life cycle in any order. -/
def lifecycleOwner : Code Unit :=
  iterate (fun _ => do
    let call : LifecycleCall ← perform Op.beginCall
    let result ← call.code
    perform (Op.finishCall call result)
    return .inl ()) ()

/-- A helper requests stops and marks failures. -/
def lifecycleHelper : Code Unit :=
  iterate (fun _ => do
    let call : HelperCall ← perform Op.beginHelperCall
    let result ← call.code
    perform (Op.finishCall (.helper call) result)
    return .inl ()) ()

abbrev LifecycleSystem := Library.Concurrent.System Party Op Result (fun _ => Unit) Memory

def LifecycleSystem.initial : LifecycleSystem where
  threads
    | .owner => lifecycleOwner
    | .helper _ => lifecycleHelper
  state := {}

end System

end EspNp2.NpRuntime.Lifecycle
