import EspNp2.NpRuntime.Lifecycle

/-!
The runtime, `np2runtime.cpp`: the owner's functions around the core.  The fields that only
the owner touches are passed along; the machine configuration is left out.
-/

namespace EspNp2.NpRuntime.CoreRuntime

open Library.Concurrent
open Lifecycle

/-- The fields of a `Runtime` besides its life cycle. -/
structure Fields where
  coreInitialized : Bool := false
  ownerObserver : Option Observer := none
deriving DecidableEq, Repr

/-- The end of the core in `cleanup`: the observer is called once more before it. -/
def endCore (observer : Option Observer) (fields : Fields) : Code Fields := do
  if fields.coreInitialized then
    match observer.or fields.ownerObserver with
    | some cleanupObserver =>
        let _ : Bool ← perform (Op.observe cleanupObserver)
        perform Op.pccoreTerm
        return { fields with coreInitialized := false }
    | none =>
        perform Op.pccoreTerm
        return { fields with coreInitialized := false }
  else
    return fields

/-- The result that `lifecycle_.failure()` decides. -/
def outcomeResult (outcome : TerminalOutcome) : RuntimeResult :=
  if outcome.failure then .runtimeFailed else .stopped

def cleanup (observer : Option Observer) (fields : Fields) : Code (RuntimeResult × Fields) := do
  let stopping ← beginStopping
  if ¬ stopping then
    let state ← perform Op.loadState
    if state = .stopped then
      return (.stopped, fields)
    else
      let state ← perform Op.loadState
      if state = .failed then
        return (.runtimeFailed, fields)
      else
        return (.invalidState, fields)
  else
    let fields ← endCore observer fields
    let _ ← finishCleanup
    let outcome ← perform Op.loadOutcome
    return (outcomeResult outcome, { fields with ownerObserver := none })

def initializeRuntime (fields : Fields) : Code (RuntimeResult × Fields) := do
  let state ← perform Op.loadState
  if state = .stopRequested ∧ ¬ fields.coreInitialized then
    cleanup none fields
  else
    let begun ← beginInitialization
    if ¬ begun then
      return (.invalidState, fields)
    else
      let state ← perform Op.loadState
      if stopRequested state then
        cleanup none fields
      else
        perform Op.pccoreInit
        let fields := { fields with coreInitialized := true }
        perform Op.pccoreReset
        let ready ← completeInitialization
        if ¬ ready then
          let (_, fields) ← cleanup none fields
          let outcome ← perform Op.loadOutcome
          return (outcomeResult outcome, fields)
        else
          return (.ok, fields)

/-- The call of an observer before an iteration: whether it asks for a stop. -/
def askObserver : Option Observer → Code Bool
  | some observer => perform (Op.observe observer)
  | none => return false

/-- The iterations of `run`, until a stop is requested. -/
def runLoop (observer : Option Observer) : Code Unit :=
  iterate (fun _ => do
    let state ← perform Op.loadState
    if stopRequested state then
      return .inr ()
    else
      let stop ← askObserver observer
      if stop then
        let _ ← requestStop
        return .inr ()
      else
        perform Op.pccoreExec
        let error : Bool ← perform Op.scrnmngHaserror
        if error then
          let _ ← markFailure
          return .inr ()
        else
          let exit : Bool ← perform Op.exitRequested
          if exit then
            let _ ← requestStop
            return .inr ()
          else
            return .inl ()) ()

def run (observer : Option Observer) (fields : Fields) : Code (RuntimeResult × Fields) := do
  let fields := { fields with ownerObserver := observer }
  let running ← beginRunning
  if ¬ running then
    let state ← perform Op.loadState
    if state = .stopRequested then
      cleanup observer fields
    else
      return (.invalidState, fields)
  else
    runLoop observer
    cleanup observer fields

/-- The destructor. -/
def destroy (fields : Fields) : Code Fields := do
  let stopAndClean : Code Fields := do
    let _ ← requestStop
    let (_, fields) ← cleanup none fields
    return fields
  if fields.coreInitialized then
    stopAndClean
  else
    let state ← perform Op.loadState
    if state = .created then
      return fields
    else
      let state ← perform Op.loadState
      if state = .stopped then
        return fields
      else
        let state ← perform Op.loadState
        if state = .failed then
          return fields
        else
          stopAndClean

/-- An owner that makes calls in any order, the destructor last. -/
def runtimeOwner : Code Unit :=
  iterate (fun fields => do
    let call : RuntimeCall ← perform Op.beginRuntimeCall
    match call with
    | .initializeRuntime =>
        let (result, fields) ← initializeRuntime fields
        perform (Op.finishRuntimeCall .initializeRuntime result)
        return .inl fields
    | .run observer =>
        let (result, fields) ← run observer fields
        perform (Op.finishRuntimeCall (.run observer) result)
        return .inl fields
    | .destroy =>
        let _ ← destroy fields
        perform (Op.finishRuntimeCall .destroy .ok)
        return .inr ()) ({} : Fields)

abbrev RuntimeSystem := Library.Concurrent.System Party Op Result (fun _ => Unit) Memory

def RuntimeSystem.initial : RuntimeSystem where
  threads
    | .owner => runtimeOwner
    | .helper _ => lifecycleHelper
  state := {}

end EspNp2.NpRuntime.CoreRuntime
