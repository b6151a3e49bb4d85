import EspNp2.LiveService.OwnerThread
import EspNp2.LiveService.WorkerThread

/-!
The live service as a system of threads: one owner, one worker and any number of control
threads, over the memory that `start` leaves behind.
-/

namespace EspNp2.LiveService.LiveSystem

open EspNp2.GuestAdapter.AdapterState
open EspNp2.Library.Concurrent
open EspNp2.LiveService.OwnerThread
open EspNp2.LiveService.PcmOutput
open EspNp2.LiveService.ServiceMemory
open EspNp2.LiveService.Transport
open EspNp2.LiveService.WorkerThread

section Control

/-- The final horizon of a guest that was never attached. -/
def stopUnattached : Code Unit := do
  store .producerClosing true
  finalHorizonPublish 0
  store .producerDone true
  discard (compareExchange .state .stopRequested .draining)

/-- The end of `request_stop` after its exchange of `state`. -/
def stopAccepted (state : LiveState) : Code Unit := do
  store .stopIntent true
  store .transactionGate .closed
  store .stop true
  if state = .startedUnattached then stopUnattached

def requestStopRound : Code (Unit ⊕ LiveResult) := do
  let state ← load .state
  if state = .stopRequested ∨ state = .draining then return .inr .already
  else if state ≠ .startedUnattached ∧ state ≠ .running then return .inr .stateError
  else if ← operate (.compareExchangeWeak .state state .stopRequested) then
    stopAccepted state
    wake
    return .inr .ok
  else return .inl ()

def requestStop : Code LiveResult := iterate (fun _ => requestStopRound) ()

/-- The checks of `destroy` on a service that has been started. -/
def destroyCheck : Code LiveResult := do
  let state ← load .state
  if state ≠ .stoppedQuiescent ∧ state ≠ .failedQuiescent then return .stateError
  else if (← load .workerSafe) = false then return .notQuiescent
  else if ← load .guestAttached then return .notQuiescent
  else if ← load .sinkReachable then return .notQuiescent
  else return .ok

def destroy : Code LiveResult := do
  let check ← destroyCheck
  if check = .ok then
    releaseBorrow
    store .state .destroyed
    return .ok
  else return check

inductive ControlAction where
  | requestStop
  | testFail (category : FailureCategory) (origin : FailureOrigin) (subcode : UInt32)
  | destroy
deriving DecidableEq, Repr

def ControlAction.code : ControlAction → Code Unit
  | .requestStop => do note (.requestStop (← LiveSystem.requestStop))
  | .testFail category origin subcode => discard (firstFatal category origin subcode)
  | .destroy => do note (.destroy (← LiveSystem.destroy))

def controlRun : List ControlAction → Code Unit
  | [] => pure ()
  | action :: rest => do
      action.code
      controlRun rest

end Control

section System

inductive Party where
  | owner
  | worker
  | control (index : Nat)
deriving DecidableEq, Repr

/-- A thread returns the fields that it has for itself. -/
abbrev Outcome : Party → Type
  | .owner => Unit × Owner
  | .worker => Unit × Worker
  | .control _ => Unit

abbrev Service := System Party Op Result Outcome Memory

/-- The calls that the parties make in a run. -/
structure Calls where
  adapter : Adapter
  owner : List OwnerAction
  control : Nat → List ControlAction

/-- The system when `start` has created the worker. -/
def started (calls : Calls) : Service where
  threads
    | .owner => ownerRun calls.owner ⟨calls.adapter, {}⟩
    | .worker => workerRun {}
    | .control index => controlRun (calls.control index)
  state := startedMemory

abbrev LiveLabel := Party × OpLabel

abbrev LiveStep : Service → LiveLabel → Service → Prop := Step Acts

end System

section Execution

/-- A service whose sink, renderer and hooks always succeed. -/
def serve (memory : Memory) : (request : Op) → Result request × Memory
  | .load cell => (memory cell, memory)
  | .store cell value => ((), Function.update memory cell value)
  | .compareExchange cell expected desired | .compareExchangeWeak cell expected desired =>
      if memory cell = expected then (true, Function.update memory cell desired)
      else (false, memory)
  | .exchange cell value => (memory cell, Function.update memory cell value)
  | .sinkStart | .sinkSubmit _ | .sinkFinish | .sinkAbort => (.accepted, memory)
  | .renderSpan frames => (some (List.replicate (frames * bytesPerFrame) 0), memory)
  | .actionApply .. | .renderReset => (true, memory)
  | .hook (.reserveChecked ..) | .hook (.extendChecked ..) => ((.ok, Vector.replicate 4 0), memory)
  | .hook (.commitEvent ..) | .hook (.commitPcmByte ..) | .hook (.commitDataRun ..)
  | .hook (.commitHorizon ..) => (Vector.replicate 4 0, memory)
  | .hook (.publishProgressChecked _) => (.ok, memory)
  | .hook .cpuPosition => (0, memory)
  | .hook (.isWork _) => (false, memory)
  | .hook (.schedule ..) | .hook (.cancel _) | .hook (.irq ..) | .hook (.extension _) =>
      ((), memory)
  | .wait | .wake | .note _ => ((), memory)

theorem acts_serve (memory : Memory) (request : Op) :
    Acts memory request (serve memory request).1 (serve memory request).2 := by
  have hexchange : ∀ (cell : Cell) (expected desired : cell.Value),
      let served : Bool × Memory := if memory cell = expected then
        (true, Function.update memory cell desired) else (false, memory)
      (served.1 = true ∧ memory cell = expected ∧
        served.2 = Function.update memory cell desired) ∨
      (served.1 = false ∧ memory cell ≠ expected ∧ served.2 = memory) := by
    intro cell expected desired
    by_cases h : memory cell = expected <;> simp [h]
  cases request with
  | load cell => exact ⟨rfl, rfl⟩
  | store cell value => exact rfl
  | compareExchange cell expected desired => exact hexchange cell expected desired
  | compareExchangeWeak cell expected desired =>
      exact (hexchange cell expected desired).imp id fun h => ⟨h.1, h.2.2⟩
  | exchange cell value => exact ⟨rfl, rfl⟩
  | hook call => cases call <;> exact rfl
  | _ => exact rfl

/-- Some steps of one party. -/
def turns (party : Party) (count : Nat) : List Party := List.replicate count party

end Execution

end EspNp2.LiveService.LiveSystem
