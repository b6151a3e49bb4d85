import EspNp2.GuestAdapter.AdapterState
import EspNp2.Library.Concurrent

/-!
The memory of `p4_nano_audio86_live_service.c` that its threads share, and the operations
they perform: loads, stores and compare-and-exchanges of one word, the calls of the sink,
of the renderer and of the hooks of the guest. The words that only a status query reads,
the storage of the 5D.3 fixture and its branches are left out.
-/

namespace EspNp2.LiveService.ServiceMemory

open EspNp2.GuestAdapter.AdapterState
open EspNp2.Library.Concurrent

section Words

inductive LiveState where
  | uninitialized
  | ready
  | starting
  | startedUnattached
  | running
  | stopRequested
  | draining
  | stoppedQuiescent
  | failing
  | failedQuiescent
  | failedNotQuiescent
  | destroyed
deriving DecidableEq, Repr

inductive FailureCategory where
  | none
  | producer
  | transport
  | renderer
  | worker
  | output
  | cleanup
deriving DecidableEq, Repr

inductive FailureOrigin where
  | none
  | init
  | start
  | attach
  | checkpoint
  | guestTransport
  | render
  | pcmOutput
  | finish
  | abortBarrier
deriving DecidableEq, Repr

inductive Cleanup where
  | notAttempted
  | quiescent
  | notQuiescent
deriving DecidableEq, Repr

inductive Gate where
  | opened
  | active
  | closed
deriving DecidableEq, Repr

inductive MailboxState where
  | empty
  | full
deriving DecidableEq, Repr

structure Event where
  frameTimestamp : UInt64
  sequence : UInt64
  opcode : UInt32
  payload : UInt32
deriving DecidableEq, Repr, Inhabited

/-- The words of the service that more than one thread reads or writes. -/
inductive Cell where
  | state
  | stopIntent
  | firstErrorLatched
  | failureCategory
  | failureOrigin
  | failureSubcode
  | firstErrorSequence
  | cleanup
  | guestAttached
  | sinkReachable
  | workerSafe
  | producerClosing
  | ownerFinalizing
  | transactionGate
  | ownerValid
  | firstError
  | stop
  | producerDone
  | resetAckOrdinal
  | horizonState
  | horizonFrame
  | finalHorizonSequence
  | finalHorizonLow
  | finalHorizonHigh
  | eventSlot (index : UInt32)
  | eventHead
  | eventTail
  | byteSlot (index : UInt32)
  | byteHead
  | byteTail
deriving DecidableEq, Repr

abbrev Cell.Value : Cell → Type
  | .state => LiveState
  | .failureCategory => FailureCategory
  | .failureOrigin => FailureOrigin
  | .cleanup => Cleanup
  | .transactionGate => Gate
  | .horizonState => MailboxState
  | .horizonFrame => UInt64
  | .eventSlot _ => Event
  | .byteSlot _ => UInt8
  | .failureSubcode | .firstErrorSequence | .firstError | .resetAckOrdinal
  | .finalHorizonSequence | .finalHorizonLow | .finalHorizonHigh
  | .eventHead | .eventTail | .byteHead | .byteTail => UInt32
  | .stopIntent | .firstErrorLatched | .guestAttached | .sinkReachable | .workerSafe
  | .producerClosing | .ownerFinalizing | .ownerValid | .stop | .producerDone => Bool

instance : (cell : Cell) → DecidableEq cell.Value
  | .state => inferInstanceAs (DecidableEq LiveState)
  | .failureCategory => inferInstanceAs (DecidableEq FailureCategory)
  | .failureOrigin => inferInstanceAs (DecidableEq FailureOrigin)
  | .cleanup => inferInstanceAs (DecidableEq Cleanup)
  | .transactionGate => inferInstanceAs (DecidableEq Gate)
  | .horizonState => inferInstanceAs (DecidableEq MailboxState)
  | .horizonFrame => inferInstanceAs (DecidableEq UInt64)
  | .eventSlot _ => inferInstanceAs (DecidableEq Event)
  | .byteSlot _ => inferInstanceAs (DecidableEq UInt8)
  | .failureSubcode | .firstErrorSequence | .firstError | .resetAckOrdinal
  | .finalHorizonSequence | .finalHorizonLow | .finalHorizonHigh
  | .eventHead | .eventTail | .byteHead | .byteTail => inferInstanceAs (DecidableEq UInt32)
  | .stopIntent | .firstErrorLatched | .guestAttached | .sinkReachable | .workerSafe
  | .producerClosing | .ownerFinalizing | .ownerValid | .stop | .producerDone =>
      inferInstanceAs (DecidableEq Bool)

abbrev Memory := (cell : Cell) → cell.Value

/-- The memory after `start` has created the worker. -/
def startedMemory : Memory
  | .state => .starting
  | .failureCategory => .none
  | .failureOrigin => .none
  | .cleanup => .notAttempted
  | .transactionGate => .opened
  | .horizonState => .empty
  | .horizonFrame => 0
  | .eventSlot _ => ⟨0, 0, 0, 0⟩
  | .byteSlot _ => 0
  | .failureSubcode | .firstErrorSequence | .firstError | .resetAckOrdinal
  | .finalHorizonSequence | .finalHorizonLow | .finalHorizonHigh
  | .eventHead | .eventTail | .byteHead | .byteTail => (0 : UInt32)
  | .sinkReachable => true
  | .stopIntent | .firstErrorLatched | .guestAttached | .workerSafe
  | .producerClosing | .ownerFinalizing | .ownerValid | .stop | .producerDone => false

end Words

section Operations

inductive SinkResult where
  | accepted
  | retry
  | fatal
deriving DecidableEq, Repr

structure SinkView where
  pcm : List UInt8
  frameOffset : UInt64
  sequence : UInt32
  validFrames : Nat
  finalPartial : Bool
deriving DecidableEq, Repr

inductive ActionKind where
  | opnaRegister
  | opnaCsm
  | pcmControl
  | reset
  | dataRun
deriving DecidableEq, Repr

structure Action where
  frameTimestamp : UInt64
  sequence : UInt64
  opcode : UInt32
  payload : UInt32
  byteOffset : UInt64
  byteCount : UInt32
  kind : ActionKind
deriving DecidableEq, Repr

inductive LiveResult where
  | ok
  | already
  | failed
  | notQuiescent
  | argument
  | stateError
  | ownerError
deriving DecidableEq, Repr

/-- A mark in the trace of the threads, with no effect on the memory: a checkpoint is called with
the adapter in this state, a call has returned, or the worker has applied an event at the frame
it had rendered. -/
inductive Note where
  | firstFatal (won : Bool)
  | attachGuest (result : LiveResult)
  | checkpointCalled (adapter : Adapter)
  | ownerCheckpoint (result : LiveResult)
  | reportProducerFailure (result : LiveResult)
  | requestStop (result : LiveResult)
  | destroy (result : LiveResult)
  | applied (event : Event) (bytes : List UInt8) (renderedFrame : UInt64)
deriving DecidableEq, Repr

inductive Op where
  | load (cell : Cell)
  | store (cell : Cell) (value : cell.Value)
  | compareExchange (cell : Cell) (expected desired : cell.Value)
  | compareExchangeWeak (cell : Cell) (expected desired : cell.Value)
  | exchange (cell : Cell) (value : cell.Value)
  | wait
  | wake
  | sinkStart
  | sinkSubmit (view : SinkView)
  | sinkFinish
  | sinkAbort
  | renderSpan (frames : Nat)
  | actionApply (action : Action) (data : List UInt8)
  | renderReset
  | hook (call : Call)
  | note (note : Note)

/-- A rendered span is its canonical PCM, unless the renderer fails. -/
abbrev Result : Op → Type
  | .load cell => cell.Value
  | .exchange cell _ => cell.Value
  | .compareExchange .. | .compareExchangeWeak .. => Bool
  | .sinkStart | .sinkSubmit _ | .sinkFinish | .sinkAbort => SinkResult
  | .renderSpan _ => Option (List UInt8)
  | .actionApply .. | .renderReset => Bool
  | .hook call => Reply call
  | .store .. | .wait | .wake | .note _ => Unit

/-- What an operation does to the memory. A weak exchange may fail without a reason; the
sink, the renderer and the hooks answer anything. -/
def Acts (memory : Memory) : (request : Op) → Result request → Memory → Prop
  | .load cell, reply, memory' => reply = memory cell ∧ memory' = memory
  | .store cell value, _, memory' => memory' = Function.update memory cell value
  | .compareExchange cell expected desired, reply, memory' =>
      (reply = true ∧ memory cell = expected ∧ memory' = Function.update memory cell desired) ∨
        (reply = false ∧ memory cell ≠ expected ∧ memory' = memory)
  | .compareExchangeWeak cell expected desired, reply, memory' =>
      (reply = true ∧ memory cell = expected ∧ memory' = Function.update memory cell desired) ∨
        (reply = false ∧ memory' = memory)
  | .exchange cell value, reply, memory' =>
      reply = memory cell ∧ memory' = Function.update memory cell value
  | _, _, memory' => memory' = memory

end Operations

abbrev Code := Thread Op Result

abbrev OpLabel := Library.Concurrent.OpLabel Op Result

section Code

def operate (request : Op) : Code (Result request) := perform request

def load (cell : Cell) : Code cell.Value := operate (.load cell)

def store (cell : Cell) (value : cell.Value) : Code Unit := operate (.store cell value)

def compareExchange (cell : Cell) (expected desired : cell.Value) : Code Bool :=
  operate (.compareExchange cell expected desired)

def wait : Code Unit := operate .wait

def wake : Code Unit := operate .wake

def note (mark : Note) : Code Unit := operate (.note mark)

end Code

end EspNp2.LiveService.ServiceMemory
