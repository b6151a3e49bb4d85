import EspNp2.Library.CallProgram

/-!
The state of `np2audio86_guest_adapter.c` and the calls it makes: the checked and the
void callbacks of a bound sink, and the hooks of the host. The records that an attached
host trace keeps are left out; its counts and capacities decide whether an operation is
refused and stay.
-/

namespace EspNp2.GuestAdapter.AdapterState

open EspNp2.Library.CallProgram

section Sink

inductive Kind where
  | event
  | dataRun
  | reset
deriving DecidableEq, Repr

/-- The answers of a checked call. The adapter's own refusals return -1, which is the
code of `retry`. -/
inductive Check where
  | ok
  | retry
  | terminated
  | contract
deriving DecidableEq, Repr

abbrev Token := Vector UInt64 4

structure GuestEvent where
  frameTimestamp : UInt64
  sequence : UInt64
  opcode : UInt32
  payload : UInt32
deriving DecidableEq, Repr

structure DataRun where
  frameTimestamp : UInt64
  sequence : UInt64
  byteOffset : UInt64
  count : UInt32
deriving DecidableEq, Repr

inductive Call where
  | reserveChecked (kind : Kind) (bytes : Nat)
  | extendChecked (transaction : Token) (bytes : Nat)
  | commitEvent (transaction : Token) (event : GuestEvent)
  | commitPcmByte (transaction : Token) (frameTimestamp sequence : UInt64) (value : UInt8)
  | commitDataRun (transaction : Token) (run : DataRun)
  | commitHorizon (transaction : Token) (frameTimestamp : UInt64)
  | publishProgressChecked (frameTimestamp : UInt64)
  | cpuPosition
  | schedule (timer : UInt8) (clock : UInt64) (absolute : Bool)
  | cancel (timer : UInt8)
  | isWork (timer : UInt8)
  | irq (line : UInt32) (level : Bool)
  | extension (enabled : Bool)
deriving DecidableEq

/-- What a call returns. A callback that is given a token may change it. -/
abbrev Reply : Call → Type
  | .reserveChecked .. | .extendChecked .. => Check × Token
  | .commitEvent .. | .commitPcmByte .. | .commitDataRun .. | .commitHorizon .. => Token
  | .publishProgressChecked _ => Check
  | .cpuPosition => UInt32
  | .isWork _ => Bool
  | .schedule .. | .cancel _ | .irq .. | .extension _ => Unit

end Sink

section State

structure GuestState where
  regs : Vector UInt8 0x200 := Vector.replicate 0x200 0
  capabilities : UInt8 := 0
  addressLow : UInt8 := 0
  addressExtended : UInt8 := 0
  data : UInt8 := 0
  extension : Bool := false
  timerControl : UInt8 := 0
  timerBValue : UInt8 := 0
  timerStatus : UInt8 := 0
  timerAValue : UInt16 := 0
  timerARunning : Bool := false
  timerBRunning : Bool := false
  timerAEvent : UInt8 := 0
  timerBEvent : UInt8 := 0
  opnaIrq : UInt32 := 0
  pcmIrqLine : UInt32 := 0
  base : UInt32 := 0
  channels : UInt8 := 0
  joy : UInt8 := 0
  soundromRejected : Bool := false
  pcmSoundflags : UInt8 := 0
  pcmFifo : UInt8 := 0
  pcmDactrl : UInt8 := 0
  pcmVolume : UInt8 := 0
  pcmIrq : Bool := false
  pcmReqirq : Bool := false
  pcmClockValid : Bool := false
  opnaPicSource : Bool := false
  pcmPicSource : Bool := false
  pcmRescue : UInt32 := 0
  pcmRateval : UInt32 := 0
  pcmFifoSize : UInt16 := 0
  pcmStepmask : UInt16 := 0
  pcmStepbit : UInt8 := 0
  pcmVirtualBuffer : UInt32 := 0
  pcmRealBuffer : UInt32 := 0
  pcmWritePosition : UInt32 := 0
  pcmReadPosition : UInt32 := 0
  pcmStepRemainder : UInt32 := 0
  pcmStepclock : UInt64 := 0
  pcmLastclock : UInt64 := 0
  pcmLastclockforwait : UInt64 := 0
  guestCycles : UInt64 := 0
  frameTimestamp : UInt64 := 0
  sequence : UInt64 := 0
  frameRemainder : UInt32 := 0
  lastCpuPosition : UInt32 := 0
  cpuPositionValid : Bool := false
  bound : Bool := false
deriving DecidableEq, Repr

/-- An attached host trace, without its records. -/
structure HostTrace where
  eventCapacity : Nat
  eventCount : Nat := 0
  dataRunCapacity : Nat
  dataRunCount : Nat := 0
  pcmCapacity : Nat
  pcmCount : Nat := 0
  timerCapacity : Nat
  timerCount : Nat := 0
  pcmOffsetBase : Nat := 0
  boundedWindows : Bool := false
deriving DecidableEq, Repr

/-- Which of the optional hooks are set. -/
structure Hooks where
  cpuPosition : Bool := false
  schedule : Bool := false
  cancel : Bool := false
  isWork : Bool := false
  irq : Bool := false
  extension : Bool := false
deriving DecidableEq, Repr

/-- A bound sink has all its callbacks but perhaps the one for progress. -/
structure Sink where
  publishesProgress : Bool
deriving DecidableEq, Repr

/-- The statics of the adapter. -/
structure Adapter where
  guest : GuestState := {}
  trace : Option HostTrace := none
  sink : Option Sink := none
  hooks : Hooks := {}
  manualCpuPosition : UInt32 := 0
  baseclock : UInt32 := 2457600
  multiple : UInt32 := 20
  cpumode : UInt32 := 0x20
  failure : Option String := none
  runPending : Bool := false
  runTimestamp : UInt64 := 0
  runSequence : UInt64 := 0
  runOffset : Nat := 0
  runCount : Nat := 0
  runTransaction : Token := Vector.replicate 4 0
  runTransactionActive : Bool := false
  semanticCallActive : Bool := false
  contractViolation : Bool := false
  terminationPending : Bool := false
deriving DecidableEq, Repr

def Adapter.failed (s : Adapter) : Bool := s.failure.isSome

end State

/-- The functions of the adapter work on its statics and make calls. -/
abbrev Guest := StateT Adapter (Program Call Reply)

def callOut (request : Call) : Guest (Reply request) := fun s =>
  .call request fun reply => .done (reply, s)

def modifyGuest (change : GuestState → GuestState) : Guest Unit :=
  modify fun s => { s with guest := change s.guest }

/-- A conditional statement. -/
def onlyIf (condition : Prop) [Decidable condition] (body : Guest Unit) : Guest Unit :=
  if condition then body else pure ()

/-- The first reason stays. -/
def fail (reason : String) : Guest Unit :=
  modify fun s => if s.failure.isSome then s else { s with failure := some reason }

def currentCpuPosition : Guest UInt32 := do
  let s ← get
  if s.hooks.cpuPosition then callOut .cpuPosition else return s.manualCpuPosition

/-- Whether a semantic call may start. -/
def semanticEnter : Guest Bool := do
  let s ← get
  if s.semanticCallActive then
    set { s with contractViolation := true }
    return false
  else if s.failed then return false
  else if s.contractViolation then
    fail "guest semantic reentrancy"
    return false
  else if s.terminationPending then
    fail "guest transaction terminated"
    return false
  else
    set { s with semanticCallActive := true }
    return true

def semanticLeave : Guest Unit := modify fun s => { s with semanticCallActive := false }

end EspNp2.GuestAdapter.AdapterState
