import EspNp2.Library.Concurrent

/-!
The horizon mailbox of the audio runtime.  One producer publishes horizons and one consumer
observes them; every load and store of the mailbox words and of the two clocks is a step of
its own.  Each party makes one call after the other, in whatever order the environment
asks for them.
-/

namespace EspNp2.AudioTransport.HorizonMailbox

open Library.Concurrent

inductive Party where
  | producer
  | consumer
deriving DecidableEq, Repr

inductive HorizonStatus where
  | ok
  | argument
  | nonmonotonic
  | retry
  | bounds
  | terminated
  | resetRequired
deriving DecidableEq, Repr

def horizonEmpty : UInt32 := 0
def horizonFull : UInt32 := 1
def flagNone : UInt32 := 0
def flagTerminal : UInt32 := 1

/-- What an observation returns, and what a publication carries. -/
structure Horizon where
  frame : UInt64
  flags : UInt32
  terminalResetOrdinal : UInt32
deriving DecidableEq, Repr

/-- The words of the mailbox, the fields of the producer's clock and the consumer's clock. -/
inductive Cell where
  | horizonState
  | horizonFrameLo
  | horizonFrameHi
  | horizonFlags
  | terminalResetOrdinal
  | committedFrameOwner
  | terminalPublishedOwner
  | committedFrameReconstructed
deriving DecidableEq, Repr

@[reducible] def Cell.Value : Cell → Type
  | .committedFrameOwner => UInt64
  | .committedFrameReconstructed => UInt64
  | _ => UInt32

abbrev Memory := (cell : Cell) → cell.Value

def Memory.initial : Memory
  | .horizonState => horizonEmpty
  | .horizonFrameLo => 0
  | .horizonFrameHi => 0
  | .horizonFlags => flagNone
  | .terminalResetOrdinal => 0
  | .committedFrameOwner => 0
  | .terminalPublishedOwner => 0
  | .committedFrameReconstructed => 0

inductive PublishCall where
  | horizonPublish (frame : UInt64)
  | terminalHorizonPublish (frame workloadBound : UInt64) (resetOrdinal : UInt32)
deriving DecidableEq, Repr

inductive ObserveCall where
  | tryObserveDetail
  | horizonPending
deriving DecidableEq, Repr

inductive ObserveReply where
  | observed (status : HorizonStatus) (observation : Option Horizon)
  | pending (value : Bool)
deriving DecidableEq, Repr

/-- A step of a party.  `record` fills the observation that the caller handed in; the
`begin` and `finish` operations mark the calls. -/
inductive Op where
  | load (cell : Cell)
  | store (cell : Cell) (value : cell.Value)
  | record (observation : Horizon)
  | beginPublish
  | finishPublish (call : PublishCall) (status : HorizonStatus)
  | beginObserve
  | finishObserve (call : ObserveCall) (reply : ObserveReply)

@[reducible] def Result : Op → Type
  | .load cell => cell.Value
  | .beginPublish => PublishCall
  | .beginObserve => ObserveCall
  | _ => Unit

abbrev Code := Thread Op Result

def load (cell : Cell) : Code cell.Value := perform (Op.load cell)

def store (cell : Cell) (value : cell.Value) : Code Unit := perform (Op.store cell value)

def frameLo (frame : UInt64) : UInt32 := frame.toUInt32

def frameHi (frame : UInt64) : UInt32 := (frame >>> 32).toUInt32

def joinFrame (high low : UInt32) : UInt64 := high.toUInt64 <<< 32 ||| low.toUInt64

/-- `horizon_publish` behind its three checks: EMPTY grants the payload to the producer. -/
def publishPayload (horizon : Horizon) : Code HorizonStatus := do
  store .horizonFrameLo (frameLo horizon.frame)
  store .horizonFrameHi (frameHi horizon.frame)
  store .horizonFlags horizon.flags
  store .terminalResetOrdinal horizon.terminalResetOrdinal
  store .committedFrameOwner horizon.frame
  if horizon.flags = flagTerminal then
    store .terminalPublishedOwner 1
  store .horizonState horizonFull
  return .ok

def horizonPublish (horizon : Horizon) : Code HorizonStatus := do
  let terminalPublished ← load .terminalPublishedOwner
  if terminalPublished ≠ 0 then
    return .terminated
  else
    let committed ← load .committedFrameOwner
    if horizon.frame < committed then
      return .nonmonotonic
    else
      let state ← load .horizonState
      if state ≠ horizonEmpty then
        return .retry
      else
        publishPayload horizon

def PublishCall.horizon : PublishCall → Horizon
  | .horizonPublish frame => ⟨frame, flagNone, 0⟩
  | .terminalHorizonPublish frame _ resetOrdinal => ⟨frame, flagTerminal, resetOrdinal⟩

def PublishCall.code (call : PublishCall) : Code HorizonStatus :=
  match call with
  | .horizonPublish _ => HorizonMailbox.horizonPublish call.horizon
  | .terminalHorizonPublish frame workloadBound resetOrdinal =>
      if resetOrdinal = 0 then
        return .resetRequired
      else if frame > workloadBound then
        return .bounds
      else
        HorizonMailbox.horizonPublish call.horizon

/-- `np2audio86_runtime_horizon_try_observe_detail`; FULL grants the payload to the consumer
until it stores EMPTY. -/
def tryObserveDetail : Code ObserveReply := do
  let state ← load .horizonState
  if state ≠ horizonFull then
    return .observed .retry none
  else
    let low ← load .horizonFrameLo
    let high ← load .horizonFrameHi
    let flags ← load .horizonFlags
    let resetOrdinal ← load .terminalResetOrdinal
    let frame := joinFrame high low
    let committed ← load .committedFrameReconstructed
    if frame < committed then
      return .observed .nonmonotonic none
    else
      store .committedFrameReconstructed frame
      perform (Op.record ⟨frame, flags, resetOrdinal⟩)
      store .horizonState horizonEmpty
      return .observed .ok (some ⟨frame, flags, resetOrdinal⟩)

def horizonPending : Code ObserveReply := do
  let state ← load .horizonState
  return .pending (state = horizonFull)

def ObserveCall.code : ObserveCall → Code ObserveReply
  | .tryObserveDetail => HorizonMailbox.tryObserveDetail
  | .horizonPending => HorizonMailbox.horizonPending

/-- The producer makes one publish call after the other. -/
def producer : Code Unit :=
  iterate (fun _ => do
    let call : PublishCall ← perform Op.beginPublish
    let status ← call.code
    perform (Op.finishPublish call status)
    return .inl ()) ()

/-- The consumer makes one observe call after the other. -/
def consumer : Code Unit :=
  iterate (fun _ => do
    let call : ObserveCall ← perform Op.beginObserve
    let reply ← call.code
    perform (Op.finishObserve call reply)
    return .inl ()) ()

/-- Loads and stores of the shared memory; the environment may ask for any call. -/
inductive Acts (memory : Memory) : (request : Op) → Result request → Memory → Prop
  | load (cell : Cell) : Acts memory (.load cell) (memory cell) memory
  | store (cell : Cell) (value : cell.Value) :
      Acts memory (.store cell value) () (Function.update memory cell value)
  | record (observation : Horizon) : Acts memory (.record observation) () memory
  | beginPublish (call : PublishCall) : Acts memory .beginPublish call memory
  | finishPublish (call : PublishCall) (status : HorizonStatus) :
      Acts memory (.finishPublish call status) () memory
  | beginObserve (call : ObserveCall) : Acts memory .beginObserve call memory
  | finishObserve (call : ObserveCall) (reply : ObserveReply) :
      Acts memory (.finishObserve call reply) () memory

abbrev Label := Party × OpLabel Op Result

abbrev MailboxSystem := System Party Op Result (fun _ => Unit) Memory

def MailboxSystem.initial : MailboxSystem where
  threads
    | .producer => producer
    | .consumer => consumer
  state := Memory.initial

end EspNp2.AudioTransport.HorizonMailbox
