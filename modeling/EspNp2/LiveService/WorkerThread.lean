import EspNp2.GuestAdapter.AdapterOperations
import EspNp2.LiveService.PcmOutput

/-!
The worker of the live service: it observes the horizon, applies the events of the guest at
their frames, renders up to the horizon and brings the run to its end.
-/

namespace EspNp2.LiveService.WorkerThread

open EspNp2.GuestAdapter.AdapterOperations (maxDataRun)
open EspNp2.Library.Concurrent
open EspNp2.LiveService.PcmOutput
open EspNp2.LiveService.ServiceMemory
open EspNp2.LiveService.Transport

section Rendering

/-- The status of `drain_output` with its flag `retry`. -/
structure Drained where
  ok : Bool
  retry : Bool := false
deriving DecidableEq, Repr

/-- What `drain_output` makes of one step of the controller. -/
def drainStatus : OutputStatus → WorkerCode (Unit ⊕ Drained)
  | .consumed => return .inl ()
  | .empty => return .inr ⟨true, false⟩
  | .retry => return .inr ⟨true, true⟩
  | .ok | .fatal | .stateError | .slotError | .ringError => do
      discard (firstFatal .output .pcmOutput subcodePcmOutput)
      return .inr ⟨false, false⟩

def drainRound : WorkerCode (Unit ⊕ Drained) := do
  if (← load .state) = .failing then return .inr ⟨false, false⟩
  else if ← load .firstErrorLatched then return .inr ⟨false, false⟩
  else drainStatus (← outputStep)

def drainOutput : WorkerCode Drained := iterating (fun _ => drainRound) ()

/-- The wait for a free slot of the PCM ring. -/
def waitForSpace (retry : Bool) : WorkerCode Unit := do
  if retry ∨ (← get).ring.occupancy = ringCapacity then wait

/-- What `append_pcm` does after the output has been drained. -/
def appendStatus (appended : Nat) (retry : Bool) : RingStatus → WorkerCode (Nat ⊕ Bool)
  | .ok => return .inl appended
  | .full => do
      waitForSpace retry
      if ← load .firstErrorLatched then return .inr false else return .inl appended
  | .empty | .argument | .offset | .finalized | .invariant => do
      discard (firstFatal .worker .pcmOutput subcodePcmRing)
      return .inr false

def appendRound (pcm : List UInt8) (frames : Nat) (frameOffset : UInt64) (appended : Nat) :
    WorkerCode (Nat ⊕ Bool) := do
  if frames ≤ appended then return .inr true
  else
    let w ← get
    let (status, consumed, ring) := w.ring.append (pcm.drop (appended * bytesPerFrame))
      (frames - appended) (frameOffset + UInt64.ofNat appended)
    set { w with ring := ring }
    let drained ← drainOutput
    if drained.ok then appendStatus (appended + consumed) drained.retry status
    else return .inr false

def appendPcm (pcm : List UInt8) (frames : Nat) (frameOffset : UInt64) : WorkerCode Bool :=
  iterating (appendRound pcm frames frameOffset) 0

/-- The renderer has failed. -/
def renderFailure (subcode : UInt32) : WorkerCode Unit := do
  if (← load .firstErrorLatched) = false then
    discard (firstFatal .renderer .render subcode)

def spanFrames (remaining : UInt64) : Nat :=
  if remaining > UInt64.ofNat quantumFrames then quantumFrames else remaining.toNat

/-- The span from the rendered frame on has been rendered. -/
def appendSpan (frames : Nat) (pcm : List UInt8) : WorkerCode (Unit ⊕ Bool) := do
  if ← appendPcm pcm frames (← get).renderedFrame then
    modify fun w => { w with renderedFrame := w.renderedFrame + UInt64.ofNat frames }
    return .inl ()
  else return .inr false

def renderSpan (frames : Nat) : WorkerCode (Unit ⊕ Bool) := do
  match ← operate (.renderSpan frames) with
  | none =>
      renderFailure subcodeRender
      return .inr false
  | some pcm => appendSpan frames pcm

def renderRound (target : UInt64) : WorkerCode (Unit ⊕ Bool) := do
  let rendered := (← get).renderedFrame
  if rendered < target then
    if ← load .firstErrorLatched then return .inr false
    else renderSpan (spanFrames (target - rendered))
  else return .inr true

def renderUntil (target : UInt64) : WorkerCode Bool := do
  if target < (← get).renderedFrame then return false
  else iterating (fun _ => renderRound target) ()

end Rendering

section Events

def eventDataRun : UInt32 := 3
def eventOpnaRegister : UInt32 := 0x100
def eventOpnaCsm : UInt32 := 0x101
def eventPcmControl : UInt32 := 0x102
def eventResetBarrier : UInt32 := 0x80000000

/-- The action of an event without data. -/
def eventAction (event : Event) (kind : ActionKind) (opcode : UInt32) : Action where
  frameTimestamp := event.frameTimestamp
  sequence := event.sequence
  opcode := opcode
  payload := event.payload
  byteOffset := 0
  byteCount := 0
  kind := kind

/-- The action of a run of data bytes, which are taken from the byte ring. -/
def dataRunAction (event : Event) (offset : UInt64) : Action :=
  { eventAction event .dataRun 3 with
    payload := 0, byteOffset := offset, byteCount := event.payload }

def applyDataRun (event : Event) : WorkerCode (Option (List UInt8)) := do
  if event.payload = 0 ∨ event.payload.toNat > maxDataRun then return none
  else
    match ← byteRingPop event.payload with
    | .error _ => return none
    | .ok bytes =>
        let offset := (← get).workerByteOffset
        modify fun w => { w with workerByteOffset := w.workerByteOffset + event.payload.toUInt64 }
        let applied ← operate (.actionApply (dataRunAction event offset) bytes)
        return if applied then some bytes else none

def applyControl (event : Event) (kind : ActionKind) (opcode : UInt32) :
    WorkerCode (Option (List UInt8)) := do
  let applied ← operate (.actionApply (eventAction event kind opcode) [])
  return if applied then some [] else none

def applyReset (event : Event) : WorkerCode (Option (List UInt8)) := do
  if event.payload = 0 then return none
  else
    let applied ← operate .renderReset
    return if applied then some [] else none

/-- The part of `apply_event` between the rendering and the consumption: the bytes of the
event if it has been applied. -/
def performEvent (event : Event) : WorkerCode (Option (List UInt8)) :=
  if event.opcode = eventDataRun then applyDataRun event
  else if event.opcode = eventOpnaRegister then applyControl event .opnaRegister 1
  else if event.opcode = eventOpnaCsm then applyControl event .opnaCsm 2
  else if event.opcode = eventPcmControl then applyControl event .pcmControl 3
  else if event.opcode = eventResetBarrier then applyReset event
  else pure none

def acknowledgeReset (event : Event) : WorkerCode Unit := do
  if event.opcode = eventResetBarrier then store .resetAckOrdinal event.payload

/-- The consumption of an event that has been applied with its bytes. -/
def consumeEvent (event : Event) (bytes : List UInt8) : WorkerCode Bool := do
  note (.applied event bytes (← get).renderedFrame)
  if (← eventRingConsume) = .ok then
    modify fun w => { w with expectedSequence := w.expectedSequence + 1 }
    acknowledgeReset event
    wake
    return true
  else return false

def applyEvent (event : Event) : WorkerCode Bool := do
  if event.sequence ≠ (← get).expectedSequence then return false
  else if ← renderUntil event.frameTimestamp then
    match ← performEvent event with
    | none => return false
    | some bytes => consumeEvent event bytes
  else return false

end Events

section Ending

/-- What `close_pcm_ring` makes of the status of the ring. -/
def closeStatus : RingStatus → WorkerCode (Unit ⊕ Bool)
  | .ok => return .inr true
  | .full => do
      let drained ← drainOutput
      if drained.ok then
        waitForSpace drained.retry
        return .inl ()
      else return .inr false
  | .empty | .argument | .offset | .finalized | .invariant => do
      discard (firstFatal .worker .finish subcodePcmRing)
      return .inr false

def closeRound : WorkerCode (Unit ⊕ Bool) := do
  let w ← get
  let (status, ring) := w.ring.finish w.renderedFrame
  set { w with ring := ring }
  closeStatus status

def closePcmRing : WorkerCode Bool := iterating (fun _ => closeRound) ()

/-- What `finish_output` makes of the status of the controller. -/
def finishStatus : OutputStatus → WorkerCode (Unit ⊕ Bool)
  | .ok => return .inr true
  | .retry => do
      if ← load .firstErrorLatched then return .inr false
      else
        wait
        return .inl ()
  | .consumed | .empty | .fatal | .stateError | .slotError | .ringError => do
      discard (firstFatal .output .finish subcodeFinish)
      return .inr false

def finishRound : WorkerCode (Unit ⊕ Bool) := do
  let drained ← drainOutput
  if drained.ok = false then return .inr false
  else if drained.retry then
    wait
    return .inl ()
  else finishStatus (← outputFinish)

def finishOutput : WorkerCode Bool := iterating (fun _ => finishRound) ()

def abortRound : WorkerCode (Unit ⊕ Bool) := do
  match ← outputAbort with
  | .ok => return .inr true
  | .retry =>
      wait
      return .inl ()
  | _ => return .inr false

def abortOutputBarrier : WorkerCode Bool := do
  let state := (← get).output.state
  if state = .initial ∨ state = .aborted ∨ state = .finished then return true
  else iterating (fun _ => abortRound) ()

def releaseBorrow : Code Unit := store .sinkReachable false

def publishTerminalState (state : LiveState) (cleanup : Cleanup) : Code Unit := do
  store .cleanup cleanup
  store .workerSafe true
  store .state state

def publishCleanTerminal : Code Bool := do
  store .cleanup .quiescent
  store .workerSafe true
  let published ← compareExchange .state .draining .stoppedQuiescent
  if published then return true
  else
    store .workerSafe false
    return false

end Ending

section Main

/-- How the main loop of the worker ends. -/
inductive Exit where
  | failed
  | barrier
  | stopped
deriving DecidableEq, Repr

def startRound : WorkerCode (Unit ⊕ OutputStatus) := do
  let status ← outputStart
  if status = .retry then
    wait
    if ← load .firstErrorLatched then return .inr status else return .inl ()
  else return .inr status

def workerStart : WorkerCode Unit := do
  let status ← iterating (fun _ => startRound) ()
  if status ≠ .ok then discard (firstFatal .output .start subcodeSinkStart)
  else if ← compareExchange .state .starting .startedUnattached then wake

/-- Whether nothing is left to consume. -/
def transportEmpty : Code Bool := do
  if ← horizonPending then return false
  else if (← eventRingOccupancy) ≠ 0 then return false
  else return (← byteRingOccupancy) = 0

/-- The clean end of the output. -/
def cleanEnd : WorkerCode Exit := do
  releaseBorrow
  if ← publishCleanTerminal then return .stopped else return .barrier

def finishRun : WorkerCode Exit := do
  if ← closePcmRing then
    if ← finishOutput then cleanEnd else return .failed
  else return .failed

/-- The decision about the end, with the horizon that the owner has published as final. -/
def decideEnd (authority final : UInt64) : WorkerCode Exit := do
  if authority ≠ final ∨ (← get).renderedFrame ≠ final then
    discard (firstFatal .transport .finish subcodeHorizon)
    return .failed
  else finishRun

def idle (authority : UInt64) (progressed : Bool) : WorkerCode (UInt64 ⊕ Exit) := do
  if progressed then return .inl authority
  else
    wait
    return .inl authority

/-- The end of a round of the main loop. -/
def roundEnd (authority : UInt64) (progressed : Bool) : WorkerCode (UInt64 ⊕ Exit) := do
  if ← load .producerDone then
    let final ← finalHorizonRead
    if ← transportEmpty then return .inr (← decideEnd authority final)
    else idle authority progressed
  else idle authority progressed

def roundDrain (authority : UInt64) (progressed : Bool) : WorkerCode (UInt64 ⊕ Exit) := do
  let drained ← drainOutput
  if drained.ok then roundEnd authority (progressed && !drained.retry) else return .inr .failed

def roundRender (authority : UInt64) (progressed : Bool) : WorkerCode (UInt64 ⊕ Exit) := do
  if (← get).renderedFrame < authority then
    if ← renderUntil authority then roundDrain authority true else return .inr .failed
  else roundDrain authority progressed

def roundApply (authority : UInt64) (event : Event) : WorkerCode (UInt64 ⊕ Exit) := do
  if ← applyEvent event then return .inl authority
  else
    renderFailure subcodeEvent
    return .inr .failed

def roundEvent (authority : UInt64) (progressed : Bool) : WorkerCode (UInt64 ⊕ Exit) := do
  match ← eventRingPeek with
  | .ok event =>
      if event.frameTimestamp ≤ authority then roundApply authority event
      else roundRender authority progressed
  | .error .empty => roundRender authority progressed
  | .error _ =>
      discard (firstFatal .transport .guestTransport subcodeEvent)
      return .inr .failed

def mainRound (authority : UInt64) : WorkerCode (UInt64 ⊕ Exit) := do
  if ← load .firstErrorLatched then return .inr .failed
  else
    match ← horizonTryObserve (← get).committedFrameReconstructed with
    | .ok frame =>
        modify fun w => { w with committedFrameReconstructed := frame }
        wake
        roundEvent frame true
    | .error .retry => roundEvent authority false
    | .error _ =>
        discard (firstFatal .transport .guestTransport subcodeHorizon)
        return .inr .failed

def detachRound : WorkerCode (Unit ⊕ Unit) := do
  if ← load .guestAttached then
    wait
    return .inl ()
  else return .inr ()

/-- The end of a worker that has not stopped cleanly. -/
def quiesce : WorkerCode Unit := do
  iterating (fun _ => detachRound) ()
  publishTerminalState .failedQuiescent .quiescent

def workerEnd : Exit → WorkerCode Unit
  | .stopped => return ()
  | .barrier => quiesce
  | .failed => do
      if ← abortOutputBarrier then
        releaseBorrow
        quiesce
      else publishTerminalState .failedNotQuiescent .notQuiescent

def workerRun : WorkerCode Unit := do
  workerStart
  workerEnd (← iterating mainRound 0)

end Main

end EspNp2.LiveService.WorkerThread
