import EspNp2.LiveService.Transport

/-!
The way of the rendered PCM to the sink: the ring of quanta of 240 frames and the controller
that submits them. Only the worker uses both.
-/

namespace EspNp2.LiveService.PcmOutput

open EspNp2.Library.Concurrent
open EspNp2.LiveService.ServiceMemory
open EspNp2.LiveService.Transport

section Ring

def ringCapacity : Nat := 8

def quantumFrames : Nat := 240

def bytesPerFrame : Nat := 4

inductive RingStatus where
  | ok
  | empty
  | full
  | argument
  | offset
  | finalized
  | invariant
deriving DecidableEq, Repr

/-- The ring with its published slots, oldest first, and the slot that is being filled. -/
structure PcmRing where
  slots : List SinkView := []
  nextFrameOffset : UInt64 := 0
  nextSequence : UInt32 := 0
  partialOffset : UInt64 := 0
  partialPcm : List UInt8 := []
  partialValidFrames : Nat := 0
  finalized : Bool := false
deriving DecidableEq, Repr

def PcmRing.occupancy (ring : PcmRing) : Nat := ring.slots.length

/-- Some frames for the slot that is being filled; a full slot is published. -/
def PcmRing.fill (ring : PcmRing) (pcm : List UInt8) (chunk : Nat) : PcmRing :=
  let offset := if ring.partialValidFrames = 0 then ring.nextFrameOffset else ring.partialOffset
  let filled := ring.partialPcm ++ pcm.take (chunk * bytesPerFrame)
  let next := ring.nextFrameOffset + UInt64.ofNat chunk
  if ring.partialValidFrames + chunk = quantumFrames then
    { ring with
      slots := ring.slots ++ [⟨filled, offset, ring.nextSequence, quantumFrames, false⟩]
      nextFrameOffset := next
      nextSequence := ring.nextSequence + 1
      partialOffset := offset
      partialPcm := []
      partialValidFrames := 0 }
  else
    { ring with
      nextFrameOffset := next
      partialOffset := offset
      partialPcm := filled
      partialValidFrames := ring.partialValidFrames + chunk }

/-- The loop of `np2opngen_pcm_ring_append`. A round takes a frame at least, so as many
rounds as frames are enough. -/
def PcmRing.appendRounds : Nat → PcmRing → List UInt8 → Nat → RingStatus × Nat × PcmRing
  | 0, ring, _, _ => (.ok, 0, ring)
  | rounds + 1, ring, pcm, frameCount =>
      if frameCount = 0 then (.ok, 0, ring)
      else if ring.occupancy > ringCapacity then (.invariant, 0, ring)
      else if ring.occupancy = ringCapacity then (.full, 0, ring)
      else
        let chunk := min frameCount (quantumFrames - ring.partialValidFrames)
        let (status, consumed, ring') := appendRounds rounds (ring.fill pcm chunk)
          (pcm.drop (chunk * bytesPerFrame)) (frameCount - chunk)
        (status, chunk + consumed, ring')

def PcmRing.append (ring : PcmRing) (pcm : List UInt8) (frameCount : Nat) (frameOffset : UInt64) :
    RingStatus × Nat × PcmRing :=
  if ring.finalized then (.finalized, 0, ring)
  else if frameOffset ≠ ring.nextFrameOffset then (.offset, 0, ring)
  else if UInt64.ofNat frameCount > (-1 : UInt64) - frameOffset then (.argument, 0, ring)
  else ring.appendRounds frameCount pcm frameCount

def PcmRing.finish (ring : PcmRing) (finalFrame : UInt64) : RingStatus × PcmRing :=
  if ring.finalized then (.finalized, ring)
  else if finalFrame ≠ ring.nextFrameOffset then (.offset, ring)
  else if ring.partialValidFrames = 0 then (.ok, { ring with finalized := true })
  else if ring.occupancy > ringCapacity then (.invariant, ring)
  else if ring.occupancy = ringCapacity then (.full, ring)
  else
    (.ok,
      { ring with
        slots := ring.slots ++ [⟨ring.partialPcm, ring.partialOffset, ring.nextSequence,
          ring.partialValidFrames, true⟩]
        nextSequence := ring.nextSequence + 1
        partialPcm := []
        partialValidFrames := 0
        finalized := true })

end Ring

section Controller

inductive OutputState where
  | initial
  | started
  | failed
  | finished
  | aborted
deriving DecidableEq, Repr

inductive OutputStatus where
  | ok
  | consumed
  | empty
  | retry
  | fatal
  | stateError
  | slotError
  | ringError
deriving DecidableEq, Repr

structure OutputController where
  state : OutputState := .initial
  expectedFrameOffset : UInt64 := 0
  acceptedFrames : UInt64 := 0
  acceptedBytes : UInt64 := 0
  expectedSequence : UInt32 := 0
deriving DecidableEq, Repr

/-- The fields of the service that only the worker uses. -/
structure Worker where
  ring : PcmRing := {}
  output : OutputController := {}
  renderedFrame : UInt64 := 0
  expectedSequence : UInt64 := 0
  workerByteOffset : UInt64 := 0
  committedFrameReconstructed : UInt64 := 0
deriving DecidableEq, Repr

abbrev WorkerCode := StateT Worker Code

def modifyOutput (change : OutputController → OutputController) : WorkerCode Unit :=
  modify fun w => { w with output := change w.output }

/-- `translate_result`, and the state that an accepted call leads to. -/
def translateResult (accepted : OutputState) : SinkResult → WorkerCode OutputStatus
  | .retry => return .retry
  | .fatal => do
      modifyOutput fun output => { output with state := .failed }
      return .fatal
  | .accepted => do
      modifyOutput fun output => { output with state := accepted }
      return .ok

def outputStart : WorkerCode OutputStatus := do
  if (← get).output.state ≠ .initial then return .stateError
  else translateResult .started (← operate .sinkStart)

def slotValid (output : OutputController) (slot : SinkView) : Bool :=
  (slot.validFrames = quantumFrames && !slot.finalPartial ||
      slot.validFrames > 0 && slot.validFrames < quantumFrames && slot.finalPartial) &&
    slot.sequence = output.expectedSequence && slot.frameOffset = output.expectedFrameOffset

/-- The end of `np2_pcm_output_step`, when the sink has accepted a slot. -/
def acceptSlot (slot : SinkView) (rest : List SinkView) : WorkerCode OutputStatus := do
  let output := (← get).output
  let frames := UInt64.ofNat slot.validFrames
  let bytes := UInt64.ofNat (slot.validFrames * bytesPerFrame)
  if output.acceptedFrames > (-1 : UInt64) - frames ∨
      output.acceptedBytes > (-1 : UInt64) - bytes then
    modifyOutput fun output => { output with state := .failed }
    return .fatal
  else
    modify fun w => { w with
      ring := { w.ring with slots := rest }
      output := { w.output with
        expectedFrameOffset := w.output.expectedFrameOffset + frames
        acceptedFrames := w.output.acceptedFrames + frames
        acceptedBytes := w.output.acceptedBytes + bytes
        expectedSequence := w.output.expectedSequence + 1 } }
    return .consumed

def submitSlot (slot : SinkView) (rest : List SinkView) : WorkerCode OutputStatus := do
  match ← operate (.sinkSubmit slot) with
  | .fatal =>
      modifyOutput fun output => { output with state := .failed }
      return .fatal
  | .retry => return .retry
  | .accepted => acceptSlot slot rest

def outputStep : WorkerCode OutputStatus := do
  let w ← get
  if w.output.state ≠ .started then return .stateError
  else if w.ring.occupancy > ringCapacity then return .ringError
  else
    match w.ring.slots with
    | [] => return .empty
    | slot :: rest =>
        if slotValid w.output slot = false then return .slotError else submitSlot slot rest

def outputFinish : WorkerCode OutputStatus := do
  let w ← get
  if w.output.state ≠ .started then return .stateError
  else if w.ring.occupancy ≠ 0 then return .stateError
  else translateResult .finished (← operate .sinkFinish)

def outputAbort : WorkerCode OutputStatus := do
  let w ← get
  if w.output.state ≠ .started ∧ w.output.state ≠ .failed then return .stateError
  else translateResult .aborted (← operate .sinkAbort)

end Controller

end EspNp2.LiveService.PcmOutput
