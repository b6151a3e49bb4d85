import EspNp2.HostUpload.HostWire

/-!
The send loops of `SerialFileTransferClient.upload` (one frame at a time) and
`_upload_windowed` (go-back-N with two frames), as machines that react to a
received frame or to a timeout and answer with the frames they send. The record
`handed` of what the producer returned and the count `retired` of accepted frames
are kept beside the source's own variables.
-/

namespace EspNp2.HostUpload.UploadClient

open EspNp2.BinaryDataPlane.BinaryCodec
open EspNp2.HostUpload.HostWire

def dataMaxAttempts : Nat := 3
def dataWindowFrames : Nat := 2

/-- `DATA_NACK_REASONS`. -/
def isNackReason (status : UInt16) : Bool :=
  1 ≤ status && status ≤ 8

/-- A byte producer; `none` where `read` raises. -/
structure Producer (P : Type) where
  read : P → Nat → Option (List UInt8 × P)

structure UploadPlan where
  transferId : UInt32
  wireSize : Nat

/-- The messages of `RemoteError("PROTOCOL_ERROR", …)`. -/
inductive ProtocolFault where
  | invalidAck
  | mismatchedAck
  | invalidNack
  | mismatchedNack
  | unexpectedResponse
  | futureResponse
  | noRetryFrontier
deriving DecidableEq, Repr

inductive UploadError where
  | protocolError (fault : ProtocolFault)
  | nack
  | retryExhausted
  | timeout
  | sourceChanged
  | producerFailed
  | badFrame
  | ioError
deriving DecidableEq, Repr

/-- The locals of one round of the stop-and-wait loop. -/
structure StopAndWait where
  sequence : Nat
  offset : Nat
  payload : List UInt8
  frame : List UInt8
  attempts : Nat

structure RetainedDataFrame where
  sequence : Nat
  offset : Nat
  payload : List UInt8
  wireFrame : List UInt8
  endSequence : Nat
  endOffset : Nat

/-- The locals of `_upload_windowed`. The dictionary `boundaries` is a function
with its number of keys. -/
structure Windowed where
  outstanding : List RetainedDataFrame
  boundaries : Nat × Nat → Option Nat
  boundaryCount : Nat
  nextSequence : Nat
  nextOffset : Nat
  retryRounds : Nat
  lastNackRetryBase : Option (Nat × Nat)

inductive Sender where
  | stopAndWait (s : StopAndWait)
  | windowed (s : Windowed)
  | finished
  | failed (error : UploadError)

structure Host (P : Type) where
  source : P
  handed : List (List UInt8)
  retired : Nat
  sender : Sender

/-- A host after one reaction, with the wire forms it sent. -/
abbrev Reaction (P : Type) := Host P × List (List UInt8)

variable {P : Type}

def Host.fail (host : Host P) (error : UploadError) : Host P :=
  { host with sender := .failed error }

section Client

variable (producer : Producer P) (plan : UploadPlan)

/-- Read the next payload and build its DATA frame. -/
def readFrame (host : Host P) (sequence offset : Nat) :
    Except (Host P) (Host P × List UInt8 × List UInt8) :=
  match producer.read host.source (min kMaxPayloadBytes (plan.wireSize - offset)) with
  | none => .error (host.fail .producerFailed)
  | some (payload, source) =>
      let host := { host with source := source, handed := host.handed ++ [payload] }
      if payload = [] then .error (host.fail .sourceChanged)
      else
        match buildFrame .data plan.transferId sequence offset 0 payload with
        | none => .error (host.fail .badFrame)
        | some frame => .ok (host, payload, frame)

/-- The head of the stop-and-wait loop. -/
def sendNext (host : Host P) (sequence offset : Nat) : Reaction P :=
  if offset < plan.wireSize then
    match readFrame producer plan host sequence offset with
    | .error host => (host, [])
    | .ok (host, payload, frame) =>
        let current : StopAndWait :=
          { sequence := sequence
            offset := offset
            payload := payload
            frame := frame
            attempts := 1 }
        ({ host with sender := .stopAndWait current }, [frame])
  else ({ host with sender := .finished }, [])

/-- Transmit the current frame once more, or give up with `error`. -/
def resend (host : Host P) (s : StopAndWait) (error : UploadError) : Reaction P :=
  if s.attempts ≥ dataMaxAttempts then (host.fail error, [])
  else ({ host with sender := .stopAndWait { s with attempts := s.attempts + 1 } }, [s.frame])

def isStaleControlPair (sequence offset currentSequence currentOffset : Nat) : Bool :=
  sequence = currentSequence ∧ offset = currentOffset ∨
    sequence < currentSequence ∧ offset < currentOffset

def isStaleNackPair (sequence offset currentSequence currentOffset : Nat) : Bool :=
  sequence < currentSequence ∧ offset < currentOffset

/-- The body of the wait loop of `upload` for one received frame. -/
def receiveStopAndWait (host : Host P) (s : StopAndWait) (response : ParsedFrame) :
    Reaction P :=
  if response.transferId ≠ plan.transferId then (host, [])
  else if response.crcValid ≠ true then (host, [])
  else
    let sequence := response.sequence.toNat
    let offset := response.offset.toNat
    match response.type with
    | .ack =>
        if response.status ≠ 0 ∨ response.payload ≠ [] then
          (host.fail (.protocolError .invalidAck), [])
        else if sequence = s.sequence + 1 ∧ offset = s.offset + s.payload.length then
          sendNext producer plan { host with retired := host.retired + 1 } (s.sequence + 1)
            (s.offset + s.payload.length)
        else if isStaleControlPair sequence offset s.sequence s.offset then (host, [])
        else (host.fail (.protocolError .mismatchedAck), [])
    | .nack =>
        if response.payload ≠ [] ∨ isNackReason response.status = false then
          (host.fail (.protocolError .invalidNack), [])
        else if sequence = s.sequence ∧ offset = s.offset then resend host s .nack
        else if isStaleNackPair sequence offset s.sequence s.offset then (host, [])
        else (host.fail (.protocolError .mismatchedNack), [])
    | .data => (host.fail (.protocolError .unexpectedResponse), [])

/-- The `while outstanding` test. -/
def settle (host : Host P) (w : Windowed) : Host P :=
  if w.outstanding = [] then { host with sender := .finished }
  else { host with sender := .windowed w }

/-- `boundaries[key] = len(boundaries)`. -/
def Windowed.addBoundary (w : Windowed) (key : Nat × Nat) : Windowed :=
  { w with
    boundaries := fun other => if other = key then some w.boundaryCount else w.boundaries other
    boundaryCount := if (w.boundaries key).isSome then w.boundaryCount
      else w.boundaryCount + 1 }

/-- The window after one more frame was read and sent. -/
def Windowed.retain (w : Windowed) (payload frame : List UInt8) : Windowed :=
  { w.addBoundary (w.nextSequence + 1, w.nextOffset + payload.length) with
    outstanding := w.outstanding ++
      [{ sequence := w.nextSequence
         offset := w.nextOffset
         payload := payload
         wireFrame := frame
         endSequence := w.nextSequence + 1
         endOffset := w.nextOffset + payload.length }]
    nextSequence := w.nextSequence + 1
    nextOffset := w.nextOffset + payload.length }

/-- `fill_window`. Every round adds a frame, so `dataWindowFrames` rounds are
enough. -/
def fillWindow : Nat → Host P → Windowed → List (List UInt8) → Reaction P
  | 0, host, w, sent => (settle host w, sent)
  | rounds + 1, host, w, sent =>
      if w.outstanding.length < dataWindowFrames ∧ w.nextOffset < plan.wireSize then
        match readFrame producer plan host w.nextSequence w.nextOffset with
        | .error host => (host, sent)
        | .ok (host, payload, frame) =>
            fillWindow rounds host (w.retain payload frame) (sent ++ [frame])
      else (settle host w, sent)

/-- The position of a boundary; every retained frame's boundary is a key. -/
def Windowed.position (w : Windowed) (key : Nat × Nat) : Nat :=
  (w.boundaries key).getD 0

/-- `retire_to`: the retained frames left, with the number retired. -/
def Windowed.retireTo (w : Windowed) (target : Nat) : Windowed × Nat :=
  let outstanding := w.outstanding.dropWhile fun frame =>
    decide (w.position (frame.endSequence, frame.endOffset) ≤ target)
  ({ w with outstanding := outstanding }, w.outstanding.length - outstanding.length)

/-- The boundary in front of the oldest retained frame. -/
def Windowed.base (w : Windowed) : Nat × Nat :=
  match w.outstanding with
  | [] => (0, 0)
  | oldest :: _ => (oldest.sequence, oldest.offset)

def retransmitAll (host : Host P) (w : Windowed) : Reaction P :=
  if w.retryRounds ≥ dataMaxAttempts - 1 then (host.fail .retryExhausted, [])
  else
    let retried : Windowed :=
      { w with
        retryRounds := w.retryRounds + 1
        lastNackRetryBase := some w.base }
    ({ host with sender := .windowed retried }, w.outstanding.map RetainedDataFrame.wireFrame)

/-- The validation of a response by its type: the fault that is raised. -/
def responseFault (response : ParsedFrame) : Option ProtocolFault :=
  match response.type with
  | .ack => if response.status ≠ 0 ∨ response.payload ≠ [] then some .invalidAck else none
  | .nack =>
      if response.payload ≠ [] ∨ isNackReason response.status = false then some .invalidNack
      else none
  | .data => some .unexpectedResponse

/-- The ACK branch of `_upload_windowed` for a boundary that is not stale. -/
def acceptAck (host : Host P) (w : Windowed) (boundaryPosition : Nat) : Reaction P :=
  let (w, retired) := w.retireTo boundaryPosition
  if retired = 0 then (host.fail (.protocolError .mismatchedAck), [])
  else
    fillWindow producer plan dataWindowFrames { host with retired := host.retired + retired }
      { w with retryRounds := 0, lastNackRetryBase := none } []

/-- The NACK branch for a boundary that is not stale. -/
def acceptNack (host : Host P) (w : Windowed) (boundaryPosition : Nat) : Reaction P :=
  if boundaryPosition = w.position w.base ∧ w.lastNackRetryBase = some w.base then
    ({ host with sender := .windowed w }, [])
  else
    let (w, retired) := w.retireTo boundaryPosition
    let host := { host with retired := host.retired + retired }
    if w.outstanding = [] then (host.fail (.protocolError .noRetryFrontier), [])
    else if retired ≠ 0 then
      retransmitAll host { w with retryRounds := 0, lastNackRetryBase := none }
    else retransmitAll host w

/-- The body of the wait loop of `_upload_windowed` for one received frame. -/
def receiveWindowed (host : Host P) (w : Windowed) (response : ParsedFrame) : Reaction P :=
  if response.transferId ≠ plan.transferId then (host, [])
  else if response.crcValid ≠ true then (host, [])
  else
    match responseFault response with
    | some fault => (host.fail (.protocolError fault), [])
    | none =>
        match w.boundaries (response.sequence.toNat, response.offset.toNat) with
        | none => (host.fail (.protocolError .futureResponse), [])
        | some boundaryPosition =>
            if boundaryPosition > w.boundaryCount - 1 then
              (host.fail (.protocolError .futureResponse), [])
            else if boundaryPosition < w.position w.base ∨
                response.type = .ack ∧ boundaryPosition = w.position w.base then (host, [])
            else if response.type = .ack then acceptAck producer plan host w boundaryPosition
            else acceptNack host w boundaryPosition

/-- The first lines of `_upload_windowed`. -/
def Windowed.start : Windowed :=
  { outstanding := []
    boundaries := fun key => if key = (0, 0) then some 0 else none
    boundaryCount := 1
    nextSequence := 0
    nextOffset := 0
    retryRounds := 0
    lastNackRetryBase := none }

inductive UploadMode where
  | stopAndWait
  | windowed
deriving DecidableEq, Repr

/-- Enter the send loop. -/
def startUpload (mode : UploadMode) (source : P) : Reaction P :=
  let host : Host P := { source := source, handed := [], retired := 0, sender := .finished }
  match mode with
  | .stopAndWait => sendNext producer plan host 0 0
  | .windowed => fillWindow producer plan dataWindowFrames host Windowed.start []

/-- A frame of the serial parser's queue reaches the wait loop. -/
def receiveResponse (host : Host P) (response : ParsedFrame) : Reaction P :=
  match host.sender with
  | .stopAndWait s => receiveStopAndWait producer plan host s response
  | .windowed w => receiveWindowed producer plan host w response
  | .finished | .failed _ => (host, [])

/-- `wait_frame` raises `TimeoutError`. -/
def responseTimeout (host : Host P) : Reaction P :=
  match host.sender with
  | .stopAndWait s => resend host s .timeout
  | .windowed w => retransmitAll host w
  | .finished | .failed _ => (host, [])

/-- The serial port raises. -/
def serialError (host : Host P) : Host P :=
  match host.sender with
  | .stopAndWait _ | .windowed _ => host.fail .ioError
  | .finished | .failed _ => host

end Client

end EspNp2.HostUpload.UploadClient
