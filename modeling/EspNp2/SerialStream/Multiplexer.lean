import EspNp2.BinaryDataPlane.Cobs
import EspNp2.BinaryDataPlane.BinaryCodec
import EspNp2.ControlPlane.ControlFraming
import EspNp2.Library.Transducer

/-!
The multiplexer of the UART byte stream, `control_stream.cpp`. Its two handlers
touch nothing the stream reads, so a call of one is an output of the byte machine.
-/

namespace EspNp2.SerialStream.Multiplexer

open EspNp2.BinaryDataPlane
open EspNp2.BinaryDataPlane.BinaryCodec
open EspNp2.ControlPlane.ControlFraming
open EspNp2.Library.Transducer

def kTransportSyncLength : Nat := 4

structure TransportSyncDetector where
  consecutiveZeros : Nat := 0
deriving DecidableEq, Repr

/-- `TransportSyncDetector::feed`, with its result. -/
def TransportSyncDetector.feed (d : TransportSyncDetector) (byte : UInt8) :
    Bool × TransportSyncDetector :=
  if byte ≠ 0 then (false, { consecutiveZeros := 0 })
  else if d.consecutiveZeros < kTransportSyncLength then
    (decide (d.consecutiveZeros + 1 = kTransportSyncLength),
      { consecutiveZeros := d.consecutiveZeros + 1 })
  else (false, d)

def TransportSyncDetector.active (d : TransportSyncDetector) : Bool :=
  d.consecutiveZeros ≥ kTransportSyncLength

inductive State where
  | text
  | startZero
  | binaryCollect
  | binaryDiscard
deriving DecidableEq, Repr

/-- `ControlStream` with the framing fields of its control plane; `encoded` holds
its first `encoded_length` bytes. -/
structure ControlStream where
  control : Framer := {}
  state : State := .text
  encoded : List UInt8 := []
  transportSync : TransportSyncDetector := {}
deriving DecidableEq, Repr

/-- The calls a stream makes: `handle_decoded_frame` and the line handler. -/
inductive Call where
  | handleDecodedFrame (decoded : List UInt8) (nowMs : UInt32)
  | handleFrame (frame : Frame)
deriving DecidableEq, Repr

def resetBinary (stream : ControlStream) : ControlStream :=
  { stream with encoded := [], state := .text }

def resetFraming (stream : ControlStream) : ControlStream :=
  { resetBinary stream with control := {} }

def processTextByte (stream : ControlStream) (byte : UInt8) : ControlStream × List Call :=
  if byte = 0 then ({ stream with control := {}, state := .startZero }, [])
  else
    let (control, frames) := consumeByte stream.control byte
    ({ stream with control := control }, frames.map .handleFrame)

def finishBinaryCandidate (stream : ControlStream) (nowMs : UInt32) :
    ControlStream × List Call :=
  let calls :=
    if stream.encoded ≠ [] then
      match Cobs.decode stream.encoded kMaxDecodedFrameBytes with
      | some decoded => [.handleDecodedFrame decoded nowMs]
      | none => []
    else []
  (resetBinary stream, calls)

def feedByte (stream : ControlStream) (byte : UInt8) (nowMs : UInt32) :
    ControlStream × List Call :=
  match stream.state with
  | .text => processTextByte stream byte
  | .startZero =>
      if byte = 0 then ({ stream with encoded := [], state := .binaryCollect }, [])
      else processTextByte { stream with state := .text } byte
  | .binaryCollect =>
      if byte = 0 then finishBinaryCandidate stream nowMs
      else if stream.encoded.length < kMaxEncodedBodyBytes then
        ({ stream with encoded := stream.encoded ++ [byte] }, [])
      else ({ stream with state := .binaryDiscard }, [])
  | .binaryDiscard => if byte = 0 then (resetBinary stream, []) else (stream, [])

/-- A byte with the time of the `feed` it came in. -/
abbrev TimedByte := UInt8 × UInt32

def feedTransportByte (stream : ControlStream) (input : TimedByte) :
    ControlStream × List Call :=
  let (syncComplete, transportSync) := stream.transportSync.feed input.1
  let stream := { stream with transportSync := transportSync }
  if syncComplete then (resetFraming stream, [])
  else if transportSync.active then (stream, [])
  else feedByte stream input.1 input.2

/-- One chunk read from the UART, with the time of the read. -/
abbrev Chunk := List UInt8 × UInt32

def timedBytes (chunk : Chunk) : List TimedByte :=
  chunk.1.map fun byte => (byte, chunk.2)

def feed (stream : ControlStream) (chunk : Chunk) : ControlStream × List Call :=
  run feedTransportByte stream (timedBytes chunk)

def feedAll (stream : ControlStream) (chunks : List Chunk) : ControlStream × List Call :=
  run feed stream chunks

theorem feedAll_eq_run (stream : ControlStream) (chunks : List Chunk) :
    feedAll stream chunks = run feedTransportByte stream (chunks.flatMap timedBytes) :=
  run_blocks feedTransportByte timedBytes stream chunks

/-- The bytes of all chunks, in order. -/
def chunkBytes (chunks : List Chunk) : List UInt8 :=
  chunks.flatMap Prod.fst

theorem map_fst_timedBytes (chunks : List Chunk) :
    (chunks.flatMap timedBytes).map Prod.fst = chunkBytes chunks := by
  induction chunks with
  | nil => rfl
  | cons chunk chunks ih =>
      rw [List.flatMap_cons, List.map_append, ih, chunkBytes, chunkBytes, List.flatMap_cons,
        timedBytes, List.map_map]
      exact congrArg (· ++ _) (List.map_id chunk.1)

/-- A byte other than NUL ends a run of NULs. -/
theorem feedTransportByte_of_ne_zero (stream : ControlStream) {input : TimedByte}
    (hinput : input.1 ≠ 0) :
    feedTransportByte stream input =
      feedByte { stream with transportSync := { consecutiveZeros := 0 } } input.1 input.2 := by
  simp [feedTransportByte, TransportSyncDetector.feed, hinput, TransportSyncDetector.active,
    kTransportSyncLength]

/-- A NUL of a run that is too short for the token. -/
theorem feedTransportByte_zero (stream : ControlStream) (nowMs : UInt32)
    (hzeros : stream.transportSync.consecutiveZeros + 1 < kTransportSyncLength) :
    feedTransportByte stream (0, nowMs) =
      feedByte { stream with
        transportSync := { consecutiveZeros := stream.transportSync.consecutiveZeros + 1 } }
        0 nowMs := by
  have hlt : stream.transportSync.consecutiveZeros < kTransportSyncLength := by omega
  have hne : stream.transportSync.consecutiveZeros + 1 ≠ kTransportSyncLength := by omega
  have hactive : ¬kTransportSyncLength ≤ stream.transportSync.consecutiveZeros + 1 := by omega
  simp [feedTransportByte, TransportSyncDetector.feed, hlt, hne, TransportSyncDetector.active,
    hactive]

/-- The NUL that completes the token. -/
theorem feedTransportByte_sync (stream : ControlStream) (nowMs : UInt32)
    (hzeros : stream.transportSync.consecutiveZeros + 1 = kTransportSyncLength) :
    feedTransportByte stream (0, nowMs) =
      ({ transportSync := { consecutiveZeros := kTransportSyncLength } }, []) := by
  have hlt : stream.transportSync.consecutiveZeros < kTransportSyncLength := by omega
  simp [feedTransportByte, TransportSyncDetector.feed, hlt, hzeros, resetFraming, resetBinary]

/-- A NUL behind the token. -/
theorem feedTransportByte_active (stream : ControlStream) (nowMs : UInt32)
    (hzeros : kTransportSyncLength ≤ stream.transportSync.consecutiveZeros) :
    feedTransportByte stream (0, nowMs) = (stream, []) := by
  have hnot : ¬stream.transportSync.consecutiveZeros < kTransportSyncLength := by omega
  simp [feedTransportByte, TransportSyncDetector.feed, hnot, TransportSyncDetector.active, hzeros]

end EspNp2.SerialStream.Multiplexer
