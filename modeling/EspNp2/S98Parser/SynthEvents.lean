import EspNp2.BinaryDataPlane.BinaryCodec
import EspNp2.Digest.Sha256Digest

/-!
The synth events of the FM renderer: what is accepted as a list of events, the records of 24
bytes the events are traced by, and the interpreter that renders the frames between them.
-/

namespace EspNp2.S98Parser.SynthEvents

open EspNp2.BinaryDataPlane.BinaryCodec
open EspNp2.Digest

/-- An event with any other type has a payload that nothing reads. -/
inductive Payload where
  | registerWrite (chbase : UInt8) (reg : UInt16) (value : UInt8)
  | keyEvent (channel value : UInt8) (reserved : UInt16)
  | other (type : UInt32)
deriving DecidableEq, Repr

def Payload.type : Payload → UInt32
  | .registerWrite .. => 1
  | .keyEvent .. => 2
  | .other type => type

structure SynthEvent where
  sampleTimestamp : UInt64
  sequence : UInt64
  payload : Payload
deriving DecidableEq, Repr

inductive Status where
  | ok
  | frameRange
  | timestamp
  | sequence
  | type
  | payload
  | register
  | key
  | overflow
  | callback
deriving DecidableEq, Repr

section Validate

def registerSupported (chbase : UInt8) (reg : UInt16) : Bool :=
  if chbase > 3 || reg &&& 3 == 3 then
    false
  else
    let group := if reg < 0xa0 then reg &&& 0xf0 else reg &&& 0xfc
    if group ∈ [0x30, 0x40, 0x50, 0x60, 0x70, 0x80] then
      true
    else if group == 0x90 then
      reg < 0xa0
    else
      group ∈ [0xa0, 0xa4, 0xa8, 0xac, 0xb0, 0xb4]

def validatePayload (event : SynthEvent) : Status :=
  match event.payload with
  | .registerWrite chbase reg _ => if registerSupported chbase reg then .ok else .register
  | .keyEvent channel _ reserved =>
      if channel > 5 then .key else if reserved == 0 then .ok else .payload
  | .other _ => .type

def validateLoop (endFrame expectedFirstSequence : UInt64) :
    List SynthEvent → ℕ → UInt64 → Status
  | [], _, _ => .ok
  | event :: events, i, previousTimestamp =>
      let index := UInt64.ofNat i
      if i != 0 && event.sampleTimestamp < previousTimestamp then
        .timestamp
      else if event.sampleTimestamp > endFrame then
        .timestamp
      else if index > 0xffffffffffffffff - expectedFirstSequence then
        .overflow
      else if event.sequence != expectedFirstSequence + index then
        .sequence
      else
        match validatePayload event with
        | .ok => validateLoop endFrame expectedFirstSequence events (i + 1) event.sampleTimestamp
        | status => status

def validate (events : List SynthEvent) (endFrame expectedFirstSequence frameCapacity : UInt64) :
    Status :=
  if endFrame > frameCapacity then
    .frameRange
  else
    validateLoop endFrame expectedFirstSequence events 0 0

end Validate

section Interpret

structure Observer where
  appliedCount : UInt64
  lastSequence : UInt64
  expectedSequence : UInt64
  hasLastSequence : Bool
  orderValid : Bool
deriving DecidableEq, Repr

/-- The two functions of the caller; a result other than 0 is a failure. -/
structure Callbacks (Context : Type) where
  render : Context → UInt64 → UInt64 → Int32 × Context
  apply : Context → SynthEvent → Int32 × Context

def observeApply (observer : Observer) (event : SynthEvent) : Observer where
  orderValid := if event.sequence != observer.expectedSequence then false else observer.orderValid
  appliedCount := observer.appliedCount + 1
  lastSequence := event.sequence
  expectedSequence :=
    if event.sequence == 0xffffffffffffffff then 0xffffffffffffffff else event.sequence + 1
  hasLastSequence := true

variable {Context : Type}

def interpretLoop (callbacks : Callbacks Context) (endFrame : UInt64) :
    List SynthEvent → UInt64 → Context → Option Observer → Status × Context × Option Observer
  | [], cursor, context, observer =>
      let (status, context) := callbacks.render context cursor (endFrame - cursor)
      if status != 0 then (.callback, context, observer) else (.ok, context, observer)
  | event :: events, cursor, context, observer =>
      let (status, context) := callbacks.render context cursor (event.sampleTimestamp - cursor)
      if status != 0 then
        (.callback, context, observer)
      else
        let (status, context) := callbacks.apply context event
        if status != 0 then
          (.callback, context, observer)
        else
          interpretLoop callbacks endFrame events event.sampleTimestamp context
            (observer.map fun observer => observeApply observer event)

/-- The last store of the source, for no events, writes what the observer already holds. -/
def interpret (events : List SynthEvent)
    (endFrame expectedFirstSequence frameCapacity : UInt64) (callbacks : Callbacks Context)
    (context : Context) (observer : Option Observer) : Status × Context × Option Observer :=
  match validate events endFrame expectedFirstSequence frameCapacity with
  | .ok =>
      interpretLoop callbacks endFrame events 0 context
        (observer.map fun _ => ⟨0, 0, expectedFirstSequence, false, true⟩)
  | status => (status, context, observer)

end Interpret

section Trace

def putLe16 (value : UInt16) : List UInt8 := [value.toUInt8, (value >>> 8).toUInt8]

def putLe32 (value : UInt32) : List UInt8 :=
  [value.toUInt8, (value >>> 8).toUInt8, (value >>> 16).toUInt8, (value >>> 24).toUInt8]

def putLe64 (value : UInt64) : List UInt8 :=
  (List.range 8).map fun i => (value >>> UInt64.ofNat (8 * i)).toUInt8

/-- The record of an event; there is none for another type. -/
def serializeEvent (event : SynthEvent) : Except Status (List UInt8) :=
  let start := putLe64 event.sampleTimestamp ++ putLe64 event.sequence ++
    putLe32 event.payload.type
  match event.payload with
  | .registerWrite chbase reg value => .ok (start ++ [chbase] ++ putLe16 reg ++ [value])
  | .keyEvent channel value _ => .ok (start ++ [channel, value, 0, 0])
  | .other _ => .error .type

structure TraceState where
  count : UInt64
  runningCrc32 : UInt32
  sha256 : Sha256.Context

def traceInit (state : TraceState) : TraceState where
  count := 0
  runningCrc32 := Crc32.init
  sha256 := Sha256.init state.sha256

/-- No result is a write outside the buffer of the digest. -/
def traceUpdate (state : TraceState) (event : SynthEvent) : Option (Status × TraceState) :=
  if state.count == 0xffffffffffffffff then
    some (.overflow, state)
  else
    match serializeEvent event with
    | .error status => some (status, state)
    | .ok record => do
        let sha256 ← Sha256.update state.sha256 record
        some (.ok, ⟨state.count + 1, Crc32.update state.runningCrc32 record, sha256⟩)

/-- The count, the checksum and the digest. -/
def traceFinish (state : TraceState) : Option (TraceState × UInt64 × UInt32 × List UInt8) := do
  let (sha256, digest) ← Sha256.final state.sha256
  some ({ state with sha256 := sha256 }, state.count, Crc32.finish state.runningCrc32, digest)

end Trace

end EspNp2.S98Parser.SynthEvents
