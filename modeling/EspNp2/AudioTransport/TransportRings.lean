import EspNp2.Library.SharedRingContract
import EspNp2.LiveService.ServiceMemory

/-!
The rings of the audio transport: the event ring with its reset barriers, the byte ring,
and the queue of synthesizer events.  Each side makes one call after the other, in whatever
order the environment asks for them.
-/

namespace EspNp2.AudioTransport.TransportRings

open Library.Concurrent
open Library.SharedRing
open LiveService.ServiceMemory (Event)

section EventRing

def eventCapacity : UInt32 := 128

def eventResetBarrier : UInt32 := 0x80000000

inductive EventPush where
  | enqueue (event : Event)
  | resetEnqueue (event : Event)
deriving DecidableEq, Repr

inductive EventAsk where
  | peek
  | consume
  | dequeue
deriving DecidableEq, Repr

/-- A push of a reset barrier tells the producer's reset ordinal behind the call. -/
abbrev EventOp := RingOp Event EventPush EventAsk (Option UInt32)

abbrev EventCode := Thread EventOp Result

/-- `np2audio86_event_ring_peek`: the slot of the oldest event. -/
def eventRingPeek : EventCode (RingStatus × Option Nat) := do
  let tail ← perform RingOp.loadTail
  let head ← perform RingOp.loadHead
  if head - tail > eventCapacity then
    return (.invariant, none)
  else if head = tail then
    return (.empty, none)
  else
    return (.ok, some (tail &&& (eventCapacity - 1)).toNat)

def eventRingConsume : EventCode RingStatus := do
  let tail ← perform RingOp.loadTail
  let head ← perform RingOp.loadHead
  if head - tail > eventCapacity then
    return .invariant
  else if head = tail then
    return .empty
  else
    perform (RingOp.storeTail (tail + 1))
    return .ok

def eventRingEnqueue (event : Event) : EventCode RingStatus := do
  let head ← perform RingOp.loadHead
  let tail ← perform RingOp.loadTail
  if head - tail > eventCapacity then
    return .invariant
  else if head - tail = eventCapacity then
    return .full
  else
    perform (RingOp.writeSlot (head &&& (eventCapacity - 1)).toNat event)
    perform (RingOp.storeHead (head + 1))
    return .ok

/-- `np2audio86_reset_event_ring_enqueue`, with the event that is published and the ordinal
behind the call. -/
def resetEventRingEnqueue (event : Event) (producerResetOrdinal : UInt32) :
    EventCode (RingStatus × Event × UInt32) :=
  if event.opcode ≠ eventResetBarrier ∨ producerResetOrdinal = 0xffffffff then
    return (.argument, event, producerResetOrdinal)
  else do
    let ordinal := producerResetOrdinal + 1
    let published := { event with payload := ordinal }
    let status ← eventRingEnqueue published
    return (status, published, if status = .ok then ordinal else producerResetOrdinal)

def eventRingDequeue : EventCode (RingStatus × List Event) := do
  let (status, slot) ← eventRingPeek
  match slot with
  | none => return (status, [])
  | some position =>
      let event ← perform (RingOp.readSlot position)
      let status ← eventRingConsume
      return (status, [event])

def eventProducer (producerResetOrdinal : UInt32) : EventCode Unit :=
  iterate (fun ordinal => do
    let call : EventPush ← perform RingOp.beginPush
    match call with
    | .enqueue event =>
        let status ← eventRingEnqueue event
        perform (RingOp.finishPush none [event] status)
        return .inl ordinal
    | .resetEnqueue event =>
        let (status, published, ordinal) ← resetEventRingEnqueue event ordinal
        perform (RingOp.finishPush (some ordinal) [published] status)
        return .inl ordinal) producerResetOrdinal

/-- The caller of a peek reads the event through the pointer that it is given. -/
def eventConsumer : EventCode Unit :=
  iterate (fun _ => do
    let ask : EventAsk ← perform RingOp.beginTake
    match ask with
    | .peek =>
        let (status, slot) ← eventRingPeek
        match slot with
        | none =>
            perform (RingOp.finishTake ⟨.look, 1⟩ [] status)
            return .inl ()
        | some position =>
            let event ← perform (RingOp.readSlot position)
            perform (RingOp.finishTake ⟨.look, 1⟩ [event] status)
            return .inl ()
    | .consume =>
        let status ← eventRingConsume
        perform (RingOp.finishTake ⟨.drop, 1⟩ [] status)
        return .inl ()
    | .dequeue =>
        let (status, events) ← eventRingDequeue
        perform (RingOp.finishTake ⟨.take, 1⟩ events status)
        return .inl ()) ()

end EventRing

section ByteRing

def byteCapacity : UInt32 := 65536

inductive ByteAsk where
  | copy (count : Nat)
  | consume (count : Nat)
  | pop (count : Nat)
deriving DecidableEq, Repr

/-- A push is asked for with the bytes that it copies. -/
abbrev ByteOp := RingOp UInt8 (List UInt8) ByteAsk Unit

abbrev ByteCode := Thread ByteOp Result

/-- A copy into the ring, byte by byte. -/
def writeBytes (position : Nat) : List UInt8 → ByteCode Unit
  | [] => return ()
  | byte :: bytes => do
      perform (RingOp.writeSlot position byte)
      writeBytes (position + 1) bytes

/-- A copy out of the ring, byte by byte. -/
def readBytes (position : Nat) : Nat → ByteCode (List UInt8)
  | 0 => return []
  | count + 1 => do
      let byte ← perform (RingOp.readSlot position)
      let bytes ← readBytes (position + 1) count
      return byte :: bytes

/-- The place of an index in the buffer. -/
def bytePosition (index : UInt32) : Nat := (index &&& (byteCapacity - 1)).toNat

/-- The bytes from an index up to the end of the buffer, and at most `count`. -/
def firstPart (index : UInt32) (count : Nat) : Nat :=
  min (byteCapacity.toNat - bytePosition index) count

def byteRingCopy (count : Nat) : ByteCode (RingStatus × List UInt8) :=
  if count > byteCapacity.toNat then
    return (.argument, [])
  else do
    let tail ← perform RingOp.loadTail
    let head ← perform RingOp.loadHead
    if head - tail > byteCapacity then
      return (.invariant, [])
    else if count > (head - tail).toNat then
      return (.empty, [])
    else
      let front ← readBytes (bytePosition tail) (firstPart tail count)
      let back ← readBytes 0 (count - firstPart tail count)
      return (.ok, front ++ back)

def byteRingConsume (count : Nat) : ByteCode RingStatus :=
  if count > byteCapacity.toNat then
    return .argument
  else do
    let tail ← perform RingOp.loadTail
    let head ← perform RingOp.loadHead
    if head - tail > byteCapacity then
      return .invariant
    else if count > (head - tail).toNat then
      return .empty
    else
      perform (RingOp.storeTail (tail + UInt32.ofNat count))
      return .ok

def byteRingPush (bytes : List UInt8) : ByteCode RingStatus :=
  if bytes.length > byteCapacity.toNat then
    return .argument
  else do
    let head ← perform RingOp.loadHead
    let tail ← perform RingOp.loadTail
    if head - tail > byteCapacity then
      return .invariant
    else if bytes.length > (byteCapacity - (head - tail)).toNat then
      return .full
    else
      writeBytes (bytePosition head) (bytes.take (firstPart head bytes.length))
      writeBytes 0 (bytes.drop (firstPart head bytes.length))
      perform (RingOp.storeHead (head + UInt32.ofNat bytes.length))
      return .ok

def byteRingPop (count : Nat) : ByteCode (RingStatus × List UInt8) := do
  let (status, bytes) ← byteRingCopy count
  if status ≠ .ok then
    return (status, [])
  else
    let status ← byteRingConsume count
    return (status, bytes)

def byteProducer : ByteCode Unit :=
  iterate (fun _ => do
    let bytes : List UInt8 ← perform RingOp.beginPush
    let status ← byteRingPush bytes
    perform (RingOp.finishPush () bytes status)
    return .inl ()) ()

def byteConsumer : ByteCode Unit :=
  iterate (fun _ => do
    let ask : ByteAsk ← perform RingOp.beginTake
    match ask with
    | .copy count =>
        let (status, bytes) ← byteRingCopy count
        perform (RingOp.finishTake ⟨.look, count⟩ bytes status)
        return .inl ()
    | .consume count =>
        let status ← byteRingConsume count
        perform (RingOp.finishTake ⟨.drop, count⟩ [] status)
        return .inl ()
    | .pop count =>
        let (status, bytes) ← byteRingPop count
        perform (RingOp.finishTake ⟨.take, count⟩ bytes status)
        return .inl ()) ()

end ByteRing

section SynthQueue

def spscCapacity : UInt32 := 8

/-- An event of the synthesizer; `E` is the type of its content. -/
abbrev SpscOp (E : Type) := RingOp E E Unit Unit

abbrev SpscCode (E : Type) := Thread (SpscOp E) Result

variable {E : Type}

def spscEnqueue (event : E) : SpscCode E RingStatus := do
  let head ← perform RingOp.loadHead
  let tail ← perform RingOp.loadTail
  if head - tail = spscCapacity then
    return .full
  else
    perform (RingOp.writeSlot (head &&& (spscCapacity - 1)).toNat event)
    perform (RingOp.storeHead (head + 1))
    return .ok

def spscDequeue : SpscCode E (RingStatus × List E) := do
  let tail ← perform RingOp.loadTail
  let head ← perform RingOp.loadHead
  if head = tail then
    return (.empty, [])
  else
    let event ← perform (RingOp.readSlot (tail &&& (spscCapacity - 1)).toNat)
    perform (RingOp.storeTail (tail + 1))
    return (.ok, [event])

def spscProducer : SpscCode E Unit :=
  iterate (fun _ => do
    let event : E ← perform RingOp.beginPush
    let status ← spscEnqueue event
    perform (RingOp.finishPush () [event] status)
    return .inl ()) ()

def spscConsumer : SpscCode E Unit :=
  iterate (fun _ => do
    let _ask : Unit ← perform RingOp.beginTake
    let (status, events) ← spscDequeue
    perform (RingOp.finishTake ⟨.take, 1⟩ events status)
    return .inl ()) ()

end SynthQueue

end EspNp2.AudioTransport.TransportRings
