import EspNp2.LiveService.ServiceMemory

/-!
The transport between the guest and the worker: the event ring and the byte ring, the
mailbox of the horizon, the sequence lock of the final horizon, and the latch of the first
error.
-/

namespace EspNp2.LiveService.Transport

open EspNp2.Library.Concurrent
open EspNp2.LiveService.ServiceMemory

section Rings

def eventCapacity : UInt32 := 128

def byteCapacity : UInt32 := 65536

inductive TransportStatus where
  | ok
  | empty
  | full
  | argument
  | invariant
deriving DecidableEq, Repr

def eventRingOccupancy : Code UInt32 := do
  let head ← load .eventHead
  let tail ← load .eventTail
  return head - tail

/-- The oldest event. It stays in its slot until it is consumed. -/
def eventRingPeek : Code (Except TransportStatus Event) := do
  let tail ← load .eventTail
  let head ← load .eventHead
  if head - tail > eventCapacity then return .error .invariant
  else if head = tail then return .error .empty
  else
    let event ← load (.eventSlot (tail &&& (eventCapacity - 1)))
    return .ok event

def eventRingConsume : Code TransportStatus := do
  let tail ← load .eventTail
  let head ← load .eventHead
  if head - tail > eventCapacity then return .invariant
  else if head = tail then return .empty
  else
    store .eventTail (tail + 1)
    return .ok

def eventRingEnqueue (event : Event) : Code TransportStatus := do
  let head ← load .eventHead
  let tail ← load .eventTail
  if head - tail > eventCapacity then return .invariant
  else if head - tail = eventCapacity then return .full
  else
    store (.eventSlot (head &&& (eventCapacity - 1))) event
    store .eventHead (head + 1)
    return .ok

def byteRingOccupancy : Code UInt32 := do
  let head ← load .byteHead
  let tail ← load .byteTail
  return head - tail

/-- The bytes of the slots from a position on. -/
def loadBytes (position : UInt32) : Nat → Code (List UInt8)
  | 0 => return []
  | count + 1 => do
      let value ← load (.byteSlot (position &&& (byteCapacity - 1)))
      let rest ← loadBytes (position + 1) count
      return value :: rest

def byteRingCopy (count : UInt32) : Code (Except TransportStatus (List UInt8)) := do
  if count > byteCapacity then return .error .argument
  else
    let tail ← load .byteTail
    let head ← load .byteHead
    if head - tail > byteCapacity then return .error .invariant
    else if count > head - tail then return .error .empty
    else
      let bytes ← loadBytes tail count.toNat
      return .ok bytes

def byteRingConsume (count : UInt32) : Code TransportStatus := do
  if count > byteCapacity then return .argument
  else
    let tail ← load .byteTail
    let head ← load .byteHead
    if head - tail > byteCapacity then return .invariant
    else if count > head - tail then return .empty
    else
      store .byteTail (tail + count)
      return .ok

def byteRingPop (count : UInt32) : Code (Except TransportStatus (List UInt8)) := do
  match ← byteRingCopy count with
  | .error status => return .error status
  | .ok bytes =>
      let status ← byteRingConsume count
      return if status = .ok then .ok bytes else .error status

/-- `np2audio86_byte_ring_push` of one byte, as the service calls it. -/
def byteRingPush (value : UInt8) : Code TransportStatus := do
  let head ← load .byteHead
  let tail ← load .byteTail
  if head - tail > byteCapacity then return .invariant
  else if 1 > byteCapacity - (head - tail) then return .full
  else
    store (.byteSlot (head &&& (byteCapacity - 1))) value
    store .byteHead (head + 1)
    return .ok

end Rings

section Horizon

inductive HorizonStatus where
  | ok
  | nonmonotonic
  | retry
deriving DecidableEq, Repr

/-- The publication of a frame by the producer that has committed the frame `committed`. -/
def horizonPublish (committed frame : UInt64) : Code HorizonStatus := do
  if frame < committed then return .nonmonotonic
  else
    let state ← load .horizonState
    if state ≠ .empty then return .retry
    else
      store .horizonFrame frame
      store .horizonState .full
      return .ok

/-- The frame that the consumer observes, given the one it has observed last. -/
def horizonTryObserve (reconstructed : UInt64) : Code (Except HorizonStatus UInt64) := do
  let state ← load .horizonState
  if state ≠ .full then return .error .retry
  else
    let frame ← load .horizonFrame
    if frame < reconstructed then return .error .nonmonotonic
    else
      store .horizonState .empty
      return .ok frame

def horizonPending : Code Bool := do
  let state ← load .horizonState
  return state = .full

/-- `snapshot_u64_publish` of the final horizon. -/
def finalHorizonPublish (value : UInt64) : Code Unit := do
  let sequence ← load .finalHorizonSequence
  store .finalHorizonSequence (sequence + 1)
  store .finalHorizonLow value.toUInt32
  store .finalHorizonHigh (value >>> 32).toUInt32
  store .finalHorizonSequence (sequence + 2)

/-- One attempt of `snapshot_u64_read`. -/
def finalHorizonAttempt : Code (Unit ⊕ UInt64) := do
  let before ← load .finalHorizonSequence
  if before &&& 1 ≠ 0 then return .inl ()
  else
    let low ← load .finalHorizonLow
    let high ← load .finalHorizonHigh
    let after ← load .finalHorizonSequence
    if before = after then return .inr ((high.toUInt64 <<< 32) ||| low.toUInt64)
    else return .inl ()

def finalHorizonRead : Code UInt64 := iterate (fun _ => finalHorizonAttempt) ()

end Horizon

section FirstError

def LiveState.terminal (state : LiveState) : Bool :=
  state = .stoppedQuiescent || state = .failedQuiescent || state = .failedNotQuiescent

/-- A state that `first_fatal` does not leave. -/
def LiveState.closed (state : LiveState) : Bool :=
  LiveState.terminal state || state = .destroyed || state = .uninitialized || state = .failing

def subcodeSinkStart : UInt32 := 2
def subcodeGuestContract : UInt32 := 3
def subcodeHorizon : UInt32 := 4
def subcodeEvent : UInt32 := 5
def subcodeRender : UInt32 := 6
def subcodePcmRing : UInt32 := 7
def subcodePcmOutput : UInt32 := 8
def subcodeFinish : UInt32 := 9

/-- One round of the loop of `first_fatal`: whether the state is now `failing`. -/
def firstFatalAttempt : Code (Unit ⊕ Bool) := do
  let state ← load .state
  if LiveState.closed state then return .inr false
  else
    let won ← operate (.compareExchangeWeak .state state .failing)
    if won then return .inr true else return .inl ()

/-- The description of the error and its latch. -/
def firstFatalPublish (category : FailureCategory) (origin : FailureOrigin) (subcode : UInt32) :
    Code Bool := do
  store .failureCategory category
  store .failureOrigin origin
  store .failureSubcode subcode
  store .firstErrorSequence 1
  let latched ← compareExchange .firstErrorLatched false true
  if latched then
    store .stopIntent true
    store .producerClosing true
    store .transactionGate .closed
    discard (compareExchange .firstError 0 (if subcode = 0 then 1 else subcode))
    store .stop true
    wake
    return true
  else return false

/-- The body of `first_fatal`. -/
def firstFatalCall (category : FailureCategory) (origin : FailureOrigin) (subcode : UInt32) :
    Code Bool := do
  if category = .none then return false
  else if ← iterate (fun _ => firstFatalAttempt) () then firstFatalPublish category origin subcode
  else return false

def firstFatal (category : FailureCategory) (origin : FailureOrigin) (subcode : UInt32) :
    Code Bool := do
  let latched ← firstFatalCall category origin subcode
  note (.firstFatal latched)
  return latched

end FirstError

end EspNp2.LiveService.Transport
