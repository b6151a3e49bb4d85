import EspNp2.GuestAdapter.AdapterOperations
import EspNp2.LiveService.Transport

/-!
The owner of the guest: the sink that the service gives the guest adapter, and the calls by
which the owner attaches the guest, brings a run forward and finalizes it.
-/

namespace EspNp2.LiveService.OwnerThread

open EspNp2.GuestAdapter.AdapterOperations
open EspNp2.GuestAdapter.AdapterState
open EspNp2.Library.CallProgram
open EspNp2.Library.Concurrent
open EspNp2.LiveService.ServiceMemory
open EspNp2.LiveService.Transport

section Transactions

/-- The fields of the service that only the owner uses. -/
structure Transaction where
  nextSequence : UInt64 := 0
  resetOrdinal : UInt32 := 0
  reservedEvents : UInt32 := 0
  reservedBytes : UInt32 := 0
  kind : Option Kind := none
  generation : UInt32 := 0
  activeGeneration : UInt32 := 0
  active : Bool := false
  horizonOwned : Bool := false
  eventCommitted : Bool := false
  runCommitted : Bool := false
  committedFrame : UInt64 := 0
deriving DecidableEq, Repr

abbrev Sink := StateT Transaction Code

/-- The address of the service, which marks its tokens. -/
def serviceAddress : UInt64 := 0x4138364c

def kindCode : Kind → UInt64
  | .event => 1
  | .dataRun => 2
  | .reset => 3

def tokenSet (t : Transaction) (kind : Kind) : Token :=
  #v[serviceAddress, t.activeGeneration.toUInt64, kindCode kind, 1]

def tokenMatches (t : Transaction) (token : Token) (kind : Kind) : Bool :=
  t.active && token = tokenSet t kind && t.kind = some kind

/-- The producer breaks the contract of the transport. -/
def guestContract : Code Unit :=
  discard (firstFatal .transport .guestTransport subcodeGuestContract)

def producerTerminated : Code Bool := do
  if ← load .stopIntent then return true
  else if ← load .firstErrorLatched then return true
  else if ← load .producerClosing then return true
  else return (← load .state) ≠ .running

/-- One round of `wait_for_capacity`. -/
def capacityRound (bytes : Nat) : Sink (Unit ⊕ Check) := do
  if ← producerTerminated then return .inr .terminated
  else
    let t ← get
    let events ← eventRingOccupancy
    let occupied ← byteRingOccupancy
    let pending ← horizonPending
    if events + t.reservedEvents < eventCapacity ∧
        occupied.toNat + t.reservedBytes.toNat + bytes ≤ byteCapacity.toNat ∧
        pending = false ∧ t.horizonOwned = false then
      return .inr .ok
    else
      wake
      wait
      return .inl ()

def waitForCapacity (bytes : Nat) : Sink Check := iterating (fun _ => capacityRound bytes) ()

/-- The reservation of a transaction that is authorised. -/
def authorise (kind : Kind) (bytes : Nat) (t : Transaction) : Transaction :=
  { t with
    reservedEvents := 1
    reservedBytes := UInt32.ofNat bytes
    kind := some kind
    active := true
    horizonOwned := true
    eventCommitted := false
    runCommitted := false
    generation := t.generation + 1
    activeGeneration := t.generation + 1 }

/-- The passage of the gate: a stop closes it, but does not revoke what has passed. -/
def passGate (kind : Kind) (bytes : Nat) : Sink (Check × Token) := do
  if ← compareExchange .transactionGate .opened .active then
    if (← load .state) = .running then
      modify (authorise kind bytes)
      return (.ok, tokenSet (← get) kind)
    else
      store .transactionGate .closed
      return (.terminated, Vector.replicate 4 0)
  else return (.terminated, Vector.replicate 4 0)

def guestReserveChecked (kind : Kind) (bytes : Nat) : Sink (Check × Token) := do
  if (← get).active ∨ bytes ≠ (if kind = .dataRun then 1 else 0) then
    guestContract
    return (.contract, Vector.replicate 4 0)
  else
    let check ← waitForCapacity bytes
    if check = .ok then passGate kind bytes else return (check, Vector.replicate 4 0)

/-- One round of the wait in `guest_extend_checked`. -/
def extendRound : Sink (Unit ⊕ Check) := do
  let occupied ← byteRingOccupancy
  if occupied.toNat + (← get).reservedBytes.toNat ≥ byteCapacity.toNat then
    if ← load .firstErrorLatched then return .inr .terminated
    else
      wake
      wait
      return .inl ()
  else
    modify fun t => { t with reservedBytes := t.reservedBytes + 1 }
    return .inr .ok

def guestExtendChecked (token : Token) (bytes : Nat) : Sink (Check × Token) := do
  let t ← get
  if tokenMatches t token .dataRun = false ∨ bytes ≠ 1 ∨ t.runCommitted then
    guestContract
    return (.contract, token)
  else
    let check ← iterating (fun _ => extendRound) ()
    return (check, token)

def guestCommitPcmByte (token : Token) (sequence : UInt64) (value : UInt8) : Sink Token := do
  let t ← get
  if tokenMatches t token .dataRun = false ∨ t.reservedBytes = 0 ∨ sequence ≠ t.nextSequence then
    guestContract
    return token
  else if (← byteRingPush value) = .ok then
    modify fun t => { t with reservedBytes := t.reservedBytes - 1 }
    wake
    return token
  else
    guestContract
    return token

/-- An event could not be enqueued. -/
def eventFatal : Code Unit := discard (firstFatal .transport .guestTransport subcodeEvent)

def runEvent (run : DataRun) : Event where
  frameTimestamp := run.frameTimestamp
  sequence := run.sequence
  opcode := 3
  payload := run.count

def guestCommitDataRun (token : Token) (run : DataRun) : Sink Token := do
  let t ← get
  if tokenMatches t token .dataRun = false ∨ t.reservedEvents ≠ 1 ∨ t.reservedBytes ≠ 0 ∨
      run.sequence ≠ t.nextSequence ∨ run.count = 0 then
    guestContract
    return token
  else if (← eventRingEnqueue (runEvent run)) = .ok then
    modify fun t => { t with
      reservedEvents := 0, runCommitted := true, nextSequence := t.nextSequence + 1 }
    wake
    return token
  else
    eventFatal
    return token

/-- The opcode of an event of the guest on the transport. -/
def liveOpcode (opcode : UInt32) : UInt32 :=
  if opcode = traceRegister then 0x100
  else if opcode = traceCsm then 0x101
  else if opcode = tracePcmControl then 0x102
  else opcode

def liveEvent (event : GuestEvent) : Event where
  frameTimestamp := event.frameTimestamp
  sequence := event.sequence
  opcode := liveOpcode event.opcode
  payload := event.payload

/-- `np2audio86_reset_event_ring_enqueue`. -/
def resetEventEnqueue (event : Event) : Sink TransportStatus := do
  let t ← get
  if t.resetOrdinal = (-1 : UInt32) then return .argument
  else
    let status ← eventRingEnqueue { event with payload := t.resetOrdinal + 1 }
    if status = .ok then
      modify fun t => { t with resetOrdinal := t.resetOrdinal + 1 }
      return status
    else return status

def enqueueEvent (event : Event) : Sink TransportStatus :=
  if event.opcode = traceResetBarrier then resetEventEnqueue event
  else liftM (eventRingEnqueue event)

def guestCommitEvent (token : Token) (event : GuestEvent) : Sink Token := do
  let t ← get
  if (tokenMatches t token .event = false ∧ tokenMatches t token .reset = false) ∨
      t.reservedEvents ≠ 1 ∨ event.sequence ≠ t.nextSequence then
    guestContract
    return token
  else if (← enqueueEvent (liveEvent event)) = .ok then
    modify fun t => { t with
      reservedEvents := 0, eventCommitted := true, nextSequence := t.nextSequence + 1 }
    wake
    return token
  else
    eventFatal
    return token

def transactionClose : Sink Unit := do
  modify fun t => { t with
    active := false, horizonOwned := false, kind := none, eventCommitted := false
    runCommitted := false }
  if ← producerTerminated then store .transactionGate .closed else store .transactionGate .opened

/-- The publication of a frame, with the clock of the producer. -/
def producerPublish (frame : UInt64) : Sink HorizonStatus := do
  let status ← horizonPublish (← get).committedFrame frame
  if status = .ok then
    modify fun t => { t with committedFrame := frame }
    return status
  else return status

def resetAckRound (ordinal : UInt32) : Code (Unit ⊕ Unit) := do
  if ← load .firstErrorLatched then return .inr ()
  else if (← load .resetAckOrdinal) < ordinal then
    wait
    return .inl ()
  else return .inr ()

/-- A reset is over when the worker has applied it. -/
def awaitReset (reset : Bool) : Sink Unit := do
  if reset then
    let ordinal := (← get).resetOrdinal
    iterate (fun _ => resetAckRound ordinal) ()

def horizonFatal : Code Unit := discard (firstFatal .transport .guestTransport subcodeHorizon)

def guestCommitHorizon (token : Token) (frame : UInt64) : Sink Token := do
  let t ← get
  if t.active = false ∨ t.horizonOwned = false ∨
      (t.eventCommitted = false ∧ t.runCommitted = false) ∨
      token[1] ≠ t.activeGeneration.toUInt64 then
    guestContract
    return token
  else
    let status ← producerPublish frame
    transactionClose
    if status = .ok then
      wake
      awaitReset (t.kind = some .reset)
      return token
    else
      horizonFatal
      return token

/-- A producer that is terminated publishes only while the owner finalizes. -/
def progressTerminated : Code Bool := do
  if ← producerTerminated then return !(← load .ownerFinalizing) else return false

def guestPublishProgressChecked (frame : UInt64) : Sink Check := do
  let t ← get
  if t.active ∨ t.horizonOwned then
    guestContract
    return .contract
  else
    if ← progressTerminated then return .terminated
    else
      match ← producerPublish frame with
      | .retry => return .retry
      | .nonmonotonic =>
          horizonFatal
          return .contract
      | .ok =>
          wake
          return .ok

/-- The callbacks of the sink; the hooks of the guest are not the service's. -/
def handle : (call : Call) → Sink (Reply call)
  | .reserveChecked kind bytes => guestReserveChecked kind bytes
  | .extendChecked token bytes => guestExtendChecked token bytes
  | .commitEvent token event => guestCommitEvent token event
  | .commitPcmByte token _ sequence value => guestCommitPcmByte token sequence value
  | .commitDataRun token run => guestCommitDataRun token run
  | .commitHorizon token frame => guestCommitHorizon token frame
  | .publishProgressChecked frame => guestPublishProgressChecked frame
  | .cpuPosition => liftM (operate (.hook .cpuPosition))
  | .schedule timer clock absolute => liftM (operate (.hook (.schedule timer clock absolute)))
  | .cancel timer => liftM (operate (.hook (.cancel timer)))
  | .isWork timer => liftM (operate (.hook (.isWork timer)))
  | .irq line level => liftM (operate (.hook (.irq line level)))
  | .extension enabled => liftM (operate (.hook (.extension enabled)))

/-- A program of the adapter over the service's sink. -/
def serve {α : Type} : Program Call Reply α → Sink α
  | .done value => pure value
  | .call request next => do
      let reply ← handle request
      serve (next reply)

end Transactions

section Owner

structure Owner where
  adapter : Adapter
  transaction : Transaction := {}
deriving DecidableEq, Repr

abbrev OwnerCode := StateT Owner Code

def guest {α : Type} (program : Guest α) : OwnerCode α := fun o => do
  let ((value, adapter), transaction) ← serve (program o.adapter) o.transaction
  return (value, ⟨adapter, transaction⟩)

def sink {α : Type} (program : Sink α) : OwnerCode α := fun o => do
  let (value, transaction) ← program o.transaction
  return (value, { o with transaction := transaction })

def sinkBind : OwnerCode Unit :=
  modify fun o => { o with adapter := { o.adapter with sink := some ⟨true⟩ } }

def sinkUnbind : OwnerCode Unit :=
  modify fun o => { o with adapter := { o.adapter with sink := none } }

def unbindAttached (attached : Bool) : OwnerCode Unit := do
  if attached then sinkUnbind

def ownerDetachFailure : OwnerCode LiveResult := do
  let attached ← operate (.exchange .guestAttached false)
  unbindAttached attached
  store .producerDone true
  wake
  return .failed

/-- The owner reports a failure and detaches. -/
def failAndDetach (category : FailureCategory) (origin : FailureOrigin) (subcode : UInt32) :
    OwnerCode LiveResult := do
  discard (firstFatal category origin subcode)
  ownerDetachFailure

def attachGuest : OwnerCode LiveResult := do
  if (← load .state) ≠ .startedUnattached then return .stateError
  else
    store .ownerValid true
    if ← compareExchange .state .startedUnattached .running then
      sinkBind
      store .guestAttached true
      if (← get).adapter.failed then failAndDetach .producer .attach subcodeGuestContract
      else
        wake
        return .ok
    else
      store .ownerValid false
      return .stateError

/-- A failure in `owner_finalize_clean`. -/
def finalizeFailure (category : FailureCategory) (subcode : UInt32) : OwnerCode LiveResult := do
  discard (firstFatal category .checkpoint subcode)
  store .ownerFinalizing false
  ownerDetachFailure

/-- One round of the publication of the last frame. -/
def finalizeRound (frame : UInt64) : OwnerCode (Unit ⊕ Option LiveResult) := do
  if ← load .firstErrorLatched then
    store .ownerFinalizing false
    return .inr (some (← ownerDetachFailure))
  else
    match ← sink (producerPublish frame) with
    | .ok => return .inr none
    | .retry =>
        wake
        wait
        return .inl ()
    | .nonmonotonic => return .inr (some (← finalizeFailure .transport subcodeHorizon))

/-- The end of `owner_finalize_clean`, after the last frame is published. -/
def finalizePublished (frame : UInt64) : OwnerCode LiveResult := do
  finalHorizonPublish frame
  sinkUnbind
  store .guestAttached false
  store .producerDone true
  store .ownerFinalizing false
  if ← compareExchange .state .stopRequested .draining then
    wake
    return .ok
  else
    wake
    return .failed

def finalizeFlushed : OwnerCode LiveResult := do
  guest audioSync
  guest (discard flushPendingRun)
  if (← get).adapter.failed then finalizeFailure .producer subcodeGuestContract
  else
    let frame := (← get).adapter.guest.frameTimestamp
    match ← iterating (fun _ => finalizeRound frame) () with
    | some result => return result
    | none => finalizePublished frame

def ownerFinalizeClean : OwnerCode LiveResult := do
  store .producerClosing true
  store .ownerFinalizing true
  if (← get).transaction.active then finalizeFailure .transport subcodeGuestContract
  else finalizeFlushed

/-- What `owner_checkpoint` makes of the answer to a checkpoint of the guest. -/
def checkpointStatus : Check → OwnerCode (Unit ⊕ LiveResult)
  | .ok => return .inr .ok
  | .retry => do
      wait
      return .inl ()
  | .terminated => do
      if (← load .state) = .stopRequested then return .inl ()
      else return .inr (← failAndDetach .producer .checkpoint subcodeGuestContract)
  | .contract => return .inr (← failAndDetach .producer .checkpoint subcodeGuestContract)

def checkpointRound : OwnerCode (Unit ⊕ LiveResult) := do
  let state ← load .state
  if state = .failing then return .inr (← ownerDetachFailure)
  else if state = .stopRequested then return .inr (← ownerFinalizeClean)
  else if state ≠ .running then
    return .inr (if LiveState.terminal state then .failed else .stateError)
  else checkpointStatus (← guest progressCheckpoint)

def ownerCheckpoint : OwnerCode LiveResult := do
  if ← load .ownerValid then iterating (fun _ => checkpointRound) () else return .ownerError

def reportProducerFailure (subcode : UInt32) : OwnerCode LiveResult := do
  if subcode = 0 then return .argument
  else
    let state ← load .state
    if state ≠ .running ∧ state ≠ .stopRequested ∧ state ≠ .draining ∧ state ≠ .failing then
      return .stateError
    else if (← load .ownerValid) = false then return .ownerError
    else if ← firstFatal .producer .checkpoint subcode then ownerDetachFailure
    else return .already

inductive OwnerAction where
  | attachGuest
  | operation (step : Operation)
  | ownerCheckpoint
  | reportProducerFailure (subcode : UInt32)
deriving DecidableEq, Repr

def OwnerAction.code : OwnerAction → OwnerCode Unit
  | .attachGuest => do note (.attachGuest (← OwnerThread.attachGuest))
  | .operation step => guest step.code
  | .ownerCheckpoint => do
      note (.checkpointCalled (← get).adapter)
      note (.ownerCheckpoint (← OwnerThread.ownerCheckpoint))
  | .reportProducerFailure subcode => do
      note (.reportProducerFailure (← OwnerThread.reportProducerFailure subcode))

/-- What the owner does, one call after the other. -/
def ownerRun : List OwnerAction → OwnerCode Unit
  | [] => pure ()
  | action :: rest => do
      action.code
      ownerRun rest

end Owner

end EspNp2.LiveService.OwnerThread
