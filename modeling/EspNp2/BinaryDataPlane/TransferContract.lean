import EspNp2.BinaryDataPlane.FrameRoundTrip
import EspNp2.BinaryDataPlane.Transfer

/-!
A rule for reasoning about everything the transfer manager does to the world
behind its callbacks. A `Contract` names the phases of a transfer as predicates
on the world and says what each callback does to them. `perform_preserves`
derives from it that every operation of the manager keeps the world in the phase
its flags promise.
-/

namespace EspNp2.BinaryDataPlane.TransferContract

open EspNp2.Library.ByteStuffing
open EspNp2.BinaryDataPlane.BinaryCodec
open EspNp2.BinaryDataPlane.FrameRoundTrip
open EspNp2.BinaryDataPlane.Transfer

variable {W : Type}

/-- The public operations on an initialised manager. -/
inductive Operation (W : Type) where
  | beginRx (size : UInt64) (endpoint : TransferEndpoint W) (options : TransferOptions)
  | beginTx (size : UInt64) (endpoint : TransferEndpoint W)
  | abort (transferId : UInt32)
  | getStatus (transferId : UInt32)
  | poll (nowMs : UInt32)
  | handleDecodedFrame (decoded : List UInt8) (nowMs : UInt32)

def perform (d : Device W) : Operation W → Device W
  | .beginRx size endpoint options => (beginRx d size endpoint options).2
  | .beginTx size endpoint => (beginTx d size endpoint).2
  | .abort transferId => (abort d transferId).2
  | .getStatus _ => d
  | .poll nowMs => poll d nowMs
  | .handleDecodedFrame decoded nowMs => handleDecodedFrame d decoded nowMs

/-- What the outside world can know of a running transfer. `outstanding` is the
payload of the DATA frame a sender has prepared, with the number of times it was
transmitted. -/
structure Progress (W : Type) where
  endpoint : TransferEndpoint W
  direction : Direction
  transferId : UInt32
  totalBytes : UInt64
  transferredBytes : UInt64
  expectedSequence : UInt32
  expectedOffset : UInt64
  outstanding : Option (List UInt8 × Nat)

def progressOf (m : TransferManager W) : Progress W :=
  { endpoint := m.endpoint
    direction := m.direction
    transferId := m.transferId
    totalBytes := m.totalBytes
    transferredBytes := m.transferredBytes
    expectedSequence := m.expectedSequence
    expectedOffset := m.expectedOffset
    outstanding :=
      if m.txWaitingAck then some (m.txPayload, m.txRetries.toNat + 1) else none }

/-- Progress by one more DATA frame with `length` payload bytes. -/
def Progress.advance (p : Progress W) (length : UInt16) : Progress W :=
  { p with
    transferredBytes := p.transferredBytes + length.toUInt64
    expectedSequence := p.expectedSequence + 1
    expectedOffset := p.expectedOffset + length.toUInt64
    outstanding := none }

def Progress.withOutstanding (p : Progress W) (outstanding : Option (List UInt8 × Nat)) :
    Progress W :=
  { p with outstanding := outstanding }

/-- The payload length of the next DATA frame of a sender. -/
def Progress.chunk (p : Progress W) : Nat :=
  min kMaxPayloadBytes (p.totalBytes.toNat - p.transferredBytes.toNat)

/-- The DATA frame a sender transmits. -/
def Progress.dataWire (p : Progress W) (payload : List UInt8) : List UInt8 :=
  frameWire .data p.transferId p.expectedSequence p.expectedOffset 0 payload

/-- The control frames a running transfer may write: they name its current
frontier, and a receiver that is full writes none. -/
def EmitsControl (p : Progress W) (wire : List UInt8) : Prop :=
  p.transferredBytes ≠ p.totalBytes ∧
    (wire = frameWire .ack p.transferId p.expectedSequence p.expectedOffset 0 [] ∨
      ∃ reason : NackReason, wire =
        frameWire .nack p.transferId p.expectedSequence p.expectedOffset reason.toStatus [])

/-- The counters of a transfer that still has bytes to move. A sender numbers its
frames by full payloads. -/
structure Positioned (p : Progress W) : Prop where
  id_ne_zero : p.transferId ≠ 0
  offset_eq : p.expectedOffset = p.transferredBytes
  room : p.transferredBytes.toNat < p.totalBytes.toNat
  bounded : p.totalBytes.toNat ≤ kMaxTransferBytes.toNat
  numbered : p.direction = .deviceToHost →
    p.transferredBytes.toNat = kMaxPayloadBytes * p.expectedSequence.toNat

/-- The frames whose payload reaches `consume`. -/
structure Acceptable (p : Progress W) (frame : ParsedFrame) : Prop where
  crcValid : frame.crcValid = true
  type : frame.type = .data
  transferId : frame.transferId = p.transferId
  sequence : frame.sequence = p.expectedSequence
  offset : frame.offset = p.expectedOffset
  payloadLength : frame.payloadLength.toNat = frame.payload.length
  nonempty : 0 < frame.payload.length
  fits : p.transferredBytes.toNat + frame.payload.length ≤ p.totalBytes.toNat

/-- The terminal record agrees with the progress of the transfer it closes. -/
structure Reports (p : Progress W) (state : TransferState) (info : TransferInfo) : Prop where
  transferId : info.transferId = p.transferId
  direction : info.direction = p.direction
  state : info.state = state
  totalBytes : info.totalBytes = p.totalBytes
  transferredBytes : info.transferredBytes = p.transferredBytes

/-- The replay record a finished transfer leaves: a receiver can replay its
final ACK, a sender has none. -/
def Replays (p : Progress W) (replay : FinalAckReplay) : Prop :=
  match p.direction with
  | .hostToDevice =>
      replay.transferId = p.transferId ∧ replay.acknowledgedSequence = p.expectedSequence ∧
        replay.acknowledgedOffset = p.expectedOffset
  | .deviceToHost => replay.valid = false

/-- Predicates on the world for each phase of a transfer, and what the callbacks
do to them. `Failing` holds between a failure and the endpoint's `abort`,
`Aborted` and `Finished` until the endpoint's `terminal`. -/
structure Contract (W : Type) where
  sink : OutputSink W
  Admissible : TransferEndpoint W → Prop
  Incoming : ParsedFrame → Prop
  Running : Progress W → W → Prop
  Failing : Progress W → W → Prop
  Aborted : Progress W → W → Prop
  Finished : Progress W → W → Prop
  Idle : TransferInfo → FinalAckReplay → W → Prop
  begin_ok : ∀ {p : Progress W} {begin info replay w w'},
    Admissible p.endpoint → p.endpoint.begin = some begin →
    p.endpoint.usable p.direction = true → Positioned p → p.transferredBytes = 0 →
    p.expectedSequence = 0 → p.outstanding = none → Idle info replay w →
    begin w p.direction p.totalBytes = (.ok, w') → Running p w'
  begin_failed : ∀ {endpoint begin info replay direction size w w'},
    Admissible endpoint → endpoint.begin = some begin → Idle info replay w →
    begin w direction size = (.failed, w') → Idle info replay w'
  consume_ok : ∀ {p consume frame w w'}, p.direction = .hostToDevice →
    p.endpoint.consume = some consume → Running p w → Positioned p → Incoming frame →
    Acceptable p frame → consume w frame.offset frame.payload = (.ok, w') →
    Running (p.advance frame.payloadLength) w'
  consume_failed : ∀ {p consume frame w w'}, p.direction = .hostToDevice →
    p.endpoint.consume = some consume → Running p w → Positioned p → Incoming frame →
    Acceptable p frame → consume w frame.offset frame.payload = (.failed, w') → Failing p w'
  produce_ok : ∀ {p produce bytes w w'}, p.direction = .deviceToHost →
    p.endpoint.produce = some produce → p.outstanding = none → Running p w → Positioned p →
    produce w p.expectedOffset p.chunk = ((.ok, bytes), w') → bytes.length = p.chunk →
    Running (p.withOutstanding (some (bytes, 0))) w'
  produce_failed : ∀ {p produce result bytes w w'}, p.direction = .deviceToHost →
    p.endpoint.produce = some produce → p.outstanding = none → Running p w → Positioned p →
    produce w p.expectedOffset p.chunk = ((result, bytes), w') →
    (result ≠ .ok ∨ bytes.length ≠ p.chunk) → Failing p w'
  send_ok : ∀ {p write bytes count w w'}, sink.write = some write →
    p.direction = .deviceToHost → p.outstanding = some (bytes, count) →
    bytes.length = p.chunk → count ≤ kMaxRetransmissions.toNat → Running p w → Positioned p →
    write w (p.dataWire bytes) = (true, w') →
    Running (p.withOutstanding (some (bytes, count + 1))) w'
  send_failed : ∀ {p write bytes count w w'}, sink.write = some write →
    p.direction = .deviceToHost → p.outstanding = some (bytes, count) →
    bytes.length = p.chunk → count ≤ kMaxRetransmissions.toNat → Running p w → Positioned p →
    write w (p.dataWire bytes) = (false, w') → Failing p w'
  acknowledge : ∀ {p : Progress W} {bytes count w}, p.direction = .deviceToHost →
    p.outstanding = some (bytes, count) → bytes.length = p.chunk → Running p w →
    Positioned p → Running (p.advance (UInt16.ofNat bytes.length)) w
  finish_ok : ∀ {p finish w w'}, p.endpoint.finish = some finish →
    p.transferredBytes = p.totalBytes → p.outstanding = none → Running p w →
    finish w = (.ok, w') → Finished p w'
  finish_failed : ∀ {p finish w w'}, p.endpoint.finish = some finish →
    p.transferredBytes = p.totalBytes → p.outstanding = none → Running p w →
    finish w = (.failed, w') → Failing p w'
  write_ok : ∀ {p write wire w w'}, sink.write = some write → Running p w → Positioned p →
    EmitsControl p wire → write w wire = (true, w') → Running p w'
  write_failed : ∀ {p write wire w w'}, sink.write = some write → Running p w →
    Positioned p → EmitsControl p wire → write w wire = (false, w') → Failing p w'
  fail : ∀ {p w}, Running p w → Positioned p → Failing p w
  abort : ∀ {p abort w} reason, p.endpoint.abort = some abort → Failing p w →
    Aborted p (abort w reason)
  terminal_aborted : ∀ {p terminal info replay w} reason, p.endpoint.terminal = some terminal →
    Aborted p w → Reports p .aborted info → replay.valid = false → reason ≠ .completed →
    Idle info replay (terminal w info reason)
  terminal_finished : ∀ {p terminal info replay w}, p.endpoint.terminal = some terminal →
    p.transferredBytes = p.totalBytes → Finished p w → Reports p .completed info →
    Replays p replay → Idle info replay (terminal w info .completed)
  replay : ∀ {info replay write written w w'}, sink.write = some write →
    Idle info replay w → replay.valid = true → replay.transferId ≠ 0 →
    write w (frameWire .ack replay.transferId replay.acknowledgedSequence
      replay.acknowledgedOffset 0 []) = (written, w') → Idle info replay w'

/-- The flags of a manager whose transfer is running. -/
structure Live (m : TransferManager W) : Prop where
  usable : m.endpoint.usable m.direction = true
  state : m.state = .active
  started : m.endpointStarted = true
  notFinalized : m.endpointFinalized = false
  notNotified : m.terminalNotified = false
  noReplay : m.finalAckReplay.valid = false

/-- The transmit fields of a running manager between two operations. -/
structure Consistent (m : TransferManager W) : Prop where
  receiving : m.direction = .hostToDevice → m.txWaitingAck = false
  ready_eq : m.txFrameReady = m.txWaitingAck
  pending : m.txPendingStart = true → m.txWaitingAck = false
  sequence_eq : m.direction = .deviceToHost → m.txSequence = m.expectedSequence
  offset_eq : m.direction = .deviceToHost → m.txOffset = m.expectedOffset
  length_eq : m.txWaitingAck = true → m.txLength = UInt16.ofNat m.txPayload.length
  payload : m.txWaitingAck = true → m.txPayload.length = (progressOf m).chunk
  retries : m.txWaitingAck = true → m.txRetries.toNat ≤ kMaxRetransmissions.toNat

variable (C : Contract W)

/-- The manager's flags and the phase of the world agree. -/
structure Holds (d : Device W) : Prop where
  output : d.manager.output = C.sink
  active : d.manager.active = true → Live d.manager ∧ Consistent d.manager ∧
    Positioned (progressOf d.manager) ∧ C.Running (progressOf d.manager) d.world
  inactive : d.manager.active = false →
    C.Idle (currentInfo d.manager) d.manager.finalAckReplay d.world

/-- The callbacks that a live transfer has. -/
theorem Live.callbacks {m : TransferManager W} (h : Live m) :
    m.endpoint.finish.isSome = true ∧ m.endpoint.abort.isSome = true ∧
      m.endpoint.terminal.isSome = true ∧
      (m.direction = .hostToDevice → m.endpoint.consume.isSome = true) ∧
      (m.direction = .deviceToHost → m.endpoint.produce.isSome = true) := by
  have husable := h.usable
  simp only [TransferEndpoint.usable, Bool.and_eq_true, Bool.or_eq_true, bne_iff_ne] at husable
  obtain ⟨⟨⟨⟨⟨-, hfinish⟩, habort⟩, hterminal⟩, hconsume⟩, hproduce⟩ := husable
  exact ⟨hfinish, habort, hterminal, fun hrx => hconsume.resolve_left (not_not.mpr hrx),
    fun htx => hproduce.resolve_left (not_not.mpr htx)⟩

theorem Live.exists_finish {m : TransferManager W} (h : Live m) :
    ∃ finish, m.endpoint.finish = some finish :=
  Option.isSome_iff_exists.mp h.callbacks.1

theorem Live.exists_abort {m : TransferManager W} (h : Live m) :
    ∃ abort, m.endpoint.abort = some abort :=
  Option.isSome_iff_exists.mp h.callbacks.2.1

theorem Live.exists_terminal {m : TransferManager W} (h : Live m) :
    ∃ terminal, m.endpoint.terminal = some terminal :=
  Option.isSome_iff_exists.mp h.callbacks.2.2.1

theorem Live.exists_consume {m : TransferManager W} (h : Live m)
    (hrx : m.direction = .hostToDevice) : ∃ consume, m.endpoint.consume = some consume :=
  Option.isSome_iff_exists.mp (h.callbacks.2.2.2.1 hrx)

theorem Live.exists_produce {m : TransferManager W} (h : Live m)
    (htx : m.direction = .deviceToHost) : ∃ produce, m.endpoint.produce = some produce :=
  Option.isSome_iff_exists.mp (h.callbacks.2.2.2.2 htx)

/-- The manager after its running transfer was aborted. -/
def abortedManager (m : TransferManager W) : TransferManager W :=
  { recordTerminal { closeTransfer m .aborted with endpointFinalized := true } .aborted with
    terminalNotified := true }

/-- The manager after its running transfer completed. -/
def completedManager (m : TransferManager W) : TransferManager W :=
  { recordTerminal (closeTransfer m .completed) .completed with terminalNotified := true }

/-- An aborted transfer: the endpoint hears `abort` and then `terminal`. -/
theorem finishActive_aborted {d : Device W} (hactive : d.manager.active = true)
    (hlive : Live d.manager) {abort terminal}
    (habort : d.manager.endpoint.abort = some abort)
    (hterminal : d.manager.endpoint.terminal = some terminal) (reason : TerminalReason) :
    finishActive d .aborted reason =
      { manager := abortedManager d.manager
        world := terminal (abort d.world reason) (abortedManager d.manager).terminal reason } := by
  simp [finishActive, endpointAbort, notifyTerminal, abortedManager, closeTransfer,
    recordTerminal, hactive, hlive.started, hlive.notFinalized, hlive.notNotified, habort,
    hterminal]

theorem finishActive_completed {d : Device W} (hactive : d.manager.active = true)
    (hstarted : d.manager.endpointStarted = true)
    (hnotified : d.manager.terminalNotified = false) {terminal}
    (hterminal : d.manager.endpoint.terminal = some terminal) :
    finishActive d .completed .completed =
      { manager := completedManager d.manager
        world := terminal d.world (completedManager d.manager).terminal .completed } := by
  simp [finishActive, notifyTerminal, completedManager, closeTransfer, recordTerminal, hactive,
    hstarted, hnotified, hterminal]

theorem currentInfo_abortedManager (m : TransferManager W) :
    currentInfo (abortedManager m) = (abortedManager m).terminal := by
  simp [currentInfo, abortedManager, recordTerminal, closeTransfer]

theorem currentInfo_completedManager (m : TransferManager W) :
    currentInfo (completedManager m) = (completedManager m).terminal := by
  simp [currentInfo, completedManager, recordTerminal, closeTransfer]

theorem reports_completedManager (m : TransferManager W) :
    Reports (progressOf m) .completed (completedManager m).terminal :=
  ⟨rfl, rfl, rfl, rfl, rfl⟩

/-- A device with a running transfer, whatever its counters are. -/
structure Attached (d : Device W) : Prop where
  output : d.manager.output = C.sink
  active : d.manager.active = true
  live : Live d.manager

section Preservation

variable {C} {d : Device W}

theorem Attached.holds (h : Attached C d) (hconsistent : Consistent d.manager)
    (hpositioned : Positioned (progressOf d.manager))
    (hrunning : C.Running (progressOf d.manager) d.world) : Holds C d :=
  ⟨h.output, fun _ => ⟨h.live, hconsistent, hpositioned, hrunning⟩,
    fun hidle => by simp [h.active] at hidle⟩

theorem Holds.attached (h : Holds C d) (hactive : d.manager.active = true) : Attached C d :=
  ⟨h.output, hactive, (h.active hactive).1⟩

/-- Aborting a running transfer whose endpoint may be aborted. -/
theorem Attached.holds_abort (h : Attached C d) {outstanding : Option (List UInt8 × Nat)}
    (hfailing : C.Failing ((progressOf d.manager).withOutstanding outstanding) d.world)
    {reason : TerminalReason} (hreason : reason ≠ .completed) :
    Holds C (finishActive d .aborted reason) := by
  obtain ⟨abort, habort⟩ := h.live.exists_abort
  obtain ⟨terminal, hterminal⟩ := h.live.exists_terminal
  rw [finishActive_aborted h.active h.live habort hterminal]
  refine ⟨h.output, fun hactive => by
    simp [abortedManager, recordTerminal, closeTransfer] at hactive, fun _ => ?_⟩
  rw [currentInfo_abortedManager]
  exact C.terminal_aborted reason hterminal (C.abort reason habort hfailing)
    ⟨rfl, rfl, rfl, rfl, rfl⟩ h.live.noReplay hreason

theorem Attached.finishActive_inactive (h : Attached C d) (reason : TerminalReason) :
    (finishActive d .aborted reason).manager.active = false := by
  obtain ⟨abort, habort⟩ := h.live.exists_abort
  obtain ⟨terminal, hterminal⟩ := h.live.exists_terminal
  rw [finishActive_aborted h.active h.live habort hterminal]
  rfl

theorem Holds.abort_running (h : Holds C d) (hactive : d.manager.active = true)
    {reason : TerminalReason} (hreason : reason ≠ .completed) :
    Holds C (finishActive d .aborted reason) :=
  (h.attached hactive).holds_abort
    (C.fail (h.active hactive).2.2.2 (h.active hactive).2.2.1) hreason

/-- Completing a running transfer whose endpoint has finished. -/
theorem Attached.holds_complete (h : Attached C d)
    (hfull : d.manager.transferredBytes = d.manager.totalBytes) {m : TransferManager W}
    (hprogress : progressOf m = progressOf d.manager)
    (hflags : m.output = d.manager.output ∧ m.active = d.manager.active ∧
      m.endpointStarted = d.manager.endpointStarted ∧
      m.terminalNotified = d.manager.terminalNotified)
    (hreplays : Replays (progressOf d.manager) m.finalAckReplay) {world : W}
    (hfinished : C.Finished (progressOf d.manager) world) :
    Holds C (finishActive { manager := m, world := world } .completed .completed) ∧
      (finishActive { manager := m, world := world } .completed .completed).manager =
        completedManager m := by
  obtain ⟨houtput, hactive, hstarted, hnotified⟩ := hflags
  obtain ⟨terminal, hterminal⟩ := h.live.exists_terminal
  have hendpoint : m.endpoint = d.manager.endpoint := congrArg Progress.endpoint hprogress
  have hclosed := finishActive_completed (d := { manager := m, world := world })
    (hactive.trans h.active) (hstarted.trans h.live.started)
    (hnotified.trans h.live.notNotified) ((congrArg _ hendpoint).trans hterminal)
  rw [hclosed]
  refine ⟨⟨houtput.trans h.output, fun hrunning => by
    simp [completedManager, recordTerminal, closeTransfer] at hrunning, fun _ => ?_⟩, rfl⟩
  rw [currentInfo_completedManager]
  refine C.terminal_finished (p := progressOf d.manager) hterminal hfull hfinished ?_ hreplays
  rw [← hprogress]
  exact reports_completedManager m


/-- What the manager does with a frame it may build: hand it to the sink. -/
theorem writeWire_eq {type : FrameType} {transferId sequence : UInt32} {offset : UInt64}
    {status : UInt16} {payload : List UInt8} (houtput : d.manager.output = C.sink)
    (hid : transferId ≠ 0) (hlength : payload.length ≤ kMaxPayloadBytes)
    (hfields : hasValidTypeFields type status (UInt16.ofNat payload.length) = true) :
    writeWire d type transferId sequence offset status payload =
      match C.sink.write with
      | none => (false, d)
      | some write =>
          let result := write d.world
            (frameWire type transferId sequence offset status payload)
          (result.1, { d with world := result.2 }) := by
  rw [writeWire, (encodeFrame_eq type transferId sequence offset status payload hid hlength
    hfields).1, houtput]
  rfl

/-- Writing a control frame the transfer may emit either keeps it running or
leaves it to be aborted. -/
theorem holds_orOutputError (h : Holds C d) (hactive : d.manager.active = true)
    {type : FrameType} {sequence : UInt32} {offset : UInt64} {status : UInt16}
    (hfields : hasValidTypeFields type status 0 = true)
    (hemits : EmitsControl (progressOf d.manager)
      (frameWire type d.manager.transferId sequence offset status [])) :
    Holds C (orOutputError
      (writeWire d type d.manager.transferId sequence offset status [])) := by
  obtain ⟨hlive, hconsistent, hpositioned, hrunning⟩ := h.active hactive
  have hid : d.manager.transferId ≠ 0 := hpositioned.id_ne_zero
  rw [writeWire_eq (C := C) h.output hid (by simp) hfields]
  cases hwrite : C.sink.write with
  | none => exact h.abort_running hactive (by simp)
  | some write =>
      rcases hresult : write d.world (frameWire type d.manager.transferId sequence offset status [])
        with ⟨written, world⟩
      simp only [hresult, orOutputError]
      cases written with
      | true =>
          exact Attached.holds (d := { manager := d.manager, world := world })
            ⟨h.output, hactive, hlive⟩ hconsistent hpositioned
            (C.write_ok hwrite hrunning hpositioned hemits hresult)
      | false =>
          exact Attached.holds_abort (d := { manager := d.manager, world := world })
            ⟨h.output, hactive, hlive⟩
            (C.write_failed hwrite hrunning hpositioned hemits hresult) (by simp)

theorem Positioned.unfilled {p : Progress W} (h : Positioned p) :
    p.transferredBytes ≠ p.totalBytes := by
  intro heq
  have hroom := h.room
  rw [heq] at hroom
  exact Nat.lt_irrefl _ hroom

theorem holds_sendAck (h : Holds C d) (hactive : d.manager.active = true) :
    Holds C (sendAck d) := by
  obtain ⟨-, -, hpositioned, -⟩ := h.active hactive
  exact holds_orOutputError h hactive rfl ⟨hpositioned.unfilled, .inl rfl⟩

theorem holds_sendNack (h : Holds C d) (hactive : d.manager.active = true)
    (reason : NackReason) : Holds C (sendNack d reason) := by
  obtain ⟨-, -, hpositioned, -⟩ := h.active hactive
  exact holds_orOutputError h hactive (by cases reason <;> rfl)
    ⟨hpositioned.unfilled, .inr ⟨reason, rfl⟩⟩

/-- An idle manager may repeat its final ACK. -/
theorem holds_replay (h : Holds C d) (hidle : d.manager.active = false)
    (hvalid : d.manager.finalAckReplay.valid = true) :
    Holds C (sendAckValues d d.manager.finalAckReplay.transferId
      d.manager.finalAckReplay.acknowledgedSequence
      d.manager.finalAckReplay.acknowledgedOffset).2 := by
  rw [sendAckValues]
  by_cases hid : d.manager.finalAckReplay.transferId = 0
  · have hencode : encodeFrame .ack 0 d.manager.finalAckReplay.transferId
        d.manager.finalAckReplay.acknowledgedSequence
        d.manager.finalAckReplay.acknowledgedOffset 0 []
        kMaxDecodedFrameBytes kMaxEncodedBodyBytes kMaxWireFrameBytes = none := by
      rw [encodeFrame, if_pos (.inr (.inl hid))]
    rw [writeWire, hencode]
    exact h
  · rw [writeWire_eq (C := C) h.output hid (by simp) rfl]
    cases hwrite : C.sink.write with
    | none => exact h
    | some write =>
        rcases hresult : write d.world (frameWire .ack d.manager.finalAckReplay.transferId
          d.manager.finalAckReplay.acknowledgedSequence
          d.manager.finalAckReplay.acknowledgedOffset 0 []) with ⟨written, world⟩
        have hwritten := C.replay hwrite (h.inactive hidle) hvalid hid hresult
        simp only [hresult]
        exact ⟨h.output, fun hactive => by simp [hidle] at hactive, fun _ => hwritten⟩

/-- The byte counter after a frame that fits. -/
theorem toNat_advance {p : Progress W} {length : UInt16}
    (hfits : p.transferredBytes.toNat + length.toNat ≤ p.totalBytes.toNat) :
    (p.transferredBytes + length.toUInt64).toNat = p.transferredBytes.toNat + length.toNat := by
  have htotal := p.totalBytes.toNat_lt
  rw [UInt64.toNat_add, UInt16.toNat_toUInt64]
  omega

theorem Positioned.advance_rx {p : Progress W} (h : Positioned p)
    (hrx : p.direction = .hostToDevice) {length : UInt16}
    (hfits : p.transferredBytes.toNat + length.toNat ≤ p.totalBytes.toNat)
    (hunfilled : (p.advance length).transferredBytes ≠ p.totalBytes) :
    Positioned (p.advance length) := by
  have hadd := toNat_advance hfits
  refine
    { id_ne_zero := h.id_ne_zero
      offset_eq := by simp only [Progress.advance, h.offset_eq]
      room := ?_
      bounded := h.bounded
      numbered := fun htx => by simp [Progress.advance, hrx] at htx }
  have hne : (p.advance length).transferredBytes.toNat ≠ p.totalBytes.toNat :=
    fun heq => hunfilled (UInt64.toNat_inj.mp heq)
  simp only [Progress.advance, hadd] at hne ⊢
  omega

/-- A receiver that consumed a frame acknowledges it, or finishes. -/
theorem holds_acknowledgeData (h : Attached C d) (hconsistent : Consistent d.manager)
    (hrx : d.manager.direction = .hostToDevice)
    (hpositioned : d.manager.transferredBytes ≠ d.manager.totalBytes →
      Positioned (progressOf d.manager))
    (hrunning : C.Running (progressOf d.manager) d.world) : Holds C (acknowledgeData d) := by
  rw [acknowledgeData]
  split_ifs with hfull
  · exact holds_sendAck (h.holds hconsistent (hpositioned hfull) hrunning) h.active
  · simp only [ne_eq, not_not] at hfull
    have hnone : (progressOf d.manager).outstanding = none := by
      simp [progressOf, hconsistent.receiving hrx]
    obtain ⟨finish, hfinish⟩ := h.live.exists_finish
    simp only [hfinish]
    rcases hresult : finish d.world with ⟨result, world⟩
    cases result with
    | failed =>
        exact Attached.holds_abort (d := { manager := d.manager, world := world })
          ⟨h.output, h.active, h.live⟩
          (C.finish_failed hfinish hfull hnone hrunning hresult) (by simp)
    | ok =>
        obtain ⟨hholds, hmanager⟩ := h.holds_complete hfull
          (m := finalizeReceive d.manager) rfl ⟨rfl, rfl, rfl, rfl⟩
          (by simp [Replays, progressOf, hrx, finalizeReceive])
          (C.finish_ok hfinish hfull hnone hrunning hresult)
        simp only [ne_eq, not_true_eq_false, if_false]
        have hreplay := holds_replay hholds (by rw [hmanager]; rfl) (by rw [hmanager]; rfl)
        rw [hmanager] at hreplay ⊢
        exact hreplay

theorem Live.accept {m : TransferManager W} (h : Live m) (frame : ParsedFrame) :
    Live (acceptData m frame) :=
  { h with }

theorem Consistent.accept {m : TransferManager W} (h : Consistent m)
    (hrx : m.direction = .hostToDevice) (frame : ParsedFrame) :
    Consistent (acceptData m frame) := by
  have hwaiting := h.receiving hrx
  exact
    { h with
      sequence_eq := fun htx => by simp [acceptData, hrx] at htx
      offset_eq := fun htx => by simp [acceptData, hrx] at htx
      payload := fun hsent => by simp [acceptData, hwaiting] at hsent }

theorem progressOf_acceptData {m : TransferManager W} (h : Consistent m)
    (hrx : m.direction = .hostToDevice) (frame : ParsedFrame) :
    progressOf (acceptData m frame) = (progressOf m).advance frame.payloadLength := by
  simp [progressOf, acceptData, Progress.advance, h.receiving hrx]

/-- A frame that passes all receive checks is acceptable. -/
theorem acceptable_of_checks {m : TransferManager W} (hpositioned : Positioned (progressOf m))
    {decoded : List UInt8} {frame : ParsedFrame}
    (hparse : parseDecoded decoded = some frame) (hcrc : frame.crcValid = true)
    (htype : frame.type = .data) (hid : frame.transferId = m.transferId)
    (hlength : ¬ (frame.payloadLength = 0 ∨
      frame.payloadLength.toUInt64 > m.totalBytes - m.transferredBytes))
    (hsequence : frame.sequence = m.expectedSequence)
    (hoffset : frame.offset = m.expectedOffset) : Acceptable (progressOf m) frame := by
  obtain ⟨-, -, hpayload, hpayloadLength⟩ := decodedImage_parseDecoded hparse hcrc
  have hsmall : frame.payloadLength.toNat = frame.payload.length := by
    simp only [kMaxPayloadBytes] at hpayload
    rw [hpayloadLength, UInt16.toNat_ofNat']
    omega
  obtain ⟨hnonzero, hroom⟩ := not_or.mp hlength
  have hle : m.transferredBytes.toNat < m.totalBytes.toNat := hpositioned.room
  have hroomNat := UInt64.le_iff_toNat_le.mp (UInt64.not_lt.mp hroom)
  rw [UInt64.toNat_sub_of_le _ _ (UInt64.le_iff_toNat_le.mpr hle.le), UInt16.toNat_toUInt64,
    hsmall] at hroomNat
  have hpos : 0 < frame.payload.length := by
    rw [← hsmall]
    rcases Nat.eq_zero_or_pos frame.payloadLength.toNat with hzero | hpos
    · exact absurd (UInt16.toNat_inj.mp hzero) hnonzero
    · exact hpos
  exact
    { crcValid := hcrc
      type := htype
      transferId := hid
      sequence := hsequence
      offset := hoffset
      payloadLength := hsmall
      nonempty := hpos
      fits := by simp only [progressOf]; omega }

theorem holds_handleRxData (h : Holds C d) (hactive : d.manager.active = true)
    (hrx : d.manager.direction = .hostToDevice) {decoded : List UInt8} {frame : ParsedFrame}
    (hparse : parseDecoded decoded = some frame) (hcrc : frame.crcValid = true)
    (htype : frame.type = .data) (hincoming : C.Incoming frame) :
    Holds C (handleRxData d frame) := by
  obtain ⟨hlive, hconsistent, hpositioned, hrunning⟩ := h.active hactive
  rw [handleRxData]
  split
  · exact h
  rename_i hid
  split
  · exact holds_sendNack h hactive _
  split
  · exact holds_sendAck h hactive
  split
  · exact holds_sendNack h hactive _
  rename_i hlength
  split
  · exact holds_sendNack h hactive _
  rename_i hsequence
  split
  · exact holds_sendNack h hactive _
  · rename_i hoffset
    rw [not_not] at hid hsequence hoffset
    have hframe :=
      acceptable_of_checks hpositioned hparse hcrc htype hid hlength hsequence hoffset
    obtain ⟨consume, hconsume⟩ := hlive.exists_consume hrx
    simp only [hconsume]
    rcases hresult : consume d.world frame.offset frame.payload with ⟨result, world⟩
    cases result with
    | failed =>
        exact Attached.holds_abort (d := { manager := d.manager, world := world })
          ⟨h.output, hactive, hlive⟩
          (C.consume_failed hrx hconsume hrunning hpositioned hincoming hframe hresult) (by simp)
    | ok =>
        have haccepted := progressOf_acceptData hconsistent hrx frame
        have hfits : (progressOf d.manager).transferredBytes.toNat +
            frame.payloadLength.toNat ≤ (progressOf d.manager).totalBytes.toNat := by
          rw [hframe.payloadLength]
          exact hframe.fits
        refine holds_acknowledgeData
          (d := { manager := acceptData d.manager frame, world := world })
          ⟨h.output, hactive, hlive.accept frame⟩ (hconsistent.accept hrx frame) hrx ?_ ?_
        · intro hunfilled
          rw [haccepted]
          exact hpositioned.advance_rx hrx hfits hunfilled
        · rw [haccepted]
          exact C.consume_ok hrx hconsume hrunning hpositioned hincoming hframe hresult

theorem Positioned.withOutstanding {p : Progress W} (h : Positioned p)
    (outstanding : Option (List UInt8 × Nat)) : Positioned (p.withOutstanding outstanding) :=
  ⟨h.id_ne_zero, h.offset_eq, h.room, h.bounded, h.numbered⟩

theorem Positioned.chunk_pos {p : Progress W} (h : Positioned p) : 0 < p.chunk := by
  have hroom := h.room
  simp only [Progress.chunk, kMaxPayloadBytes]
  omega

theorem chunk_le (p : Progress W) : p.chunk ≤ kMaxPayloadBytes :=
  Nat.min_le_left _ _

theorem toNat_ofNat_chunk {p : Progress W} {length : Nat} (hlength : length = p.chunk) :
    (UInt16.ofNat length).toNat = length := by
  have hle := chunk_le p
  simp only [kMaxPayloadBytes] at hle
  rw [UInt16.toNat_ofNat']
  omega

theorem chunk_fits {p : Progress W} (h : Positioned p) {length : Nat}
    (hlength : length = p.chunk) :
    p.transferredBytes.toNat + (UInt16.ofNat length).toNat ≤ p.totalBytes.toNat := by
  have hroom := h.room
  rw [toNat_ofNat_chunk hlength, hlength]
  simp only [Progress.chunk]
  omega

/-- The sequence number of a sender does not wrap. -/
theorem Positioned.toNat_expectedSequence {p : Progress W} (h : Positioned p)
    (htx : p.direction = .deviceToHost) :
    (p.expectedSequence + 1).toNat = p.expectedSequence.toNat + 1 := by
  have hroom := h.room
  have hbounded := h.bounded
  have hnumbered := h.numbered htx
  have hmax : kMaxTransferBytes.toNat = 1024 * (2 ^ 32 - 1) := rfl
  simp only [kMaxPayloadBytes] at hnumbered
  rw [UInt32.toNat_add]
  simp only [UInt32.reduceToNat]
  omega

/-- A sender that is not done after a frame has sent a full payload. -/
theorem Positioned.advance_tx {p : Progress W} (h : Positioned p)
    (htx : p.direction = .deviceToHost) {length : Nat} (hlength : length = p.chunk)
    (hunfilled : (p.advance (UInt16.ofNat length)).transferredBytes ≠ p.totalBytes) :
    Positioned (p.advance (UInt16.ofNat length)) := by
  have hadd := toNat_advance (chunk_fits h hlength)
  have hfits := chunk_fits h hlength
  have hnumbered := h.numbered htx
  rw [toNat_ofNat_chunk hlength] at hadd hfits
  have hne : (p.advance (UInt16.ofNat length)).transferredBytes.toNat ≠ p.totalBytes.toNat :=
    fun heq => hunfilled (UInt64.toNat_inj.mp heq)
  simp only [Progress.advance, hadd] at hne
  have hfull : length = kMaxPayloadBytes := by
    simp only [Progress.chunk] at hlength
    omega
  have hsequence := h.toNat_expectedSequence htx
  exact
    { id_ne_zero := h.id_ne_zero
      offset_eq := by simp only [Progress.advance, h.offset_eq]
      room := by simp only [Progress.advance, hadd]; omega
      bounded := h.bounded
      numbered := fun _ => by
        simp only [Progress.advance, hadd, hsequence, hnumbered, Nat.mul_add, Nat.mul_one]
        rw [hfull] }

/-- The manager once `prepare_tx_payload` has stored a payload. -/
def preparedManager (m : TransferManager W) (payload : List UInt8) : TransferManager W :=
  { m with
    txPayload := payload
    txLength := UInt16.ofNat payload.length
    txRetries := 0
    txCrc := Crc32.update m.txCrc payload
    txFrameReady := true }

/-- Preparing a payload either aborts the transfer or leaves a frame that was
not transmitted yet. -/
theorem prepareTxPayload_cases (h : Attached C d) (htx : d.manager.direction = .deviceToHost)
    (hwaiting : d.manager.txWaitingAck = false)
    (hoffset : d.manager.txOffset = d.manager.expectedOffset)
    (hpositioned : Positioned (progressOf d.manager))
    (hrunning : C.Running (progressOf d.manager) d.world) :
    (Holds C (prepareTxPayload d) ∧ (prepareTxPayload d).manager.active = false) ∨
      ∃ payload world, prepareTxPayload d =
          { manager := preparedManager d.manager payload, world := world } ∧
        payload.length = (progressOf d.manager).chunk ∧
        C.Running ((progressOf d.manager).withOutstanding (some (payload, 0))) world := by
  have hroom : d.manager.transferredBytes.toNat < d.manager.totalBytes.toNat := hpositioned.room
  have hposition : d.manager.expectedOffset = d.manager.transferredBytes := hpositioned.offset_eq
  have hnone : (progressOf d.manager).outstanding = none := by simp [progressOf, hwaiting]
  have hrequested : (if (d.manager.totalBytes - d.manager.txOffset).toNat > kMaxPayloadBytes
      then kMaxPayloadBytes else (d.manager.totalBytes - d.manager.txOffset).toNat) =
      (progressOf d.manager).chunk := by
    rw [hoffset, hposition,
      UInt64.toNat_sub_of_le _ _ (UInt64.le_iff_toNat_le.mpr hroom.le)]
    simp only [Progress.chunk, progressOf]
    split_ifs <;> omega
  obtain ⟨produce, hproduce⟩ := h.live.exists_produce htx
  simp only [prepareTxPayload, hproduce, hrequested]
  rcases hresult : produce d.world d.manager.txOffset (progressOf d.manager).chunk with
    ⟨⟨result, payload⟩, world⟩
  rw [hoffset] at hresult
  simp only
  split_ifs with hfailed
  · have hattached : Attached C { manager := d.manager, world := world } :=
      ⟨h.output, h.active, h.live⟩
    have hfailing := C.produce_failed (p := progressOf d.manager) htx hproduce hnone hrunning
      hpositioned hresult hfailed
    exact .inl ⟨hattached.holds_abort hfailing (by simp), hattached.finishActive_inactive _⟩
  · obtain ⟨hok, hlength⟩ := not_or.mp hfailed
    simp only [ne_eq, not_not] at hok hlength
    subst hok
    exact .inr ⟨payload, world, rfl, hlength, C.produce_ok (p := progressOf d.manager) htx
      hproduce hnone hrunning hpositioned hresult hlength⟩

/-- One transmission of the prepared frame. -/
theorem holds_sendCurrentTx (h : Attached C d) (htx : d.manager.direction = .deviceToHost)
    (hready : d.manager.txFrameReady = true) (hpending : d.manager.txPendingStart = false)
    (hsequence : d.manager.txSequence = d.manager.expectedSequence)
    (hoffset : d.manager.txOffset = d.manager.expectedOffset)
    (hlength : d.manager.txLength = UInt16.ofNat d.manager.txPayload.length)
    (hpayload : d.manager.txPayload.length = (progressOf d.manager).chunk)
    (hretries : d.manager.txRetries.toNat ≤ kMaxRetransmissions.toNat)
    (hpositioned : Positioned (progressOf d.manager))
    (hrunning : C.Running ((progressOf d.manager).withOutstanding
      (some (d.manager.txPayload, d.manager.txRetries.toNat))) d.world)
    (nowMs : UInt32) : Holds C (sendCurrentTx d nowMs) := by
  have hid : d.manager.transferId ≠ 0 := hpositioned.id_ne_zero
  have htake : d.manager.txPayload.take d.manager.txLength.toNat = d.manager.txPayload := by
    rw [hlength, toNat_ofNat_chunk hpayload, List.take_length]
  have hpos := hpositioned.chunk_pos
  have hle := chunk_le (progressOf d.manager)
  have hfields : hasValidTypeFields .data 0 (UInt16.ofNat d.manager.txPayload.length) = true := by
    simp only [hasValidTypeFields, beq_self_eq_true, Bool.and_true, bne_iff_ne, ne_eq]
    intro hzero
    have := congrArg UInt16.toNat hzero
    rw [toNat_ofNat_chunk hpayload, UInt16.toNat_zero] at this
    omega
  simp only [sendCurrentTx, h.active, hready, Bool.not_true, Bool.false_eq_true, if_false]
  rw [htake, hsequence, hoffset, writeWire_eq (C := C) h.output hid (by omega) hfields]
  cases hwrite : C.sink.write with
  | none => exact h.holds_abort (C.fail hrunning (hpositioned.withOutstanding _)) (by simp)
  | some write =>
      rcases hresult : write d.world (frameWire .data d.manager.transferId
        d.manager.expectedSequence d.manager.expectedOffset 0 d.manager.txPayload) with
        ⟨written, world⟩
      simp only [hresult]
      cases written with
      | false =>
          exact Attached.holds_abort (d := { manager := d.manager, world := world })
            ⟨h.output, h.active, h.live⟩
            (C.send_failed (p := (progressOf d.manager).withOutstanding _) hwrite htx rfl hpayload
              hretries hrunning
              (hpositioned.withOutstanding _) hresult)
            (by simp)
      | true =>
          have hsent := C.send_ok
            (p := (progressOf d.manager).withOutstanding _) hwrite htx rfl hpayload
              hretries hrunning
            (hpositioned.withOutstanding _) hresult
          refine Attached.holds (d := { manager := { d.manager with
              txWaitingAck := true, txLastSentMs := nowMs }, world := world })
            ⟨h.output, h.active, { h.live with }⟩ ?_
            (hpositioned.withOutstanding _) ?_
          · exact
              { receiving := fun hrx => by simp [htx] at hrx
                ready_eq := hready
                pending := fun hstart => by simp [hpending] at hstart
                sequence_eq := fun _ => hsequence
                offset_eq := fun _ => hoffset
                length_eq := fun _ => hlength
                payload := fun _ => hpayload
                retries := fun _ => hretries }
          · exact hsent

theorem holds_retryCurrentTx (h : Holds C d) (hactive : d.manager.active = true)
    (htx : d.manager.direction = .deviceToHost) (hwaiting : d.manager.txWaitingAck = true)
    (nowMs : UInt32) : Holds C (retryCurrentTx d nowMs) := by
  obtain ⟨hlive, hconsistent, hpositioned, hrunning⟩ := h.active hactive
  rw [retryCurrentTx]
  split_ifs with hexhausted
  · exact h.abort_running hactive (by simp)
  · have hlt : d.manager.txRetries.toNat < kMaxRetransmissions.toNat := by
      have := UInt32.not_le.mp hexhausted
      exact UInt32.lt_iff_toNat_lt.mp this
    have hretries : (d.manager.txRetries + 1).toNat = d.manager.txRetries.toNat + 1 := by
      have hbound : kMaxRetransmissions.toNat = 3 := rfl
      rw [UInt32.toNat_add]
      simp only [UInt32.reduceToNat]
      omega
    have hpending : d.manager.txPendingStart = false := by
      cases hstart : d.manager.txPendingStart with
      | false => rfl
      | true => simp [hconsistent.pending hstart] at hwaiting
    refine holds_sendCurrentTx (d := { manager := { d.manager with
        txRetries := d.manager.txRetries + 1 }, world := d.world })
      ⟨h.output, hactive, { hlive with }⟩ htx (hconsistent.ready_eq.trans hwaiting) hpending
      (hconsistent.sequence_eq htx) (hconsistent.offset_eq htx) (hconsistent.length_eq hwaiting)
      (hconsistent.payload hwaiting) ?_ (hpositioned.withOutstanding _) ?_ nowMs
    · rw [hretries]
      exact hlt
    · simp only [hretries]
      simpa [progressOf, Progress.withOutstanding, hwaiting] using hrunning

/-- The manager once its outstanding frame was acknowledged. -/
def acknowledgedManager (m : TransferManager W) : TransferManager W :=
  acceptAck m (m.txSequence + 1) (m.txOffset + m.txLength.toUInt64)

/-- The manager of a sender that goes on after an acknowledgement. -/
def advancedManager (m : TransferManager W) : TransferManager W :=
  { acknowledgedManager m with
    txSequence := m.txSequence + 1
    txOffset := m.txOffset + m.txLength.toUInt64 }

theorem progressOf_acknowledgedManager {m : TransferManager W} (h : Consistent m)
    (hposition : m.expectedOffset = m.transferredBytes)
    (htx : m.direction = .deviceToHost) (hwaiting : m.txWaitingAck = true) :
    progressOf (acknowledgedManager m) =
      (progressOf m).advance (UInt16.ofNat m.txPayload.length) := by
  simp [progressOf, acknowledgedManager, acceptAck, Progress.advance, h.sequence_eq htx,
    h.offset_eq htx, h.length_eq hwaiting, hposition]

theorem holds_advanceTx (h : Holds C d) (hactive : d.manager.active = true)
    (htx : d.manager.direction = .deviceToHost) (hwaiting : d.manager.txWaitingAck = true) :
    Holds C (advanceTx { d with manager := acknowledgedManager d.manager }) := by
  obtain ⟨hlive, hconsistent, hpositioned, hrunning⟩ := h.active hactive
  have hlength := hconsistent.payload hwaiting
  have hprogress :=
    progressOf_acknowledgedManager hconsistent hpositioned.offset_eq htx hwaiting
  have hsettled := C.acknowledge (p := progressOf d.manager) htx
    (by simp only [progressOf, hwaiting, if_true]; rfl) hlength hrunning hpositioned
  have hlive' : Live (acknowledgedManager d.manager) :=
    { hlive with }
  rw [← hprogress] at hsettled
  rw [advanceTx]
  split_ifs with hfull
  · obtain ⟨finish, hfinish⟩ := hlive'.exists_finish
    simp only [hfinish]
    rcases hresult : finish d.world with ⟨result, world⟩
    have hattached : Attached C { manager := acknowledgedManager d.manager, world := world } :=
      ⟨h.output, hactive, hlive'⟩
    cases result with
    | failed =>
        exact hattached.holds_abort
          (C.finish_failed hfinish hfull rfl hsettled hresult) (by simp)
    | ok =>
        simp only [ne_eq, not_true_eq_false, if_false]
        refine (hattached.holds_complete hfull (by rfl) ⟨by rfl, by rfl, by rfl, by rfl⟩ ?_
          (C.finish_ok hfinish hfull rfl hsettled hresult)).1
        simp only [Replays, progressOf, acknowledgedManager, acceptAck, htx]
        exact hlive.noReplay
  · refine Attached.holds (d := { manager := advancedManager d.manager, world := d.world })
      ⟨h.output, hactive, { hlive with }⟩ ?_ ?_ hsettled
    · exact
        { receiving := fun _ => rfl
          ready_eq := rfl
          pending := fun _ => rfl
          sequence_eq := fun _ => rfl
          offset_eq := fun _ => rfl
          length_eq := fun hsent => by
            simp [advancedManager, acknowledgedManager, acceptAck] at hsent
          payload := fun hsent => by
            simp [advancedManager, acknowledgedManager, acceptAck] at hsent
          retries := fun hsent => by
            simp [advancedManager, acknowledgedManager, acceptAck] at hsent }
    · change Positioned (progressOf (acknowledgedManager d.manager))
      rw [hprogress]
      refine hpositioned.advance_tx htx hlength fun hsame => hfull ?_
      rw [← hprogress] at hsame
      exact hsame

theorem holds_handleTxNack (h : Holds C d) (hactive : d.manager.active = true)
    (htx : d.manager.direction = .deviceToHost) (hwaiting : d.manager.txWaitingAck = true)
    (frame : ParsedFrame) (nowMs : UInt32) : Holds C (handleTxNack d frame nowMs) := by
  rw [handleTxNack]
  split_ifs
  · exact h.abort_running hactive (by simp)
  · exact holds_retryCurrentTx h hactive htx hwaiting nowMs
  · exact h
  · exact h.abort_running hactive (by simp)

theorem holds_handleTxAck (h : Holds C d) (hactive : d.manager.active = true)
    (htx : d.manager.direction = .deviceToHost) (frame : ParsedFrame) (nowMs : UInt32) :
    Holds C (handleTxAck d frame nowMs) := by
  rw [handleTxAck]
  by_cases hignored : frame.transferId ≠ d.manager.transferId ∨ frame.crcValid = false ∨
      d.manager.txWaitingAck = false
  · rw [if_pos hignored]
    exact h
  · rw [if_neg hignored]
    have hwaiting : d.manager.txWaitingAck = true := by
      simpa using (not_or.mp (not_or.mp hignored).2).2
    cases frame.type with
    | nack =>
        simp only
        split_ifs
        · exact h.abort_running hactive (by simp)
        · exact holds_handleTxNack h hactive htx hwaiting frame nowMs
    | data =>
        simp only
        split_ifs
        · exact h.abort_running hactive (by simp)
        · exact h
    | ack =>
        simp only
        split_ifs
        · exact h.abort_running hactive (by simp)
        · exact h.abort_running hactive (by simp)
        · exact holds_advanceTx h hactive htx hwaiting
        · exact h
        · exact h.abort_running hactive (by simp)

/-- Preparing and transmitting the next frame of a sender. -/
theorem holds_prepare_send (h : Attached C d) (htx : d.manager.direction = .deviceToHost)
    (hconsistent : Consistent d.manager) (hpending : d.manager.txPendingStart = false)
    (hwaiting : d.manager.txWaitingAck = false) (hpositioned : Positioned (progressOf d.manager))
    (hrunning : C.Running (progressOf d.manager) d.world) (nowMs : UInt32) :
    Holds C (sendCurrentTx (prepareTxPayload d) nowMs) := by
  rcases prepareTxPayload_cases h htx hwaiting (hconsistent.offset_eq htx) hpositioned hrunning
    with ⟨hholds, hinactive⟩ | ⟨payload, world, hprepared, hlength, hready⟩
  · rw [sendCurrentTx, if_pos (by simp [hinactive])]
    exact hholds
  · rw [hprepared]
    refine holds_sendCurrentTx
      (d := { manager := preparedManager d.manager payload, world := world })
      ⟨h.output, h.active, { h.live with }⟩ htx rfl hpending
      (hconsistent.sequence_eq htx) (hconsistent.offset_eq htx) rfl hlength
        (by simp [preparedManager])
      (hpositioned.withOutstanding _) ?_ nowMs
    simpa [progressOf, Progress.withOutstanding, preparedManager] using hready

theorem holds_pollTx (h : Holds C d) (hactive : d.manager.active = true)
    (htx : d.manager.direction = .deviceToHost) (nowMs : UInt32) :
    Holds C (pollTx d nowMs) := by
  obtain ⟨hlive, hconsistent, hpositioned, hrunning⟩ := h.active hactive
  rw [pollTx]
  split_ifs with hstart hidle hprepare htimeout
  · have hwaiting := hconsistent.pending hstart
    refine holds_prepare_send
      (d := { manager := { d.manager with txPendingStart := false }, world := d.world })
      ⟨h.output, hactive, { hlive with }⟩ htx ?_ rfl hwaiting (hpositioned.withOutstanding _)
        hrunning nowMs
    exact { hconsistent with pending := fun hagain => by simp at hagain }
  · simp only [Bool.not_eq_true'] at hidle
    exact holds_prepare_send (h.attached hactive) htx hconsistent (by simpa using hstart) hidle
      hpositioned hrunning nowMs
  · simp only [Bool.not_eq_true'] at hidle
    simp [hconsistent.ready_eq, hidle] at hprepare
  · exact holds_retryCurrentTx h hactive htx (by simpa using hidle) nowMs
  · exact h

theorem holds_replayFinalAck (h : Holds C d) (hidle : d.manager.active = false)
    (frame : ParsedFrame) : Holds C (replayFinalAck d frame) := by
  rw [replayFinalAck]
  split_ifs with hreplay
  · exact holds_replay h hidle hreplay.2.1
  · exact h

/-- The manager fields that only the receiver timeout reads. -/
theorem Holds.withActivity (h : Holds C d) (lastActivityMs : UInt32) (activityPending : Bool) :
    Holds C { d with manager := { d.manager with
      lastActivityMs := lastActivityMs, activityPending := activityPending } } := by
  refine ⟨h.output, fun hactive => ?_, fun hidle => h.inactive hidle⟩
  obtain ⟨hlive, hconsistent, hpositioned, hrunning⟩ := h.active hactive
  exact ⟨{ hlive with }, { hconsistent with }, hpositioned, hrunning⟩

theorem holds_handleDecodedFrame (h : Holds C d) {decoded : List UInt8}
    (hincoming : ∀ frame, parseDecoded decoded = some frame → frame.crcValid = true →
      C.Incoming frame) (nowMs : UInt32) : Holds C (handleDecodedFrame d decoded nowMs) := by
  rw [handleDecodedFrame]
  cases hparse : parseDecoded decoded with
  | none =>
      simp only
      split_ifs with hheader
      · exact holds_sendNack h hheader.1 _
      · exact h
  | some frame =>
      simp only
      by_cases hcrc : frame.crcValid = true
      · cases hactive : d.manager.active with
        | false =>
            simp only [hcrc, Bool.not_true, Bool.not_false, Bool.false_eq_true, if_false, if_true]
            exact holds_replayFinalAck h hactive frame
        | true =>
            simp only [hcrc, Bool.not_true, Bool.false_eq_true, if_false]
            have hpending := h.withActivity d.manager.lastActivityMs true
            simp only [hactive] at hpending
            cases hdirection : d.manager.direction with
            | hostToDevice =>
                simp only [hdirection] at hpending ⊢
                split_ifs with htype
                · exact holds_sendNack hpending rfl _
                · exact holds_handleRxData hpending rfl rfl hparse hcrc
                    (by simpa using htype) (hincoming frame hparse hcrc)
            | deviceToHost =>
                simp only [hdirection] at hpending ⊢
                split_ifs with htype
                · exact holds_sendNack hpending rfl _
                · exact holds_handleTxAck hpending rfl rfl frame nowMs
      · rw [if_pos (by simpa using hcrc)]
        split_ifs with hmine
        · exact holds_sendNack h hmine.1 _
        · exact h

theorem holds_poll (h : Holds C d) (nowMs : UInt32) : Holds C (poll d nowMs) := by
  rw [poll]
  split_ifs with hidle
  · exact h
  · have hactive : d.manager.active = true := by simpa using hidle
    obtain ⟨lastActivityMs, activityPending, hanchor⟩ :
        ∃ lastActivityMs activityPending, anchorActivity d.manager nowMs =
          { d.manager with
            lastActivityMs := lastActivityMs, activityPending := activityPending } := by
      rw [anchorActivity]
      split_ifs
      · exact ⟨_, _, rfl⟩
      · exact ⟨_, _, rfl⟩
      · exact ⟨_, d.manager.activityPending, rfl⟩
      · exact ⟨d.manager.lastActivityMs, d.manager.activityPending, rfl⟩
    have hanchored := h.withActivity lastActivityMs activityPending
    rw [hanchor]
    simp only
    split_ifs
    · exact hanchored.abort_running hactive (by simp)
    · cases hdirection : d.manager.direction with
      | hostToDevice =>
          simp only [hdirection] at hanchored ⊢
          exact hanchored
      | deviceToHost =>
          simp only [hdirection] at hanchored ⊢
          exact holds_pollTx hanchored hactive rfl nowMs

theorem holds_abort (h : Holds C d) (transferId : UInt32) : Holds C (abort d transferId).2 := by
  rw [Transfer.abort]
  split_ifs with hactive
  · exact h.abort_running hactive.1 (by simp)
  · exact h
  · exact h

/-- What a successful `begin_common` did. -/
theorem beginCommon_ok {size : UInt64} {direction : Direction} {endpoint : TransferEndpoint W}
    {options : TransferOptions} {info : TransferInfo}
    (h : (beginCommon d size direction endpoint options).1 = .ok info) :
    ∃ begin world, endpoint.begin = some begin ∧ begin d.world direction size = (.ok, world) ∧
      info = currentInfo (startTransfer d.manager size direction endpoint options) ∧
      (beginCommon d size direction endpoint options).2 =
        { manager := startTransfer d.manager size direction endpoint options
          world := world } := by
  unfold beginCommon at h ⊢
  split_ifs at h ⊢
  cases hbegin : endpoint.begin with
  | none => simp [hbegin] at h
  | some begin =>
      rcases hresult : begin d.world direction size with ⟨result, world⟩
      cases result with
      | failed => simp [hbegin, hresult] at h
      | ok =>
          simp only [hbegin, hresult, ne_eq, not_true_eq_false, if_false, Except.ok.injEq] at h ⊢
          exact ⟨begin, world, rfl, hresult, h.symm, rfl⟩

theorem positioned_startTransfer (m : TransferManager W) {size : UInt64} (direction : Direction)
    (endpoint : TransferEndpoint W) (options : TransferOptions)
    (hsize : ¬ (size = 0 ∨ size > kMaxTransferBytes)) :
    Positioned (progressOf (startTransfer m size direction endpoint options)) := by
  obtain ⟨hzero, hmax⟩ := not_or.mp hsize
  have hpos : 0 < size.toNat :=
    Nat.pos_of_ne_zero fun heq => hzero (UInt64.toNat_inj.mp heq)
  refine
    { id_ne_zero := ?_
      offset_eq := rfl
      room := hpos
      bounded := UInt64.le_iff_toNat_le.mp (UInt64.not_lt.mp hmax)
      numbered := fun _ => rfl }
  simp only [progressOf, startTransfer]
  split_ifs with hid
  · decide
  · exact hid

/-- A begin whose callback leaves the world in the phase its result promises. -/
theorem holds_beginCommon_of (h : Holds C d) {size : UInt64} {direction : Direction}
    {endpoint : TransferEndpoint W} {options : TransferOptions}
    (hok : ∀ begin world, d.manager.active = false → endpoint.begin = some begin →
      begin d.world direction size = (.ok, world) → endpoint.usable direction = true →
      Positioned (progressOf (startTransfer d.manager size direction endpoint options)) →
      C.Running (progressOf (startTransfer d.manager size direction endpoint options)) world)
    (hfailed : ∀ begin world, d.manager.active = false → endpoint.begin = some begin →
      begin d.world direction size = (.failed, world) →
      C.Idle (currentInfo d.manager) d.manager.finalAckReplay world) :
    Holds C (beginCommon d size direction endpoint options).2 := by
  rw [beginCommon]
  split_ifs with husable hsupported hbusy hsize
  · exact h
  · exact h
  · exact h
  · exact h
  · have hidle : d.manager.active = false := by simpa using hbusy
    cases hbegin : endpoint.begin with
    | none => exact h
    | some begin =>
        simp only
        rcases hresult : begin d.world direction size with ⟨result, world⟩
        cases result with
        | failed =>
            exact ⟨h.output, fun hactive => by simp [hidle] at hactive, fun _ =>
              hfailed begin world hidle hbegin hresult⟩
        | ok =>
            have husable' : endpoint.usable direction = true := by simpa using husable
            have hpositioned : Positioned (progressOf
                (startTransfer d.manager size direction endpoint options)) :=
              positioned_startTransfer d.manager direction endpoint options hsize
            refine Attached.holds (d := ⟨startTransfer d.manager size direction endpoint options,
                world⟩)
              ⟨h.output, rfl, ⟨husable', rfl, rfl, rfl, rfl, rfl⟩⟩ ?_ hpositioned ?_
            · exact
                { receiving := fun _ => rfl
                  ready_eq := rfl
                  pending := fun _ => rfl
                  sequence_eq := fun _ => rfl
                  offset_eq := fun _ => rfl
                  length_eq := fun hsent => by simp [startTransfer] at hsent
                  payload := fun hsent => by simp [startTransfer] at hsent
                  retries := fun hsent => by simp [startTransfer] at hsent }
            · exact hok begin world hidle hbegin hresult husable' hpositioned

theorem holds_beginCommon (h : Holds C d) (size : UInt64) (direction : Direction)
    {endpoint : TransferEndpoint W} (hadmissible : C.Admissible endpoint)
    (options : TransferOptions) : Holds C (beginCommon d size direction endpoint options).2 := by
  refine holds_beginCommon_of h ?_ ?_
  · intro begin world hidle hbegin hresult husable hpositioned
    exact C.begin_ok (p := progressOf (startTransfer d.manager size direction endpoint options))
      hadmissible hbegin husable hpositioned rfl rfl rfl (h.inactive hidle) hresult
  · intro begin world hidle hbegin hresult
    exact C.begin_failed hadmissible hbegin (h.inactive hidle) hresult

end Preservation

/-- What an operation may bring from outside: endpoints the contract admits and
frames it expects. -/
def Allowed : Operation W → Prop
  | .beginRx _ endpoint _ => C.Admissible endpoint
  | .beginTx _ endpoint => C.Admissible endpoint
  | .handleDecodedFrame decoded _ =>
      ∀ frame, parseDecoded decoded = some frame → frame.crcValid = true → C.Incoming frame
  | .abort _ | .getStatus _ | .poll _ => True

theorem perform_preserves {d : Device W} (h : Holds C d) {op : Operation W}
    (hallowed : Allowed C op) : Holds C (perform d op) := by
  cases op with
  | beginRx size endpoint options => exact holds_beginCommon h size _ hallowed options
  | beginTx size endpoint => exact holds_beginCommon h size _ hallowed _
  | abort transferId => exact holds_abort h transferId
  | getStatus transferId => exact h
  | poll nowMs => exact holds_poll h nowMs
  | handleDecodedFrame decoded nowMs => exact holds_handleDecodedFrame h hallowed nowMs

/-- A sequence of operations. -/
def performAll (d : Device W) (ops : List (Operation W)) : Device W :=
  ops.foldl perform d

theorem performAll_preserves {d : Device W} (h : Holds C d) {ops : List (Operation W)}
    (hallowed : ∀ op ∈ ops, Allowed C op) : Holds C (performAll d ops) := by
  induction ops generalizing d with
  | nil => exact h
  | cons op ops ih =>
      exact ih (perform_preserves C h (hallowed op (by simp)))
        fun next hnext => hallowed next (by simp [hnext])

theorem holds_init (nextTransferId : UInt32) {w : W} (hidle : C.Idle {} {} w) :
    Holds C { manager := init nextTransferId C.sink, world := w } :=
  ⟨rfl, fun hactive => by simp [init] at hactive, fun _ => hidle⟩

end EspNp2.BinaryDataPlane.TransferContract
