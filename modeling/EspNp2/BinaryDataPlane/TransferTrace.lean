import EspNp2.BinaryDataPlane.TransferContract
import EspNp2.Library.LabelledRun
import Mathlib.Data.List.TakeWhile

/-!
The observable life of a transfer manager: the calls it makes to endpoints and to
the machine output, in order. `Step` is the life cycle these calls must follow;
`traced_run` says that they do, whatever the endpoints and the output answer.
-/

namespace EspNp2.BinaryDataPlane.TransferTrace

open EspNp2.Library.LabelledRun
open EspNp2.BinaryDataPlane.BinaryCodec
open EspNp2.BinaryDataPlane.FrameRoundTrip
open EspNp2.BinaryDataPlane.Transfer
open EspNp2.BinaryDataPlane.TransferContract

variable {W : Type}

/-- One call out of the manager, with what came back. Endpoint callbacks carry
the context pointer they were called with. -/
inductive Event where
  | begin (context : Option Nat) (direction : Direction) (size : UInt64) (result : EndpointResult)
  | consume (context : Option Nat) (offset : UInt64) (bytes : List UInt8)
      (result : EndpointResult)
  | produce (context : Option Nat) (offset : UInt64) (requested : Nat) (result : EndpointResult)
      (bytes : List UInt8)
  | finish (context : Option Nat) (result : EndpointResult)
  | abort (context : Option Nat) (reason : TerminalReason)
  | terminal (context : Option Nat) (info : TransferInfo) (reason : TerminalReason)
  | write (wire : List UInt8) (written : Bool)
deriving DecidableEq, Repr

/-- A world with the calls made on it so far. -/
structure Traced (W : Type) where
  world : W
  events : List Event

def Traced.record (w : Traced W) (world : W) (event : Event) : Traced W :=
  { world := world, events := w.events ++ [event] }

def tracedSink (output : OutputSink W) : OutputSink (Traced W) :=
  { write := output.write.map fun write w wire =>
      let (written, world) := write w.world wire
      (written, w.record world (.write wire written)) }

def tracedEndpoint (endpoint : TransferEndpoint W) : TransferEndpoint (Traced W) :=
  { context := endpoint.context
    begin := endpoint.begin.map fun begin w direction size =>
      let (result, world) := begin w.world direction size
      (result, w.record world (.begin endpoint.context direction size result))
    consume := endpoint.consume.map fun consume w offset bytes =>
      let (result, world) := consume w.world offset bytes
      (result, w.record world (.consume endpoint.context offset bytes result))
    produce := endpoint.produce.map fun produce w offset requested =>
      let ((result, bytes), world) := produce w.world offset requested
      ((result, bytes), w.record world (.produce endpoint.context offset requested result bytes))
    finish := endpoint.finish.map fun finish w =>
      let (result, world) := finish w.world
      (result, w.record world (.finish endpoint.context result))
    abort := endpoint.abort.map fun abort w reason =>
      w.record (abort w.world reason) (.abort endpoint.context reason)
    terminal := endpoint.terminal.map fun terminal w info reason =>
      w.record (terminal w.world info reason) (.terminal endpoint.context info reason) }

def tracedOperation : Operation W → Operation (Traced W)
  | .beginRx size endpoint options => .beginRx size (tracedEndpoint endpoint) options
  | .beginTx size endpoint => .beginTx size (tracedEndpoint endpoint)
  | .abort transferId => .abort transferId
  | .getStatus transferId => .getStatus transferId
  | .poll nowMs => .poll nowMs
  | .handleDecodedFrame decoded nowMs => .handleDecodedFrame decoded nowMs

/-- A manager that was initialised once and then operated on. -/
def tracedRun (nextTransferId : UInt32) (output : OutputSink W) (world : W)
    (ops : List (Operation W)) : Device (Traced W) :=
  performAll
    { manager := init nextTransferId (tracedSink output)
      world := { world := world, events := [] } }
    (ops.map tracedOperation)

/-- A wire form that carries a DATA frame. -/
def isDataWire (wire : List UInt8) : Bool :=
  (wireFrame wire).any fun frame => frame.type = .data

/-- The DATA frame number `index` of a sender. -/
def dataWire (transferId : UInt32) (index : Nat) (payload : List UInt8) : List UInt8 :=
  frameWire .data transferId (UInt32.ofNat index) (UInt64.ofNat (kMaxPayloadBytes * index)) 0
    payload

/-- How far the current transfer has come. A receiver is known by the bytes it
consumed; a sender by the payloads it produced, each with its transmissions. -/
inductive Phase where
  | idle
  | receiving (context : Option Nat) (size consumed : Nat)
  | sending (context : Option Nat) (transferId : UInt32) (size : Nat)
      (frames : List (List UInt8 × Nat))
  | failing (context : Option Nat) (size : Nat)
  | aborted (context : Option Nat) (size : Nat)
  | finished (context : Option Nat) (size : Nat)

def payloadBytes (frames : List (List UInt8 × Nat)) : Nat :=
  (frames.map fun frame => frame.1.length).sum

inductive Step : Phase → Event → Phase → Prop
  | beginRx {context size} :
      Step .idle (.begin context .hostToDevice size .ok) (.receiving context size.toNat 0)
  | beginTx {context size} (transferId : UInt32) (hid : transferId ≠ 0)
      (hbound : size.toNat ≤ kMaxTransferBytes.toNat) :
      Step .idle (.begin context .deviceToHost size .ok) (.sending context transferId size.toNat [])
  | beginFailed {context direction size} :
      Step .idle (.begin context direction size .failed) .idle
  | consume {context size consumed offset bytes} (hoffset : offset.toNat = consumed)
      (hnonempty : 0 < bytes.length) (hfits : consumed + bytes.length ≤ size) :
      Step (.receiving context size consumed) (.consume context offset bytes .ok)
        (.receiving context size (consumed + bytes.length))
  | consumeFailed {context size consumed offset bytes} (hoffset : offset.toNat = consumed)
      (hnonempty : 0 < bytes.length) (hfits : consumed + bytes.length ≤ size) :
      Step (.receiving context size consumed) (.consume context offset bytes .failed)
        (.failing context size)
  | produce {context transferId size frames offset bytes}
      (hoffset : offset.toNat = kMaxPayloadBytes * frames.length)
      (hnonempty : 0 < bytes.length) (hlength : bytes.length ≤ kMaxPayloadBytes)
      (hfits : offset.toNat + bytes.length ≤ size)
      (hlast : bytes.length < kMaxPayloadBytes → offset.toNat + bytes.length = size) :
      Step (.sending context transferId size frames)
        (.produce context offset bytes.length .ok bytes)
        (.sending context transferId size (frames ++ [(bytes, 0)]))
  | produceFailed {context transferId size frames offset requested result bytes}
      (hoffset : offset.toNat = kMaxPayloadBytes * frames.length)
      (hfailed : result ≠ .ok ∨ bytes.length ≠ requested) :
      Step (.sending context transferId size frames)
        (.produce context offset requested result bytes) (.failing context size)
  | send {context transferId size frames bytes count} (hcount : count ≤ kMaxRetransmissions.toNat) :
      Step (.sending context transferId size (frames ++ [(bytes, count)]))
        (.write (dataWire transferId frames.length bytes) true)
        (.sending context transferId size (frames ++ [(bytes, count + 1)]))
  | sendFailed {context transferId size frames bytes count}
      (hcount : count ≤ kMaxRetransmissions.toNat) :
      Step (.sending context transferId size (frames ++ [(bytes, count)]))
        (.write (dataWire transferId frames.length bytes) false) (.failing context size)
  | controlRx {context size consumed wire} (hcontrol : isDataWire wire = false) :
      Step (.receiving context size consumed) (.write wire true)
        (.receiving context size consumed)
  | controlRxFailed {context size consumed wire} (hcontrol : isDataWire wire = false) :
      Step (.receiving context size consumed) (.write wire false) (.failing context size)
  | controlTx {context transferId size frames wire} (hcontrol : isDataWire wire = false) :
      Step (.sending context transferId size frames) (.write wire true)
        (.sending context transferId size frames)
  | controlTxFailed {context transferId size frames wire} (hcontrol : isDataWire wire = false) :
      Step (.sending context transferId size frames) (.write wire false) (.failing context size)
  | finishRx {context size} :
      Step (.receiving context size size) (.finish context .ok) (.finished context size)
  | finishRxFailed {context size} :
      Step (.receiving context size size) (.finish context .failed) (.failing context size)
  | finishTx {context transferId size frames} (hfull : payloadBytes frames = size) :
      Step (.sending context transferId size frames) (.finish context .ok) (.finished context size)
  | finishTxFailed {context transferId size frames} (hfull : payloadBytes frames = size) :
      Step (.sending context transferId size frames) (.finish context .failed)
        (.failing context size)
  | abortRx {context size consumed reason} :
      Step (.receiving context size consumed) (.abort context reason) (.aborted context size)
  | abortTx {context transferId size frames reason} :
      Step (.sending context transferId size frames) (.abort context reason)
        (.aborted context size)
  | abortFailing {context size reason} :
      Step (.failing context size) (.abort context reason) (.aborted context size)
  | terminalAborted {context size info reason} (hstate : info.state = .aborted) :
      Step (.aborted context size) (.terminal context info reason) .idle
  | terminalFinished {context size info} (hstate : info.state = .completed)
      (htotal : info.totalBytes.toNat = size) (hfull : info.transferredBytes = info.totalBytes) :
      Step (.finished context size) (.terminal context info .completed) .idle
  | replay {wire written} (hcontrol : isDataWire wire = false) :
      Step .idle (.write wire written) .idle

/-- Every callback of the endpoint records itself. -/
structure Records (endpoint : TransferEndpoint (Traced W)) : Prop where
  begin : ∀ {begin w direction size result w'}, endpoint.begin = some begin →
    begin w direction size = (result, w') →
    w'.events = w.events ++ [.begin endpoint.context direction size result]
  consume : ∀ {consume w offset bytes result w'}, endpoint.consume = some consume →
    consume w offset bytes = (result, w') →
    w'.events = w.events ++ [.consume endpoint.context offset bytes result]
  produce : ∀ {produce w offset requested result bytes w'}, endpoint.produce = some produce →
    produce w offset requested = ((result, bytes), w') →
    w'.events = w.events ++ [.produce endpoint.context offset requested result bytes]
  finish : ∀ {finish w result w'}, endpoint.finish = some finish → finish w = (result, w') →
    w'.events = w.events ++ [.finish endpoint.context result]
  abort : ∀ {abort} w reason, endpoint.abort = some abort →
    (abort w reason).events = w.events ++ [.abort endpoint.context reason]
  terminal : ∀ {terminal} w info reason, endpoint.terminal = some terminal →
    (terminal w info reason).events = w.events ++ [.terminal endpoint.context info reason]

theorem records_tracedEndpoint (endpoint : TransferEndpoint W) :
    Records (tracedEndpoint endpoint) := by
  constructor
  · intro begin w direction size result w' hbegin hresult
    obtain ⟨plain, -, rfl⟩ := Option.map_eq_some_iff.mp hbegin
    obtain ⟨rfl, rfl⟩ := Prod.mk.inj hresult
    rfl
  · intro consume w offset bytes result w' hconsume hresult
    obtain ⟨plain, -, rfl⟩ := Option.map_eq_some_iff.mp hconsume
    obtain ⟨rfl, rfl⟩ := Prod.mk.inj hresult
    rfl
  · intro produce w offset requested result bytes w' hproduce hresult
    obtain ⟨plain, -, rfl⟩ := Option.map_eq_some_iff.mp hproduce
    obtain ⟨hpair, rfl⟩ := Prod.mk.inj hresult
    obtain ⟨rfl, rfl⟩ := Prod.mk.inj hpair
    rfl
  · intro finish w result w' hfinish hresult
    obtain ⟨plain, -, rfl⟩ := Option.map_eq_some_iff.mp hfinish
    obtain ⟨rfl, rfl⟩ := Prod.mk.inj hresult
    rfl
  · intro abort w reason habort
    obtain ⟨plain, -, rfl⟩ := Option.map_eq_some_iff.mp habort
    rfl
  · intro terminal w info reason hterminal
    obtain ⟨plain, -, rfl⟩ := Option.map_eq_some_iff.mp hterminal
    rfl

theorem tracedSink_records {output : OutputSink W} {write w wire written w'}
    (hwrite : (tracedSink output).write = some write) (hresult : write w wire = (written, w')) :
    w'.events = w.events ++ [.write wire written] := by
  obtain ⟨plain, -, rfl⟩ := Option.map_eq_some_iff.mp hwrite
  obtain ⟨rfl, rfl⟩ := Prod.mk.inj hresult
  rfl

/-- The life cycle has reached `phase` after these calls. -/
def Reaches (events : List Event) (phase : Phase) : Prop :=
  Run Step .idle events phase

/-- The phase a running transfer is in. The frames of a sender are those that were
acknowledged and the outstanding one. -/
def Matches (p : Progress (Traced W)) (phase : Phase) : Prop :=
  match p.direction with
  | .hostToDevice =>
      phase = .receiving p.endpoint.context p.totalBytes.toNat p.transferredBytes.toNat
  | .deviceToHost => ∃ sent : List (List UInt8 × Nat),
      phase = .sending p.endpoint.context p.transferId p.totalBytes.toNat
        (sent ++ p.outstanding.toList) ∧
      sent.length = p.expectedSequence.toNat ∧ payloadBytes sent = p.transferredBytes.toNat

theorem isDataWire_control (type : FrameType) {transferId : UInt32} (sequence : UInt32)
    (offset : UInt64) {status : UInt16} (hid : transferId ≠ 0) (htype : type ≠ .data)
    (hfields : hasValidTypeFields type status 0 = true) :
    isDataWire (frameWire type transferId sequence offset status []) = false := by
  rw [isDataWire, wireFrame_frameWire type sequence offset hid (by simp) hfields]
  simp [imageFrame, htype]

theorem isDataWire_of_emits {p : Progress W} (h : Positioned p) {wire : List UInt8}
    (hemits : EmitsControl p wire) : isDataWire wire = false := by
  rcases hemits.2 with rfl | ⟨reason, rfl⟩
  · exact isDataWire_control .ack _ _ h.id_ne_zero (by simp) rfl
  · exact isDataWire_control .nack _ _ h.id_ne_zero (by simp) (by cases reason <;> rfl)

/-- A sender's current DATA frame is the one its position names. -/
theorem dataWire_eq {p : Progress W} (h : Positioned p) (htx : p.direction = .deviceToHost)
    (payload : List UInt8) :
    p.dataWire payload = dataWire p.transferId p.expectedSequence.toNat payload := by
  have hoffset : p.expectedOffset =
      UInt64.ofNat (kMaxPayloadBytes * p.expectedSequence.toNat) := by
    rw [← h.numbered htx, ← h.offset_eq, UInt64.ofNat_toNat]
  rw [Progress.dataWire, dataWire, UInt32.ofNat_toNat, ← hoffset]

theorem payloadBytes_append (left right : List (List UInt8 × Nat)) :
    payloadBytes (left ++ right) = payloadBytes left + payloadBytes right := by
  simp [payloadBytes]

def terminalInfo : Event → Option TransferInfo
  | .terminal _ info _ => some info
  | _ => none

/-- The terminal record the endpoints were told last. -/
def lastInfo (events : List Event) : TransferInfo :=
  (events.filterMap terminalInfo).getLast?.getD {}

theorem lastInfo_snoc {event : Event} (h : terminalInfo event = none) (events : List Event) :
    lastInfo (events ++ [event]) = lastInfo events := by
  simp [lastInfo, h]

theorem lastInfo_terminal (events : List Event) (context : Option Nat) (info : TransferInfo)
    (reason : TerminalReason) : lastInfo (events ++ [.terminal context info reason]) = info := by
  simp [lastInfo, terminalInfo]

section Phases

variable {p : Progress (Traced W)} {w w' : Traced W}

/-- The phases of the contract that the trace of calls is judged by. -/
def Running (p : Progress (Traced W)) (w : Traced W) : Prop :=
  Records p.endpoint ∧ ∃ phase, Reaches w.events phase ∧ Matches p phase

def Failing (p : Progress (Traced W)) (w : Traced W) : Prop :=
  Records p.endpoint ∧ ∃ phase, Reaches w.events phase ∧
    ∀ reason, Step phase (.abort p.endpoint.context reason)
      (.aborted p.endpoint.context p.totalBytes.toNat)

def Aborted (p : Progress (Traced W)) (w : Traced W) : Prop :=
  Records p.endpoint ∧ Reaches w.events (.aborted p.endpoint.context p.totalBytes.toNat)

def Finished (p : Progress (Traced W)) (w : Traced W) : Prop :=
  Records p.endpoint ∧ Reaches w.events (.finished p.endpoint.context p.totalBytes.toNat)

def Idle (info : TransferInfo) (w : Traced W) : Prop :=
  Reaches w.events .idle ∧ lastInfo w.events = info

theorem Reaches.snoc {events : List Event} {phase next : Phase} {event : Event}
    (h : Reaches events phase) (hstep : Step phase event next) :
    Reaches (events ++ [event]) next :=
  Run.snoc h hstep

theorem matches_rx (hrx : p.direction = .hostToDevice) {phase : Phase} :
    Matches p phase ↔
      phase = .receiving p.endpoint.context p.totalBytes.toNat p.transferredBytes.toNat := by
  simp only [Matches, hrx]

theorem matches_tx (htx : p.direction = .deviceToHost) {phase : Phase} :
    Matches p phase ↔ ∃ sent : List (List UInt8 × Nat),
      phase = .sending p.endpoint.context p.transferId p.totalBytes.toNat
        (sent ++ p.outstanding.toList) ∧
      sent.length = p.expectedSequence.toNat ∧
      payloadBytes sent = p.transferredBytes.toNat := by
  simp only [Matches, htx]

theorem Running.fail (h : Running p w) : Failing p w := by
  obtain ⟨hrecords, phase, hreaches, hmatches⟩ := h
  refine ⟨hrecords, phase, hreaches, fun reason => ?_⟩
  cases hdirection : p.direction with
  | hostToDevice =>
      obtain rfl := (matches_rx hdirection).mp hmatches
      exact .abortRx
  | deviceToHost =>
      obtain ⟨sent, rfl, -⟩ := (matches_tx hdirection).mp hmatches
      exact .abortTx

/-- A call after which the endpoint is to be aborted. -/
theorem failing_of_step (hrecords : Records p.endpoint) {phase : Phase} {event : Event}
    (hreaches : Reaches w.events phase) (hevents : w'.events = w.events ++ [event])
    (hstep : Step phase event (.failing p.endpoint.context p.totalBytes.toNat)) :
    Failing p w' := by
  refine ⟨hrecords, _, ?_, fun _ => .abortFailing⟩
  rw [hevents]
  exact hreaches.snoc hstep

theorem running_of_step (hrecords : Records p.endpoint) {phase next : Phase} {event : Event}
    (hreaches : Reaches w.events phase) (hevents : w'.events = w.events ++ [event])
    (hstep : Step phase event next) (hmatches : Matches p next) : Running p w' := by
  refine ⟨hrecords, next, ?_, hmatches⟩
  rw [hevents]
  exact hreaches.snoc hstep

theorem running_begin (hrecords : Records p.endpoint) {begin info}
    (hbegin : p.endpoint.begin = some begin) (hpositioned : Positioned p)
    (hzero : p.transferredBytes = 0) (hsequence : p.expectedSequence = 0)
    (hnone : p.outstanding = none) (hidle : Idle info w)
    (hresult : begin w p.direction p.totalBytes = (.ok, w')) : Running p w' := by
  have hevents := hrecords.begin hbegin hresult
  cases hdirection : p.direction with
  | hostToDevice =>
      rw [hdirection] at hevents
      refine running_of_step hrecords hidle.1 hevents .beginRx ((matches_rx hdirection).mpr ?_)
      rw [hzero, UInt64.toNat_zero]
  | deviceToHost =>
      rw [hdirection] at hevents
      refine running_of_step hrecords hidle.1 hevents
        (.beginTx p.transferId hpositioned.id_ne_zero hpositioned.bounded)
        ((matches_tx hdirection).mpr ⟨[], ?_, ?_, ?_⟩)
      · simp [hnone]
      · simp [hsequence]
      · simp [payloadBytes, hzero]

theorem running_consume {consume frame} (hrx : p.direction = .hostToDevice)
    (hconsume : p.endpoint.consume = some consume) (h : Running p w) (hpositioned : Positioned p)
    (hframe : Acceptable p frame)
    (hresult : consume w frame.offset frame.payload = (.ok, w')) :
    Running (p.advance frame.payloadLength) w' := by
  obtain ⟨hrecords, phase, hreaches, hmatches⟩ := h
  obtain rfl := (matches_rx hrx).mp hmatches
  have hadd : (p.transferredBytes + frame.payloadLength.toUInt64).toNat =
      p.transferredBytes.toNat + frame.payload.length := by
    rw [toNat_advance (by rw [hframe.payloadLength]; exact hframe.fits), hframe.payloadLength]
  refine running_of_step (p := p.advance frame.payloadLength) hrecords hreaches
    (hrecords.consume hconsume hresult)
    (.consume (by rw [hframe.offset, hpositioned.offset_eq]) hframe.nonempty hframe.fits)
    ((matches_rx (p := p.advance frame.payloadLength) hrx).mpr ?_)
  simp only [Progress.advance, hadd]

theorem failing_consume {consume frame} (hrx : p.direction = .hostToDevice)
    (hconsume : p.endpoint.consume = some consume) (h : Running p w) (hpositioned : Positioned p)
    (hframe : Acceptable p frame)
    (hresult : consume w frame.offset frame.payload = (.failed, w')) : Failing p w' := by
  obtain ⟨hrecords, phase, hreaches, hmatches⟩ := h
  obtain rfl := (matches_rx hrx).mp hmatches
  exact failing_of_step hrecords hreaches (hrecords.consume hconsume hresult)
    (.consumeFailed (by rw [hframe.offset, hpositioned.offset_eq]) hframe.nonempty hframe.fits)

theorem running_produce {produce bytes} (htx : p.direction = .deviceToHost)
    (hproduce : p.endpoint.produce = some produce) (hnone : p.outstanding = none)
    (h : Running p w) (hpositioned : Positioned p)
    (hresult : produce w p.expectedOffset p.chunk = ((.ok, bytes), w'))
    (hlength : bytes.length = p.chunk) :
    Running (p.withOutstanding (some (bytes, 0))) w' := by
  obtain ⟨hrecords, phase, hreaches, hmatches⟩ := h
  obtain ⟨sent, rfl, hsent, hbytes⟩ := (matches_tx htx).mp hmatches
  have hevents := hrecords.produce hproduce hresult
  rw [← hlength] at hevents
  simp only [hnone, Option.toList_none, List.append_nil] at hreaches
  have hnumbered := hpositioned.numbered htx
  have hroom := hpositioned.room
  have hpos := hpositioned.chunk_pos
  have hchunk : p.chunk =
      min kMaxPayloadBytes (p.totalBytes.toNat - p.transferredBytes.toNat) := rfl
  have hoffset : p.expectedOffset.toNat = p.transferredBytes.toNat := by
    rw [hpositioned.offset_eq]
  refine running_of_step (p := p.withOutstanding (some (bytes, 0))) hrecords hreaches hevents
    (.produce ?_ ?_ ?_ ?_ ?_) ((matches_tx (p := p.withOutstanding (some (bytes, 0))) htx).mpr
      ⟨sent, rfl, hsent, hbytes⟩)
  · rw [hoffset, hnumbered, hsent]
  · omega
  · omega
  · omega
  · omega

theorem failing_produce {produce result bytes} (htx : p.direction = .deviceToHost)
    (hproduce : p.endpoint.produce = some produce) (hnone : p.outstanding = none)
    (h : Running p w) (hpositioned : Positioned p)
    (hresult : produce w p.expectedOffset p.chunk = ((result, bytes), w'))
    (hfailed : result ≠ .ok ∨ bytes.length ≠ p.chunk) : Failing p w' := by
  obtain ⟨hrecords, phase, hreaches, hmatches⟩ := h
  obtain ⟨sent, rfl, hsent, hbytes⟩ := (matches_tx htx).mp hmatches
  simp only [hnone, Option.toList_none, List.append_nil] at hreaches
  refine failing_of_step hrecords hreaches (hrecords.produce hproduce hresult)
    (.produceFailed ?_ hfailed)
  rw [hpositioned.offset_eq, hpositioned.numbered htx, hsent]

theorem running_send {output : OutputSink W} {write bytes count}
    (hwrite : (tracedSink output).write = some write) (htx : p.direction = .deviceToHost)
    (hsome : p.outstanding = some (bytes, count)) (hcount : count ≤ kMaxRetransmissions.toNat)
    (h : Running p w) (hpositioned : Positioned p)
    (hresult : write w (p.dataWire bytes) = (true, w')) :
    Running (p.withOutstanding (some (bytes, count + 1))) w' := by
  obtain ⟨hrecords, phase, hreaches, hmatches⟩ := h
  obtain ⟨sent, rfl, hsent, hbytes⟩ := (matches_tx htx).mp hmatches
  have hevents := tracedSink_records hwrite hresult
  rw [dataWire_eq hpositioned htx, ← hsent] at hevents
  simp only [hsome, Option.toList_some] at hreaches
  exact running_of_step (p := p.withOutstanding (some (bytes, count + 1))) hrecords hreaches
    hevents (.send hcount) ((matches_tx (p := p.withOutstanding (some (bytes, count + 1)))
      htx).mpr ⟨sent, rfl, hsent, hbytes⟩)

theorem failing_send {output : OutputSink W} {write bytes count}
    (hwrite : (tracedSink output).write = some write) (htx : p.direction = .deviceToHost)
    (hsome : p.outstanding = some (bytes, count)) (hcount : count ≤ kMaxRetransmissions.toNat)
    (h : Running p w) (hpositioned : Positioned p)
    (hresult : write w (p.dataWire bytes) = (false, w')) : Failing p w' := by
  obtain ⟨hrecords, phase, hreaches, hmatches⟩ := h
  obtain ⟨sent, rfl, hsent, hbytes⟩ := (matches_tx htx).mp hmatches
  have hevents := tracedSink_records hwrite hresult
  rw [dataWire_eq hpositioned htx, ← hsent] at hevents
  simp only [hsome, Option.toList_some] at hreaches
  exact failing_of_step hrecords hreaches hevents (.sendFailed hcount)

theorem running_acknowledge {bytes count} (htx : p.direction = .deviceToHost)
    (hsome : p.outstanding = some (bytes, count)) (hlength : bytes.length = p.chunk)
    (h : Running p w) (hpositioned : Positioned p) :
    Running (p.advance (UInt16.ofNat bytes.length)) w := by
  obtain ⟨hrecords, phase, hreaches, hmatches⟩ := h
  obtain ⟨sent, rfl, hsent, hbytes⟩ := (matches_tx htx).mp hmatches
  have hadd := toNat_advance (chunk_fits hpositioned hlength)
  rw [toNat_ofNat_chunk hlength] at hadd
  refine ⟨hrecords, _, hreaches, (matches_tx (p := p.advance (UInt16.ofNat bytes.length))
    htx).mpr ⟨sent ++ [(bytes, count)], ?_, ?_, ?_⟩⟩
  · simp [Progress.advance, hsome]
  · simp only [Progress.advance, hpositioned.toNat_expectedSequence htx,
      List.length_append, List.length_singleton, hsent]
  · rw [payloadBytes_append, hbytes]
    simp only [Progress.advance, hadd]
    simp [payloadBytes]

theorem finished_of_finish {finish} (hfinish : p.endpoint.finish = some finish)
    (hfull : p.transferredBytes = p.totalBytes) (hnone : p.outstanding = none)
    (h : Running p w) (hresult : finish w = (.ok, w')) : Finished p w' := by
  obtain ⟨hrecords, phase, hreaches, hmatches⟩ := h
  refine ⟨hrecords, ?_⟩
  rw [hrecords.finish hfinish hresult]
  cases hdirection : p.direction with
  | hostToDevice =>
      obtain rfl := (matches_rx hdirection).mp hmatches
      rw [hfull] at hreaches
      exact hreaches.snoc .finishRx
  | deviceToHost =>
      obtain ⟨sent, rfl, -, hbytes⟩ := (matches_tx hdirection).mp hmatches
      simp only [hnone, Option.toList_none, List.append_nil] at hreaches
      rw [hfull] at hbytes
      exact hreaches.snoc (.finishTx hbytes)

theorem failing_finish {finish} (hfinish : p.endpoint.finish = some finish)
    (hfull : p.transferredBytes = p.totalBytes) (hnone : p.outstanding = none)
    (h : Running p w) (hresult : finish w = (.failed, w')) : Failing p w' := by
  obtain ⟨hrecords, phase, hreaches, hmatches⟩ := h
  have hevents := hrecords.finish hfinish hresult
  cases hdirection : p.direction with
  | hostToDevice =>
      obtain rfl := (matches_rx hdirection).mp hmatches
      rw [hfull] at hreaches
      exact failing_of_step hrecords hreaches hevents .finishRxFailed
  | deviceToHost =>
      obtain ⟨sent, rfl, -, hbytes⟩ := (matches_tx hdirection).mp hmatches
      simp only [hnone, Option.toList_none, List.append_nil] at hreaches
      rw [hfull] at hbytes
      exact failing_of_step hrecords hreaches hevents (.finishTxFailed hbytes)

theorem running_control {output : OutputSink W} {write wire}
    (hwrite : (tracedSink output).write = some write) (h : Running p w)
    (hpositioned : Positioned p) (hemits : EmitsControl p wire)
    (hresult : write w wire = (true, w')) : Running p w' := by
  obtain ⟨hrecords, phase, hreaches, hmatches⟩ := h
  have hevents := tracedSink_records hwrite hresult
  have hcontrol := isDataWire_of_emits hpositioned hemits
  refine running_of_step hrecords hreaches hevents ?_ hmatches
  cases hdirection : p.direction with
  | hostToDevice =>
      obtain rfl := (matches_rx hdirection).mp hmatches
      exact .controlRx hcontrol
  | deviceToHost =>
      obtain ⟨sent, rfl, -⟩ := (matches_tx hdirection).mp hmatches
      exact .controlTx hcontrol

theorem failing_control {output : OutputSink W} {write wire}
    (hwrite : (tracedSink output).write = some write) (h : Running p w)
    (hpositioned : Positioned p) (hemits : EmitsControl p wire)
    (hresult : write w wire = (false, w')) : Failing p w' := by
  obtain ⟨hrecords, phase, hreaches, hmatches⟩ := h
  have hevents := tracedSink_records hwrite hresult
  have hcontrol := isDataWire_of_emits hpositioned hemits
  refine failing_of_step hrecords hreaches hevents ?_
  cases hdirection : p.direction with
  | hostToDevice =>
      obtain rfl := (matches_rx hdirection).mp hmatches
      exact .controlRxFailed hcontrol
  | deviceToHost =>
      obtain ⟨sent, rfl, -⟩ := (matches_tx hdirection).mp hmatches
      exact .controlTxFailed hcontrol

theorem aborted_of_abort {abort} (reason : TerminalReason)
    (habort : p.endpoint.abort = some abort) (h : Failing p w) :
    Aborted p (abort w reason) := by
  obtain ⟨hrecords, phase, hreaches, hstep⟩ := h
  refine ⟨hrecords, ?_⟩
  rw [hrecords.abort w reason habort]
  exact hreaches.snoc (hstep reason)

theorem idle_of_aborted {terminal info} (reason : TerminalReason)
    (hterminal : p.endpoint.terminal = some terminal) (h : Aborted p w)
    (hreports : Reports p .aborted info) : Idle info (terminal w info reason) := by
  rw [Idle, h.1.terminal w info reason hterminal]
  exact ⟨h.2.snoc (.terminalAborted hreports.state), lastInfo_terminal _ _ _ _⟩

theorem idle_of_finished {terminal info} (hterminal : p.endpoint.terminal = some terminal)
    (hfull : p.transferredBytes = p.totalBytes) (h : Finished p w)
    (hreports : Reports p .completed info) : Idle info (terminal w info .completed) := by
  rw [Idle, h.1.terminal w info .completed hterminal]
  refine ⟨h.2.snoc (.terminalFinished hreports.state ?_ ?_), lastInfo_terminal _ _ _ _⟩
  · rw [hreports.totalBytes]
  · rw [hreports.totalBytes, hreports.transferredBytes, hfull]

end Phases

/-- The trace of calls as a contract: it makes no assumption on the frames that
come in. -/
def traceContract (output : OutputSink W) : Contract (Traced W) where
  sink := tracedSink output
  Admissible := Records
  Incoming _ := True
  Running := Running
  Failing := Failing
  Aborted := Aborted
  Finished := Finished
  Idle info _ := Idle info
  begin_ok hadmissible hbegin _ hpositioned hzero hsequence hnone hidle hresult :=
    running_begin hadmissible hbegin hpositioned hzero hsequence hnone hidle hresult
  begin_failed hadmissible hbegin hidle hresult := by
    rw [Idle, hadmissible.begin hbegin hresult]
    exact ⟨hidle.1.snoc .beginFailed, (lastInfo_snoc rfl _).trans hidle.2⟩
  consume_ok hrx hconsume hrunning hpositioned _ hframe hresult :=
    running_consume hrx hconsume hrunning hpositioned hframe hresult
  consume_failed hrx hconsume hrunning hpositioned _ hframe hresult :=
    failing_consume hrx hconsume hrunning hpositioned hframe hresult
  produce_ok := running_produce
  produce_failed := failing_produce
  send_ok hwrite htx hsome _ hcount hrunning hpositioned hresult :=
    running_send hwrite htx hsome hcount hrunning hpositioned hresult
  send_failed hwrite htx hsome _ hcount hrunning hpositioned hresult :=
    failing_send hwrite htx hsome hcount hrunning hpositioned hresult
  acknowledge := running_acknowledge
  finish_ok := finished_of_finish
  finish_failed := failing_finish
  write_ok := running_control
  write_failed := failing_control
  fail := fun h _ => Running.fail h
  abort := aborted_of_abort
  terminal_aborted reason hterminal haborted hreports _ _ :=
    idle_of_aborted reason hterminal haborted hreports
  terminal_finished hterminal hfull hfinished hreports _ :=
    idle_of_finished hterminal hfull hfinished hreports
  replay hwrite hidle _ hid hresult := by
    rw [Idle, tracedSink_records hwrite hresult]
    exact ⟨hidle.1.snoc (.replay (isDataWire_control .ack _ _ hid (by simp) rfl)),
      (lastInfo_snoc rfl _).trans hidle.2⟩

theorem allowed_tracedOperation (output : OutputSink W) (op : Operation W) :
    Allowed (traceContract output) (tracedOperation op) := by
  cases op with
  | beginRx size endpoint options => exact records_tracedEndpoint endpoint
  | beginTx size endpoint => exact records_tracedEndpoint endpoint
  | abort transferId => trivial
  | getStatus transferId => trivial
  | poll nowMs => trivial
  | handleDecodedFrame decoded nowMs => exact fun _ _ _ => trivial

/-- Every run of a manager follows the life cycle. -/
theorem traced_run (nextTransferId : UInt32) (output : OutputSink W) (world : W)
    (ops : List (Operation W)) :
    Holds (traceContract output) (tracedRun nextTransferId output world ops) := by
  have hstart : Idle {} ({ world := world, events := [] } : Traced W) := ⟨.nil _, rfl⟩
  refine performAll_preserves _ (holds_init (traceContract output) nextTransferId hstart) ?_
  intro op hop
  obtain ⟨plain, -, rfl⟩ := List.mem_map.mp hop
  exact allowed_tracedOperation output plain

/-- The calls a running transfer makes to its endpoint. -/
def isCallback : Event → Bool
  | .begin .. | .write .. => false
  | .consume .. | .produce .. | .finish .. | .abort .. | .terminal .. => true

/-- The context a callback was made with. -/
def calledOn : Event → Option Nat
  | .begin context .. | .consume context .. | .produce context .. | .finish context _
  | .abort context _ | .terminal context .. => context
  | .write .. => none

def startsTransfer : Event → Bool
  | .begin _ _ _ .ok => true
  | _ => false

/-- The calls up to the next transfer that starts. -/
def session (after : List Event) : List Event :=
  after.takeWhile fun event => !startsTransfer event

theorem session_append_dropWhile (after : List Event) :
    after = session after ++ after.dropWhile fun event => !startsTransfer event :=
  List.takeWhile_append_dropWhile.symm

theorem startsTransfer_of_mem_session {after : List Event} {event : Event}
    (h : event ∈ session after) : startsTransfer event = false := by
  simpa using List.mem_takeWhile_imp h

/-- Only an idle manager starts a transfer. -/
theorem idle_of_startsTransfer {phase next : Phase} {event : Event}
    (hstep : Step phase event next) (hstarts : startsTransfer event = true) : phase = .idle := by
  cases hstep <;> simp_all [startsTransfer]

/-- The life cycle passes through the end of the session of every transfer. -/
theorem exists_session {before after : List Event} {event : Event} {last : Phase}
    (hreaches : Reaches (before ++ event :: after) last) (hstarts : startsTransfer event = true) :
    ∃ started phase, Step .idle event started ∧ Run Step started (session after) phase ∧
      (session after ≠ after → phase = .idle) ∧ (session after = after → phase = last) := by
  obtain ⟨first, -, hrest⟩ := run_append_iff.mp hreaches
  obtain ⟨started, hbegin, hafter⟩ := run_cons_iff.mp hrest
  obtain rfl := idle_of_startsTransfer hbegin hstarts
  rw [session_append_dropWhile after] at hafter
  obtain ⟨phase, hsession, htail⟩ := run_append_iff.mp hafter
  refine ⟨started, phase, hbegin, hsession, ?_, ?_⟩
  · intro hmore
    cases hdrop : after.dropWhile fun event => !startsTransfer event with
    | nil =>
        have hsame := session_append_dropWhile after
        rw [hdrop, List.append_nil] at hsame
        exact absurd hsame.symm hmore
    | cons next rest =>
        rw [hdrop] at htail
        obtain ⟨middle, hstep, -⟩ := run_cons_iff.mp htail
        have hnext := List.head?_dropWhile_not (fun event => !startsTransfer event) after
        rw [hdrop] at hnext
        exact idle_of_startsTransfer hstep (by simpa using hnext)
  · intro hsame
    have hnil : (after.dropWhile fun event => !startsTransfer event) = [] := by
      have happend := session_append_dropWhile after
      rw [hsame] at happend
      simpa using happend
    rw [hnil] at htail
    exact run_nil_iff.mp htail

end EspNp2.BinaryDataPlane.TransferTrace
