import EspNp2.HostUpload.UploadNetwork

/-!
The device's side of an upload: as long as only frames with handed-out payloads
reach it, it consumes them in order and announces frontiers it has consumed.
-/

namespace EspNp2.HostUpload.UploadReceiver

open EspNp2.BinaryDataPlane.BinaryCodec
open EspNp2.BinaryDataPlane.FrameRoundTrip
open EspNp2.BinaryDataPlane.Transfer
open EspNp2.BinaryDataPlane.TransferContract
open EspNp2.BinaryDataPlane.TransferTrace
open EspNp2.HostUpload.HostWire
open EspNp2.HostUpload.UploadClient
open EspNp2.HostUpload.UploadNetwork

variable {P W : Type}

def consumedPayload : Event → Option (List UInt8)
  | .consume _ _ bytes .ok => some bytes
  | _ => none

/-- The payloads the device endpoint has consumed, in order. -/
def consumedPayloads (events : List Event) : List (List UInt8) :=
  events.filterMap consumedPayload

/-- The wire offset in front of payload number `index`. -/
def frontier (handed : List (List UInt8)) (index : Nat) : Nat :=
  ((handed.take index).map List.length).sum

theorem frontier_succ {handed : List (List UInt8)} {index : Nat} {payload : List UInt8}
    (h : handed[index]? = some payload) :
    frontier handed (index + 1) = frontier handed index + payload.length := by
  obtain ⟨hlt, rfl⟩ := List.getElem?_eq_some_iff.mp h
  rw [frontier, frontier, List.take_succ_eq_append_getElem hlt, List.map_append, List.sum_append,
    List.map_singleton, List.sum_singleton]

theorem frontier_append (handed more : List (List UInt8)) {index : Nat}
    (h : index ≤ handed.length) : frontier (handed ++ more) index = frontier handed index := by
  rw [frontier, frontier, List.take_append_of_le_length h]

theorem frontier_mono (handed : List (List UInt8)) {first second : Nat} (h : first ≤ second) :
    frontier handed first ≤ frontier handed second := by
  obtain ⟨more, rfl⟩ := Nat.exists_eq_add_of_le h
  rw [frontier, frontier, List.take_add]
  simp

/-- Frontiers of nonempty payloads name their index. -/
theorem frontier_lt {handed : List (List UInt8)} {first second : Nat} (h : first < second)
    (hle : second ≤ handed.length) (hnonempty : ∀ payload ∈ handed.take second, payload ≠ []) :
    frontier handed first < frontier handed second := by
  have hlt : first < handed.length := by omega
  have hpayload : handed[first]? = some handed[first] := List.getElem?_eq_getElem hlt
  have hmem : handed[first] ∈ handed.take second := by
    rw [List.mem_take_iff_getElem]
    exact ⟨first, by omega, rfl⟩
  have hstep := frontier_succ hpayload
  have hmono := frontier_mono handed (show first + 1 ≤ second by omega)
  have hpos := List.length_pos_iff.mpr (hnonempty _ hmem)
  omega

theorem frontier_inj {handed : List (List UInt8)} {first second : Nat}
    (hfirst : first ≤ handed.length) (hsecond : second ≤ handed.length)
    (hnonempty : ∀ payload ∈ handed.take (max first second), payload ≠ [])
    (h : frontier handed first = frontier handed second) : first = second := by
  rcases Nat.lt_trichotomy first second with hlt | heq | hgt
  · rw [max_eq_right hlt.le] at hnonempty
    exact absurd h (frontier_lt hlt hsecond hnonempty).ne
  · exact heq
  · rw [max_eq_left hgt.le] at hnonempty
    exact absurd h.symm (frontier_lt hgt hfirst hnonempty).ne

section Contract

variable (plan : UploadPlan) (handed : List (List UInt8))

/-- The DATA frame of payload number `index`. -/
def handedWire (index : Nat) (payload : List UInt8) : List UInt8 :=
  frameWire .data plan.transferId (UInt32.ofNat index) (UInt64.ofNat (frontier handed index)) 0
    payload

/-- A frame the host may send: it carries payload number `index`. -/
structure Handed (index : Nat) (wire : List UInt8) : Prop where
  exists_payload : ∃ payload, handed[index]? = some payload ∧ 0 < payload.length ∧
    payload.length ≤ kMaxPayloadBytes ∧ wire = handedWire plan handed index payload
  nonempty : ∀ payload ∈ handed.take index, payload ≠ []
  sequence_lt : index < 2 ^ 32
  offset_lt : frontier handed index < 2 ^ 64

/-- The control frame types a receiver writes, with their status. -/
inductive ControlStatus : FrameType → UInt16 → Prop
  | ack : ControlStatus .ack 0
  | nack (reason : NackReason) : ControlStatus .nack reason.toStatus

/-- A control frame that names frontier number `index`. -/
def frontierWire (type : FrameType) (status : UInt16) (index : Nat) : List UInt8 :=
  frameWire type plan.transferId (UInt32.ofNat index) (UInt64.ofNat (frontier handed index))
    status []

/-- What the device has written: frontiers up to the payloads consumed, and the
full size only in an ACK after a successful `finish`. -/
structure Announces (events : List Event) (wire : List UInt8) (index : Nat) : Prop where
  le : index ≤ (consumedPayloads events).length
  control : ∃ type status, ControlStatus type status ∧
    wire = frontierWire plan handed type status index
  finished : frontier handed index = plan.wireSize →
    wire = frontierWire plan handed .ack 0 index ∧ ∃ context, .finish context .ok ∈ events

/-- The device's side of the agreement, for calls that extend `base`. -/
structure Consumed (base : List Event) (w : Traced W) : Prop where
  extends_base : base <+: w.events
  payloads : consumedPayloads w.events <+: handed
  nonempty : ∀ payload ∈ consumedPayloads w.events, payload ≠ []
  fits : frontier handed (consumedPayloads w.events).length ≤ plan.wireSize
  written : ∀ wire ∈ writtenWires w.events, ∃ index, Announces plan handed w.events wire index

/-- The counters of the running transfer are the consumed frontier. -/
structure Tracks (p : Progress (Traced W)) (w : Traced W) : Prop where
  records : Records p.endpoint
  receiving : p.direction = .hostToDevice
  transferId : p.transferId = plan.transferId
  totalBytes : p.totalBytes.toNat = plan.wireSize
  sequence : p.expectedSequence = UInt32.ofNat (consumedPayloads w.events).length
  offset : p.expectedOffset.toNat = frontier handed (consumedPayloads w.events).length
  transferred : p.transferredBytes.toNat = frontier handed (consumedPayloads w.events).length

/-- The replay record of an idle device names the full stream. -/
def ReplaysAll (replay : FinalAckReplay) (w : Traced W) : Prop :=
  replay.valid = true → replay.transferId = plan.transferId ∧
    replay.acknowledgedSequence = UInt32.ofNat (consumedPayloads w.events).length ∧
    replay.acknowledgedOffset.toNat = frontier handed (consumedPayloads w.events).length ∧
    frontier handed (consumedPayloads w.events).length = plan.wireSize ∧
    ∃ context, .finish context .ok ∈ w.events

/-- The frames that may reach the device with a valid CRC. -/
def Expected (frame : ParsedFrame) : Prop :=
  ∃ index wire, Handed plan handed index wire ∧ wireFrame wire = some frame

end Contract

section Device

variable {plan : UploadPlan} {handed : List (List UInt8)} {base : List Event}
  {w w' : Traced W} {p : Progress (Traced W)}

theorem Handed.parsed {index : Nat} {wire : List UInt8} (h : Handed plan handed index wire)
    (hid : plan.transferId ≠ 0) :
    ∃ payload, handed[index]? = some payload ∧ 0 < payload.length ∧
      wireFrame wire = some (imageFrame .data plan.transferId (UInt32.ofNat index)
        (UInt64.ofNat (frontier handed index)) 0 payload) := by
  obtain ⟨payload, hpayload, hpos, hlength, rfl⟩ := h.exists_payload
  refine ⟨payload, hpayload, hpos, wireFrame_frameWire .data _ _ hid hlength ?_⟩
  simp only [hasValidTypeFields, beq_self_eq_true, Bool.and_true, bne_iff_ne, ne_eq]
  intro hzero
  have hnat := congrArg UInt16.toNat hzero
  simp only [kMaxPayloadBytes] at hlength
  rw [UInt16.toNat_ofNat', UInt16.toNat_zero] at hnat
  omega

theorem Handed.mono {index : Nat} {wire : List UInt8} (h : Handed plan handed index wire)
    {longer : List (List UInt8)} (hfront : handed <+: longer) :
    Handed plan longer index wire := by
  obtain ⟨more, rfl⟩ := hfront
  obtain ⟨payload, hpayload, hpos, hlength, rfl⟩ := h.exists_payload
  obtain ⟨hlt, -⟩ := List.getElem?_eq_some_iff.mp hpayload
  have hfrontier := frontier_append handed more hlt.le
  refine ⟨⟨payload, ?_, hpos, hlength, ?_⟩, ?_, h.sequence_lt, ?_⟩
  · rw [List.getElem?_append_left hlt, hpayload]
  · rw [handedWire, handedWire, hfrontier]
  · rw [List.take_append_of_le_length hlt.le]
    exact h.nonempty
  · rw [hfrontier]
    exact h.offset_lt

theorem toNat_frontier {index : Nat} (h : frontier handed index < 2 ^ 64) :
    (UInt64.ofNat (frontier handed index)).toNat = frontier handed index := by
  rw [UInt64.toNat_ofNat', Nat.mod_eq_of_lt h]

theorem Consumed.length_le (h : Consumed plan handed base w) :
    (consumedPayloads w.events).length ≤ handed.length :=
  h.payloads.length_le

theorem Announces.mono {events more : List Event} {wire : List UInt8} {index : Nat}
    (h : Announces plan handed events wire index) :
    Announces plan handed (events ++ more) wire index := by
  refine ⟨?_, h.control, fun hfull => ?_⟩
  · simp only [consumedPayloads, List.filterMap_append, List.length_append]
    exact h.le.trans (Nat.le_add_right _ _)
  · obtain ⟨hwire, context, hfinish⟩ := h.finished hfull
    exact ⟨hwire, context, List.mem_append_left _ hfinish⟩

/-- A call that neither consumes nor writes keeps the agreement. -/
theorem Consumed.snoc (h : Consumed plan handed base w) {event : Event}
    (hevents : w'.events = w.events ++ [event]) (hconsume : consumedPayload event = none)
    (hwrite : writtenWire event = none) : Consumed plan handed base w' := by
  have hpayloads : consumedPayloads w'.events = consumedPayloads w.events := by
    simp [consumedPayloads, hevents, hconsume]
  refine ⟨?_, by rw [hpayloads]; exact h.payloads, by rw [hpayloads]; exact h.nonempty,
    by rw [hpayloads]; exact h.fits, fun wire hwire => ?_⟩
  · rw [hevents]
    exact h.extends_base.trans (List.prefix_append _ _)
  · rw [hevents, writtenWires, List.filterMap_append] at hwire
    simp only [List.filterMap_cons, hwrite, List.filterMap_nil, List.append_nil] at hwire
    obtain ⟨index, hannounces⟩ := h.written wire hwire
    rw [hevents]
    exact ⟨index, hannounces.mono⟩

/-- A control frame that went out. -/
theorem Consumed.write (h : Consumed plan handed base w) {wire : List UInt8} {index : Nat}
    (hevents : w'.events = w.events ++ [.write wire true])
    (hannounces : Announces plan handed w.events wire index) :
    Consumed plan handed base w' := by
  have hpayloads : consumedPayloads w'.events = consumedPayloads w.events := by
    simp [consumedPayloads, hevents, consumedPayload]
  refine ⟨?_, by rw [hpayloads]; exact h.payloads, by rw [hpayloads]; exact h.nonempty,
    by rw [hpayloads]; exact h.fits, fun other hother => ?_⟩
  · rw [hevents]
    exact h.extends_base.trans (List.prefix_append _ _)
  · rw [hevents, writtenWires, List.filterMap_append, List.mem_append] at hother
    rw [hevents]
    rcases hother with hold | hnew
    · obtain ⟨index, hold⟩ := h.written other hold
      exact ⟨index, hold.mono⟩
    · obtain rfl : other = wire := by simpa [writtenWire] using hnew
      exact ⟨index, hannounces.mono⟩

/-- One more payload, in order. -/
theorem Consumed.consume (h : Consumed plan handed base w) {context : Option Nat}
    {offset : UInt64} {payload : List UInt8}
    (hevents : w'.events = w.events ++ [.consume context offset payload .ok])
    (hpayload : handed[(consumedPayloads w.events).length]? = some payload)
    (hnonempty : payload ≠ [])
    (hfits : frontier handed ((consumedPayloads w.events).length + 1) ≤ plan.wireSize) :
    Consumed plan handed base w' := by
  have hpayloads : consumedPayloads w'.events = consumedPayloads w.events ++ [payload] := by
    simp [consumedPayloads, hevents, consumedPayload]
  refine ⟨?_, ?_, ?_, ?_, fun wire hwire => ?_⟩
  · rw [hevents]
    exact h.extends_base.trans (List.prefix_append _ _)
  · obtain ⟨rest, hrest⟩ := h.payloads
    rw [← hrest, List.getElem?_append_right le_rfl, Nat.sub_self] at hpayload
    cases rest with
    | nil => simp at hpayload
    | cons first rest =>
        obtain rfl : first = payload := by simpa using hpayload
        rw [hpayloads]
        exact ⟨rest, by rw [← hrest]; simp⟩
  · rw [hpayloads]
    intro other hother
    rcases List.mem_append.mp hother with hold | hnew
    · exact h.nonempty other hold
    · rw [List.mem_singleton.mp hnew]
      exact hnonempty
  · rw [hpayloads, List.length_append, List.length_singleton]
    exact hfits
  · rw [hevents, writtenWires, List.filterMap_append] at hwire
    simp only [List.filterMap_cons, writtenWire, List.filterMap_nil, List.append_nil] at hwire
    obtain ⟨index, hannounces⟩ := h.written wire hwire
    rw [hevents]
    exact ⟨index, hannounces.mono⟩

theorem consumedPayloads_snoc (events : List Event) {event : Event}
    (h : consumedPayload event = none) :
    consumedPayloads (events ++ [event]) = consumedPayloads events := by
  simp [consumedPayloads, h]

theorem Tracks.snoc (h : Tracks plan handed p w) {event : Event}
    (hevents : w'.events = w.events ++ [event]) (hconsume : consumedPayload event = none) :
    Tracks plan handed p w' := by
  have hpayloads := consumedPayloads_snoc w.events hconsume
  rw [← hevents] at hpayloads
  refine { h with sequence := ?_, offset := ?_, transferred := ?_ }
  · rw [hpayloads]
    exact h.sequence
  · rw [hpayloads]
    exact h.offset
  · rw [hpayloads]
    exact h.transferred

/-- An expected frame that the receiver accepts carries the next payload. -/
theorem next_of_acceptable (hid : plan.transferId ≠ 0) (hconsumed : Consumed plan handed base w)
    (h : Tracks plan handed p w) {frame : ParsedFrame} (hexpected : Expected plan handed frame)
    (hframe : Acceptable p frame) :
    handed[(consumedPayloads w.events).length]? = some frame.payload ∧
      frontier handed ((consumedPayloads w.events).length + 1) ≤ plan.wireSize := by
  obtain ⟨index, wire, hhanded, hwire⟩ := hexpected
  obtain ⟨payload, hpayload, hpos, hparsed⟩ := hhanded.parsed hid
  rw [hparsed] at hwire
  obtain rfl := Option.some.inj hwire
  have hoffset := congrArg UInt64.toNat hframe.offset
  simp only [imageFrame] at hoffset
  rw [toNat_frontier hhanded.offset_lt, h.offset] at hoffset
  obtain ⟨hindex, -⟩ := List.getElem?_eq_some_iff.mp hpayload
  have hsame : index = (consumedPayloads w.events).length := by
    refine frontier_inj hindex.le hconsumed.length_le ?_ hoffset
    intro other hother
    rcases le_total index (consumedPayloads w.events).length with hle | hle
    · rw [max_eq_right hle, ← List.prefix_iff_eq_take.mp hconsumed.payloads] at hother
      exact hconsumed.nonempty other hother
    · rw [max_eq_left hle] at hother
      exact hhanded.nonempty other hother
  have hfits := hframe.fits
  rw [h.transferred, h.totalBytes] at hfits
  rw [← hsame] at hfits ⊢
  refine ⟨hpayload, ?_⟩
  rw [frontier_succ hpayload]
  exact hfits

/-- A control frame of a running receiver names its frontier. -/
theorem announces_of_emits (hpositioned : Positioned p) (h : Tracks plan handed p w)
    {wire : List UInt8} (hemits : EmitsControl p wire) :
    Announces plan handed w.events wire (consumedPayloads w.events).length := by
  have hoffset : p.expectedOffset =
      UInt64.ofNat (frontier handed (consumedPayloads w.events).length) := by
    rw [← h.offset, UInt64.ofNat_toNat]
  refine ⟨le_rfl, ?_, fun hfull => ?_⟩
  · rcases hemits.2 with rfl | ⟨reason, rfl⟩
    · exact ⟨.ack, 0, .ack, by rw [frontierWire, h.transferId, h.sequence, hoffset]⟩
    · exact ⟨.nack, _, .nack reason, by rw [frontierWire, h.transferId, h.sequence, hoffset]⟩
  · have hroom := hpositioned.room
    rw [h.transferred, h.totalBytes] at hroom
    omega

end Device

/-- The device's side of the agreement as a contract on the manager's calls. -/
def uploadContract (plan : UploadPlan) (hid : plan.transferId ≠ 0) (output : OutputSink W)
    (handed : List (List UInt8)) (base : List Event) : Contract (Traced W) where
  sink := tracedSink output
  Admissible _ := False
  Incoming := Expected plan handed
  Running p w := Tracks plan handed p w ∧ Consumed plan handed base w
  Failing p w := Records p.endpoint ∧ Consumed plan handed base w
  Aborted p w := Records p.endpoint ∧ Consumed plan handed base w
  Finished p w := Tracks plan handed p w ∧ Consumed plan handed base w ∧
    ∃ context, .finish context .ok ∈ w.events
  Idle _ replay w := ReplaysAll plan handed replay w ∧ Consumed plan handed base w
  begin_ok hadmissible := hadmissible.elim
  begin_failed hadmissible := hadmissible.elim
  consume_ok := by
    rintro p consume frame w w' hrx hconsume ⟨htracks, hconsumed⟩ hpositioned hexpected hframe
      hresult
    obtain ⟨hnext, hfits⟩ := next_of_acceptable hid hconsumed htracks hexpected hframe
    have hevents := htracks.records.consume hconsume hresult
    have hnonempty : frame.payload ≠ [] := List.length_pos_iff.mp hframe.nonempty
    have hlength : (consumedPayloads w'.events).length =
        (consumedPayloads w.events).length + 1 := by
      simp [consumedPayloads, hevents, consumedPayload]
    have hadd := toNat_advance (p := p) (by rw [hframe.payloadLength]; exact hframe.fits)
    rw [hframe.payloadLength, htracks.transferred, ← frontier_succ hnext] at hadd
    refine ⟨?_, hconsumed.consume hevents hnext hnonempty hfits⟩
    refine { htracks with sequence := ?_, offset := ?_, transferred := ?_ }
    · rw [hlength, UInt32.ofNat_add, ← htracks.sequence]
      rfl
    · rw [hlength, ← hadd]
      simp only [Progress.advance, hpositioned.offset_eq]
    · rw [hlength, ← hadd]
      rfl
  consume_failed := by
    rintro p consume frame w w' hrx hconsume ⟨htracks, hconsumed⟩ hpositioned - hframe hresult
    exact ⟨htracks.records,
      hconsumed.snoc (htracks.records.consume hconsume hresult) rfl rfl⟩
  produce_ok := by
    rintro p produce bytes w w' htx - - ⟨htracks, -⟩
    simp [htracks.receiving] at htx
  produce_failed := by
    rintro p produce result bytes w w' htx - - ⟨htracks, -⟩
    simp [htracks.receiving] at htx
  send_ok := by
    rintro p write bytes count w w' - htx - - - ⟨htracks, -⟩
    simp [htracks.receiving] at htx
  send_failed := by
    rintro p write bytes count w w' - htx - - - ⟨htracks, -⟩
    simp [htracks.receiving] at htx
  acknowledge := by
    rintro p bytes count w htx - - ⟨htracks, -⟩
    simp [htracks.receiving] at htx
  finish_ok := by
    rintro p finish w w' hfinish hfull - ⟨htracks, hconsumed⟩ hresult
    have hevents := htracks.records.finish hfinish hresult
    refine ⟨htracks.snoc hevents rfl, hconsumed.snoc hevents rfl rfl, p.endpoint.context, ?_⟩
    rw [hevents]
    simp
  finish_failed := by
    rintro p finish w w' hfinish - - ⟨htracks, hconsumed⟩ hresult
    exact ⟨htracks.records, hconsumed.snoc (htracks.records.finish hfinish hresult) rfl rfl⟩
  write_ok := by
    rintro p write wire w w' hwrite ⟨htracks, hconsumed⟩ hpositioned hemits hresult
    have hevents := tracedSink_records hwrite hresult
    exact ⟨htracks.snoc hevents rfl,
      hconsumed.write hevents (announces_of_emits hpositioned htracks hemits)⟩
  write_failed := by
    rintro p write wire w w' hwrite ⟨htracks, hconsumed⟩ - - hresult
    exact ⟨htracks.records, hconsumed.snoc (tracedSink_records hwrite hresult) rfl rfl⟩
  fail := by
    rintro p w ⟨htracks, hconsumed⟩ -
    exact ⟨htracks.records, hconsumed⟩
  abort := by
    rintro p abort w reason habort ⟨hrecords, hconsumed⟩
    exact ⟨hrecords, hconsumed.snoc (hrecords.abort w reason habort) rfl rfl⟩
  terminal_aborted := by
    rintro p terminal info replay w reason hterminal ⟨hrecords, hconsumed⟩ - hinvalid -
    refine ⟨fun hvalid => by simp [hinvalid] at hvalid, ?_⟩
    exact hconsumed.snoc (hrecords.terminal w info reason hterminal) rfl rfl
  terminal_finished := by
    rintro p terminal info replay w hterminal hfull ⟨htracks, hconsumed, context, hfinish⟩ -
      hreplays
    have hevents := htracks.records.terminal w info .completed hterminal
    have hafter := htracks.snoc hevents rfl
    refine ⟨fun _ => ?_, hconsumed.snoc hevents rfl rfl⟩
    simp only [Replays, htracks.receiving] at hreplays
    obtain ⟨hreplayId, hreplaySequence, hreplayOffset⟩ := hreplays
    refine ⟨hreplayId.trans htracks.transferId, hreplaySequence.trans hafter.sequence, ?_, ?_,
      context, ?_⟩
    · rw [hreplayOffset]
      exact hafter.offset
    · rw [← hafter.transferred, hfull, htracks.totalBytes]
    · rw [hevents]
      exact List.mem_append_left _ hfinish
  replay := by
    rintro info replay write written w w' hwrite ⟨hreplays, hconsumed⟩ hvalid - hresult
    obtain ⟨hreplayId, hreplaySequence, hreplayOffset, hfull, context, hfinish⟩ := hreplays hvalid
    have hevents := tracedSink_records hwrite hresult
    have hpayloads : consumedPayloads w'.events = consumedPayloads w.events := by
      rw [hevents]
      exact consumedPayloads_snoc _ rfl
    have hoffset : replay.acknowledgedOffset =
        UInt64.ofNat (frontier handed (consumedPayloads w.events).length) := by
      rw [← hreplayOffset, UInt64.ofNat_toNat]
    refine ⟨fun _ => ?_, ?_⟩
    · rw [hpayloads]
      refine ⟨hreplayId, hreplaySequence, hreplayOffset, hfull, context, ?_⟩
      rw [hevents]
      exact List.mem_append_left _ hfinish
    · cases written with
      | false => exact hconsumed.snoc hevents rfl rfl
      | true =>
          have hwire : frameWire .ack replay.transferId replay.acknowledgedSequence
              replay.acknowledgedOffset 0 [] =
              frontierWire plan handed .ack 0 (consumedPayloads w.events).length := by
            rw [frontierWire, hreplayId, hreplaySequence, hoffset]
          exact hconsumed.write hevents
            ⟨le_rfl, ⟨.ack, 0, .ack, hwire⟩, fun _ => ⟨hwire, context, hfinish⟩⟩

end EspNp2.HostUpload.UploadReceiver
