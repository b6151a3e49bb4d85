import EspNp2.BinaryDataPlane.ReceiveLifecycle
import EspNp2.HostUpload.UploadSender

/-!
Agreement between the host's upload loops and the device's receive path: in every
run over lossy channels the device consumes a prefix of what the producer handed
out, and the host never counts a frame as accepted that the device has not
consumed.
-/

namespace EspNp2.HostUpload.UploadAgreement

open EspNp2.BinaryDataPlane.BinaryCodec
open EspNp2.BinaryDataPlane.FrameRoundTrip
open EspNp2.BinaryDataPlane.ReceiveLifecycle
open EspNp2.BinaryDataPlane.Transfer
open EspNp2.BinaryDataPlane.TransferContract
open EspNp2.BinaryDataPlane.TransferTrace
open EspNp2.HostUpload.HostWire
open EspNp2.HostUpload.UploadClient
open EspNp2.HostUpload.UploadNetwork
open EspNp2.HostUpload.UploadReceiver
open EspNp2.HostUpload.UploadSender

variable {P W : Type} {plan : UploadPlan} {handed longer : List (List UInt8)} {base : List Event}

section Monotone

variable {w : Traced W} {p : Progress (Traced W)}

theorem frontierWire_append (hfront : handed <+: longer) (type : FrameType) (status : UInt16)
    {index : Nat} (hindex : index ≤ handed.length) :
    frontierWire plan longer type status index = frontierWire plan handed type status index := by
  obtain ⟨more, rfl⟩ := hfront
  rw [frontierWire, frontierWire, frontier_append handed more hindex]

theorem frontier_extended (hfront : handed <+: longer) {index : Nat}
    (hindex : index ≤ handed.length) : frontier longer index = frontier handed index := by
  obtain ⟨more, rfl⟩ := hfront
  exact frontier_append handed more hindex

theorem Announces.of_extended {events : List Event} {wire : List UInt8} {index : Nat}
    (h : Announces plan handed events wire index) (hfront : handed <+: longer)
    (hindex : index ≤ handed.length) : Announces plan longer events wire index := by
  obtain ⟨type, status, hstatus, rfl⟩ := h.control
  refine ⟨h.le, ⟨type, status, hstatus, (frontierWire_append hfront type status hindex).symm⟩,
    fun hfull => ?_⟩
  rw [frontier_extended hfront hindex] at hfull
  rw [frontierWire_append hfront .ack 0 hindex]
  exact h.finished hfull

theorem Consumed.of_extended (h : Consumed plan handed base w) (hfront : handed <+: longer) :
    Consumed plan longer base w := by
  refine ⟨h.extends_base, h.payloads.trans hfront, h.nonempty, ?_, fun wire hwire => ?_⟩
  · rw [frontier_extended hfront h.length_le]
    exact h.fits
  · obtain ⟨index, hannounces⟩ := h.written wire hwire
    exact ⟨index, Announces.of_extended hannounces hfront (hannounces.le.trans h.length_le)⟩

theorem Tracks.of_extended (h : Tracks plan handed p w) (hfront : handed <+: longer)
    (hle : (consumedPayloads w.events).length ≤ handed.length) : Tracks plan longer p w := by
  refine { h with offset := ?_, transferred := ?_ }
  · rw [frontier_extended hfront hle]
    exact h.offset
  · rw [frontier_extended hfront hle]
    exact h.transferred

theorem ReplaysAll.of_extended {replay : FinalAckReplay} (h : ReplaysAll plan handed replay w)
    (hfront : handed <+: longer) (hle : (consumedPayloads w.events).length ≤ handed.length) :
    ReplaysAll plan longer replay w := by
  intro hvalid
  rw [frontier_extended hfront hle]
  exact h hvalid

variable {output : OutputSink W} {hid : plan.transferId ≠ 0} {d : Device (Traced W)}

theorem consumed_of_holds (h : Holds (uploadContract plan hid output handed base) d) :
    Consumed plan handed base d.world := by
  cases hactive : d.manager.active with
  | false => exact (h.inactive hactive).2
  | true => exact (h.active hactive).2.2.2.2

/-- More payloads handed out change nothing on the device. -/
theorem holds_of_extended (h : Holds (uploadContract plan hid output handed base) d)
    (hfront : handed <+: longer) :
    Holds (uploadContract plan hid output longer d.world.events) d := by
  have hconsumed := consumed_of_holds h
  have hnext : Consumed plan longer d.world.events d.world :=
    { Consumed.of_extended hconsumed hfront with extends_base := List.prefix_rfl }
  refine ⟨h.output, fun hactive => ?_, fun hidle => ?_⟩
  · obtain ⟨hlive, hconsistent, hpositioned, htracks, -⟩ := h.active hactive
    exact ⟨hlive, hconsistent, hpositioned,
      Tracks.of_extended htracks hfront hconsumed.length_le, hnext⟩
  · exact ⟨ReplaysAll.of_extended (h.inactive hidle).1 hfront hconsumed.length_le, hnext⟩

end Monotone

/-- The invariant of the network. -/
structure NetInv (plan : UploadPlan) (hid : plan.transferId ≠ 0) (output : OutputSink W)
    (net : Net P W) : Prop where
  sized : 0 < plan.wireSize ∧ plan.wireSize < 2 ^ 64
  device : Holds (uploadContract plan hid output net.host.handed net.device.world.events)
    net.device
  host : HostInv plan net.host
  retired : net.host.retired ≤ (consumedPayloads net.device.world.events).length
  done : plan.wireSize ≤ frontier net.host.handed net.host.retired →
    ∃ context, .finish context .ok ∈ net.device.world.events
  toDevice : ∀ wire ∈ net.toDevice, deviceAccepts wire = true →
    ∃ index, Handed plan net.host.handed index wire
  toHost : ∀ wire ∈ net.toHost, hostAccepts wire = true →
    wire ∈ writtenWires net.device.world.events

section Steps

variable {hid : plan.transferId ≠ 0} {output : OutputSink W} {net : Net P W}

theorem NetInv.consumed (h : NetInv plan hid output net) :
    Consumed plan net.host.handed net.device.world.events net.device.world :=
  consumed_of_holds h.device

/-- The host parses what the device announced back to the frontier. -/
theorem names_of_announces (hid : plan.transferId ≠ 0) {events : List Event} {wire : List UInt8}
    {index : Nat} (h : Announces plan handed events wire index) (hindex : index ≤ handed.length)
    (hoffset : frontier handed index < 2 ^ 64) {response : ParsedFrame}
    (hresponse : receivedFrame wire = some response) :
    Names handed index response ∧ ∃ type status, ControlStatus type status ∧
      response = imageFrame type plan.transferId (UInt32.ofNat index)
        (UInt64.ofNat (frontier handed index)) status [] := by
  obtain ⟨type, status, hstatus, rfl⟩ := h.control
  have hfields : hasValidTypeFields type status (UInt16.ofNat ([] : List UInt8).length) = true := by
    cases hstatus with
    | ack => rfl
    | nack reason => cases reason <;> rfl
  rw [frontierWire, receivedFrame_frameWire type _ _ hid (by simp) hfields] at hresponse
  obtain rfl := Option.some.inj hresponse
  refine ⟨⟨hindex, rfl, ?_⟩, type, status, hstatus, rfl⟩
  simp only [imageFrame]
  exact toNat_frontier hoffset

/-- A response the host reads for its own transfer names a frontier the device
has consumed. -/
theorem NetInv.names (h : NetInv plan hid output net) {wire : List UInt8}
    (hwire : wire ∈ net.toHost) {response : ParsedFrame}
    (hresponse : receivedFrame wire = some response) (hcrc : response.crcValid = true) :
    ∃ index, Names net.host.handed index response ∧
      Announces plan net.host.handed net.device.world.events wire index ∧
      ∃ type status, ControlStatus type status ∧
        response = imageFrame type plan.transferId (UInt32.ofNat index)
          (UInt64.ofNat (frontier net.host.handed index)) status [] := by
  have haccepts : hostAccepts wire = true := by simp [hostAccepts, hresponse, hcrc]
  have hconsumed := h.consumed
  obtain ⟨index, hannounces⟩ := hconsumed.written wire (h.toHost wire hwire haccepts)
  have hindex := hannounces.le.trans hconsumed.length_le
  have hoffset : frontier net.host.handed index < 2 ^ 64 :=
    ((frontier_mono _ hannounces.le).trans hconsumed.fits).trans_lt h.sized.2
  obtain ⟨hnames, hparsed⟩ := names_of_announces hid hannounces hindex hoffset hresponse
  exact ⟨index, hnames, hannounces, hparsed⟩

/-- The host reacts; the frontier it has retired was announced. -/
theorem NetInv.onHost (h : NetInv plan hid output net) {reaction : Reaction P}
    (hok : ReactionOk plan net.host reaction) {index : Nat}
    (hretired : reaction.1.retired ≤ max net.host.retired index)
    (hindex : index ≤ (consumedPayloads net.device.world.events).length)
    (hdone : frontier net.host.handed index = plan.wireSize →
      ∃ context, .finish context .ok ∈ net.device.world.events) :
    NetInv plan hid output (net.onHost reaction) := by
  have hconsumed := h.consumed
  have hle : reaction.1.retired ≤ (consumedPayloads net.device.world.events).length :=
    hretired.trans (max_le h.retired hindex)
  refine
    { sized := h.sized
      device := holds_of_extended h.device hok.grows
      host := hok.inv
      retired := hle
      done := fun hfull => ?_
      toDevice := fun wire hwire haccepts => ?_
      toHost := h.toHost }
  · have hfull' : plan.wireSize ≤ frontier net.host.handed reaction.1.retired := by
      rw [← frontier_extended hok.grows (hle.trans hconsumed.length_le)]
      exact hfull
    rcases le_total net.host.retired index with hsmall | hlarge
    · rw [max_eq_right hsmall] at hretired
      have hfits := (frontier_mono net.host.handed hindex).trans hconsumed.fits
      have hmono := frontier_mono net.host.handed hretired
      exact hdone (by omega)
    · rw [max_eq_left hlarge] at hretired
      exact h.done (hfull'.trans (frontier_mono net.host.handed hretired))
  · rcases List.mem_append.mp hwire with hold | hnew
    · obtain ⟨index, hhanded⟩ := h.toDevice wire hold haccepts
      exact ⟨index, hhanded.mono hok.grows⟩
    · exact hok.sent wire hnew

/-- The device performs an operation. -/
theorem NetInv.onDevice (h : NetInv plan hid output net) {op : Operation (Traced W)}
    (hallowed : Allowed (uploadContract plan hid output net.host.handed
      net.device.world.events) op) : NetInv plan hid output (net.onDevice op) := by
  have hholds := perform_preserves _ h.device hallowed
  have hconsumed := consumed_of_holds hholds
  obtain ⟨more, hmore⟩ := hconsumed.extends_base
  refine
    { sized := h.sized
      device := holds_of_extended hholds List.prefix_rfl
      host := h.host
      retired := ?_
      done := fun hfull => ?_
      toDevice := h.toDevice
      toHost := fun wire hwire haccepts => ?_ }
  · have hretired := h.retired
    simp only [Net.onDevice]
    rw [← hmore, consumedPayloads, List.filterMap_append, List.length_append]
    simp only [consumedPayloads] at hretired
    omega
  · obtain ⟨context, hfinish⟩ := h.done hfull
    refine ⟨context, ?_⟩
    simp only [Net.onDevice]
    rw [← hmore]
    exact List.mem_append_left _ hfinish
  · simp only [Net.onDevice] at hwire ⊢
    rw [← hmore, List.drop_left] at hwire
    rw [← hmore, writtenWires, List.filterMap_append, List.mem_append]
    rcases List.mem_append.mp hwire with hold | hnew
    · exact .inl (h.toHost wire hold haccepts)
    · exact .inr hnew

theorem NetInv.hostReceive (producer : Producer P) (h : NetInv plan hid output net) :
    NetInv plan hid output (step producer plan net .hostReceive) := by
  rw [step]
  cases hqueue : net.toHost with
  | nil => exact h
  | cons wire rest =>
      have hpopped : NetInv plan hid output { net with toHost := rest } :=
        { h with toHost := fun other hother => h.toHost other (by simp [hqueue, hother]) }
      cases hresponse : receivedFrame wire with
      | none =>
          simp only [hresponse]
          exact hpopped
      | some response =>
          simp only [hresponse]
          have hwire : wire ∈ net.toHost := by simp [hqueue]
          obtain ⟨hok, hretired⟩ := reactionOk_receiveResponse producer h.host response
          by_cases hcrc : response.crcValid = true
          · obtain ⟨index, hnames, hannounces, -⟩ := h.names hwire hresponse hcrc
            exact hpopped.onHost hok (hretired index fun _ _ => hnames) hannounces.le
              fun hfull => (hannounces.finished hfull).2
          · refine hpopped.onHost hok (hretired 0 fun _ hvalid => absurd hvalid hcrc)
              (Nat.zero_le _) fun hfull => ?_
            have hsized := h.sized.1
            simp only [UploadReceiver.frontier, List.take_zero, List.map_nil, List.sum_nil] at hfull
            omega

theorem NetInv.deviceReceive (producer : Producer P) (h : NetInv plan hid output net)
    (nowMs : UInt32) : NetInv plan hid output (step producer plan net (.deviceReceive nowMs)) := by
  rw [step]
  cases hqueue : net.toDevice with
  | nil => exact h
  | cons wire rest =>
      have hpopped : NetInv plan hid output { net with toDevice := rest } :=
        { h with toDevice := fun other hother => h.toDevice other (by simp [hqueue, hother]) }
      cases hdecoded : wireDecoded wire with
      | none =>
          simp only [hdecoded]
          exact hpopped
      | some decoded =>
          simp only [hdecoded]
          refine hpopped.onDevice ?_
          intro frame hparse hcrc
          have hframe : wireFrame wire = some frame := by
            rw [wireFrame, hdecoded, Option.bind_some, hparse]
          obtain ⟨index, hhanded⟩ := h.toDevice wire (by simp [hqueue])
            (by simp [deviceAccepts, hframe, hcrc])
          exact ⟨index, wire, hhanded, hframe⟩

/-- Every step of the network keeps the invariant. -/
theorem NetInv.step (producer : Producer P) (h : NetInv plan hid output net) (action : Action) :
    NetInv plan hid output (step producer plan net action) := by
  cases action with
  | hostReceive => exact h.hostReceive producer
  | hostTimeout =>
      obtain ⟨hok, hretired⟩ := reactionOk_responseTimeout h.host
      refine h.onHost hok (hretired.le.trans (le_max_left _ 0)) (Nat.zero_le _) fun hfull => ?_
      have hsized := h.sized.1
      simp only [UploadReceiver.frontier, List.take_zero, List.map_nil, List.sum_nil] at hfull
      omega
  | hostSerialError =>
      obtain ⟨hinv, hhanded, hretired⟩ := reactionOk_serialError h.host
      refine { h with
        device := ?_
        host := hinv
        retired := ?_
        done := ?_
        toDevice := ?_ }
      · simp only [UploadNetwork.step, hhanded]
        exact h.device
      · simp only [UploadNetwork.step, hretired]
        exact h.retired
      · simp only [UploadNetwork.step, hhanded, hretired]
        exact h.done
      · simp only [UploadNetwork.step, hhanded]
        exact h.toDevice
  | deviceReceive nowMs => exact h.deviceReceive producer nowMs
  | devicePoll nowMs => exact h.onDevice trivial
  | deviceAbort transferId => exact h.onDevice trivial
  | dropToDevice index =>
      exact { h with
        toDevice := fun wire hwire => h.toDevice wire (List.mem_of_mem_eraseIdx hwire) }
  | dropToHost index =>
      exact { h with toHost := fun wire hwire => h.toHost wire (List.mem_of_mem_eraseIdx hwire) }
  | corruptToDevice index wire =>
      rw [UploadNetwork.step]
      split_ifs with haccepts
      · exact h
      · refine { h with toDevice := fun other hother hvalid => ?_ }
        rcases List.mem_or_eq_of_mem_set hother with hold | rfl
        · exact h.toDevice other hold hvalid
        · exact absurd hvalid haccepts
  | corruptToHost index wire =>
      rw [UploadNetwork.step]
      split_ifs with haccepts
      · exact h
      · refine { h with toHost := fun other hother hvalid => ?_ }
        rcases List.mem_or_eq_of_mem_set hother with hold | rfl
        · exact h.toHost other hold hvalid
        · exact absurd hvalid haccepts

theorem NetInv.run (producer : Producer P) (h : NetInv plan hid output net)
    (actions : List Action) : NetInv plan hid output (runNet producer plan net actions) := by
  induction actions generalizing net with
  | nil => exact h
  | cons action actions ih => exact ih (h.step producer action)

end Steps

section Start

variable {setup : Setup P W} {info : TransferInfo}

/-- The device of an upload that was begun. -/
theorem setup_begin_ok (hbegin : setup.begin.1 = .ok info) :
    ∃ manager world, setup.begin.2 = { manager := manager, world := world } ∧
      manager.transferId = info.transferId ∧ manager.active = true ∧
      progressOf manager =
        { endpoint := tracedEndpoint setup.endpoint
          direction := .hostToDevice
          transferId := info.transferId
          totalBytes := setup.wireSize
          transferredBytes := 0
          expectedSequence := 0
          expectedOffset := 0
          outstanding := none } ∧
      world.events = [.begin setup.endpoint.context .hostToDevice setup.wireSize .ok] := by
  obtain ⟨begin, world, hcallback, hresult, rfl, hdevice⟩ := beginCommon_ok hbegin
  refine ⟨_, world, hdevice, rfl, rfl, rfl, ?_⟩
  exact (records_tracedEndpoint setup.endpoint).begin hcallback hresult

theorem setup_holds (setup : Setup P W) :
    Holds (traceContract setup.output) setup.begin.2 := by
  have hstart : Idle {} ({ world := setup.world, events := [] } : Traced W) := ⟨.nil _, rfl⟩
  have hinit := holds_init (traceContract setup.output) setup.nextTransferId hstart
  exact holds_beginCommon hinit setup.wireSize .hostToDevice
    (records_tracedEndpoint setup.endpoint) (UploadMode.options setup.mode)

theorem setup_transferId_ne_zero (hbegin : setup.begin.1 = .ok info) :
    (setup.plan info).transferId ≠ 0 := by
  obtain ⟨manager, world, hdevice, hid, hactive, hprogress, -⟩ := setup_begin_ok hbegin
  have hholds := setup_holds setup
  rw [hdevice] at hholds
  obtain ⟨-, -, hpositioned, -⟩ := hholds.active hactive
  have hne := hpositioned.id_ne_zero
  simp only [progressOf] at hne
  rw [Setup.plan, ← hid]
  exact hne

theorem netInv_start (hbegin : setup.begin.1 = .ok info) :
    NetInv (setup.plan info) (setup_transferId_ne_zero hbegin) setup.output (setup.start info) := by
  obtain ⟨manager, world, hdevice, hid, hactive, hprogress, hevents⟩ := setup_begin_ok hbegin
  have hholds := setup_holds setup
  rw [hdevice] at hholds
  obtain ⟨hlive, hconsistent, hpositioned, -⟩ := hholds.active hactive
  have hroom := hpositioned.room
  simp only [hprogress, UInt64.toNat_zero] at hroom
  obtain ⟨hinv, hretired, hsent⟩ :=
    reactionOk_startUpload (setup.plan info) setup.producer setup.mode setup.source
  have hpayloads : consumedPayloads world.events = [] := by rw [hevents]; rfl
  have hconsumed : Consumed (setup.plan info) (setup.start info).host.handed world.events world :=
    { extends_base := List.prefix_rfl
      payloads := by rw [hpayloads]; exact List.nil_prefix
      nonempty := by simp [hpayloads]
      fits := by rw [hpayloads]; exact Nat.zero_le _
      written := by rw [hevents]; simp [writtenWires, writtenWire] }
  have htracks : Tracks (setup.plan info) (setup.start info).host.handed (progressOf manager)
      world := by
    rw [hprogress]
    exact
      { records := records_tracedEndpoint setup.endpoint
        receiving := rfl
        transferId := rfl
        totalBytes := rfl
        sequence := by rw [hpayloads]; rfl
        offset := by rw [hpayloads]; rfl
        transferred := by rw [hpayloads]; rfl }
  have hstart : (setup.start info).device = { manager := manager, world := world } := hdevice
  refine
    { sized := ⟨hroom, setup.wireSize.toNat_lt⟩
      device := ?_
      host := hinv
      retired := by
        rw [show (setup.start info).host.retired = 0 from hretired]
        exact Nat.zero_le _
      done := fun hfull => ?_
      toDevice := fun wire hwire _ => hsent wire hwire
      toHost := by simp [Setup.start] }
  · rw [hstart]
    exact Attached.holds (d := { manager := manager, world := world })
      ⟨hholds.output, hactive, hlive⟩ hconsistent hpositioned ⟨htracks, hconsumed⟩
  · rw [show (setup.start info).host.retired = 0 from hretired] at hfull
    simp only [Setup.plan, UploadReceiver.frontier, List.take_zero, List.map_nil,
      List.sum_nil] at hfull
    omega

theorem netInv_run (hbegin : setup.begin.1 = .ok info) (actions : List Action) :
    NetInv (setup.plan info) (setup_transferId_ne_zero hbegin) setup.output
      (setup.run info actions) :=
  (netInv_start hbegin).run setup.producer actions

end Start

/-- What the two parties agree on. -/
structure Agreement (plan : UploadPlan) (net : Net P W) : Prop where
  consumed_prefix : consumedPayloads net.device.world.events <+: net.host.handed
  consumed_stream :
    (consumedPayloads net.device.world.events).flatten <+: net.host.handed.flatten
  retired_consumed : net.host.retired ≤ (consumedPayloads net.device.world.events).length ∧
    (consumedPayloads net.device.world.events).take net.host.retired =
      net.host.handed.take net.host.retired
  finished : net.host.sender = .finished →
    consumedPayloads net.device.world.events = net.host.handed ∧
      (consumedPayloads net.device.world.events).flatten.length = plan.wireSize ∧
      ∃ context, .finish context .ok ∈ net.device.world.events

theorem NetInv.agreement {hid : plan.transferId ≠ 0} {output : OutputSink W} {net : Net P W}
    (h : NetInv plan hid output net) : Agreement plan net := by
  have hconsumed := h.consumed
  obtain ⟨rest, hrest⟩ := hconsumed.payloads
  refine ⟨hconsumed.payloads, ⟨rest.flatten, by rw [← hrest, List.flatten_append]⟩,
    ⟨h.retired, ?_⟩, fun hfinished => ?_⟩
  · rw [← hrest, List.take_append_of_le_length h.retired]
  · have hhost := h.host
    simp only [HostInv, hfinished] at hhost
    obtain ⟨hretired, hsize⟩ := hhost
    have hlength : (consumedPayloads net.device.world.events).length = net.host.handed.length :=
      Nat.le_antisymm hconsumed.length_le (hretired ▸ h.retired)
    have hall : consumedPayloads net.device.world.events = net.host.handed :=
      hconsumed.payloads.eq_of_length hlength
    refine ⟨hall, ?_, h.done (by rw [hretired]; exact hsize)⟩
    have hfits := hconsumed.fits
    rw [hlength] at hfits
    rw [hall, List.length_flatten]
    simp only [UploadReceiver.frontier, List.take_length] at hsize hfits
    exact Nat.le_antisymm hfits hsize

/-- Upload agreement, in every reachable state of every run. -/
theorem upload_agreement (setup : Setup P W) {info : TransferInfo}
    (hbegin : setup.begin.1 = .ok info) (actions : List Action) :
    Agreement (setup.plan info) (setup.run info actions) :=
  (netInv_run hbegin actions).agreement

/-- An upload in frames of one byte, as a compressed stream of long runs has
short frames. -/
def shortUpload (mode : UploadMode) (wireSize : UInt64) : Setup Nat Unit :=
  { mode := mode
    producer := { read := fun left limit => some (List.replicate (min limit 1) 7, left - 1) }
    source := wireSize.toNat
    wireSize := wireSize
    nextTransferId := 1
    output := { write := some fun w _ => (true, w) }
    endpoint := acceptingEndpoint 7
    world := () }

def shortUploadInfo (wireSize : UInt64) : TransferInfo :=
  { transferId := 1, state := .active, totalBytes := wireSize }

/-- Two frames; the first ACK is lost and the second one covers both. -/
theorem upload_agreement_shortUpload :
    (shortUpload .windowed 2).begin.1 = .ok (shortUploadInfo 2) ∧
      Agreement ((shortUpload .windowed 2).plan (shortUploadInfo 2))
        ((shortUpload .windowed 2).run (shortUploadInfo 2)
          [.deviceReceive 0, .deviceReceive 1, .dropToHost 0, .hostReceive]) :=
  ⟨by decide, upload_agreement (shortUpload .windowed 2) (by decide) _⟩

end EspNp2.HostUpload.UploadAgreement
