import EspNp2.HostUpload.UploadAgreement

/-!
When the upload loops raise `PROTOCOL_ERROR` against an honest device: exactly
when they read a NACK of their own transfer for the end of everything they have
handed out, as the device sends it for a damaged retransmission after the ACKs
were lost, or when the frame counter has wrapped.
-/

namespace EspNp2.HostUpload.UploadProtocolErrors

open EspNp2.BinaryDataPlane.BinaryCodec
open EspNp2.BinaryDataPlane.FrameRoundTrip
open EspNp2.BinaryDataPlane.Transfer (NackReason OutputSink TransferInfo)
open EspNp2.HostUpload.HostWire
open EspNp2.HostUpload.UploadClient
open EspNp2.HostUpload.UploadNetwork
open EspNp2.HostUpload.UploadReceiver
open EspNp2.HostUpload.UploadSender
open EspNp2.HostUpload.UploadAgreement
open EspNp2.Library.ByteStuffing
open EspNp2.Library.LabelledRun

variable {P W : Type} {plan : UploadPlan} {producer : Producer P}

/-- The fault of a `RemoteError("PROTOCOL_ERROR")` that ended the upload. -/
def protocolFault : Sender → Option ProtocolFault
  | .failed (.protocolError fault) => some fault
  | _ => none

/-- The retransmission budget is spent, on NACKs or on timeouts. -/
inductive BudgetSpent : UploadError → Prop
  | nack : BudgetSpent .nack
  | timeout : BudgetSpent .timeout
  | retryExhausted : BudgetSpent .retryExhausted

/-- What a wait loop does with a response that is not refused. -/
inductive Accepted (producer : Producer P) (plan : UploadPlan) (host : Host P) :
    Reaction P → Prop
  | ignored : Accepted producer plan host (host, [])
  | advanced : (∀ payload ∈ host.handed, payload ≠ []) →
      Accepted producer plan host
        (sendNext producer plan { host with retired := host.handed.length } host.handed.length
          (frontier host.handed host.handed.length))
  | resent (s : StopAndWait) : Accepted producer plan host (resend host s .nack)
  | refilled (retired : Nat) (w : Windowed) : WindowInv plan host.handed retired w →
      Accepted producer plan host
        (fillWindow producer plan dataWindowFrames { host with retired := retired } w [])
  | retransmitted (retired : Nat) (w : Windowed) :
      Accepted producer plan host (retransmitAll { host with retired := retired } w)

/-- The loop raises `PROTOCOL_ERROR`. -/
def Refused (host : Host P) (reaction : Reaction P) : Prop :=
  ∃ retired fault,
    reaction = (Host.fail { host with retired := retired } (.protocolError fault), [])

/-- A control frame of the transfer for frontier number `index`. -/
def frontierFrame (plan : UploadPlan) (handed : List (List UInt8)) (type : FrameType)
    (status : UInt16) (index : Nat) : ParsedFrame :=
  imageFrame type plan.transferId (UInt32.ofNat index) (UInt64.ofNat (frontier handed index))
    status []

/-- The response the loops cannot place. -/
def Unplaced (handed : List (List UInt8)) (type : FrameType) (index : Nat) : Prop :=
  index = handed.length ∧ (type = .nack ∨ handed.length = 2 ^ 32)

/-- A loop refuses exactly the responses it cannot place. -/
def Judged (producer : Producer P) (plan : UploadPlan) (host : Host P) (type : FrameType)
    (index : Nat) (reaction : Reaction P) : Prop :=
  Unplaced host.handed type index ∧ Refused host reaction ∨
    ¬Unplaced host.handed type index ∧ Accepted producer plan host reaction

theorem isNackReason_toStatus (reason : NackReason) : isNackReason reason.toStatus = true := by
  cases reason <;> rfl

theorem toNat_index {index : Nat} (h : index < 2 ^ 32) : (UInt32.ofNat index).toNat = index := by
  rw [UInt32.toNat_ofNat', Nat.mod_eq_of_lt h]

section StopAndWait

variable {host : Host P} {s : StopAndWait}

/-- The stop-and-wait loop at an ACK of an honest device. -/
theorem receiveStopAndWait_ack (h : CurrentInv plan host.handed host.retired s) {index : Nat}
    (hindex : index ≤ host.handed.length) (hoffset : frontier host.handed index < 2 ^ 64) :
    Judged producer plan host .ack index (receiveStopAndWait producer plan host s
      (frontierFrame plan host.handed .ack 0 index)) := by
  have hlength := h.length
  have hlt := h.wire.sequence_lt
  have hend := h.end_offset
  have hgrows := h.offset_lt_end
  simp only [Judged, receiveStopAndWait, frontierFrame, imageFrame, ne_eq,
    not_true_eq_false, if_false, false_or, toNat_frontier hoffset, h.sequence, hend]
  rcases Nat.lt_trichotomy index host.retired with hold | rfl | hnew
  · have hlow := h.frontier_lt_offset hold
    rw [toNat_index (by omega)]
    have hunplaced : ¬Unplaced host.handed .ack index := fun hu => by
      have := hu.1
      omega
    rw [if_neg (by omega), if_pos (by simp [isStaleControlPair, hold, hlow])]
    exact .inr ⟨hunplaced, .ignored⟩
  · rw [toNat_index hlt]
    have hunplaced : ¬Unplaced host.handed .ack host.retired := fun hu => by
      have := hu.1
      omega
    rw [if_neg (by omega), if_pos (by simp [isStaleControlPair, h.offset])]
    exact .inr ⟨hunplaced, .ignored⟩
  · obtain rfl : index = host.retired + 1 := by omega
    by_cases hwrap : host.retired + 1 = 2 ^ 32
    · have hzero : (UInt32.ofNat (host.retired + 1)).toNat = 0 := by rw [hwrap]; rfl
      have hpos : 0 < host.retired := by omega
      rw [hzero, if_neg (by omega), if_neg]
      · exact .inl ⟨⟨hlength.symm, .inr (hlength.trans hwrap)⟩, ⟨host.retired, _, rfl⟩⟩
      · simp only [isStaleControlPair, decide_eq_true_eq]
        omega
    · rw [toNat_index (by omega), if_pos ⟨rfl, rfl⟩]
      refine .inr ⟨fun hu => ?_, ?_⟩
      · rcases hu.2 with hnack | hmany
        · cases hnack
        · omega
      · rw [← hlength]
        exact .advanced h.nonempty

/-- The stop-and-wait loop at a NACK of an honest device. -/
theorem receiveStopAndWait_nack (h : CurrentInv plan host.handed host.retired s) {index : Nat}
    (hindex : index ≤ host.handed.length) (hoffset : frontier host.handed index < 2 ^ 64)
    (reason : NackReason) :
    Judged producer plan host .nack index (receiveStopAndWait producer plan host s
      (frontierFrame plan host.handed .nack reason.toStatus index)) := by
  have hlength := h.length
  have hlt := h.wire.sequence_lt
  have hgrows := h.offset_lt_end
  simp only [Judged, receiveStopAndWait, frontierFrame, imageFrame, ne_eq,
    not_true_eq_false, if_false,
    false_or, toNat_frontier hoffset, h.sequence, isNackReason_toStatus, Bool.true_eq_false]
  rcases Nat.lt_trichotomy index host.retired with hold | rfl | hnew
  · have hlow := h.frontier_lt_offset hold
    rw [toNat_index (by omega), if_neg (by omega),
      if_pos (by simp [isStaleNackPair, hold, hlow])]
    refine .inr ⟨fun hu => ?_, .ignored⟩
    have := hu.1
    omega
  · rw [toNat_index hlt, if_pos ⟨rfl, h.offset.symm⟩]
    refine .inr ⟨fun hu => ?_, .resent s⟩
    have := hu.1
    omega
  · obtain rfl : index = host.retired + 1 := by omega
    rw [if_neg (by omega), if_neg]
    · exact .inl ⟨⟨hlength.symm, .inl rfl⟩, ⟨host.retired, _, rfl⟩⟩
    · simp only [isStaleNackPair, decide_eq_true_eq]
      omega

end StopAndWait

section Windowed

variable {host : Host P} {w : Windowed}

/-- The window never holds more frames than the sequence numbers can name. -/
theorem windowInv_length_le (h : WindowInv plan host.handed host.retired w)
    (hsome : w.outstanding ≠ []) : host.handed.length ≤ 2 ^ 32 := by
  have hretained := h.retained
  have hpos := List.length_pos_iff.mpr hsome
  have hlast := List.getElem?_eq_getElem (show w.outstanding.length - 1 < w.outstanding.length by
    omega)
  have hlt := (h.frames _ _ hlast).wire.sequence_lt
  omega

/-- The wrapped frontier number is no boundary. -/
theorem boundaries_wrapped (h : WindowInv plan host.handed host.retired w)
    (hwrap : host.handed.length = 2 ^ 32) :
    w.boundaries ((UInt32.ofNat host.handed.length).toNat,
      frontier host.handed host.handed.length) = none := by
  rw [Option.eq_none_iff_forall_ne_some]
  intro position hposition
  obtain ⟨-, hkey⟩ := (h.boundaries _ _).mp hposition
  obtain ⟨hfirst, hsecond⟩ := Prod.mk.inj hkey
  have hzero : position = 0 := by
    rw [← hfirst, hwrap]
    rfl
  have hless : frontier host.handed 0 < frontier host.handed host.handed.length :=
    frontier_lt (by omega) le_rfl
      fun payload hmem => h.nonempty payload (List.mem_of_mem_take hmem)
  rw [hzero] at hsecond
  omega

theorem receiveWindowed_frontier (h : WindowInv plan host.handed host.retired w)
    (hsome : w.outstanding ≠ []) {type : FrameType} {status : UInt16}
    (hstatus : ControlStatus type status) {index : Nat} (hindex : index ≤ host.handed.length)
    (hoffset : frontier host.handed index < 2 ^ 64) :
    receiveWindowed producer plan host w (frontierFrame plan host.handed type status index) =
      if index = 2 ^ 32 then (host.fail (.protocolError .futureResponse), [])
      else if index < host.retired ∨ type = .ack ∧ index = host.retired then (host, [])
      else if type = .ack then acceptAck producer plan host w index
      else acceptNack host w index := by
  have hfault : responseFault (frontierFrame plan host.handed type status index) = none := by
    cases hstatus with
    | ack => rfl
    | nack reason => simp [responseFault, frontierFrame, imageFrame, isNackReason_toStatus]
  have hmost := windowInv_length_le h hsome
  rw [receiveWindowed, hfault]
  simp only [frontierFrame, imageFrame, ne_eq, not_true_eq_false, if_false, toNat_frontier hoffset,
    h.position_base hsome, h.boundaryCount]
  by_cases hwrap : index = 2 ^ 32
  · obtain rfl : index = host.handed.length := by omega
    rw [boundaries_wrapped h hwrap, if_pos hwrap]
  · have hboundary := (h.boundaries _ _).mpr ⟨hindex, rfl⟩
    rw [toNat_index (by omega), hboundary, if_neg hwrap]
    simp only
    rw [if_neg (by omega)]
    rfl

/-- The windowed loop at a response of an honest device. -/
theorem receiveWindowed_judged (h : WindowInv plan host.handed host.retired w)
    (hsender : host.sender = .windowed w) (hsome : w.outstanding ≠ []) {type : FrameType}
    {status : UInt16} (hstatus : ControlStatus type status) {index : Nat}
    (hindex : index ≤ host.handed.length) (hoffset : frontier host.handed index < 2 ^ 64) :
    Judged producer plan host type index (receiveWindowed producer plan host w
      (frontierFrame plan host.handed type status index)) := by
  have hretained := h.retained
  have hpos := List.length_pos_iff.mpr hsome
  have hmost := windowInv_length_le h hsome
  rw [receiveWindowed_frontier h hsome hstatus hindex hoffset]
  split_ifs with hwrap hstale hack
  · have hend : index = host.handed.length := by omega
    exact .inl ⟨⟨hend, .inr (by omega)⟩, ⟨host.retired, _, rfl⟩⟩
  · refine .inr ⟨fun hu => ?_, .ignored⟩
    have hend := hu.1
    rcases hstale with hlt | ⟨-, heq⟩ <;> omega
  · have hfrom : host.retired < index := by
      by_contra hle
      rcases Nat.lt_or_ge index host.retired with hlt | hge
      · exact hstale (.inl hlt)
      · exact hstale (.inr ⟨hack, by omega⟩)
    obtain ⟨hretire, hwindow⟩ := h.retireTo hfrom.le hindex
    refine .inr ⟨fun hu => ?_, ?_⟩
    · rcases hu.2 with hnack | hmany
      · rw [hack] at hnack
        cases hnack
      · have hend := hu.1
        omega
    · simp only [acceptAck, hretire]
      rw [if_neg (by omega), show host.retired + (index - host.retired) = index by omega]
      exact .refilled index _ { hwindow with }
  · have hfrom : host.retired ≤ index := by
      by_contra hlt
      exact hstale (.inl (by omega))
    have hnack : type = .nack := by
      cases hstatus with
      | ack => exact absurd rfl hack
      | nack reason => rfl
    obtain ⟨hretire, hwindow⟩ := h.retireTo hfrom hindex
    simp only [Judged, acceptNack, hretire, h.position_base hsome]
    rw [show host.retired + (index - host.retired) = index by omega]
    have hempty : w.outstanding.drop (index - host.retired) = [] ↔
        index = host.handed.length := by
      rw [List.drop_eq_nil_iff]
      omega
    split_ifs with hagain hlast hcount
    · have hne : ¬Unplaced host.handed type index := fun hu => by
        have := hu.1
        omega
      rw [← hsender]
      exact .inr ⟨hne, .ignored⟩
    · exact .inl ⟨⟨hempty.mp hlast, .inl hnack⟩, ⟨index, _, rfl⟩⟩
    · exact .inr ⟨fun hu => hlast (hempty.mpr hu.1), .retransmitted index _⟩
    · exact .inr ⟨fun hu => hlast (hempty.mpr hu.1), .retransmitted index _⟩

end Windowed

/-- The loop is waiting for a response. -/
def sending : Sender → Bool
  | .stopAndWait _ | .windowed _ => true
  | .finished | .failed _ => false

section Failures

variable {host : Host P}

theorem receiveResponse_judged (hinv : HostInv plan host) (hsending : sending host.sender = true)
    {type : FrameType} {status : UInt16} (hstatus : ControlStatus type status) {index : Nat}
    (hindex : index ≤ host.handed.length) (hoffset : frontier host.handed index < 2 ^ 64) :
    Judged producer plan host type index (receiveResponse producer plan host
      (frontierFrame plan host.handed type status index)) := by
  rw [receiveResponse]
  cases hsender : host.sender with
  | stopAndWait s =>
      simp only [HostInv, hsender] at hinv
      cases hstatus with
      | ack => exact receiveStopAndWait_ack hinv hindex hoffset
      | nack reason => exact receiveStopAndWait_nack hinv hindex hoffset reason
  | windowed w =>
      simp only [HostInv, hsender] at hinv
      exact receiveWindowed_judged hinv.1 hsender hinv.2 hstatus hindex hoffset
  | finished => simp [sending, hsender] at hsending
  | failed error => simp [sending, hsender] at hsending

theorem sendNext_failed {sequence offset : Nat} {error : UploadError}
    (h : (sendNext producer plan host sequence offset).1.sender = .failed error) :
    SourceGone error := by
  rw [sendNext] at h
  split_ifs at h with hmore
  · cases hread : readFrame producer plan host sequence offset with
    | error host' =>
        obtain ⟨other, middle, rfl, -, -, hgone⟩ := readFrame_error hread
        simp only [hread, Host.fail, Sender.failed.injEq] at h
        exact h ▸ hgone
    | ok result => simp [hread] at h

theorem fillWindow_failed {rounds : Nat} {w : Windowed} {sent : List (List UInt8)}
    {error : UploadError}
    (h : (fillWindow producer plan rounds host w sent).1.sender = .failed error) :
    SourceGone error := by
  have hsettle : ∀ (host : Host P) (w : Windowed), (settle host w).sender ≠ .failed error := by
    intro host w
    rw [settle]
    split_ifs <;> simp
  induction rounds generalizing host w sent with
  | zero => exact absurd h (hsettle host w)
  | succ rounds ih =>
      rw [fillWindow] at h
      split_ifs at h with hmore
      · cases hread : readFrame producer plan host w.nextSequence w.nextOffset with
        | error host' =>
            obtain ⟨other, middle, rfl, -, -, hgone⟩ := readFrame_error hread
            simp only [hread, Host.fail, Sender.failed.injEq] at h
            exact h ▸ hgone
        | ok result =>
            simp only [hread] at h
            exact ih h
      · exact absurd h (hsettle host w)

theorem resend_failed {s : StopAndWait} {error other : UploadError}
    (h : (resend host s error).1.sender = .failed other) : other = error := by
  rw [resend] at h
  split_ifs at h
  simpa [Host.fail] using h.symm

theorem retransmitAll_failed {w : Windowed} {error : UploadError}
    (h : (retransmitAll host w).1.sender = .failed error) : error = .retryExhausted := by
  rw [retransmitAll] at h
  split_ifs at h
  simpa [Host.fail] using h.symm

/-- A response that is not refused ends the upload only for want of budget or
source. -/
theorem Accepted.failed {reaction : Reaction P} (h : Accepted producer plan host reaction)
    (hsending : sending host.sender = true) {error : UploadError}
    (hfailed : reaction.1.sender = .failed error) : BudgetSpent error ∨ SourceGone error := by
  cases h with
  | ignored =>
      simp only at hfailed
      simp [hfailed, sending] at hsending
  | advanced hnonempty => exact .inr (sendNext_failed hfailed)
  | resent s => exact .inl (resend_failed hfailed ▸ .nack)
  | refilled retired w hwindow => exact .inr (fillWindow_failed hfailed)
  | retransmitted retired w => exact .inl (retransmitAll_failed hfailed ▸ .retryExhausted)

theorem responseTimeout_failed (hsending : sending host.sender = true) {error : UploadError}
    (hfailed : (responseTimeout host).1.sender = .failed error) : BudgetSpent error := by
  rw [responseTimeout] at hfailed
  cases hsender : host.sender with
  | stopAndWait s =>
      simp only [hsender] at hfailed
      exact resend_failed hfailed ▸ .timeout
  | windowed w =>
      simp only [hsender] at hfailed
      exact retransmitAll_failed hfailed ▸ .retryExhausted
  | finished => simp [sending, hsender] at hsending
  | failed other => simp [sending, hsender] at hsending

theorem protocolFault_eq_none_iff {sender : Sender} :
    protocolFault sender = none ↔ ∀ fault, sender ≠ .failed (.protocolError fault) := by
  unfold protocolFault
  split
  · simp
  · rename_i hother
    simpa using hother

theorem protocolFault_eq_none_of {sender : Sender}
    (h : ∀ error, sender = .failed error → BudgetSpent error ∨ SourceGone error) :
    protocolFault sender = none := by
  rw [protocolFault_eq_none_iff]
  intro fault hfault
  rcases h _ hfault with hspent | hgone
  · cases hspent
  · cases hgone

end Failures

/-- The next frame in the host's queue is a response of its own transfer that the
loop it is in cannot place: a NACK for the end of all it has handed out, or any
response for that end once the sequence numbers are used up. -/
def readsUnplaced (plan : UploadPlan) (net : Net P W) : Bool :=
  sending net.host.sender && (net.toHost.head?.bind receivedFrame).any fun response =>
    response.transferId == plan.transferId && response.crcValid &&
      response.offset.toNat == frontier net.host.handed net.host.handed.length &&
      (response.type == .nack || net.host.handed.length == 2 ^ 32)

theorem nonempty_of_sending {host : Host P} (hinv : HostInv plan host)
    (hsending : sending host.sender = true) : ∀ payload ∈ host.handed, payload ≠ [] := by
  cases hsender : host.sender with
  | stopAndWait s =>
      simp only [HostInv, hsender] at hinv
      exact hinv.nonempty
  | windowed w =>
      simp only [HostInv, hsender] at hinv
      exact hinv.1.nonempty
  | finished => simp [sending, hsender] at hsending
  | failed error => simp [sending, hsender] at hsending

section Network

variable {hid : plan.transferId ≠ 0} {output : OutputSink W} {net : Net P W}

theorem readsUnplaced_eq_false (hsending : sending net.host.sender = false) :
    readsUnplaced plan net = false := by
  rw [readsUnplaced, hsending, Bool.false_and]

theorem readsUnplaced_iff {wire : List UInt8} {rest : List (List UInt8)}
    (hqueue : net.toHost = wire :: rest) (hsending : sending net.host.sender = true)
    {type : FrameType} {status : UInt16} {index : Nat}
    (hresponse : receivedFrame wire =
      some (frontierFrame plan net.host.handed type status index))
    (hcrc : (frontierFrame plan net.host.handed type status index).crcValid = true)
    (hnames : Names net.host.handed index (frontierFrame plan net.host.handed type status index))
    (hnonempty : ∀ payload ∈ net.host.handed, payload ≠ []) :
    readsUnplaced plan net = true ↔ Unplaced net.host.handed type index := by
  have hoffset : (frontierFrame plan net.host.handed type status index).offset.toNat =
      frontier net.host.handed net.host.handed.length ↔ index = net.host.handed.length := by
    constructor
    · intro heq
      exact hnames.eq_of_offset hnonempty le_rfl heq
    · rintro rfl
      exact hnames.offset
  simp only [readsUnplaced, hsending, hqueue, List.head?_cons, Option.bind_some, hresponse,
    Option.any_some, hcrc, Bool.true_and, Bool.and_true, Bool.and_eq_true, Bool.or_eq_true,
    beq_iff_eq, hoffset, Unplaced]
  exact ⟨fun h => ⟨h.1.2, h.2⟩, fun h => ⟨⟨rfl, h.1⟩, h.2⟩⟩

theorem receiveResponse_damaged {host : Host P} {response : ParsedFrame}
    (hcrc : ¬response.crcValid = true) :
    receiveResponse producer plan host response = (host, []) := by
  rw [receiveResponse]
  cases host.sender with
  | stopAndWait s =>
      simp only [receiveStopAndWait]
      rw [if_pos (show response.crcValid ≠ true from hcrc), ite_self]
  | windowed w =>
      simp only [receiveWindowed]
      rw [if_pos (show response.crcValid ≠ true from hcrc), ite_self]
  | finished => rfl
  | failed error => rfl

/-- One read of the host: it raises exactly on an unplaced response, and any
other end of the upload is for want of budget or source. -/
theorem hostReceive_cases (producer : Producer P) (h : NetInv plan hid output net)
    (hsending : sending net.host.sender = true) :
    (readsUnplaced plan net = true ∧
      protocolFault (step producer plan net .hostReceive).host.sender ≠ none) ∨
    (readsUnplaced plan net = false ∧
      ∃ reaction, Accepted producer plan net.host reaction ∧
        (step producer plan net .hostReceive).host = reaction.1) := by
  rw [step]
  cases hqueue : net.toHost with
  | nil => exact .inr ⟨by simp [readsUnplaced, hqueue], _, .ignored, rfl⟩
  | cons wire rest =>
      cases hresponse : receivedFrame wire with
      | none =>
          simp only [hresponse]
          exact .inr ⟨by simp [readsUnplaced, hqueue, hresponse], _, .ignored, rfl⟩
      | some response =>
          simp only [hresponse]
          by_cases hcrc : response.crcValid = true
          · obtain ⟨index, hnames, hannounces, type, status, hstatus, rfl⟩ :=
              h.names (by simp [hqueue]) hresponse hcrc
            have hindex := hannounces.le.trans h.consumed.length_le
            have hoffset : frontier net.host.handed index < 2 ^ 64 :=
              ((frontier_mono _ hannounces.le).trans h.consumed.fits).trans_lt h.sized.2
            have hiff := readsUnplaced_iff hqueue hsending hresponse hcrc hnames
              (nonempty_of_sending h.host hsending)
            rcases receiveResponse_judged h.host hsending hstatus hindex hoffset with
              ⟨hunplaced, hrefused⟩ | ⟨hplaced, haccepted⟩
            · refine .inl ⟨hiff.mpr hunplaced, ?_⟩
              obtain ⟨retired, fault, hreaction⟩ := hrefused
              change protocolFault (receiveResponse producer plan net.host
                (frontierFrame plan net.host.handed type status index)).1.sender ≠ none
              rw [hreaction]
              exact Option.some_ne_none fault
            · refine .inr ⟨?_, _, haccepted, rfl⟩
              rw [Bool.eq_false_iff]
              exact fun hreads => hplaced (hiff.mp hreads)
          · refine .inr ⟨by simp [readsUnplaced, hqueue, hresponse, hcrc], _, .ignored, ?_⟩
            change (receiveResponse producer plan net.host response).1 = net.host
            rw [receiveResponse_damaged hcrc]

def touchesHost : Action → Bool
  | .hostReceive | .hostTimeout | .hostSerialError => true
  | _ => false

theorem step_host_eq {action : Action} (haction : touchesHost action = false) :
    (step producer plan net action).host = net.host := by
  cases action with
  | hostReceive => cases haction
  | hostTimeout => cases haction
  | hostSerialError => cases haction
  | deviceReceive nowMs =>
      rw [step]
      cases net.toDevice with
      | nil => rfl
      | cons wire rest =>
          simp only
          split <;> rfl
  | devicePoll nowMs => rfl
  | deviceAbort transferId => rfl
  | dropToDevice index => rfl
  | dropToHost index => rfl
  | corruptToDevice index wire =>
      rw [step]
      split_ifs <;> rfl
  | corruptToHost index wire =>
      rw [step]
      split_ifs <;> rfl

/-- A loop that has ended stays as it is. -/
theorem idle_reactions (producer : Producer P) (plan : UploadPlan) {host : Host P}
    (hidle : sending host.sender = false) :
    (∀ response, receiveResponse producer plan host response = (host, [])) ∧
      responseTimeout host = (host, []) ∧ serialError host = host := by
  cases hsender : host.sender with
  | stopAndWait s => simp [sending, hsender] at hidle
  | windowed w => simp [sending, hsender] at hidle
  | finished => simp [receiveResponse, responseTimeout, serialError, hsender]
  | failed error => simp [receiveResponse, responseTimeout, serialError, hsender]

theorem step_idle (hidle : sending net.host.sender = false) (action : Action) :
    (step producer plan net action).host = net.host := by
  obtain ⟨hreceive, htimeout, hserial⟩ := idle_reactions producer plan hidle
  cases haction : touchesHost action with
  | false => exact step_host_eq haction
  | true =>
      cases action <;> simp only [touchesHost, Bool.false_eq_true] at haction
      · rw [step]
        cases net.toHost with
        | nil => rfl
        | cons wire rest =>
            simp only
            split
            · rfl
            · simp only [Net.onHost, hreceive]
      · simp only [step, Net.onHost, htimeout]
      · simp only [step, hserial]

/-- An action other than a read leaves a waiting loop waiting, or ends it for
want of budget, or for the serial port. -/
theorem step_failed_of_ne (hsending : sending net.host.sender = true) {action : Action}
    (haction : action ≠ .hostReceive) {error : UploadError}
    (hfailed : (step producer plan net action).host.sender = .failed error) :
    BudgetSpent error ∨ action = .hostSerialError ∧ error = .ioError := by
  cases htouches : touchesHost action with
  | false =>
      rw [step_host_eq htouches] at hfailed
      simp [hfailed, sending] at hsending
  | true =>
      cases action <;> simp only [touchesHost, Bool.false_eq_true] at htouches
      · exact absurd rfl haction
      · exact .inl (responseTimeout_failed hsending hfailed)
      · refine .inr ⟨rfl, ?_⟩
        simp only [step, serialError] at hfailed
        cases hsender : net.host.sender with
        | stopAndWait s => simpa [hsender, Host.fail] using hfailed.symm
        | windowed w => simpa [hsender, Host.fail] using hfailed.symm
        | finished => simp [sending, hsender] at hsending
        | failed other => simp [sending, hsender] at hsending

theorem step_source_eq (producer : Producer P) (plan : UploadPlan) (net : Net P W)
    {action : Action} (haction : action ≠ .hostReceive) :
    (step producer plan net action).host.handed = net.host.handed ∧
      (step producer plan net action).host.source = net.host.source := by
  cases htouches : touchesHost action with
  | false =>
      rw [step_host_eq htouches]
      exact ⟨rfl, rfl⟩
  | true =>
      cases action <;> simp only [touchesHost, Bool.false_eq_true] at htouches
      · exact absurd rfl haction
      · simp only [step, Net.onHost, responseTimeout]
        cases net.host.sender with
        | stopAndWait s =>
            simp only [resend]
            split_ifs <;> exact ⟨rfl, rfl⟩
        | windowed w =>
            simp only [retransmitAll]
            split_ifs <;> exact ⟨rfl, rfl⟩
        | finished => exact ⟨rfl, rfl⟩
        | failed error => exact ⟨rfl, rfl⟩
      · simp only [step, serialError]
        cases net.host.sender <;> exact ⟨rfl, rfl⟩

/-- One step raises `PROTOCOL_ERROR` exactly when it reads an unplaced response. -/
theorem step_protocolFault_iff (h : NetInv plan hid output net)
    (hclean : protocolFault net.host.sender = none) (action : Action) :
    protocolFault (step producer plan net action).host.sender = none ↔
      ¬(action = .hostReceive ∧ readsUnplaced plan net = true) := by
  cases hsending : sending net.host.sender with
  | false =>
      rw [step_idle hsending, readsUnplaced_eq_false hsending]
      simp [hclean]
  | true =>
      by_cases haction : action = .hostReceive
      · subst haction
        rcases hostReceive_cases producer h hsending with
          ⟨hreads, hfault⟩ | ⟨hreads, reaction, haccepted, hhost⟩
        · simp [hreads, hfault]
        · simp only [hreads, Bool.false_eq_true, and_false, not_false_eq_true, iff_true]
          rw [hhost]
          exact protocolFault_eq_none_of fun error hfailed => haccepted.failed hsending hfailed
      · simp only [haction, false_and, not_false_eq_true, iff_true]
        rw [protocolFault_eq_none_iff]
        intro fault hfailed
        rcases step_failed_of_ne hsending haction hfailed with hspent | ⟨-, herror⟩
        · cases hspent
        · cases herror

end Network

/-- A producer that hands out the bytes it has left, in nonempty pieces of at most
the size asked for. -/
structure Delivers (producer : Producer P) (remaining : P → Nat) : Prop where
  read : ∀ source limit, 0 < limit → limit ≤ remaining source →
    ∃ payload next, producer.read source limit = some (payload, next) ∧ 0 < payload.length ∧
      payload.length ≤ limit ∧ remaining next + payload.length = remaining source

/-- The source still holds what the host has not handed out, and has not given
out. -/
structure Supplied (remaining : P → Nat) (plan : UploadPlan) (host : Host P) : Prop where
  left : frontier host.handed host.handed.length + remaining host.source = plan.wireSize
  present : ∀ error, host.sender = .failed error → ¬SourceGone error

section Supply

variable {remaining : P → Nat} {host : Host P}

theorem buildFrame_data (transferId : UInt32) {sequence offset : Nat} {payload : List UInt8}
    (hpos : 0 < payload.length) (hlength : payload.length ≤ kMaxPayloadBytes)
    (hsequence : sequence < 2 ^ 32) (hoffset : offset < 2 ^ 64) :
    ∃ frame, buildFrame .data transferId sequence offset 0 payload = some frame := by
  have himage : (decodedImage .data 0 transferId (UInt32.ofNat sequence) (UInt64.ofNat offset) 0
      payload).length = kHeaderBytes + payload.length + kCrcBytes := by
    rw [decodedImage_eq, List.length_append, coveredImage_length]
    rfl
  have hstuffed := stuff_length_le [] (decodedImage .data 0 transferId (UInt32.ofNat sequence)
    (UInt64.ofNat offset) 0 payload) (by simp)
  simp only [kMaxPayloadBytes] at hlength
  simp only [List.length_nil, himage, kHeaderBytes, kCrcBytes] at hstuffed
  unfold buildFrame
  rw [if_neg (by simp only [kMaxPayloadBytes]; omega),
    if_neg (by simp [List.length_pos_iff.mp hpos]), if_neg (by simp), if_neg (by simp),
    if_neg (by omega)]
  simp only [cobsEncode_eq_stuff]
  rw [if_neg]
  · exact ⟨_, rfl⟩
  · simp only [himage, kMaxDecodedFrameBytes, kMaxEncodedBodyBytes, kHeaderBytes, kCrcBytes,
      kMaxPayloadBytes]
    omega

/-- A supplied host reads its next frame. -/
theorem readFrame_delivers (hdelivers : Delivers producer remaining)
    (hleft : frontier host.handed host.handed.length + remaining host.source = plan.wireSize)
    (hsized : plan.wireSize < 2 ^ 64) (hlength : host.handed.length < 2 ^ 32)
    (hmore : frontier host.handed host.handed.length < plan.wireSize) :
    ∃ payload next frame,
      readFrame producer plan host host.handed.length
          (frontier host.handed host.handed.length) =
        .ok ({ host with source := next, handed := host.handed ++ [payload] }, payload, frame) ∧
      frontier (host.handed ++ [payload]) (host.handed.length + 1) + remaining next =
        plan.wireSize := by
  obtain ⟨payload, next, hread, hpos, hle, hremaining⟩ := hdelivers.read host.source
    (min kMaxPayloadBytes (plan.wireSize - frontier host.handed host.handed.length))
    (by simp only [kMaxPayloadBytes]; omega) (by omega)
  obtain ⟨frame, hframe⟩ := buildFrame_data plan.transferId hpos
    (hle.trans (min_le_left _ _)) hlength (hmore.trans hsized)
  refine ⟨payload, next, frame, ?_, ?_⟩
  · rw [readFrame, hread]
    simp only
    rw [if_neg (List.length_pos_iff.mp hpos), hframe]
  · rw [frontier_succ (by simp : (host.handed ++ [payload])[host.handed.length]? = some payload),
      frontier_append host.handed [payload] le_rfl]
    omega

theorem supplied_of_not_failed
    (hleft : frontier host.handed host.handed.length + remaining host.source = plan.wireSize)
    (hsender : ∀ error, host.sender ≠ .failed error) : Supplied remaining plan host :=
  ⟨hleft, fun error hfailed => absurd hfailed (hsender error)⟩

theorem supplied_sendNext (host : Host P) (hdelivers : Delivers producer remaining)
    (hleft : frontier host.handed host.handed.length + remaining host.source = plan.wireSize)
    (hsized : plan.wireSize < 2 ^ 64) (hlength : host.handed.length < 2 ^ 32) :
    Supplied remaining plan (sendNext producer plan host host.handed.length
      (frontier host.handed host.handed.length)).1 := by
  rw [sendNext]
  split_ifs with hmore
  · obtain ⟨payload, next, frame, hread, hnext⟩ :=
      readFrame_delivers hdelivers hleft hsized hlength hmore
    rw [hread]
    exact supplied_of_not_failed (by simpa using hnext) (by simp)
  · exact supplied_of_not_failed hleft (by simp)

theorem supplied_fillWindow (hdelivers : Delivers producer remaining)
    (hsized : plan.wireSize < 2 ^ 64) (rounds : Nat) (host : Host P) (w : Windowed)
    (sent : List (List UInt8)) (hwindow : WindowInv plan host.handed host.retired w)
    (hleft : frontier host.handed host.handed.length + remaining host.source = plan.wireSize)
    (hlength : host.handed.length + rounds ≤ 2 ^ 32) :
    Supplied remaining plan (fillWindow producer plan rounds host w sent).1 := by
  have hsettle : ∀ (host : Host P) (w : Windowed),
      frontier host.handed host.handed.length + remaining host.source = plan.wireSize →
      Supplied remaining plan (settle host w) := by
    intro host w hleft
    rw [settle]
    split_ifs
    · exact supplied_of_not_failed hleft (by simp)
    · exact supplied_of_not_failed hleft (by simp)
  induction rounds generalizing host w sent with
  | zero => exact hsettle host w hleft
  | succ rounds ih =>
      rw [fillWindow]
      split_ifs with hmore
      · rw [hwindow.nextSequence, hwindow.nextOffset]
        obtain ⟨payload, next, frame, hread, hnext⟩ := readFrame_delivers hdelivers hleft hsized
          (by omega) (hwindow.nextOffset ▸ hmore.2)
        obtain ⟨-, -, hpayload, hframe⟩ := readFrame_ok hwindow.nonempty hread
        rw [hread]
        refine ih _ _ _ (hwindow.retain hpayload hframe) (by simpa using hnext) ?_
        simp only [List.length_append, List.length_singleton]
        omega
      · exact hsettle host w hleft

/-- A response that is not refused keeps the host supplied. -/
theorem Accepted.supplied {reaction : Reaction P} (h : Accepted producer plan host reaction)
    (hdelivers : Delivers producer remaining) (hsupplied : Supplied remaining plan host)
    (hsized : plan.wireSize < 2 ^ 64) (hlength : host.handed.length + 2 ≤ 2 ^ 32) :
    Supplied remaining plan reaction.1 := by
  cases h with
  | ignored => exact hsupplied
  | advanced hnonempty =>
      exact supplied_sendNext { host with retired := host.handed.length } hdelivers
        hsupplied.left hsized (show host.handed.length < 2 ^ 32 by omega)
  | resent s =>
      refine ⟨?_, fun error hfailed => ?_⟩
      · rw [resend]
        split_ifs <;> exact hsupplied.left
      · rw [resend_failed hfailed]
        rintro ⟨⟩
  | refilled retired w hwindow =>
      exact supplied_fillWindow hdelivers hsized dataWindowFrames _ w [] hwindow hsupplied.left
        hlength
  | retransmitted retired w =>
      refine ⟨?_, fun error hfailed => ?_⟩
      · rw [retransmitAll]
        split_ifs <;> exact hsupplied.left
      · rw [retransmitAll_failed hfailed]
        rintro ⟨⟩

end Supply

/-- The step is none of those that go wrong: no unplaced response is read, the
frame counter has room, and the serial port works. -/
structure Benign (plan : UploadPlan) (net : Net P W) (action : Action) : Prop where
  serial : action ≠ .hostSerialError
  placed : action = .hostReceive → readsUnplaced plan net = false
  room : action = .hostReceive → net.host.handed.length + 2 ≤ 2 ^ 32

instance (plan : UploadPlan) (net : Net P W) (action : Action) :
    Decidable (Benign plan net action) :=
  decidable_of_iff (action ≠ .hostSerialError ∧
      (action = .hostReceive → readsUnplaced plan net = false) ∧
      (action = .hostReceive → net.host.handed.length + 2 ≤ 2 ^ 32))
    ⟨fun h => ⟨h.1, h.2.1, h.2.2⟩, fun h => ⟨h.serial, h.placed, h.room⟩⟩

/-- The host can still end only for want of budget. -/
structure Sound (remaining : P → Nat) (plan : UploadPlan) (host : Host P) : Prop where
  supplied : Supplied remaining plan host
  budget : ∀ error, host.sender = .failed error → BudgetSpent error

theorem Sound.step {hid : plan.transferId ≠ 0} {output : OutputSink W} {net : Net P W}
    {remaining : P → Nat} (hdelivers : Delivers producer remaining)
    (hinv : NetInv plan hid output net) (h : Sound remaining plan net.host) {action : Action}
    (hbenign : Benign plan net action) :
    Sound remaining plan (UploadNetwork.step producer plan net action).host := by
  cases hsending : sending net.host.sender with
  | false =>
      rw [step_idle hsending]
      exact h
  | true =>
      by_cases haction : action = .hostReceive
      · subst haction
        rcases hostReceive_cases producer hinv hsending with
          ⟨hreads, -⟩ | ⟨-, reaction, haccepted, hhost⟩
        · simp [hbenign.placed rfl] at hreads
        · rw [hhost]
          have hsupplied := haccepted.supplied hdelivers h.supplied hinv.sized.2
            (hbenign.room rfl)
          refine ⟨hsupplied, fun error hfailed => ?_⟩
          rcases haccepted.failed hsending hfailed with hspent | hgone
          · exact hspent
          · exact absurd hgone (hsupplied.present error hfailed)
      · have hbudget : ∀ error,
            (UploadNetwork.step producer plan net action).host.sender = .failed error →
              BudgetSpent error := by
          intro error hfailed
          rcases step_failed_of_ne hsending haction hfailed with hspent | ⟨hserial, -⟩
          · exact hspent
          · exact absurd hserial hbenign.serial
        obtain ⟨hhanded, hsource⟩ := step_source_eq producer plan net haction
        refine ⟨⟨?_, fun error hfailed hgone => ?_⟩, hbudget⟩
        · rw [hhanded, hsource]
          exact h.supplied.left
        · have hspent := hbudget error hfailed
          cases hgone <;> cases hspent

theorem supplied_startUpload (plan : UploadPlan) {remaining : P → Nat}
    (hdelivers : Delivers producer remaining)
    (hsized : plan.wireSize < 2 ^ 64) (mode : UploadMode) {source : P}
    (hsource : remaining source = plan.wireSize) :
    Supplied remaining plan (startUpload producer plan mode source).1 := by
  cases mode with
  | stopAndWait =>
      exact supplied_sendNext
        { source := source, handed := [], retired := 0, sender := .finished } hdelivers
        (by simp [UploadReceiver.frontier, hsource]) hsized (by simp)
  | windowed =>
      exact supplied_fillWindow hdelivers hsized dataWindowFrames
        { source := source, handed := [], retired := 0, sender := .finished } Windowed.start []
        (windowInv_start plan) (by simp [UploadReceiver.frontier, hsource])
          (by simp [dataWindowFrames])

theorem startUpload_failed {mode : UploadMode} {source : P} {error : UploadError}
    (h : (startUpload producer plan mode source).1.sender = .failed error) :
    SourceGone error := by
  cases mode with
  | stopAndWait => exact sendNext_failed h
  | windowed => exact fillWindow_failed h

section Runs

variable (setup : Setup P W) (info : TransferInfo)

theorem run_snoc (actions : List Action) (action : Action) :
    setup.run info (actions ++ [action]) =
      step setup.producer (setup.plan info) (setup.run info actions) action := by
  simp only [Setup.run, runNet, List.foldl_append, List.foldl_cons, List.foldl_nil]

variable {info}

/-- A run raises `PROTOCOL_ERROR` exactly when one of its steps reads an unplaced
response. -/
theorem run_protocolFault_iff (hbegin : setup.begin.1 = .ok info) (actions : List Action) :
    protocolFault (setup.run info actions).host.sender = none ↔
      AtEach (fun before action => ¬(action = .hostReceive ∧
        readsUnplaced (setup.plan info) (setup.run info before) = true)) actions := by
  induction actions using List.reverseRecOn with
  | nil =>
      simp only [atEach_nil, iff_true]
      exact protocolFault_eq_none_of fun error hfailed => .inr (startUpload_failed hfailed)
  | append_singleton actions action ih =>
      have hinv := netInv_run hbegin actions
      rw [atEach_snoc_iff, ← ih, run_snoc]
      by_cases hclean : protocolFault (setup.run info actions).host.sender = none
      · rw [step_protocolFault_iff hinv hclean]
        exact ⟨fun h => ⟨hclean, h⟩, fun h => h.2⟩
      · have hidle : sending (setup.run info actions).host.sender = false := by
          cases hsender : (setup.run info actions).host.sender with
          | stopAndWait s => simp [hsender, protocolFault] at hclean
          | windowed w => simp [hsender, protocolFault] at hclean
          | finished => rfl
          | failed error => rfl
        rw [step_idle hidle]
        exact ⟨fun h => absurd h hclean, fun h => absurd h.1 hclean⟩

theorem run_sound (hbegin : setup.begin.1 = .ok info) {remaining : P → Nat}
    (hdelivers : Delivers setup.producer remaining)
    (hsource : remaining setup.source = setup.wireSize.toNat) (actions : List Action)
    (hbenign : AtEach (fun before action =>
      Benign (setup.plan info) (setup.run info before) action) actions) :
    Sound remaining (setup.plan info) (setup.run info actions).host := by
  induction actions using List.reverseRecOn with
  | nil =>
      have hsupplied := supplied_startUpload (setup.plan info) hdelivers
        setup.wireSize.toNat_lt setup.mode hsource
      exact ⟨hsupplied, fun error hfailed =>
        absurd (startUpload_failed hfailed) (hsupplied.present error hfailed)⟩
  | append_singleton actions action ih =>
      obtain ⟨hbefore, hlast⟩ := atEach_snoc_iff.mp hbenign
      have hinv := netInv_run hbegin actions
      rw [run_snoc]
      exact (ih hbefore).step hdelivers hinv hlast

/-- In every run the host raises `PROTOCOL_ERROR` only by reading an unplaced
response; in a run of benign steps with a source that delivers, the upload fails
only by exhausting its budget. -/
theorem upload_protocolError_free (hbegin : setup.begin.1 = .ok info) (actions : List Action) :
    (protocolFault (setup.run info actions).host.sender = none ↔
      AtEach (fun before action => ¬(action = .hostReceive ∧
        readsUnplaced (setup.plan info) (setup.run info before) = true)) actions) ∧
    ∀ remaining : P → Nat, Delivers setup.producer remaining →
      remaining setup.source = setup.wireSize.toNat →
      AtEach (fun before action => Benign (setup.plan info) (setup.run info before) action)
        actions →
      ∀ error, (setup.run info actions).host.sender = .failed error → BudgetSpent error :=
  ⟨run_protocolFault_iff setup hbegin actions, fun _ hdelivers hsource hbenign =>
    (run_sound setup hbegin hdelivers hsource actions hbenign).budget⟩

end Runs

theorem shortUpload_delivers (mode : UploadMode) (wireSize : UInt64) :
    Delivers (shortUpload mode wireSize).producer id where
  read := by
    intro source limit hpos hle
    rw [id_eq] at hle
    refine ⟨_, _, rfl, ?_⟩
    simp only [List.length_replicate, id_eq]
    omega

/-- Two frames, the first one sent twice because its ACK was lost. -/
theorem upload_protocolError_free_shortUpload :
    let setup := shortUpload .stopAndWait 2
    let actions := [.deviceReceive 0, .dropToHost 0, .hostTimeout, .deviceReceive 1, .hostReceive]
    (protocolFault (setup.run (shortUploadInfo 2) actions).host.sender = none ↔
      AtEach (fun before action => ¬(action = .hostReceive ∧
        readsUnplaced (setup.plan (shortUploadInfo 2))
          (setup.run (shortUploadInfo 2) before) = true)) actions) ∧
      ∀ error, (setup.run (shortUploadInfo 2) actions).host.sender = .failed error →
        BudgetSpent error := by
  intro setup actions
  have hbegin : setup.begin.1 = .ok (shortUploadInfo 2) := by decide
  obtain ⟨hfault, hbudget⟩ :=
    upload_protocolError_free setup hbegin actions
  refine ⟨hfault, hbudget id (shortUpload_delivers _ _) rfl ?_⟩
  change AtEach _ (([] : List Action) ++ [.deviceReceive 0] ++ [.dropToHost 0] ++
    [.hostTimeout] ++ [.deviceReceive 1] ++ [.hostReceive])
  simp only [atEach_snoc_iff]
  exact ⟨⟨⟨⟨⟨atEach_nil _, by decide +kernel⟩, by decide +kernel⟩, by decide +kernel⟩,
    by decide +kernel⟩, by decide +kernel⟩

/-- The retransmission of the first frame of `shortUpload`, with its last CRC byte
damaged. -/
def damagedRetransmission : List UInt8 :=
  [0, 0, 5, 78, 66, 1, 1, 1, 2, 28, 2, 1, 1, 1, 1, 1, 1, 1, 1, 1, 1, 1, 1, 1, 1, 1, 2, 1, 1, 1, 6,
    7, 18, 181, 148, 153, 0]

/-- The ACK is lost and the retransmission is damaged. -/
def lostAck : List Action :=
  [.deviceReceive 0, .dropToHost 0, .hostTimeout, .corruptToDevice 0 damagedRetransmission,
    .deviceReceive 1, .hostReceive]

/-- The same with two frames in the window. -/
def lostAcks : List Action :=
  [.deviceReceive 0, .deviceReceive 0, .dropToHost 0, .dropToHost 0, .hostTimeout,
    .corruptToDevice 0 damagedRetransmission, .deviceReceive 1, .hostReceive]

theorem lostAck_protocolError :
    (shortUpload .stopAndWait 2).begin.1 = .ok (shortUploadInfo 2) ∧
      protocolFault ((shortUpload .stopAndWait 2).run (shortUploadInfo 2) lostAck).host.sender =
        some .mismatchedNack ∧
    (shortUpload .windowed 3).begin.1 = .ok (shortUploadInfo 3) ∧
      protocolFault ((shortUpload .windowed 3).run (shortUploadInfo 3) lostAcks).host.sender =
        some .noRetryFrontier := by
  decide +kernel


end EspNp2.HostUpload.UploadProtocolErrors
