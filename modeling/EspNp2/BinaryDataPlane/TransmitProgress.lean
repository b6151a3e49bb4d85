import EspNp2.BinaryDataPlane.TransmitLifecycle

/-!
The acknowledged position of a sending manager, and the frames that leave it
alone.
-/

namespace EspNp2.BinaryDataPlane.TransmitProgress

open EspNp2.BinaryDataPlane.BinaryCodec
open EspNp2.BinaryDataPlane.FrameRoundTrip
open EspNp2.BinaryDataPlane.Transfer
open EspNp2.BinaryDataPlane.TransferContract
open EspNp2.BinaryDataPlane.TransferTrace
open EspNp2.BinaryDataPlane.TransmitLifecycle

variable {W : Type}

/-- The counters that report how much was acknowledged. -/
def countersOf (m : TransferManager W) : UInt64 × UInt32 × UInt64 :=
  (m.transferredBytes, m.expectedSequence, m.expectedOffset)

/-- An ACK for exactly the outstanding frame. -/
structure ExactAck (m : TransferManager W) (frame : ParsedFrame) : Prop where
  type : frame.type = .ack
  crcValid : frame.crcValid = true
  transferId : frame.transferId = m.transferId
  status : frame.status = 0
  payloadLength : frame.payloadLength = 0
  waiting : m.txWaitingAck = true
  sequence : frame.sequence = m.txSequence + 1
  offset : frame.offset = m.txOffset + m.txLength.toUInt64

/-- A well-formed ACK or NACK for a position the sender has already passed, or an
ACK that repeats the position of the outstanding frame. -/
def StaleControl (m : TransferManager W) (frame : ParsedFrame) : Prop :=
  frame.crcValid = true ∧ frame.transferId = m.transferId ∧ frame.payloadLength = 0 ∧
    (frame.type = .ack ∧ frame.status = 0 ∧
        isStaleAckPair frame.sequence frame.offset m.txSequence m.txOffset = true ∨
      frame.type = .nack ∧ isValidNackReason frame.status = true ∧
        isOlderControlPair frame.sequence frame.offset m.txSequence m.txOffset = true)

section Counters

variable (d : Device W)

@[simp] theorem countersOf_endpointAbort (reason : TerminalReason) :
    countersOf (endpointAbort d reason).manager = countersOf d.manager := by
  rw [endpointAbort]
  split_ifs
  · cases habort : d.manager.endpoint.abort <;> simp only [habort] <;> rfl
  · rfl

@[simp] theorem countersOf_notifyTerminal (reason : TerminalReason) :
    countersOf (notifyTerminal d reason).manager = countersOf d.manager := by
  rw [notifyTerminal]
  split_ifs
  · cases hterminal : d.manager.endpoint.terminal <;> simp only [hterminal] <;> rfl
  · rfl

@[simp] theorem countersOf_recordTerminal (m : TransferManager W) (state : TransferState) :
    countersOf (recordTerminal m state) = countersOf m :=
  rfl

@[simp] theorem countersOf_closeTransfer (m : TransferManager W) (state : TransferState) :
    countersOf (closeTransfer m state) = countersOf m :=
  rfl

@[simp] theorem countersOf_finishActive (state : TransferState) (reason : TerminalReason) :
    countersOf (finishActive d state reason).manager = countersOf d.manager := by
  rw [finishActive]
  split_ifs <;> simp

@[simp] theorem writeWire_manager (type : FrameType) (transferId sequence : UInt32)
    (offset : UInt64) (status : UInt16) (payload : List UInt8) :
    (writeWire d type transferId sequence offset status payload).2.manager = d.manager := by
  rw [writeWire]
  cases encodeFrame type 0 transferId sequence offset status payload
      kMaxDecodedFrameBytes kMaxEncodedBodyBytes kMaxWireFrameBytes with
  | none => rfl
  | some frame => cases d.manager.output.write <;> rfl

@[simp] theorem countersOf_orOutputError (result : Bool × Device W) :
    countersOf (orOutputError result).manager = countersOf result.2.manager := by
  rw [orOutputError]
  split_ifs <;> simp

@[simp] theorem countersOf_sendNack (reason : NackReason) :
    countersOf (sendNack d reason).manager = countersOf d.manager := by
  simp [sendNack]

theorem countersOf_prepareTxPayload :
    countersOf (prepareTxPayload d).manager = countersOf d.manager := by
  rw [prepareTxPayload]
  cases d.manager.endpoint.produce with
  | none => simp
  | some produce =>
      simp only
      generalize (if (d.manager.totalBytes - d.manager.txOffset).toNat > kMaxPayloadBytes then
        kMaxPayloadBytes else (d.manager.totalBytes - d.manager.txOffset).toNat) = requested
      split_ifs
      · simp
      · rfl

theorem countersOf_sendCurrentTx (nowMs : UInt32) :
    countersOf (sendCurrentTx d nowMs).manager = countersOf d.manager := by
  rw [sendCurrentTx]
  split_ifs
  · rfl
  · simp
  · simp only
    split_ifs
    · simp
    · simp only [writeWire_manager]
      rfl

theorem countersOf_retryCurrentTx (nowMs : UInt32) :
    countersOf (retryCurrentTx d nowMs).manager = countersOf d.manager := by
  rw [retryCurrentTx]
  split_ifs
  · simp
  · rw [countersOf_sendCurrentTx]
    rfl

theorem countersOf_pollTx (nowMs : UInt32) :
    countersOf (pollTx d nowMs).manager = countersOf d.manager := by
  rw [pollTx]
  split_ifs
  · rw [countersOf_sendCurrentTx, countersOf_prepareTxPayload]
    rfl
  · rw [countersOf_sendCurrentTx, countersOf_prepareTxPayload]
  · rw [countersOf_sendCurrentTx]
  · rw [countersOf_retryCurrentTx]
  · rfl

theorem countersOf_anchorActivity (m : TransferManager W) (nowMs : UInt32) :
    countersOf (anchorActivity m nowMs) = countersOf m := by
  rw [anchorActivity]
  split_ifs <;> rfl

theorem countersOf_poll (nowMs : UInt32) :
    countersOf (poll d nowMs).manager = countersOf d.manager := by
  rw [poll]
  by_cases hidle : (!d.manager.active) = true
  · rw [if_pos hidle]
  · rw [if_neg hidle]
    simp only
    split
    · simp [countersOf_anchorActivity]
    · split
      · simp [countersOf_anchorActivity]
      · simp [countersOf_pollTx, countersOf_anchorActivity]

theorem countersOf_abort (transferId : UInt32) :
    countersOf (Transfer.abort d transferId).2.manager = countersOf d.manager := by
  rw [Transfer.abort]
  split_ifs <;> simp

theorem countersOf_handleTxNack (frame : ParsedFrame) (nowMs : UInt32) :
    countersOf (handleTxNack d frame nowMs).manager = countersOf d.manager := by
  rw [handleTxNack]
  split_ifs
  · simp
  · exact countersOf_retryCurrentTx d nowMs
  · rfl
  · simp

theorem countersOf_advanceTx : countersOf (advanceTx d).manager = countersOf d.manager := by
  rw [advanceTx]
  split_ifs
  · cases d.manager.endpoint.finish with
    | none => simp
    | some finish =>
        simp only
        split_ifs
        · simp
        · rw [countersOf_finishActive]
          rfl
  · rfl

/-- Only an exact ACK moves the counters of a sender. -/
theorem countersOf_handleTxAck (frame : ParsedFrame) (nowMs : UInt32) :
    countersOf (handleTxAck d frame nowMs).manager = countersOf d.manager ∨
      ExactAck d.manager frame ∧ countersOf (handleTxAck d frame nowMs).manager =
        (frame.offset, frame.sequence, frame.offset) := by
  rw [handleTxAck]
  by_cases hignored : frame.transferId ≠ d.manager.transferId ∨ frame.crcValid = false ∨
      d.manager.txWaitingAck = false
  · rw [if_pos hignored]
    exact .inl rfl
  · rw [if_neg hignored]
    simp only [not_or, ne_eq, not_not, Bool.not_eq_false] at hignored
    obtain ⟨hid, hcrc, hwaiting⟩ := hignored
    by_cases hpayload : frame.payloadLength ≠ 0
    · rw [if_pos hpayload]
      exact .inl (by simp)
    · rw [if_neg hpayload]
      cases htype : frame.type with
      | nack => exact .inl (countersOf_handleTxNack d frame nowMs)
      | data => exact .inl rfl
      | ack =>
          simp only
          split_ifs with hstatus hexact hstale
          · exact .inl (by simp)
          · refine .inr ⟨⟨htype, hcrc, hid, by simpa using hstatus, by simpa using hpayload,
              hwaiting, hexact.1, hexact.2⟩, ?_⟩
            rw [countersOf_advanceTx]
            simp only [countersOf, acceptAck, hexact.1, hexact.2]
          · exact .inl rfl
          · exact .inl (by simp)

/-- What one operation does to the counters of a running sender. -/
theorem countersOf_perform (hactive : d.manager.active = true)
    (htx : d.manager.direction = .deviceToHost) (op : Operation W) :
    countersOf (perform d op).manager = countersOf d.manager ∨
      ∃ decoded nowMs frame, op = .handleDecodedFrame decoded nowMs ∧
        parseDecoded decoded = some frame ∧ ExactAck d.manager frame ∧
        countersOf (perform d op).manager = (frame.offset, frame.sequence, frame.offset) := by
  have hbegin : ∀ size direction endpoint options,
      (beginCommon d size direction endpoint options).2 = d := by
    intro size direction endpoint options
    rw [beginCommon, if_pos hactive]
    split_ifs <;> rfl
  cases op with
  | beginRx size endpoint options => exact .inl (by rw [perform, beginRx, hbegin])
  | beginTx size endpoint => exact .inl (by rw [perform, beginTx, hbegin])
  | abort transferId => exact .inl (countersOf_abort d transferId)
  | getStatus transferId => exact .inl rfl
  | poll nowMs => exact .inl (countersOf_poll d nowMs)
  | handleDecodedFrame decoded nowMs =>
      rw [perform, handleDecodedFrame]
      cases hparse : parseDecoded decoded with
      | none =>
          left
          simp only
          split_ifs <;> simp
      | some frame =>
          cases hcrc : frame.crcValid with
          | false =>
              left
              simp only [hcrc, Bool.not_false, if_true]
              split_ifs <;> simp
          | true =>
              simp only [hcrc, hactive, htx, Bool.not_true, Bool.false_eq_true, if_false]
              split_ifs with htype
              · left
                rw [countersOf_sendNack]
                rfl
              · rcases countersOf_handleTxAck
                  { d with manager := { d.manager with activityPending := true } } frame nowMs
                  with hsame | ⟨hexact, hmoved⟩
                · left
                  simp only [hactive, htx] at hsame
                  exact hsame
                · right
                  refine ⟨decoded, nowMs, frame, rfl, hparse, { hexact with }, ?_⟩
                  simp only [hactive, htx] at hmoved
                  exact hmoved

end Counters

/-- The manager after a frame that only counts as activity. -/
def markActivity (d : Device W) : Device W :=
  { d with manager := { d.manager with activityPending := true } }

theorem not_exact_of_stale {sequence currentSequence : UInt32} {offset currentOffset : UInt64}
    (hnext : (currentSequence + 1).toNat = currentSequence.toNat + 1)
    (hstale : isStaleAckPair sequence offset currentSequence currentOffset = true) :
    sequence ≠ currentSequence + 1 := by
  rintro rfl
  simp only [isStaleAckPair, isOlderControlPair, Bool.or_eq_true, Bool.and_eq_true, beq_iff_eq,
    decide_eq_true_eq, UInt32.lt_iff_toNat_lt] at hstale
  rcases hstale with ⟨hsame, -⟩ | ⟨hless, -⟩
  · rw [hsame] at hnext
    omega
  · omega

/-- A stale ACK or an older NACK is ignored by `handle_tx_ack`. -/
theorem handleTxAck_stale {d : Device W} {frame : ParsedFrame}
    (hnext : (d.manager.txSequence + 1).toNat = d.manager.txSequence.toNat + 1)
    (hstale : StaleControl d.manager frame) (nowMs : UInt32) :
    handleTxAck d frame nowMs = d := by
  obtain ⟨hcrc, hid, hpayload, hpair⟩ := hstale
  rw [handleTxAck]
  by_cases hwaiting : d.manager.txWaitingAck = false
  · rw [if_pos (.inr (.inr hwaiting))]
  · rw [if_neg (by simp [hid, hcrc, hwaiting]), if_neg (by simp [hpayload])]
    rcases hpair with ⟨htype, hstatus, hack⟩ | ⟨htype, hreason, holder⟩
    · have hexact := not_exact_of_stale hnext hack
      simp only [htype, hstatus, ne_eq, not_true_eq_false, if_false, hexact, false_and, hack,
        if_true]
    · have hcurrent : ¬ (frame.sequence = d.manager.txSequence ∧
          frame.offset = d.manager.txOffset) := by
        rintro ⟨hsequence, -⟩
        simp only [isOlderControlPair, Bool.and_eq_true, decide_eq_true_eq,
          UInt32.lt_iff_toNat_lt, hsequence] at holder
        omega
      simp only [htype, handleTxNack, hreason, Bool.not_true, Bool.false_eq_true, if_false,
        hcurrent, holder, if_true]

theorem handleDecodedFrame_stale {d : Device W} (hactive : d.manager.active = true)
    (htx : d.manager.direction = .deviceToHost)
    (hnext : (d.manager.txSequence + 1).toNat = d.manager.txSequence.toNat + 1)
    {decoded : List UInt8} {frame : ParsedFrame} (hparse : parseDecoded decoded = some frame)
    (hstale : StaleControl d.manager frame) (nowMs : UInt32) :
    handleDecodedFrame d decoded nowMs = markActivity d := by
  have htype : ¬ (frame.type ≠ .ack ∧ frame.type ≠ .nack) := by
    rcases hstale.2.2.2 with ⟨htype, -⟩ | ⟨htype, -⟩ <;> simp [htype]
  have hignored := handleTxAck_stale (d := markActivity d) hnext hstale nowMs
  simp only [markActivity, htx, hactive] at hignored ⊢
  simp only [handleDecodedFrame, hparse, hstale.1, hactive, htx, Bool.not_true,
    Bool.false_eq_true, if_false, htype, hignored]

/-- What holds of a sending manager that has run so far. -/
structure TransmitCorrect (d : Device (Traced W)) : Prop where
  sends : ∀ before context size after,
    d.world.events = before ++ .begin context .deviceToHost size .ok :: after →
    SendSafe context (session after)
  completed : ∀ before context size after,
    d.world.events = before ++ .begin context .deviceToHost size .ok :: after →
    session after = after → d.manager.state = .completed →
    .finish context .ok ∈ after ∧ d.manager.transferredBytes = size ∧ d.manager.totalBytes = size
  numbered : d.manager.active = true → d.manager.direction = .deviceToHost →
    d.manager.expectedSequence = d.manager.txSequence ∧
      d.manager.expectedOffset = d.manager.txOffset ∧
      d.manager.transferredBytes = d.manager.txOffset ∧
      d.manager.txOffset.toNat = kMaxPayloadBytes * d.manager.txSequence.toNat ∧
      (d.manager.txSequence + 1).toNat = d.manager.txSequence.toNat + 1
  advances : d.manager.active = true → d.manager.direction = .deviceToHost →
    ∀ op : Operation (Traced W), countersOf (perform d op).manager = countersOf d.manager ∨
      ∃ decoded nowMs frame, op = .handleDecodedFrame decoded nowMs ∧
        parseDecoded decoded = some frame ∧ ExactAck d.manager frame ∧
        countersOf (perform d op).manager = (frame.offset, frame.sequence, frame.offset) ∧
        d.manager.transferredBytes.toNat < frame.offset.toNat ∧
        d.manager.expectedSequence.toNat < frame.sequence.toNat
  stale : d.manager.active = true → d.manager.direction = .deviceToHost →
    ∀ decoded nowMs frame, parseDecoded decoded = some frame → StaleControl d.manager frame →
      handleDecodedFrame d decoded nowMs = markActivity d

theorem numbered_of_running {d : Device W} (hconsistent : Consistent d.manager)
    (hpositioned : Positioned (progressOf d.manager))
    (htx : d.manager.direction = .deviceToHost) :
    d.manager.expectedSequence = d.manager.txSequence ∧
      d.manager.expectedOffset = d.manager.txOffset ∧
      d.manager.transferredBytes = d.manager.txOffset ∧
      d.manager.txOffset.toNat = kMaxPayloadBytes * d.manager.txSequence.toNat ∧
      (d.manager.txSequence + 1).toNat = d.manager.txSequence.toNat + 1 := by
  have hoffset : d.manager.expectedOffset = d.manager.transferredBytes := hpositioned.offset_eq
  have hsequence := hconsistent.sequence_eq htx
  have htxOffset := hconsistent.offset_eq htx
  refine ⟨hsequence.symm, htxOffset.symm, by rw [htxOffset, hoffset], ?_, ?_⟩
  · rw [htxOffset, hoffset, hsequence]
    exact hpositioned.numbered htx
  · rw [hsequence]
    exact hpositioned.toNat_expectedSequence htx

/-- An exact ACK moves the position forward by the payload of the outstanding
frame. -/
theorem exactAck_advances {d : Device W} (hconsistent : Consistent d.manager)
    (hpositioned : Positioned (progressOf d.manager))
    (htx : d.manager.direction = .deviceToHost) {frame : ParsedFrame}
    (hexact : ExactAck d.manager frame) :
    d.manager.transferredBytes.toNat < frame.offset.toNat ∧
      d.manager.expectedSequence.toNat < frame.sequence.toNat := by
  obtain ⟨hsequence, -, htransferred, -, hnext⟩ := numbered_of_running hconsistent hpositioned htx
  have hlength := hconsistent.payload hexact.waiting
  have hpos := hpositioned.chunk_pos
  have hadd := toNat_advance (chunk_fits hpositioned hlength)
  rw [toNat_ofNat_chunk hlength] at hadd
  constructor
  · rw [hexact.offset, ← htransferred, hconsistent.length_eq hexact.waiting]
    have hprogress : (progressOf d.manager).transferredBytes = d.manager.transferredBytes := rfl
    rw [hprogress] at hadd
    omega
  · rw [hexact.sequence, hsequence]
    omega

theorem exists_sendCycle {before after : List Event} {context : Option Nat} {size : UInt64}
    {last : Phase}
    (hreaches : Reaches (before ++ .begin context .deviceToHost size .ok :: after) last) :
    ∃ transferId phase, SendCycle context transferId size.toNat (session after) phase ∧
      (session after = after → phase = last) := by
  obtain ⟨started, phase, hbegin, hsession, -, hlast⟩ := exists_session hreaches rfl
  cases hbegin with
  | beginTx transferId hid hbound =>
      exact ⟨transferId, phase, sendCycle_run hid hbound hsession
        fun event => startsTransfer_of_mem_session, hlast⟩

theorem exists_reaches {output : OutputSink W} {d : Device (Traced W)}
    (h : Holds (traceContract output) d) : ∃ last, Reaches d.world.events last := by
  cases hactive : d.manager.active with
  | false => exact ⟨_, (h.inactive hactive).1⟩
  | true =>
      obtain ⟨-, -, -, -, phase, hreaches, -⟩ := h.active hactive
      exact ⟨phase, hreaches⟩

/-- The terminal record of the last session is the one the manager reports. -/
theorem completed_session {output : OutputSink W} {d : Device (Traced W)}
    (h : Holds (traceContract output) d) {before after : List Event} {context : Option Nat}
    {size : UInt64}
    (hbegin : d.world.events = before ++ .begin context .deviceToHost size .ok :: after)
    (hlast : session after = after) (hstate : d.manager.state = .completed) :
    .finish context .ok ∈ after ∧ d.manager.transferredBytes = size ∧
      d.manager.totalBytes = size := by
  have hidle : d.manager.active = false := by
    cases hactive : d.manager.active with
    | false => rfl
    | true => simp [(h.active hactive).1.state] at hstate
  obtain ⟨hreaches, hinfo⟩ := h.inactive hidle
  rw [hbegin] at hreaches hinfo
  obtain ⟨transferId, phase, hcycle, hphase⟩ := exists_sendCycle hreaches
  obtain rfl := hphase hlast
  rw [hlast] at hcycle
  obtain ⟨frames, -, info, hterminal, hcompleted⟩ := hcycle.ledger
  have hrecord : info = currentInfo d.manager := by
    rw [← hinfo, lastInfo, List.filterMap_append, List.filterMap_cons_none rfl,
      List.getLast?_append, hterminal]
    rfl
  rw [hrecord] at hcompleted
  obtain ⟨hfinish, hfull, htotal⟩ := hcompleted hstate
  have htotal' : d.manager.totalBytes = size := UInt64.toNat_inj.mp htotal
  exact ⟨hfinish, hfull.trans htotal', htotal'⟩

/-- Transmit-side correctness over every run of the manager. -/
theorem transmit_correct (nextTransferId : UInt32) (output : OutputSink W) (world : W)
    (ops : List (Operation W)) :
    TransmitCorrect (tracedRun nextTransferId output world ops) := by
  have hholds := traced_run nextTransferId output world ops
  generalize tracedRun nextTransferId output world ops = d at hholds ⊢
  refine
    { sends := fun before context size after hbegin => ?_
      completed := fun before context size after hbegin hlast hstate =>
        completed_session hholds hbegin hlast hstate
      numbered := fun hactive htx => ?_
      advances := fun hactive htx op => ?_
      stale := fun hactive htx decoded nowMs frame hparse hstale => ?_ }
  · obtain ⟨last, hreaches⟩ := exists_reaches hholds
    rw [hbegin] at hreaches
    obtain ⟨transferId, phase, hcycle, -⟩ := exists_sendCycle hreaches
    exact hcycle.sendSafe
  · obtain ⟨-, hconsistent, hpositioned, -⟩ := hholds.active hactive
    exact numbered_of_running hconsistent hpositioned htx
  · obtain ⟨-, hconsistent, hpositioned, -⟩ := hholds.active hactive
    rcases countersOf_perform d hactive htx op with hsame | ⟨decoded, nowMs, frame, hop, hparse,
      hexact, hmoved⟩
    · exact .inl hsame
    · exact .inr ⟨decoded, nowMs, frame, hop, hparse, hexact, hmoved,
        exactAck_advances hconsistent hpositioned htx hexact⟩
  · obtain ⟨-, hconsistent, hpositioned, -⟩ := hholds.active hactive
    exact handleDecodedFrame_stale hactive htx
      (numbered_of_running hconsistent hpositioned htx).2.2.2.2 hparse hstale nowMs

/-- An endpoint that produces zeros. -/
def zeroEndpoint : TransferEndpoint Unit :=
  { context := some 7
    begin := some fun w _ _ => (.ok, w)
    consume := none
    produce := some fun w _ requested => ((.ok, List.replicate requested 0), w)
    finish := some fun w => (.ok, w)
    abort := some fun w _ => w
    terminal := some fun w _ _ => w }

/-- A sender of one byte that has transmitted its only frame. -/
def waitingSender : Device (Traced Unit) :=
  tracedRun 1 { write := some fun w _ => (true, w) } () [.beginTx 1 zeroEndpoint, .poll 1]

/-- A stale ACK does change the manager: it re-arms the receiver timeout. -/
theorem stale_ack_marks_activity :
    waitingSender.manager.active = true ∧ waitingSender.manager.direction = .deviceToHost ∧
      parseDecoded (decodedImage .ack 0 1 0 0 0 []) = some (imageFrame .ack 1 0 0 0 []) ∧
      StaleControl waitingSender.manager (imageFrame .ack 1 0 0 0 []) ∧
      handleDecodedFrame waitingSender (decodedImage .ack 0 1 0 0 0 []) 2 ≠ waitingSender := by
  have hpending : waitingSender.manager.activityPending = false := by decide +kernel
  have hmarked : (handleDecodedFrame waitingSender
      (decodedImage .ack 0 1 0 0 0 []) 2).manager.activityPending = true := by decide +kernel
  refine ⟨by decide +kernel, by decide +kernel,
    parseDecoded_decodedImage .ack 1 0 0 0 [] (by decide) (by decide) rfl, ?_, ?_⟩
  · refine ⟨rfl, by decide +kernel, rfl, .inl ⟨rfl, rfl, by decide +kernel⟩⟩
  · intro hsame
    rw [hsame, hpending] at hmarked
    exact Bool.false_ne_true hmarked

end EspNp2.BinaryDataPlane.TransmitProgress
