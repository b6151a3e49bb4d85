import EspNp2.FileTransfer.ZeroRleDecoder
import EspNp2.HostUpload.ZeroRleWire

/-!
The second pass hands out the wire stream that the first pass planned, in payloads
the device's decoder turns back into the file.
-/

namespace EspNp2.HostUpload.CompressedUpload

open EspNp2.FileTransfer.ZeroRleFormat (Parse inLiteral parseByte run_inLiteral run_literal
  run_zeroRun run_zeroRle header header_length)
open EspNp2.FileTransfer.ZeroRleDecoder (Decoder Refines collect consume consume_collect
  consumeAll consumeAll_ok finish_ok init refines_init)
open EspNp2.HostUpload.ZeroRleProducer
open EspNp2.HostUpload.ZeroRleWire
open EspNp2.Library.Transducer

/-- The bytes from logical offset `start` up to `stop`. -/
def slice (source : List UInt8) (start stop : Nat) : List UInt8 :=
  (source.drop start).take (stop - start)

theorem slice_append (source : List UInt8) {start middle stop : Nat} (h : start ≤ middle)
    (h' : middle ≤ stop) :
    slice source start middle ++ slice source middle stop = slice source start stop := by
  have hdrop : source.drop middle = (source.drop start).drop (middle - start) := by
    rw [List.drop_drop, Nat.add_sub_cancel' h]
  rw [slice, slice, slice, hdrop, ← List.take_add, Nat.add_comm,
    show stop - middle + (middle - start) = stop - start by omega]

theorem take_append_slice (source : List UInt8) {start stop : Nat} (h : start ≤ stop) :
    source.take start ++ slice source start stop = source.take stop := by
  have hall := slice_append source (Nat.zero_le start) h
  simpa [slice] using hall

theorem length_slice {source : List UInt8} (start : Nat) {stop : Nat}
    (hstop : stop ≤ source.length) : (slice source start stop).length = stop - start := by
  rw [slice, List.length_take, List.length_drop]
  omega

/-- The producer between two rounds of `read`. -/
structure ProducerInv (source : List UInt8) (p : Producer) : Prop where
  offset_le : p.logicalOffset ≤ source.length
  position : p.sourceRunRemaining ≠ 0 → p.position = p.logicalOffset
  digested : p.digested = source.take p.logicalOffset
  logicalRead : p.logicalRead = p.logicalOffset
  run : p.sourceRunRemaining ≠ 0 → ∃ literal, p.sourceRunLiteral = some literal ∧
    runLength literal (source.drop p.logicalOffset) = p.sourceRunRemaining
  record : p.recordRemaining ≠ 0 → p.recordLiteral = true ∧ p.sourceRunLiteral = some true ∧
    p.recordRemaining = p.sourceRunRemaining
  headerSent : p.headerOffset = p.header.length
  done : p.done = decide (p.logicalOffset = source.length)

/-- The wire bytes a producer has still to hand out. -/
def pending (source : List UInt8) (p : Producer) : List UInt8 :=
  slice source p.logicalOffset (p.logicalOffset + p.recordRemaining) ++
    wireOf (source.drop (p.logicalOffset + p.recordRemaining))

/-- A run that is not over at `offset`. -/
theorem runLength_drop_le (literal : Bool) (source : List UInt8) (offset : Nat) :
    offset + runLength literal (source.drop offset) ≤ source.length ∨
      runLength literal (source.drop offset) = 0 := by
  have hle := runLength_le literal (source.drop offset)
  rw [List.length_drop] at hle
  omega

/-- Reading on in a run leaves the rest of the run. -/
theorem runLength_drop {literal : Bool} {source : List UInt8} {offset count : Nat}
    (hcount : count ≤ runLength literal (source.drop offset)) :
    runLength literal (source.drop (offset + count)) =
      runLength literal (source.drop offset) - count := by
  obtain ⟨run, tail, hsplit, hrun, hstop, hlength⟩ := exists_run literal (source.drop offset)
  rw [hlength] at hcount ⊢
  rw [← List.drop_drop, hsplit, List.drop_append_of_le_length hcount,
    runLength_append (fun byte hbyte => hrun byte (List.mem_of_mem_drop hbyte)) hstop,
    List.length_drop]

/-- The producer after reading `count` more source bytes. -/
def advance (source : List UInt8) (p : Producer) (count : Nat) : Producer :=
  { p with
    position := p.position + count
    digested := p.digested ++ slice source p.logicalOffset (p.logicalOffset + count)
    logicalRead := p.logicalRead + count
    logicalOffset := p.logicalOffset + count
    recordRemaining := p.recordRemaining - count
    sourceRunRemaining := p.sourceRunRemaining - count }

theorem advance_advance (source : List UInt8) (p : Producer) (first second : Nat) :
    advance source (advance source p first) second = advance source p (first + second) := by
  have hslice := slice_append source (Nat.le_add_right p.logicalOffset first)
    (Nat.le_add_right (p.logicalOffset + first) second)
  rw [Nat.add_assoc] at hslice
  simp only [advance, List.append_assoc, hslice, Nat.add_assoc, Nat.sub_add_eq]

theorem readSource_ok {source : List UInt8} {p : Producer}
    (hposition : p.position = p.logicalOffset)
    {count : Nat} (hcount : p.logicalOffset + count ≤ source.length) (error : ProducerError) :
    readSource source p count error =
      .ok (slice source p.logicalOffset (p.logicalOffset + count), advance source p count) := by
  have hdata : (source.drop p.position).take count =
      slice source p.logicalOffset (p.logicalOffset + count) := by
    rw [hposition, slice, Nat.add_sub_cancel_left]
  have hlength := length_slice p.logicalOffset hcount
  rw [Nat.add_sub_cancel_left] at hlength
  rw [readSource]
  simp only [hdata, hlength, ne_eq, not_true_eq_false, if_false]
  rfl

section Production

variable {Digest : Type} {source : List UInt8} {plan : UploadPlan Digest}

/-- `_consume_zero_run` reads the whole record. -/
theorem consumeZeroRun_ok {p : Producer} (rounds : Nat) (hrounds : p.recordRemaining ≤ rounds)
    (hposition : p.position = p.logicalOffset)
    (hfits : p.logicalOffset + p.recordRemaining ≤ source.length) :
    consumeZeroRun source plan rounds p =
      .ok (markDone plan (advance source p p.recordRemaining)) := by
  have hstop : ∀ p : Producer, p.recordRemaining = 0 →
      markDone plan p = markDone plan (advance source p p.recordRemaining) := by
    intro p hzero
    rw [hzero]
    simp [advance, slice]
  induction rounds generalizing p with
  | zero =>
      unfold consumeZeroRun
      rw [if_neg (by omega), hstop p (by omega)]
  | succ rounds ih =>
      unfold consumeZeroRun
      by_cases hsome : p.recordRemaining ≠ 0
      · rw [if_pos hsome]
        generalize hcount : min p.recordRemaining zeroRleScanBytes = count
        rw [zeroRleScanBytes] at hcount
        have hremaining : (advance source p count).recordRemaining = p.recordRemaining - count :=
          rfl
        have hoffset : (advance source p count).logicalOffset = p.logicalOffset + count := rfl
        simp only [readSource_ok hposition (show p.logicalOffset + count ≤ source.length by omega),
          bind, Except.bind]
        rw [ih (p := advance source p count) (by omega)
          (by simp only [advance, hposition]) (by omega), advance_advance, hremaining,
          show count + (p.recordRemaining - count) = p.recordRemaining by omega]
      · rw [if_neg hsome, hstop p (by omega)]

/-- The run at the offset is known and the file is positioned there. -/
structure Prepared (source : List UInt8) (p : Producer) (literal : Bool) : Prop where
  literal_eq : p.sourceRunLiteral = some literal
  remaining : p.sourceRunRemaining ≠ 0
  run : runLength literal (source.drop p.logicalOffset) = p.sourceRunRemaining
  position : p.position = p.logicalOffset

theorem prepared_of_run {p : Producer} (h : ProducerInv source p)
    (hremaining : p.sourceRunRemaining ≠ 0) : ∃ literal, Prepared source p literal := by
  obtain ⟨literal, hliteral, hrun⟩ := h.run hremaining
  exact ⟨literal, hliteral, hremaining, hrun, h.position hremaining⟩

theorem prepareSourceRun_ok {p : Producer} (h : ProducerInv source p)
    (hbounded : BoundedRuns source) (hsize : plan.sizeBytes = source.length)
    (hmore : p.logicalOffset < source.length) (hrecord : p.recordRemaining = 0) :
    ∃ p' literal, prepareSourceRun source plan p = .ok p' ∧ ProducerInv source p' ∧
      Prepared source p' literal ∧ p'.logicalOffset = p.logicalOffset ∧
      p'.recordRemaining = 0 ∧ p'.wireReturned = p.wireReturned := by
  rw [prepareSourceRun]
  by_cases hremaining : p.sourceRunRemaining ≠ 0
  · obtain ⟨literal, hprepared⟩ := prepared_of_run h hremaining
    rw [if_pos hremaining]
    exact ⟨p, literal, rfl, h, hprepared, rfl, hrecord, rfl⟩
  · have hdrop := List.drop_eq_getElem_cons hmore
    rw [if_neg hremaining, if_neg (by omega), scanRun_ok hbounded hdrop]
    have hpos := runLength_cons_pos source[p.logicalOffset] (source.drop (p.logicalOffset + 1))
    rw [← hdrop] at hpos ⊢
    refine ⟨_, decide (source[p.logicalOffset] ≠ 0), rfl, ?_, ⟨rfl, hpos.ne', rfl, rfl⟩, rfl,
      hrecord, rfl⟩
    exact
      { h with
        position := fun _ => rfl
        run := fun _ => ⟨_, rfl, rfl⟩
        record := fun hsome => absurd hrecord hsome }

theorem Prepared.fits {p : Producer} {literal : Bool} (h : Prepared source p literal) :
    p.logicalOffset + p.sourceRunRemaining ≤ source.length := by
  have hremaining := h.remaining
  have hle := runLength_drop_le literal source p.logicalOffset
  rw [h.run] at hle
  omega

theorem nextLength_bounds (literal : Bool) {remaining : Nat} (hremaining : remaining ≠ 0) :
    0 < nextLength literal remaining ∧ nextLength literal remaining ≤ remaining := by
  rw [nextLength, zeroRleDataLogicalBudget]
  split_ifs <;> omega

/-- A run of the file that is prepared is as short as a record may be. -/
theorem Prepared.length_lt {p : Producer} {literal : Bool} (h : Prepared source p literal)
    (hbounded : BoundedRuns source) : nextLength literal p.sourceRunRemaining < 2 ^ 32 := by
  cases literal with
  | false =>
      simp only [nextLength, Bool.false_eq_true, if_false, zeroRleDataLogicalBudget]
      omega
  | true =>
      obtain ⟨run, tail, hsplit, hrun, -, hlength⟩ := exists_run true (source.drop p.logicalOffset)
      have hinfix : run <:+: source := by
        refine ⟨source.take p.logicalOffset, tail, ?_⟩
        rw [List.append_assoc, ← hsplit, List.take_append_drop]
      have hshort := hbounded run hinfix hrun
      rw [← hlength, h.run, zeroRleMaxRecordBytes] at hshort
      simp only [nextLength, if_true]
      omega

/-- The producer that has opened the record at its offset. -/
def opened (p : Producer) (literal : Bool) (length : Nat) : Producer :=
  { p with
    header := header literal length
    headerOffset := 0
    recordLiteral := literal
    recordRemaining := length }

theorem startRecord_ok {p : Producer} {literal : Bool} (h : Prepared source p literal)
    (hbounded : BoundedRuns source) :
    startRecord source plan p = .ok
      (opened p literal (nextLength literal p.sourceRunRemaining)) := by
  have hsame : prepareSourceRun source plan p = .ok p := by
    rw [prepareSourceRun, if_pos h.remaining]
  have hlt := h.length_lt hbounded
  rw [startRecord, hsame]
  simp only [bind, Except.bind]
  split
  · rename_i hnone
    rw [h.literal_eq] at hnone
    cases hnone
  · rename_i other hother
    obtain rfl : literal = other := Option.some.inj (h.literal_eq.symm.trans hother)
    rw [if_neg h.remaining, if_neg (by omega)]
    cases literal <;> rfl

/-- The wire stream at a record boundary. -/
theorem wireOf_prepared {p : Producer} {literal : Bool} (h : Prepared source p literal) :
    wireOf (source.drop p.logicalOffset) =
      header literal (nextLength literal p.sourceRunRemaining) ++
        (if literal then slice source p.logicalOffset
          (p.logicalOffset + nextLength literal p.sourceRunRemaining) else []) ++
        wireOf (source.drop (p.logicalOffset + nextLength literal p.sourceRunRemaining)) := by
  obtain ⟨run, tail, hsplit, hrun, hstop, hlength⟩ :=
    exists_run literal (source.drop p.logicalOffset)
  rw [h.run] at hlength
  have hsome : run ≠ [] := by
    rw [← List.length_pos_iff, ← hlength]
    exact Nat.pos_of_ne_zero h.remaining
  have hle := (nextLength_bounds literal h.remaining).2
  have htake : slice source p.logicalOffset
      (p.logicalOffset + nextLength literal p.sourceRunRemaining) =
      run.take (nextLength literal p.sourceRunRemaining) := by
    rw [slice, Nat.add_sub_cancel_left, hsplit, List.take_append_of_le_length (by omega)]
  rw [htake, ← List.drop_drop, hsplit, wireOf_run hrun hsome hstop, ← hlength,
    List.drop_append_of_le_length (by omega)]

/-- What `read` has done since it started with the producer `p`. -/
structure ReadInv (source : List UInt8) (maximum : Nat) (p : Producer) (r : Reading) : Prop where
  inv : ProducerInv source r.producer
  fits : r.output.length ≤ maximum
  wireReturned : r.producer.wireReturned = p.wireReturned
  forward : p.logicalOffset ≤ r.producer.logicalOffset
  work : r.logicalWork = r.producer.logicalOffset - p.logicalOffset
  budget : r.logicalWork ≤ zeroRleDataLogicalBudget
  stream : pending source p = r.output ++ pending source r.producer
  parsed : run (parseByte source.length) (inLiteral p.recordRemaining p.logicalOffset) r.output =
    (inLiteral r.producer.recordRemaining r.producer.logicalOffset,
      slice source p.logicalOffset r.producer.logicalOffset)

/-- A change of the producer that moves neither the offset nor the record. -/
theorem ReadInv.withProducer {maximum : Nat} {p p' : Producer} {r : Reading}
    (h : ReadInv source maximum p r) (hinv : ProducerInv source p')
    (hoffset : p'.logicalOffset = r.producer.logicalOffset)
    (hremaining : p'.recordRemaining = r.producer.recordRemaining)
    (hreturned : p'.wireReturned = r.producer.wireReturned) :
    ReadInv source maximum p { r with producer := p' } := by
  refine ⟨hinv, h.fits, hreturned.trans h.wireReturned, ?_, ?_, h.budget, ?_, ?_⟩
  · rw [hoffset]
    exact h.forward
  · rw [hoffset]
    exact h.work
  · rw [pending, pending, hoffset, hremaining]
    exact h.stream
  · rw [hoffset, hremaining]
    exact h.parsed

/-- More output that the byte machine reads as `count` more source bytes. -/
theorem ReadInv.emit {maximum : Nat} {p p' : Producer} {r : Reading} {data : List UInt8}
    {count : Nat} (h : ReadInv source maximum p r) (hinv : ProducerInv source p')
    (hfits : r.output.length + data.length ≤ maximum)
    (hreturned : p'.wireReturned = r.producer.wireReturned)
    (hoffset : p'.logicalOffset = r.producer.logicalOffset + count)
    (hbudget : r.logicalWork + count ≤ zeroRleDataLogicalBudget)
    (hstream : pending source r.producer = data ++ pending source p')
    (hparsed : run (parseByte source.length)
      (inLiteral r.producer.recordRemaining r.producer.logicalOffset) data =
      (inLiteral p'.recordRemaining p'.logicalOffset,
        slice source r.producer.logicalOffset p'.logicalOffset)) :
    ReadInv source maximum p
      { producer := p', output := r.output ++ data, logicalWork := r.logicalWork + count } := by
  have hforward := h.forward
  have hwork := h.work
  refine ⟨hinv, by simpa using hfits, hreturned.trans h.wireReturned, ?_, ?_, hbudget, ?_, ?_⟩
  · simp only
    omega
  · simp only
    omega
  · rw [h.stream, hstream, List.append_assoc]
  · rw [run_append, h.parsed, hparsed, slice_append source h.forward (by omega)]

theorem pending_boundary {p : Producer} (hrecord : p.recordRemaining = 0) :
    pending source p = wireOf (source.drop p.logicalOffset) := by
  rw [pending, hrecord]
  simp [slice]

theorem pending_nil {p : Producer} (hrecord : p.recordRemaining = 0)
    (hend : source.length ≤ p.logicalOffset) : pending source p = [] := by
  rw [pending_boundary hrecord, List.drop_of_length_le hend, wireOf_nil]

/-- A prepared producer after `count` more bytes of its run. -/
theorem producerInv_advance {p : Producer} {literal : Bool} {count : Nat}
    (hsize : plan.sizeBytes = source.length) (hprepared : Prepared source p literal)
    (hdigested : p.digested = source.take p.logicalOffset)
    (hread : p.logicalRead = p.logicalOffset) (hheader : p.headerOffset = p.header.length)
    (hdone : p.done = decide (p.logicalOffset = source.length))
    (hcount : count ≤ p.sourceRunRemaining)
    (hrecord : p.recordRemaining - count ≠ 0 → p.recordLiteral = true ∧ literal = true ∧
      p.recordRemaining = p.sourceRunRemaining) :
    ProducerInv source (markDone plan (advance source p count)) := by
  have hfits := hprepared.fits
  have hremaining := hprepared.remaining
  have hadvanced : ∀ done, done = decide (p.logicalOffset + count = source.length) →
      ProducerInv source { advance source p count with done := done } := by
    intro done hdone
    refine
      { offset_le := ?_
        position := fun _ => ?_
        digested := ?_
        logicalRead := ?_
        run := fun _ => ⟨literal, hprepared.literal_eq, ?_⟩
        record := fun hsome => ?_
        headerSent := hheader
        done := hdone }
    · simp only [advance]
      omega
    · simp only [advance, hprepared.position]
    · simp only [advance, hdigested]
      exact take_append_slice source (Nat.le_add_right _ _)
    · simp only [advance, hread]
    · simp only [advance]
      rw [runLength_drop (by rw [hprepared.run]; exact hcount), hprepared.run]
    · obtain ⟨hliteral, rfl, hwhole⟩ := hrecord hsome
      refine ⟨hliteral, hprepared.literal_eq, ?_⟩
      simp only [advance]
      omega
  rw [markDone]
  split
  · rename_i hend
    apply hadvanced true
    have hend : p.logicalOffset + count ≥ plan.sizeBytes := hend
    rw [eq_comm, decide_eq_true_eq]
    omega
  · rename_i hmore
    apply hadvanced
    have hmore : ¬p.logicalOffset + count ≥ plan.sizeBytes := hmore
    rw [hdone, decide_eq_decide]
    omega

section MarkDone

variable (plan : UploadPlan Digest) (p : Producer)

@[simp] theorem markDone_logicalOffset : (markDone plan p).logicalOffset = p.logicalOffset := by
  rw [markDone]
  split <;> rfl

@[simp] theorem markDone_recordRemaining :
    (markDone plan p).recordRemaining = p.recordRemaining := by
  rw [markDone]
  split <;> rfl

@[simp] theorem markDone_wireReturned : (markDone plan p).wireReturned = p.wireReturned := by
  rw [markDone]
  split <;> rfl

end MarkDone

/-- A `read` that has put out nothing has done nothing. -/
theorem ReadInv.of_output_nil {maximum : Nat} {p : Producer} {r : Reading}
    (h : ReadInv source maximum p r) (houtput : r.output = []) :
    r.logicalWork = 0 ∧ (r.producer.recordRemaining = 0 → p.recordRemaining = 0) := by
  have hparsed := congrArg Prod.fst h.parsed
  rw [houtput, run_nil] at hparsed
  have hproduced := congrArg Parse.produced hparsed
  have hphase := congrArg Parse.phase hparsed
  simp only [inLiteral] at hproduced hphase
  have hwork := h.work
  refine ⟨by omega, fun hzero => ?_⟩
  rw [hzero, if_pos rfl] at hphase
  split at hphase
  · assumption
  · cases hphase

/-- What the loop does in one of its parts. -/
def Continues (source : List UInt8) (maximum : Nat) (p : Producer) (length : Nat) : Flow → Prop
  | .leave r => ReadInv source maximum p r ∧ r.output ≠ []
  | .next r => ReadInv source maximum p r ∧ length < r.output.length

/-- The block that opens the next record when there is none. -/
theorem openRecord_ok {maximum : Nat} {p : Producer} {r : Reading}
    (h : ReadInv source maximum p r) (hbounded : BoundedRuns source)
    (hsize : plan.sizeBytes = source.length) (hroom : r.output.length < maximum)
    (hplanned : maximum ≤ (pending source p).length)
    (hheader : p.recordRemaining = 0 → zeroRleRecordOverhead ≤ maximum) :
    (∃ r', openRecord source plan maximum r = .ok (.leave r') ∧
      ReadInv source maximum p r' ∧ r'.output ≠ []) ∨
    (openRecord source plan maximum r = .ok (.next r) ∧ r.producer.recordRemaining ≠ 0) ∨
    ∃ p' literal, openRecord source plan maximum r = .ok (.next { r with
        producer := opened p' literal (nextLength literal p'.sourceRunRemaining) }) ∧
      ReadInv source maximum p { r with producer := p' } ∧ Prepared source p' literal ∧
      p'.recordRemaining = 0 ∧ r.output.length + zeroRleRecordOverhead ≤ maximum ∧
      (literal = false → r.logicalWork + nextLength literal p'.sourceRunRemaining ≤
        zeroRleDataLogicalBudget) := by
  rw [openRecord]
  by_cases hrecord : r.producer.recordRemaining ≠ 0
  · rw [if_pos hrecord]
    exact .inr (.inl ⟨rfl, hrecord⟩)
  · rw [if_neg hrecord]
    rw [ne_eq, not_not] at hrecord
    have hmore : r.producer.logicalOffset < source.length := by
      by_contra hend
      have hstream := h.stream
      rw [pending_nil hrecord (by omega), List.append_nil] at hstream
      rw [hstream] at hplanned
      omega
    obtain ⟨p', literal, hprepare, hinv, hprepared, hoffset, hremaining, hreturned⟩ :=
      prepareSourceRun_ok h.inv hbounded hsize hmore hrecord
    have hread := h.withProducer hinv hoffset (hremaining.trans hrecord.symm) hreturned
    have hlength := nextLength_bounds literal hprepared.remaining
    rw [if_neg (by omega), hprepare]
    simp only [bind, Except.bind, hprepared.literal_eq, if_neg hprepared.remaining]
    by_cases hnarrow : maximum - r.output.length < zeroRleRecordOverhead
    · rw [if_pos hnarrow]
      have houtput : r.output ≠ [] := by
        intro hnil
        have hwide := hheader ((h.of_output_nil hnil).2 hrecord)
        rw [hnil, List.length_nil] at hnarrow
        omega
      rw [leaveOr, if_pos houtput]
      exact .inl ⟨_, rfl, hread, houtput⟩
    · rw [if_neg hnarrow]
      by_cases hover : literal = false ∧ r.logicalWork + nextLength literal p'.sourceRunRemaining >
          zeroRleDataLogicalBudget
      · rw [if_pos hover]
        have houtput : r.output ≠ [] := by
          intro hnil
          obtain ⟨rfl, hover⟩ := hover
          rw [(h.of_output_nil hnil).1, nextLength, if_neg Bool.false_ne_true] at hover
          omega
        rw [leaveOr, if_pos houtput]
        exact .inl ⟨_, rfl, hread, houtput⟩
      · rw [if_neg hover, startRecord_ok hprepared hbounded]
        refine .inr (.inr ⟨p', literal, rfl, hread, hprepared, hremaining, by omega, ?_⟩)
        intro hzero
        by_contra hbig
        exact hover ⟨hzero, by omega⟩

/-- The pending bytes of a literal record, cut after its next `count` bytes. -/
theorem pending_literal {p p' : Producer} {count : Nat} (hcount : count ≤ p.recordRemaining)
    (hoffset : p'.logicalOffset = p.logicalOffset + count)
    (hremaining : p'.recordRemaining = p.recordRemaining - count) :
    pending source p =
      slice source p.logicalOffset (p.logicalOffset + count) ++ pending source p' := by
  have hend : p.logicalOffset + count + (p.recordRemaining - count) =
      p.logicalOffset + p.recordRemaining := by omega
  rw [pending, pending, hoffset, hremaining, hend, ← List.append_assoc,
    slice_append source (by omega) (by omega)]

/-- The literal bytes of an open record. -/
theorem emitRecord_literal {maximum : Nat} {p : Producer} {r : Reading}
    (h : ReadInv source maximum p r) (hsize : plan.sizeBytes = source.length)
    (hroom : r.output.length < maximum) (hrecord : r.producer.recordRemaining ≠ 0) :
    ∃ flow, emitRecord source plan maximum r = .ok flow ∧
      Continues source maximum p r.output.length flow := by
  obtain ⟨hliteral, hrun, hwhole⟩ := h.inv.record hrecord
  obtain ⟨literal, hprepared⟩ := prepared_of_run h.inv (by omega)
  obtain rfl : literal = true := Option.some.inj (hprepared.literal_eq.symm.trans hrun)
  have hfits := hprepared.fits
  rw [emitRecord]
  simp only [h.inv.headerSent, Nat.lt_irrefl, if_false, hliteral, Bool.true_eq_false]
  generalize hcount : min (min (maximum - r.output.length) r.producer.recordRemaining)
    (zeroRleDataLogicalBudget - r.logicalWork) = count
  by_cases hnone : count = 0
  · rw [if_pos hnone]
    refine ⟨_, rfl, h, ?_⟩
    intro hnil
    have hwork := (h.of_output_nil hnil).1
    rw [zeroRleDataLogicalBudget] at hcount
    omega
  · rw [if_neg hnone]
    have hdata : (slice source r.producer.logicalOffset
        (r.producer.logicalOffset + count)).length = count := by
      rw [length_slice _ (by omega), Nat.add_sub_cancel_left]
    have hmark : (if (advance source r.producer count).recordRemaining = 0 then
        markDone plan (advance source r.producer count) else advance source r.producer count) =
        markDone plan (advance source r.producer count) := by
      split
      · rfl
      · rename_i hmore
        simp only [advance] at hmore
        rw [markDone, if_neg]
        simp only [advance]
        omega
    have hsource : readSource source r.producer count .sourceEndedEncoding = _ :=
      readSource_ok hprepared.position (by omega) _
    simp only [hsource, bind, Except.bind, hmark]
    refine ⟨_, rfl, h.emit ?_ (by omega) ?_ ?_ (by omega) ?_ ?_, ?_⟩
    · exact producerInv_advance hsize hprepared h.inv.digested h.inv.logicalRead h.inv.headerSent
        h.inv.done (by omega) fun _ => ⟨hliteral, rfl, hwhole⟩
    · rw [markDone_wireReturned]
      rfl
    · rw [markDone_logicalOffset]
      rfl
    · exact pending_literal (by omega) (markDone_logicalOffset plan _)
        (markDone_recordRemaining plan _)
    · rw [markDone_logicalOffset, markDone_recordRemaining, run_inLiteral (by omega), hdata]
      rfl
    · simp only [List.length_append]
      omega

/-- The header of a literal record. -/
theorem emitRecord_literalHeader {maximum : Nat} {p p' : Producer} {r : Reading}
    (h : ReadInv source maximum p { r with producer := p' }) (hbounded : BoundedRuns source)
    (hprepared : Prepared source p' true) (hrecord : p'.recordRemaining = 0)
    (hroom : r.output.length + zeroRleRecordOverhead ≤ maximum) :
    ∃ flow, emitRecord source plan maximum { r with
        producer := opened p' true (nextLength true p'.sourceRunRemaining) } = .ok flow ∧
      Continues source maximum p r.output.length flow := by
  have hlength := nextLength_bounds true hprepared.remaining
  have hshort := hprepared.length_lt hbounded
  have hfits := hprepared.fits
  generalize hcount : nextLength true p'.sourceRunRemaining = length at *
  rw [zeroRleRecordOverhead] at hroom
  rw [emitRecord]
  simp only [opened, header_length, Nat.zero_lt_succ, if_true]
  rw [if_neg (by omega)]
  simp only [List.drop_zero]
  have hlong : r.output.length + (header true length).length ≤ maximum := by
    rw [header_length]
    exact hroom
  refine ⟨_, rfl, ?_, ?_⟩
  · refine h.emit ?_ hlong ?_ ?_ (show _ + 0 ≤ _ from h.budget) ?_ ?_
    · exact
        { h.inv with
          record := fun _ => ⟨rfl, hprepared.literal_eq, by simp [← hcount, nextLength]⟩
          headerSent := by simp }
    · rfl
    · rfl
    · rw [pending_boundary hrecord, wireOf_prepared hprepared, hcount, pending]
      simp
    · simp only [hrecord]
      rw [show inLiteral 0 p'.logicalOffset = { produced := p'.logicalOffset } from rfl,
        run_literal hlength.1 hshort (by omega)]
      simp [slice]
  · simp

/-- A zero run. -/
theorem emitRecord_zeroRun {maximum : Nat} {p p' : Producer} {r : Reading}
    (h : ReadInv source maximum p { r with producer := p' }) (hbounded : BoundedRuns source)
    (hsize : plan.sizeBytes = source.length) (hprepared : Prepared source p' false)
    (hrecord : p'.recordRemaining = 0)
    (hroom : r.output.length + zeroRleRecordOverhead ≤ maximum)
    (hbudget : r.logicalWork + nextLength false p'.sourceRunRemaining ≤ zeroRleDataLogicalBudget) :
    ∃ flow, emitRecord source plan maximum { r with
        producer := opened p' false (nextLength false p'.sourceRunRemaining) } = .ok flow ∧
      Continues source maximum p r.output.length flow := by
  have hlength := nextLength_bounds false hprepared.remaining
  have hshort := hprepared.length_lt hbounded
  have hfits := hprepared.fits
  have hwire := wireOf_prepared hprepared
  have hzeroes : slice source p'.logicalOffset
      (p'.logicalOffset + nextLength false p'.sourceRunRemaining) =
      List.replicate (nextLength false p'.sourceRunRemaining) 0 := by
    obtain ⟨run, tail, hsplit, hrun, -, hrunLength⟩ :=
      exists_run false (source.drop p'.logicalOffset)
    rw [hprepared.run] at hrunLength
    rw [slice, hsplit, List.take_append_of_le_length (by omega), inRun_false_eq hrun,
      List.take_replicate]
    congr 1
    omega
  generalize nextLength false p'.sourceRunRemaining = length at *
  rw [zeroRleRecordOverhead] at hroom
  rw [emitRecord]
  simp only [opened, header_length, Nat.zero_lt_succ, if_true, Bool.false_eq_true, if_false]
  rw [if_neg (by omega)]
  simp only [List.drop_zero]
  have hsent : Prepared source { p' with
      recordLiteral := false
      recordRemaining := length
      header := header false length
      headerOffset := 5 } false :=
    ⟨hprepared.literal_eq, hprepared.remaining, hprepared.run, hprepared.position⟩
  generalize hp : ({ p' with
    recordLiteral := false
    recordRemaining := length
    header := header false length
    headerOffset := 5 } : Producer) = sent at hsent ⊢
  have hremaining : sent.recordRemaining = length := by rw [← hp]
  have hoffset : sent.logicalOffset = p'.logicalOffset := by rw [← hp]
  have hrun : sent.sourceRunRemaining = p'.sourceRunRemaining := by rw [← hp]
  have hinv : ProducerInv source (markDone plan (advance source sent length)) := by
    refine producerInv_advance hsize hsent ?_ ?_ ?_ ?_ (by omega) fun hsome => by omega
    · rw [← hp]
      exact h.inv.digested
    · rw [← hp]
      exact h.inv.logicalRead
    · rw [← hp]
      simp
    · rw [← hp]
      exact h.inv.done
  have hconsume : consumeZeroRun source plan length sent = _ :=
    consumeZeroRun_ok length hremaining.le hsent.position (by omega)
  rw [hremaining] at hconsume
  have hread : ReadInv source maximum p
      { producer := markDone plan (advance source sent length)
        output := r.output ++ header false length
        logicalWork := r.logicalWork + length } := by
    refine h.emit hinv (by simpa using hroom) ?_ ?_ hbudget ?_ ?_
    · rw [markDone_wireReturned, ← hp]
      rfl
    · rw [markDone_logicalOffset, ← hp]
      rfl
    · have hnext : pending source (markDone plan (advance source sent length)) =
          wireOf (source.drop (p'.logicalOffset + length)) := by
        rw [pending_boundary, markDone_logicalOffset, ← hoffset]
        · rfl
        · rw [markDone_recordRemaining]
          simp [advance, hremaining]
      rw [pending_boundary hrecord, hwire, hnext]
      simp
    · have hend : (advance source sent length).recordRemaining = 0 := by simp [advance, hremaining]
      have hstop : (advance source sent length).logicalOffset = p'.logicalOffset + length := by
        rw [← hoffset]
        rfl
      rw [markDone_logicalOffset, markDone_recordRemaining, hend, hstop, hzeroes]
      simp only [hrecord]
      exact run_zeroRun hlength.1 hshort (by omega)
  simp only [hconsume, bind, Except.bind]
  split_ifs
  · exact ⟨_, rfl, hread, by simp [header]⟩
  · exact ⟨_, rfl, hread, by simp⟩

/-- One round of the loop of `read`. -/
theorem emitRecord_ok {maximum : Nat} {p p' : Producer} {literal : Bool} {r : Reading}
    (h : ReadInv source maximum p { r with producer := p' }) (hbounded : BoundedRuns source)
    (hsize : plan.sizeBytes = source.length) (hprepared : Prepared source p' literal)
    (hrecord : p'.recordRemaining = 0)
    (hroom : r.output.length + zeroRleRecordOverhead ≤ maximum)
    (hbudget : literal = false →
      r.logicalWork + nextLength literal p'.sourceRunRemaining ≤ zeroRleDataLogicalBudget) :
    ∃ flow, emitRecord source plan maximum { r with
        producer := opened p' literal (nextLength literal p'.sourceRunRemaining) } = .ok flow ∧
      Continues source maximum p r.output.length flow := by
  cases literal with
  | false => exact emitRecord_zeroRun h hbounded hsize hprepared hrecord hroom (hbudget rfl)
  | true => exact emitRecord_literalHeader h hbounded hprepared hrecord hroom

theorem readLoop_ok {maximum : Nat} {p : Producer} {r : Reading} (rounds : Nat)
    (hrounds : maximum - r.output.length ≤ rounds) (h : ReadInv source maximum p r)
    (hbounded : BoundedRuns source) (hsize : plan.sizeBytes = source.length)
    (hpositive : 0 < maximum) (hplanned : maximum ≤ (pending source p).length)
    (hheader : p.recordRemaining = 0 → zeroRleRecordOverhead ≤ maximum) :
    ∃ r', readLoop source plan maximum rounds r = .ok r' ∧ ReadInv source maximum p r' ∧
      r'.output ≠ [] := by
  have hfull : ∀ r : Reading, ReadInv source maximum p r → ¬r.output.length < maximum →
      r.output ≠ [] := by
    rintro r - hlong hnil
    rw [hnil, List.length_nil] at hlong
    omega
  induction rounds generalizing r with
  | zero =>
      unfold readLoop
      rw [if_neg (by omega)]
      exact ⟨r, rfl, h, hfull r h (by omega)⟩
  | succ rounds ih =>
      unfold readLoop
      by_cases hroom : r.output.length < maximum
      · rw [if_pos hroom]
        have hemit : ∀ r' flow, openRecord source plan maximum r = .ok (.next r') →
            emitRecord source plan maximum r' = .ok flow →
            Continues source maximum p r.output.length flow →
            ∃ r', (do
              match ← openRecord source plan maximum r with
              | .leave r => return r
              | .next r =>
                  match ← emitRecord source plan maximum r with
                  | .leave r => return r
                  | .next r => readLoop source plan maximum rounds r) = .ok r' ∧
              ReadInv source maximum p r' ∧ r'.output ≠ [] := by
          intro r' flow hopen hemit hcontinues
          simp only [hopen, hemit, bind, Except.bind]
          cases flow with
          | leave r'' => exact ⟨r'', rfl, hcontinues⟩
          | next r'' => exact ih (by have := hcontinues.2; omega) hcontinues.1
        rcases openRecord_ok h hbounded hsize hroom hplanned hheader with
          ⟨r', hopen, hread, houtput⟩ | ⟨hopen, hrecord⟩ |
          ⟨p', literal, hopen, hread, hprepared, hrecord, hfits, hbudget⟩
        · simp only [hopen, bind, Except.bind]
          exact ⟨r', rfl, hread, houtput⟩
        · obtain ⟨flow, hflow, hcontinues⟩ := emitRecord_literal h hsize hroom hrecord
          exact hemit r flow hopen hflow hcontinues
        · obtain ⟨flow, hflow, hcontinues⟩ :=
            emitRecord_ok hread hbounded hsize hprepared hrecord hfits hbudget
          exact hemit _ flow hopen hflow hcontinues
      · rw [if_neg hroom]
        exact ⟨r, rfl, h, hfull r h hroom⟩

/-- What a `read` that returned `payload` has done. -/
structure ReadResult (source : List UInt8) (p : Producer) (payload : List UInt8) (p' : Producer) :
    Prop where
  inv : ProducerInv source p'
  wireReturned : p'.wireReturned = p.wireReturned + payload.length
  forward : p'.logicalOffset = p.logicalOffset + p'.lastDataLogicalWork
  budget : p'.lastDataLogicalWork ≤ zeroRleDataLogicalBudget
  stream : pending source p = payload ++ pending source p'
  parsed : run (parseByte source.length) (inLiteral p.recordRemaining p.logicalOffset) payload =
    (inLiteral p'.recordRemaining p'.logicalOffset,
      slice source p.logicalOffset p'.logicalOffset)

theorem wireOf_length_ge {rest : List UInt8} (h : rest ≠ []) :
    zeroRleRecordOverhead ≤ (wireOf rest).length := by
  obtain ⟨byte, tail, rfl⟩ := List.exists_cons_of_ne_nil h
  rw [wireOf_cons]
  simp [zeroRleRecordOverhead]

/-- A producer at the end of the file has nothing left. -/
theorem ProducerInv.pending_eq_nil {p : Producer} (h : ProducerInv source p)
    (hend : p.logicalOffset = source.length) : pending source p = [] := by
  refine pending_nil ?_ hend.ge
  by_contra hrecord
  obtain ⟨-, -, hwhole⟩ := h.record hrecord
  obtain ⟨literal, hprepared⟩ := prepared_of_run h (by omega)
  have hfits := hprepared.fits
  omega

theorem read_ok {p : Producer} {maximum : Nat} (h : ProducerInv source p)
    (hbounded : BoundedRuns source) (hsize : plan.sizeBytes = source.length)
    (hmaximum : maximum = min maxPayload (pending source p).length)
    (hmore : pending source p ≠ []) :
    ∃ payload p', read source plan p maximum = .ok (payload, p') ∧ payload ≠ [] ∧
      payload.length ≤ maximum ∧ ReadResult source p payload p' := by
  have hlength := List.length_pos_iff.mpr hmore
  have hpositive : 0 < maximum := by
    rw [maxPayload] at hmaximum
    omega
  have hdone : p.done = false := by
    rw [h.done, decide_eq_false_iff_not]
    intro hend
    exact hmore (h.pending_eq_nil hend)
  have hheader : p.recordRemaining = 0 → zeroRleRecordOverhead ≤ maximum := by
    intro hrecord
    rw [pending_boundary hrecord] at hmaximum hmore
    have hrest : source.drop p.logicalOffset ≠ [] := by
      intro hnil
      rw [hnil, wireOf_nil] at hmore
      exact hmore rfl
    have hwire := wireOf_length_ge hrest
    rw [zeroRleRecordOverhead, maxPayload] at *
    omega
  have hstart : ReadInv source maximum p { producer := p } :=
    ⟨h, Nat.zero_le _, rfl, le_rfl, by simp, Nat.zero_le _, rfl, by simp [slice]⟩
  obtain ⟨r, hloop, hread, houtput⟩ := readLoop_ok maximum (by simp) hstart hbounded hsize
    hpositive (by omega) hheader
  rw [ZeroRleProducer.read, if_neg (by omega), hdone, if_neg Bool.false_ne_true, hloop]
  simp only [bind, Except.bind]
  refine ⟨_, _, rfl, houtput, hread.fits, ?_, ?_, ?_, hread.budget, hread.stream, hread.parsed⟩
  · exact { hread.inv with }
  · simp only [hread.wireReturned]
  · have hforward := hread.forward
    have hwork := hread.work
    simp only
    omega

/-- A producer with nothing left is at the end of the file. -/
theorem ProducerInv.offset_eq {p : Producer} (h : ProducerInv source p)
    (hnil : pending source p = []) : p.logicalOffset = source.length ∧ p.recordRemaining = 0 := by
  have hle := h.offset_le
  rw [pending, List.append_eq_nil_iff] at hnil
  by_cases hrecord : p.recordRemaining = 0
  · refine ⟨?_, hrecord⟩
    by_contra hmore
    have hrest : source.drop (p.logicalOffset + p.recordRemaining) ≠ [] := by
      rw [ne_eq, List.drop_eq_nil_iff]
      omega
    have hwire := wireOf_length_ge hrest
    rw [hnil.2, zeroRleRecordOverhead, List.length_nil] at hwire
    omega
  · obtain ⟨-, -, hwhole⟩ := h.record hrecord
    obtain ⟨literal, hprepared⟩ := prepared_of_run h (by omega)
    have hslice := length_slice p.logicalOffset (hwhole.symm ▸ hprepared.fits)
    rw [hnil.1, List.length_nil] at hslice
    omega

/-- The device decodes the payloads to the file, each with the work its producer
counted, and none ends inside a record's length field or right after its tag. -/
def Decodes (source : List UInt8) : Decoder → List UInt8 → Nat → List Payload → Prop
  | d, out, _, [] =>
      ∃ d', EspNp2.FileTransfer.ZeroRleDecoder.finish collect d out = (.ok, d', source)
  | d, out, offset, payload :: rest =>
      ∃ d' out', consume collect d out offset payload.bytes = (.ok, d', out') ∧
        d'.state ≠ .readLength ∧ d'.logicalProduced = d.logicalProduced + payload.logicalWork ∧
        Decodes source d' out' (offset + payload.bytes.length) rest

/-- The decoder that has read what the producer has handed out. -/
structure Follows (source : List UInt8) (plan : UploadPlan Digest) (p : Producer) (d : Decoder)
    (out : List UInt8) (offset : Nat) : Prop where
  refines : Refines d (inLiteral p.recordRemaining p.logicalOffset)
  logicalSize : d.logicalSize = source.length
  wireSize : d.wireSize = plan.wireSizeBytes
  wireConsumed : d.wireConsumed = offset
  out_eq : out = source.take p.logicalOffset

theorem Refines.state_ne_readLength {d : Decoder} {remaining produced : Nat}
    (h : Refines d (inLiteral remaining produced)) : d.state ≠ .readLength := by
  have hphase := h.phase
  simp only [inLiteral] at hphase
  split_ifs at hphase with hzero
  · rw [show d.state = .expectTag from hphase]
    decide
  · rw [hphase.1]
    decide

theorem Follows.consume_ok {p p' : Producer} {d : Decoder} {out payload : List UInt8}
    {offset : Nat} (h : Follows source plan p d out offset)
    (hread : ReadResult source p payload p')
    (hfits : offset + payload.length ≤ plan.wireSizeBytes) :
    ∃ d' out', consume collect d out offset payload = (.ok, d', out') ∧
      d'.state ≠ .readLength ∧ d'.logicalProduced = d.logicalProduced + p'.lastDataLogicalWork ∧
      Follows source plan p' d' out' (offset + payload.length) := by
  obtain ⟨hrefines, hlogical, hwire, rfl, rfl⟩ := h
  have hparsed := hread.parsed
  rw [← hlogical] at hparsed
  have hphase : (run (parseByte d.logicalSize) (inLiteral p.recordRemaining p.logicalOffset)
      payload).1.phase ≠ .failed := by
    rw [hparsed]
    simp only [inLiteral]
    split_ifs <;> exact fun hfailed => by cases hfailed
  obtain ⟨d', hconsume, hsizes, hconsumed, hnext⟩ :=
    consume_collect hrefines (source.take p.logicalOffset) (by omega) hphase
  rw [hparsed] at hconsume hnext
  have hforward := hread.forward
  have hbefore := hrefines.produced
  have hafter := hnext.produced
  simp only [inLiteral] at hbefore hafter
  refine ⟨d', _, hconsume,
    Refines.state_ne_readLength hnext, by omega, hnext, ?_, ?_, hconsumed, ?_⟩
  · rw [hsizes.logicalSize, hlogical]
  · rw [hsizes.wireSize, hwire]
  · exact take_append_slice source (by omega)

theorem Follows.decodes_nil {p : Producer} {d : Decoder} {out : List UInt8} {offset : Nat}
    (h : Follows source plan p d out offset) (hinv : ProducerInv source p)
    (hnil : pending source p = []) (hoffset : offset = plan.wireSizeBytes) :
    Decodes source d out offset [] := by
  obtain ⟨hend, hrecord⟩ := hinv.offset_eq hnil
  have hrefines := h.refines
  rw [hrecord, hend, ← h.logicalSize] at hrefines
  refine ⟨d, ?_⟩
  rw [finish_ok hrefines (by rw [h.wireConsumed, h.wireSize, hoffset]), h.out_eq, hend,
    List.take_length]

/-- What the reads of an upload loop come to. -/
structure PayloadsResult (source : List UInt8) (plan : UploadPlan Digest) (p : Producer)
    (offset : Nat) (payloads : List Payload) (last : Producer) : Prop where
  stream : (payloads.map Payload.bytes).flatten = pending source p
  sizes : ∀ payload ∈ payloads, 1 ≤ payload.bytes.length ∧ payload.bytes.length ≤ maxPayload ∧
    payload.logicalWork ≤ zeroRleDataLogicalBudget
  inv : ProducerInv source last
  last_nil : pending source last = []
  wireReturned : last.wireReturned = plan.wireSizeBytes
  decodes : ∀ d out, Follows source plan p d out offset → Decodes source d out offset payloads

theorem producePayloads_ok {p : Producer} {offset : Nat} (rounds : Nat)
    (hrounds : (pending source p).length ≤ rounds) (h : ProducerInv source p)
    (hbounded : BoundedRuns source) (hsize : plan.sizeBytes = source.length)
    (hoffset : offset + (pending source p).length = plan.wireSizeBytes)
    (hreturned : p.wireReturned = offset) :
    ∃ payloads last, producePayloads source plan rounds p offset = .ok (payloads, last) ∧
      PayloadsResult source plan p offset payloads last := by
  induction rounds generalizing p offset with
  | zero =>
      have hnil : pending source p = [] := List.length_eq_zero_iff.mp (by omega)
      rw [hnil, List.length_nil, Nat.add_zero] at hoffset
      unfold producePayloads
      rw [if_neg (by omega)]
      exact ⟨[], p, rfl, hnil.symm, by simp, h, hnil, hreturned.trans hoffset,
        fun d out hfollows => hfollows.decodes_nil h hnil hoffset⟩
  | succ rounds ih =>
      unfold producePayloads
      by_cases hmore : offset < plan.wireSizeBytes
      · have hsome : pending source p ≠ [] := by
          rw [← List.length_pos_iff]
          omega
        have hmaximum : min maxPayload (plan.wireSizeBytes - offset) =
            min maxPayload (pending source p).length := by
          rw [← hoffset, Nat.add_sub_cancel_left]
        obtain ⟨payload, p', hread, hpayload, hlong, hresult⟩ :=
          read_ok h hbounded hsize hmaximum hsome
        have hpos := List.length_pos_iff.mpr hpayload
        have hlength := congrArg List.length hresult.stream
        rw [List.length_append] at hlength
        have hnext : offset + payload.length + (pending source p').length = plan.wireSizeBytes := by
          omega
        obtain ⟨payloads, last, hrest, hpayloads⟩ := ih (by omega) hresult.inv hnext
          (by rw [hresult.wireReturned, hreturned])
        rw [if_pos hmore]
        simp only [hread, bind, Except.bind, if_neg hpayload, hrest]
        refine ⟨_, last, rfl, ?_, ?_, hpayloads.inv, hpayloads.last_nil, hpayloads.wireReturned, ?_⟩
        · rw [List.map_cons, List.flatten_cons, hpayloads.stream, hresult.stream]
        · simp only [List.mem_cons, forall_eq_or_imp]
          exact ⟨⟨hpos, by omega, hresult.budget⟩, hpayloads.sizes⟩
        · intro d out hfollows
          obtain ⟨d', out', hconsume, hstate, hproduced, hfollows'⟩ :=
            hfollows.consume_ok hresult (by omega)
          exact ⟨d', out', hconsume, hstate, hproduced, hpayloads.decodes d' out' hfollows'⟩
      · have hnil : pending source p = [] := List.length_eq_zero_iff.mp (by omega)
        rw [hnil, List.length_nil, Nat.add_zero] at hoffset
        rw [if_neg hmore]
        exact ⟨[], p, rfl, hnil.symm, by simp, h, hnil, hreturned.trans hoffset,
          fun d out hfollows => hfollows.decodes_nil h hnil hoffset⟩

end Production

theorem producerInv_start {Digest : Type} {source : List UInt8} {plan : UploadPlan Digest}
    (hsize : plan.sizeBytes = source.length) : ProducerInv source (.start plan) :=
  { offset_le := Nat.zero_le _
    position := fun h => absurd rfl h
    digested := rfl
    logicalRead := rfl
    run := fun h => absurd rfl h
    record := fun h => absurd rfl h
    headerSent := rfl
    done := by
      rw [← hsize]
      exact decide_eq_decide.mpr eq_comm }

section Lossless

variable {Digest : Type} [DecidableEq Digest] (sha256 : List UInt8 → Digest)

theorem finish_of_result {source : List UInt8} {plan : UploadPlan Digest} {p last : Producer}
    {offset : Nat} {payloads : List Payload} (h : PayloadsResult source plan p offset payloads last)
    (hsize : plan.sizeBytes = source.length) (hdigest : plan.sha256 = sha256 source) :
    finish sha256 plan last = .ok () := by
  obtain ⟨hend, -⟩ := h.inv.offset_eq h.last_nil
  have hdone : last.done = true := by
    rw [h.inv.done, decide_eq_true_eq]
    exact hend
  have hread : last.logicalRead = plan.sizeBytes := by rw [h.inv.logicalRead, hend, hsize]
  have hdigested : sha256 last.digested = plan.sha256 := by
    rw [h.inv.digested, hend, List.take_length, hdigest]
  simp [ZeroRleProducer.finish, hdone, hread, h.wireReturned, hdigested]

/-- A compressed upload: the plan is the size of what the producer hands out, payload
by payload, and the decoder of the device turns that back into the file. -/
theorem compressed_upload_lossless {source : List UInt8} (hsource : source ≠ [])
    (hbounded : BoundedRuns source) {zeroBufferBytes : Nat} (hbuffer : 0 < zeroBufferBytes) :
    ∃ plan payloads last, analyzeZeroRle sha256 source = .ok plan ∧
      producePayloads source plan plan.wireSizeBytes (.start plan) 0 = .ok (payloads, last) ∧
      payloads ≠ [] ∧
      (payloads.map Payload.bytes).flatten.length = plan.wireSizeBytes ∧
      (∀ payload ∈ payloads, 1 ≤ payload.bytes.length ∧ payload.bytes.length ≤ 1024 ∧
        payload.logicalWork ≤ 65536) ∧
      finish sha256 plan last = .ok () ∧
      Decodes source (init source.length plan.wireSizeBytes zeroBufferBytes) [] 0 payloads ∧
      ∀ chunks : List (List UInt8), chunks.flatten = (payloads.map Payload.bytes).flatten →
        ∃ d, consumeAll collect (init source.length plan.wireSizeBytes zeroBufferBytes) [] 0
          chunks = (.ok, d, source) := by
  obtain ⟨plan, hplan, hsize, hdigest, hwire⟩ := analyzeZeroRle_ok sha256 hbounded
  have hpending : pending source (.start plan) = wireOf source := pending_boundary rfl
  obtain ⟨payloads, last, hproduce, hresult⟩ :=
    producePayloads_ok plan.wireSizeBytes (by rw [hpending, hwire]) (producerInv_start hsize)
      hbounded hsize (by rw [hpending, hwire]; exact Nat.zero_add _) rfl
  have hstream : (payloads.map Payload.bytes).flatten = wireOf source :=
    hresult.stream.trans hpending
  have hlong := wireOf_length_ge hsource
  refine ⟨plan, payloads, last, hplan, hproduce, ?_, ?_, hresult.sizes,
    finish_of_result sha256 hresult hsize hdigest, ?_, ?_⟩
  · rintro rfl
    rw [← hstream, zeroRleRecordOverhead] at hlong
    exact absurd hlong (by decide)
  · rw [hstream, hwire]
  · exact hresult.decodes _ _ ⟨refines_init hbuffer, rfl, rfl, rfl, rfl⟩
  · intro chunks hchunks
    rw [hstream] at hchunks
    refine consumeAll_ok (refines_init hbuffer) ?_ ?_
    · rw [hchunks, ← hwire]
      exact Nat.zero_add _
    · rw [hchunks]
      have hdecoded : run (parseByte source.length) {} (wireOf source) =
          ({ produced := 0 + source.length }, source) :=
        run_zeroRle (zeroRle_wireOf hbounded) (Nat.zero_add _).le
      rw [Nat.zero_add] at hdecoded
      exact hdecoded

/-- A file of a zero run and a literal. -/
theorem compressed_upload_lossless_zeroRun :
    ∃ plan payloads last, analyzeZeroRle id [0, 0, 7] = .ok plan ∧
      producePayloads [0, 0, 7] plan plan.wireSizeBytes (.start plan) 0 = .ok (payloads, last) ∧
      finish id plan last = .ok () ∧
      Decodes [0, 0, 7] (init 3 plan.wireSizeBytes 512) [] 0 payloads := by
  have hbounded : BoundedRuns [0, 0, 7] := by
    intro run hinfix _
    have hlength := hinfix.length_le
    rw [zeroRleMaxRecordBytes]
    simp only [List.length_cons, List.length_nil] at hlength
    omega
  obtain ⟨plan, payloads, last, hplan, hproduce, -, -, -, hfinish, hdecodes, -⟩ :=
    compressed_upload_lossless id (List.cons_ne_nil 0 [0, 7]) hbounded (show 0 < 512 by decide)
  exact ⟨plan, payloads, last, hplan, hproduce, hfinish, hdecodes⟩

end Lossless

end EspNp2.HostUpload.CompressedUpload
