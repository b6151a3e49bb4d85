import EspNp2.FileTransfer.ZeroRleFormat

/-!
The streaming decoder `zero_rle_v1::Decoder`. Its 64-bit counters stay below the
sizes it was given, so they are natural numbers here. The decoder is generic in the
state `W` its `emit` callback works on.
-/

namespace EspNp2.FileTransfer.ZeroRleDecoder

open EspNp2.Library.LittleEndian
open EspNp2.Library.Transducer
open EspNp2.FileTransfer.ZeroRleFormat

inductive Result where
  | ok
  | malformed
  | outputFailed
deriving DecidableEq, Repr

inductive Error where
  | none
  | offsetMismatch
  | wireOverrun
  | unknownTag
  | zeroLength
  | logicalOverrun
  | truncated
  | trailingBytes
deriving DecidableEq, Repr

inductive State where
  | expectTag
  | readLength
  | emitZero
  | readLiteral
  | failed
deriving DecidableEq, Repr

structure Decoder where
  logicalSize : Nat := 0
  wireSize : Nat := 0
  logicalProduced : Nat := 0
  wireConsumed : Nat := 0
  recordRemaining : Nat := 0
  recordLength : Nat := 0
  lengthBytes : Nat := 0
  tag : UInt8 := 0
  state : State := .expectTag
  error : Error := .none
  zeroBufferBytes : Nat := 0
deriving DecidableEq, Repr

/-- The output callback: it gets the logical offset and the bytes. -/
abbrev Emit (W : Type) := W → Nat → List UInt8 → Bool × W

def init (logicalSize wireSize zeroBufferBytes : Nat) : Decoder :=
  { logicalSize := logicalSize, wireSize := wireSize, zeroBufferBytes := zeroBufferBytes }

variable {W : Type}

def fail (d : Decoder) (w : W) (error : Error) : Result × Decoder × W :=
  (.malformed, { d with state := .failed, error := error }, w)

def outputFailure (d : Decoder) (w : W) : Result × Decoder × W :=
  (.outputFailed, { d with state := .failed, error := .none }, w)

/-- The result of a decoder that has failed before. -/
def failedResult (d : Decoder) : Result :=
  if d.error = .none then .outputFailed else .malformed

section Emitting

variable (emit : Emit W)

/-- `Decoder::emit`. -/
def emitBytes (d : Decoder) (w : W) (data : List UInt8) : Result × Decoder × W :=
  if data.length = 0 ∨ d.logicalProduced > d.logicalSize ∨
      data.length > d.logicalSize - d.logicalProduced then fail d w .logicalOverrun
  else
    match emit w d.logicalProduced data with
    | (false, w) => outputFailure d w
    | (true, w) => (.ok, { d with logicalProduced := d.logicalProduced + data.length }, w)

/-- The loop of `emit_zeroes`. Every round takes a byte off the record, so its
length bounds the rounds. -/
def emitZeroesLoop : Nat → Decoder → W → Result × Decoder × W
  | 0, d, w => (.ok, { d with state := .expectTag }, w)
  | rounds + 1, d, w =>
      if d.recordRemaining ≠ 0 then
        let count := min d.recordRemaining d.zeroBufferBytes
        match emitBytes emit d w (List.replicate count 0) with
        | (.ok, d, w) =>
            emitZeroesLoop rounds { d with recordRemaining := d.recordRemaining - count } w
        | failure => failure
      else (.ok, { d with state := .expectTag }, w)

def emitZeroes (d : Decoder) (w : W) : Result × Decoder × W :=
  if d.zeroBufferBytes = 0 then outputFailure d w
  else emitZeroesLoop emit d.recordRemaining d w

/-- The loop of `consume` over the bytes it has left. A round either takes a byte
or leaves `EmitZero`. -/
def consumeLoop : Nat → Decoder → W → List UInt8 → Result × Decoder × W
  | _, d, w, [] => if d.state = .emitZero then emitZeroes emit d w else (.ok, d, w)
  | 0, d, w, _ :: _ => (.ok, d, w)
  | rounds + 1, d, w, byte :: rest =>
      match d.state with
      | .emitZero =>
          match emitZeroes emit d w with
          | (.ok, d, w) => consumeLoop rounds d w (byte :: rest)
          | failure => failure
      | .expectTag =>
          let d := { d with tag := byte, wireConsumed := d.wireConsumed + 1 }
          if byte ≠ zeroRunTag ∧ byte ≠ literalTag then fail d w .unknownTag
          else
            consumeLoop rounds { d with recordLength := 0, lengthBytes := 0, state := .readLength }
              w rest
      | .readLength =>
          let d :=
            { d with
              recordLength := d.recordLength ||| (byte.toNat <<< (d.lengthBytes * 8))
              wireConsumed := d.wireConsumed + 1
              lengthBytes := d.lengthBytes + 1 }
          if d.lengthBytes ≠ 4 then consumeLoop rounds d w rest
          else if d.recordLength = 0 then fail d w .zeroLength
          else if d.logicalProduced > d.logicalSize ∨
              d.recordLength > d.logicalSize - d.logicalProduced then fail d w .logicalOverrun
          else
            let state := if d.tag = zeroRunTag then .emitZero else .readLiteral
            consumeLoop rounds { d with recordRemaining := d.recordLength, state := state } w rest
      | .readLiteral =>
          let count := min d.recordRemaining (byte :: rest).length
          match emitBytes emit d w ((byte :: rest).take count) with
          | (.ok, d, w) =>
              let remaining := d.recordRemaining - count
              let state := if remaining = 0 then .expectTag else d.state
              consumeLoop rounds
                { d with
                  wireConsumed := d.wireConsumed + count
                  recordRemaining := remaining
                  state := state } w ((byte :: rest).drop count)
          | failure => failure
      | .failed => (failedResult d, d, w)

def consume (d : Decoder) (w : W) (wireOffset : Nat) (encoded : List UInt8) :
    Result × Decoder × W :=
  if d.state = .failed then (failedResult d, d, w)
  else if wireOffset ≠ d.wireConsumed then fail d w .offsetMismatch
  else if d.wireConsumed > d.wireSize ∨ encoded.length > d.wireSize - d.wireConsumed then
    fail d w .wireOverrun
  else consumeLoop emit (2 * encoded.length + 1) d w encoded

/-- The checks of `finish` on a decoder that has nothing left to emit. -/
def finishChecks (d : Decoder) (w : W) : Result × Decoder × W :=
  if d.wireConsumed ≠ d.wireSize then fail d w .truncated
  else if d.state ≠ .expectTag then fail d w .truncated
  else if d.logicalProduced ≠ d.logicalSize then fail d w .trailingBytes
  else (.ok, d, w)

def finish (d : Decoder) (w : W) : Result × Decoder × W :=
  if d.state = .failed then (failedResult d, d, w)
  else if d.state = .emitZero then
    match emitZeroes emit d w with
    | (.ok, d, w) => finishChecks d w
    | failure => failure
  else finishChecks d w

end Emitting

/-- `out` went out in accepted calls of `emit`, from logical offset `offset` on. -/
inductive Emitted (emit : Emit W) : W → Nat → List UInt8 → W → Prop
  | nil (w : W) (offset : Nat) : Emitted emit w offset [] w
  | cons {w next last : W} {offset : Nat} {data rest : List UInt8} :
      emit w offset data = (true, next) → Emitted emit next (offset + data.length) rest last →
      Emitted emit w offset (data ++ rest) last

theorem Emitted.append {emit : Emit W} {w middle last : W} {offset : Nat}
    {left right : List UInt8} (hleft : Emitted emit w offset left middle)
    (hright : Emitted emit middle (offset + left.length) right last) :
    Emitted emit w offset (left ++ right) last := by
  induction hleft with
  | nil w offset => simpa using hright
  | cons hemit _ ih =>
      rw [List.append_assoc]
      rw [List.length_append, ← Nat.add_assoc] at hright
      exact .cons hemit (ih hright)

theorem Emitted.single {emit : Emit W} {w next : W} {offset : Nat} {data : List UInt8}
    (h : emit w offset data = (true, next)) : Emitted emit w offset data next := by
  simpa using Emitted.cons h (.nil next _)

/-- `emit` refused some bytes. -/
def Refused (emit : Emit W) (w : W) (offset : Nat) (last : W) : Prop :=
  ∃ done middle data, Emitted emit w offset done middle ∧
    emit middle (offset + done.length) data = (false, last)

theorem Refused.of_emitted {emit : Emit W} {w middle last : W} {offset : Nat}
    {done : List UInt8} (hdone : Emitted emit w offset done middle)
    (h : Refused emit middle (offset + done.length) last) : Refused emit w offset last := by
  obtain ⟨more, second, data, hmore, hrefused⟩ := h
  refine ⟨done ++ more, second, data, hdone.append hmore, ?_⟩
  rw [List.length_append, ← Nat.add_assoc]
  exact hrefused

def tagOf (literal : Bool) : UInt8 := if literal then literalTag else zeroRunTag

/-- The decoder's fields in a phase of the byte machine. -/
def InPhase (d : Decoder) : Phase → Prop
  | .expectTag => d.state = .expectTag
  | .readLength literal bytes => d.state = .readLength ∧ d.tag = tagOf literal ∧
      d.lengthBytes = bytes.length ∧ bytes.length < 4 ∧ d.recordLength = getLe bytes
  | .readLiteral remaining => d.state = .readLiteral ∧ d.recordRemaining = remaining ∧
      0 < remaining ∧ remaining ≤ d.logicalSize - d.logicalProduced
  | .failed => False

/-- A decoder between two calls, and the byte machine it stands for. -/
structure Refines (d : Decoder) (p : Parse) : Prop where
  phase : InPhase d p.phase
  produced : p.produced = d.logicalProduced
  bounded : d.logicalProduced ≤ d.logicalSize
  buffer : 0 < d.zeroBufferBytes

structure SameSizes (d d' : Decoder) : Prop where
  logicalSize : d'.logicalSize = d.logicalSize
  wireSize : d'.wireSize = d.wireSize
  zeroBufferBytes : d'.zeroBufferBytes = d.zeroBufferBytes

theorem SameSizes.refl (d : Decoder) : SameSizes d d := ⟨rfl, rfl, rfl⟩

theorem SameSizes.trans {d d' d'' : Decoder} (h : SameSizes d d') (h' : SameSizes d' d'') :
    SameSizes d d'' :=
  ⟨h'.logicalSize.trans h.logicalSize, h'.wireSize.trans h.wireSize,
    h'.zeroBufferBytes.trans h.zeroBufferBytes⟩

/-- What a call that reads `length` bytes may return, when the byte machine ends in
`p` with the output `out`. -/
inductive Outcome (emit : Emit W) (d : Decoder) (w : W) (length : Nat) (p : Parse)
    (out : List UInt8) : Result × Decoder × W → Prop
  | accepted {d' : Decoder} {w' : W} : SameSizes d d' →
      d'.wireConsumed = d.wireConsumed + length → Refines d' p →
      Emitted emit w d.logicalProduced out w' → Outcome emit d w length p out (.ok, d', w')
  | malformed {d' : Decoder} {w' : W} : SameSizes d d' →
      p.phase = .failed → d'.state = .failed → d'.error ≠ .none →
      Emitted emit w d.logicalProduced out w' → Outcome emit d w length p out (.malformed, d', w')
  | refused {d' : Decoder} {w' : W} : SameSizes d d' → d'.state = .failed → d'.error = .none →
      Refused emit w d.logicalProduced w' → Outcome emit d w length p out (.outputFailed, d', w')

section Refinement

variable {emit : Emit W} {d : Decoder} {w : W} {p : Parse}

/-- An accepted part and what follows it. -/
theorem Outcome.after {d' : Decoder} {w' : W} {first length : Nat} {done out : List UInt8}
    {r : Result × Decoder × W} (h : Outcome emit d' w' length p out r)
    (hsizes : SameSizes d d') (hwire : d'.wireConsumed = d.wireConsumed + first)
    (hproduced : d'.logicalProduced = d.logicalProduced + done.length)
    (hdone : Emitted emit w d.logicalProduced done w') :
    Outcome emit d w (first + length) p (done ++ out) r := by
  cases h with
  | accepted hsizes' hwire' hrefines hemitted =>
      refine .accepted (hsizes.trans hsizes') (by omega) hrefines (hdone.append ?_)
      rw [← hproduced]
      exact hemitted
  | malformed hsizes' hphase hstate herror hemitted =>
      rw [hproduced] at hemitted
      exact .malformed (hsizes.trans hsizes') hphase hstate herror (hdone.append hemitted)
  | refused hsizes' hstate herror hrefused =>
      rw [hproduced] at hrefused
      exact .refused (hsizes.trans hsizes') hstate herror (.of_emitted hdone hrefused)

/-- `Decoder::emit` on bytes that fit. -/
theorem emitBytes_cases (emit : Emit W) (w : W) {data : List UInt8} (hdata : data ≠ [])
    (hbounded : d.logicalProduced ≤ d.logicalSize)
    (hfits : data.length ≤ d.logicalSize - d.logicalProduced) :
    (∃ w', emit w d.logicalProduced data = (true, w') ∧ emitBytes emit d w data =
      (.ok, { d with logicalProduced := d.logicalProduced + data.length }, w')) ∨
    ∃ w', emit w d.logicalProduced data = (false, w') ∧
      emitBytes emit d w data = outputFailure d w' := by
  have hpos := List.length_pos_iff.mpr hdata
  rw [emitBytes, if_neg (by omega)]
  cases hemit : emit w d.logicalProduced data with
  | mk accepted w' =>
      cases accepted with
      | true => exact .inl ⟨w', rfl, rfl⟩
      | false => exact .inr ⟨w', rfl, rfl⟩

theorem outcome_outputFailure {w' : W} {length : Nat} {out data : List UInt8}
    (h : emit w d.logicalProduced data = (false, w')) :
    Outcome emit d w length p out (outputFailure d w') :=
  .refused ⟨rfl, rfl, rfl⟩ rfl rfl ⟨[], w, data, .nil w _, by simpa using h⟩

theorem outcome_emitted (hzero : d.recordRemaining = 0)
    (hbounded : d.logicalProduced ≤ d.logicalSize) (hbuffer : 0 < d.zeroBufferBytes) :
    Outcome emit d w 0 { produced := d.logicalProduced + d.recordRemaining }
      (List.replicate d.recordRemaining 0) (.ok, { d with state := .expectTag }, w) := by
  rw [hzero]
  exact .accepted ⟨rfl, rfl, rfl⟩ rfl ⟨rfl, rfl, hbounded, hbuffer⟩ (.nil w _)

theorem emitZeroesLoop_outcome (rounds : Nat) (hrounds : d.recordRemaining ≤ rounds)
    (hbounded : d.logicalProduced ≤ d.logicalSize)
    (hfits : d.recordRemaining ≤ d.logicalSize - d.logicalProduced)
    (hbuffer : 0 < d.zeroBufferBytes) :
    Outcome emit d w 0 { produced := d.logicalProduced + d.recordRemaining }
      (List.replicate d.recordRemaining 0) (emitZeroesLoop emit rounds d w) := by
  induction rounds generalizing d w with
  | zero => exact outcome_emitted (by omega) hbounded hbuffer
  | succ rounds ih =>
      rw [emitZeroesLoop]
      by_cases hsome : d.recordRemaining ≠ 0
      · rw [if_pos hsome]
        generalize hcount : min d.recordRemaining d.zeroBufferBytes = count
        have hdata : List.replicate count (0 : UInt8) ≠ [] := by
          rw [ne_eq, List.replicate_eq_nil_iff]
          omega
        rcases emitBytes_cases emit w hdata hbounded (by rw [List.length_replicate]; omega) with
          ⟨w', hemit, hbytes⟩ | ⟨w', hemit, hbytes⟩
        · rw [List.length_replicate] at hbytes
          simp only [hbytes]
          generalize hnext : ({ d with
            logicalProduced := d.logicalProduced + count
            recordRemaining := d.recordRemaining - count } : Decoder) = next
          have hremaining : next.recordRemaining = d.recordRemaining - count := by rw [← hnext]
          have hproduced : next.logicalProduced = d.logicalProduced + count := by rw [← hnext]
          have hsizes : SameSizes d next := by rw [← hnext]; exact ⟨rfl, rfl, rfl⟩
          have hwire : next.wireConsumed = d.wireConsumed + 0 := by rw [← hnext, Nat.add_zero]
          have hrest := ih (d := next) (w := w') (by omega)
            (by rw [hproduced, hsizes.logicalSize]; omega)
            (by rw [hremaining, hproduced, hsizes.logicalSize]; omega)
            (by rw [hsizes.zeroBufferBytes]; exact hbuffer)
          have hall := hrest.after hsizes hwire (by rw [List.length_replicate]; exact hproduced)
            (.single hemit)
          rwa [hproduced, hremaining, ← List.replicate_add,
            show count + (d.recordRemaining - count) = d.recordRemaining by omega,
            show d.logicalProduced + count + (d.recordRemaining - count) =
              d.logicalProduced + d.recordRemaining by omega] at hall
        · simp only [hbytes]
          exact outcome_outputFailure hemit
      · rw [if_neg hsome]
        exact outcome_emitted (by omega) hbounded hbuffer

theorem emitZeroes_outcome (emit : Emit W) (w : W) (hbounded : d.logicalProduced ≤ d.logicalSize)
    (hfits : d.recordRemaining ≤ d.logicalSize - d.logicalProduced)
    (hbuffer : 0 < d.zeroBufferBytes) :
    Outcome emit d w 0 { produced := d.logicalProduced + d.recordRemaining }
      (List.replicate d.recordRemaining 0) (emitZeroes emit d w) := by
  rw [emitZeroes, if_neg (by omega)]
  exact emitZeroesLoop_outcome _ le_rfl hbounded hfits hbuffer

/-- The transient state of a zero run: it is emitted before anything else is
read. -/
theorem consumeLoop_emitZero (emit : Emit W) (w : W) (rounds : Nat) (rest : List UInt8)
    (hstate : d.state = .emitZero)
    (hbounded : d.logicalProduced ≤ d.logicalSize)
    (hfits : d.recordRemaining ≤ d.logicalSize - d.logicalProduced)
    (hbuffer : 0 < d.zeroBufferBytes)
    (hrest : ∀ d' w', d'.logicalSize = d.logicalSize →
      Refines d' { produced := d.logicalProduced + d.recordRemaining } →
      Outcome emit d' w' rest.length
        (run (parseByte d.logicalSize)
          { produced := d.logicalProduced + d.recordRemaining } rest).1
        (run (parseByte d.logicalSize)
          { produced := d.logicalProduced + d.recordRemaining } rest).2
        (consumeLoop emit rounds d' w' rest)) :
    Outcome emit d w rest.length
      (run (parseByte d.logicalSize) { produced := d.logicalProduced + d.recordRemaining } rest).1
      (List.replicate d.recordRemaining 0 ++
        (run (parseByte d.logicalSize)
          { produced := d.logicalProduced + d.recordRemaining } rest).2)
      (consumeLoop emit (rounds + 1) d w rest) := by
  have hzeroes := emitZeroes_outcome emit w hbounded hfits hbuffer
  cases rest with
  | nil =>
      rw [consumeLoop, if_pos hstate, run_nil, List.append_nil]
      exact hzeroes
  | cons byte rest =>
      rw [consumeLoop]
      simp only [hstate]
      generalize emitZeroes emit d w = zeroes at hzeroes
      cases hzeroes with
      | @accepted d' w' hsizes hwire hrefines hemitted =>
          have hproduced : d'.logicalProduced =
              d.logicalProduced + (List.replicate d.recordRemaining (0 : UInt8)).length := by
            rw [List.length_replicate]
            exact hrefines.produced.symm
          have hall := (hrest d' w' hsizes.logicalSize hrefines).after hsizes hwire hproduced
            hemitted
          rwa [Nat.zero_add] at hall
      | malformed _ hphase _ _ _ => cases hphase
      | refused hsizes hfailed herror hrefused => exact .refused hsizes hfailed herror hrefused

/-- The loop is right on shorter inputs. -/
def LoopRefines (emit : Emit W) (rounds : Nat) (encoded : List UInt8) : Prop :=
  ∀ (d : Decoder) (w : W) (p : Parse), Refines d p →
    Outcome emit d w encoded.length (run (parseByte d.logicalSize) p encoded).1
      (run (parseByte d.logicalSize) p encoded).2 (consumeLoop emit rounds d w encoded)

theorem outcome_fail {length : Nat} {d' : Decoder} (hsizes : SameSizes d d') (error : Error)
    (herror : error ≠ .none) (produced : Nat) :
    Outcome emit d w length { phase := .failed, produced := produced } [] (fail d' w error) :=
  .malformed ⟨hsizes.logicalSize, hsizes.wireSize, hsizes.zeroBufferBytes⟩ rfl rfl herror
    (.nil w _)

theorem consumeLoop_expectTag {rounds : Nat} {byte : UInt8} {rest : List UInt8}
    (h : Refines d { produced := d.logicalProduced }) (hrest : LoopRefines emit rounds rest) :
    Outcome emit d w (byte :: rest).length
      (run (parseByte d.logicalSize) { produced := d.logicalProduced } (byte :: rest)).1
      (run (parseByte d.logicalSize) { produced := d.logicalProduced } (byte :: rest)).2
      (consumeLoop emit (rounds + 1) d w (byte :: rest)) := by
  have hstate : d.state = .expectTag := h.phase
  have hopened : ∀ literal, byte = tagOf literal →
      Outcome emit d w (1 + rest.length)
        (run (parseByte d.logicalSize)
          { phase := .readLength literal [], produced := d.logicalProduced } rest).1
        ([] ++ (run (parseByte d.logicalSize)
          { phase := .readLength literal [], produced := d.logicalProduced } rest).2)
        (consumeLoop emit rounds
          { d with
            tag := byte
            wireConsumed := d.wireConsumed + 1
            recordLength := 0
            lengthBytes := 0
            state := .readLength } w rest) := by
    intro literal htag
    have hnext := hrest
      { d with
        tag := byte
        wireConsumed := d.wireConsumed + 1
        recordLength := 0
        lengthBytes := 0
        state := .readLength } w
      { phase := .readLength literal [], produced := d.logicalProduced }
      ⟨⟨rfl, htag, rfl, by simp, rfl⟩, rfl, h.bounded, h.buffer⟩
    exact hnext.after ⟨rfl, rfl, rfl⟩ rfl rfl (.nil w _)
  rw [consumeLoop, List.length_cons, Nat.add_comm, run_cons]
  simp only [hstate, parseByte]
  by_cases hzero : byte = zeroRunTag
  · rw [if_pos hzero, if_neg (fun hbad => hbad.1 hzero)]
    exact hopened false hzero
  · rw [if_neg hzero]
    by_cases hliteral : byte = literalTag
    · rw [if_pos hliteral, if_neg (fun hbad => hbad.2 hliteral)]
      exact hopened true hliteral
    · rw [if_neg hliteral, if_pos ⟨hzero, hliteral⟩, run_failed]
      refine outcome_fail ?_ .unknownTag (by decide) _
      exact ⟨rfl, rfl, rfl⟩

theorem consumeLoop_readLength {rounds : Nat} {literal : Bool} {bytes : List UInt8}
    {byte : UInt8} {rest : List UInt8}
    (h : Refines d { phase := .readLength literal bytes, produced := d.logicalProduced })
    (hnow : LoopRefines emit (rounds + 1) rest) (hlater : LoopRefines emit rounds rest) :
    Outcome emit d w (byte :: rest).length
      (run (parseByte d.logicalSize)
        { phase := .readLength literal bytes, produced := d.logicalProduced } (byte :: rest)).1
      (run (parseByte d.logicalSize)
        { phase := .readLength literal bytes, produced := d.logicalProduced } (byte :: rest)).2
      (consumeLoop emit (rounds + 1 + 1) d w (byte :: rest)) := by
  obtain ⟨hstate, htag, hbytes, hshort, hlength⟩ := h.phase
  have hbounded := h.bounded
  rw [consumeLoop, List.length_cons, Nat.add_comm, run_cons]
  simp only [hstate, parseByte]
  rw [hlength, hbytes, ← getLe_snoc]
  by_cases hmore : bytes.length + 1 ≠ 4
  · rw [if_pos hmore, if_neg hmore]
    have hnext := hnow
      { d with
        recordLength := getLe (bytes ++ [byte])
        wireConsumed := d.wireConsumed + 1
        lengthBytes := bytes.length + 1 } w
      { phase := .readLength literal (bytes ++ [byte]), produced := d.logicalProduced }
      ⟨⟨hstate, htag, by simp, by simp; omega, rfl⟩, rfl, h.bounded, h.buffer⟩
    rw [hstate] at hnext
    exact hnext.after ⟨rfl, rfl, rfl⟩ rfl rfl (.nil w _)
  · rw [if_neg hmore, if_pos (not_not.mp hmore)]
    generalize getLe (bytes ++ [byte]) = length
    by_cases hempty : length = 0
    · rw [if_pos hempty, openRecord, if_pos (.inl hempty), run_failed]
      refine outcome_fail ?_ .zeroLength (by decide) _
      exact ⟨rfl, rfl, rfl⟩
    · rw [if_neg hempty]
      by_cases hover : length > d.logicalSize - d.logicalProduced
      · rw [if_pos (.inr hover), openRecord, if_pos (.inr hover), run_failed]
        refine outcome_fail ?_ .logicalOverrun (by decide) _
        exact ⟨rfl, rfl, rfl⟩
      · rw [if_neg (by omega), openRecord, if_neg (by omega), htag]
        cases literal with
        | false =>
            rw [if_pos (show tagOf false = zeroRunTag from rfl), if_neg Bool.false_ne_true]
            have hzeroes := consumeLoop_emitZero emit w rounds rest
              (d := { d with
                recordLength := length
                wireConsumed := d.wireConsumed + 1
                lengthBytes := bytes.length + 1
                tag := tagOf false
                recordRemaining := length
                state := .emitZero })
              rfl h.bounded (by simp only; omega) h.buffer
              (fun d' w' hsize hrefines => hsize ▸ hlater d' w' _ hrefines)
            exact hzeroes.after (d := d) (w := w) ⟨rfl, rfl, rfl⟩ rfl rfl (.nil w _)
        | true =>
            rw [if_neg (show tagOf true ≠ zeroRunTag by decide), if_pos rfl]
            have hnext := hnow
              { d with
                recordLength := length
                wireConsumed := d.wireConsumed + 1
                lengthBytes := bytes.length + 1
                tag := tagOf true
                recordRemaining := length
                state := .readLiteral } w
              { phase := .readLiteral length, produced := d.logicalProduced }
              ⟨⟨rfl, rfl, by omega, by simp only; omega⟩, rfl, h.bounded, h.buffer⟩
            exact hnext.after (d := d) (w := w) ⟨rfl, rfl, rfl⟩ rfl rfl (.nil w _)

theorem consumeLoop_readLiteral {rounds remaining : Nat} {byte : UInt8} {rest : List UInt8}
    (h : Refines d { phase := .readLiteral remaining, produced := d.logicalProduced })
    (hrest : ∀ count, 0 < count → LoopRefines emit rounds ((byte :: rest).drop count)) :
    Outcome emit d w (byte :: rest).length
      (run (parseByte d.logicalSize)
        { phase := .readLiteral remaining, produced := d.logicalProduced } (byte :: rest)).1
      (run (parseByte d.logicalSize)
        { phase := .readLiteral remaining, produced := d.logicalProduced } (byte :: rest)).2
      (consumeLoop emit (rounds + 1) d w (byte :: rest)) := by
  obtain ⟨hstate, rfl, hpos, hfits⟩ := h.phase
  rw [consumeLoop]
  simp only [hstate]
  generalize hcount : min d.recordRemaining (byte :: rest).length = count
  have hcountPos : 0 < count := by
    rw [← hcount, List.length_cons]
    omega
  have htake : ((byte :: rest).take count).length = count := by
    rw [List.length_take]
    omega
  have hliteral :
    ({ phase := .readLiteral d.recordRemaining, produced := d.logicalProduced } : Parse) =
      inLiteral d.recordRemaining d.logicalProduced := by
    rw [inLiteral, if_neg (by omega)]
  have hsplit : run (parseByte d.logicalSize)
      { phase := .readLiteral d.recordRemaining, produced := d.logicalProduced } (byte :: rest) =
      ((run (parseByte d.logicalSize) (inLiteral (d.recordRemaining - count)
        (d.logicalProduced + count))
          ((byte :: rest).drop count)).1,
        (byte :: rest).take count ++
          (run (parseByte d.logicalSize)
            (inLiteral (d.recordRemaining - count) (d.logicalProduced + count))
            ((byte :: rest).drop count)).2) := by
    conv_lhs => rw [← List.take_append_drop count (byte :: rest)]
    rw [run_append, hliteral, run_inLiteral (by omega), htake]
  rw [hsplit]
  have hdata : (byte :: rest).take count ≠ [] := by
    rw [← List.length_pos_iff, htake]
    exact hcountPos
  rcases emitBytes_cases emit w hdata h.bounded (by omega) with
    ⟨w', hemit, hbytes⟩ | ⟨w', hemit, hbytes⟩
  · rw [htake] at hbytes
    simp only [hbytes]
    have hnext := hrest count hcountPos
      { d with
        logicalProduced := d.logicalProduced + count
        wireConsumed := d.wireConsumed + count
        recordRemaining := d.recordRemaining - count
        state := if d.recordRemaining - count = 0 then .expectTag else d.state } w'
      (inLiteral (d.recordRemaining - count) (d.logicalProduced + count)) ?_
    · have hall := hnext.after (d := d) (w := w) ⟨rfl, rfl, rfl⟩ rfl (by rw [htake])
        (.single hemit)
      rw [List.length_drop, show count + ((byte :: rest).length - count) =
        (byte :: rest).length by omega] at hall
      exact hall
    · refine ⟨?_, rfl, ?_, h.buffer⟩
      · simp only [inLiteral]
        split_ifs with hdone
        · rfl
        · exact ⟨hstate, rfl, by omega, by simp only; omega⟩
      · simp only
        omega
  · simp only [hbytes]
    exact outcome_outputFailure hemit

theorem Refines.state_ne (h : Refines d p) : d.state ≠ .emitZero ∧ d.state ≠ .failed := by
  have hphase := h.phase
  cases hp : p.phase with
  | expectTag =>
      rw [hp] at hphase
      rw [show d.state = .expectTag from hphase]
      decide
  | readLength literal bytes =>
      rw [hp] at hphase
      rw [hphase.1]
      decide
  | readLiteral remaining =>
      rw [hp] at hphase
      rw [hphase.1]
      decide
  | failed =>
      rw [hp] at hphase
      exact absurd hphase not_false

/-- The loop of `consume` follows the byte machine. -/
theorem consumeLoop_outcome (emit : Emit W) (rounds : Nat) (encoded : List UInt8)
    (hrounds : 2 * encoded.length ≤ rounds) : LoopRefines emit rounds encoded := by
  induction rounds using Nat.strong_induction_on generalizing encoded with
  | _ rounds ih =>
      rintro d w ⟨phase, produced⟩ h
      obtain rfl : produced = d.logicalProduced := h.produced
      cases encoded with
      | nil =>
          rw [consumeLoop, if_neg h.state_ne.1]
          exact .accepted (.refl d) rfl h (.nil w _)
      | cons byte rest =>
          rw [List.length_cons] at hrounds
          obtain ⟨rounds, rfl⟩ : ∃ fewer, rounds = fewer + 1 + 1 := ⟨rounds - 2, by omega⟩
          cases phase with
          | expectTag =>
              exact consumeLoop_expectTag h (ih (rounds + 1) (by omega) rest (by omega))
          | readLength literal bytes =>
              exact consumeLoop_readLength h (ih (rounds + 1) (by omega) rest (by omega))
                (ih rounds (by omega) rest (by omega))
          | readLiteral remaining =>
              refine consumeLoop_readLiteral h fun count hcount => ?_
              exact ih (rounds + 1) (by omega) _ (by rw [List.length_drop, List.length_cons]; omega)
          | failed => exact absurd h.phase not_false

/-- A call on a decoder in order, at its own wire offset, with bytes that fit. -/
theorem consume_outcome (h : Refines d p) {encoded : List UInt8}
    (hfits : d.wireConsumed + encoded.length ≤ d.wireSize) :
    Outcome emit d w encoded.length (run (parseByte d.logicalSize) p encoded).1
      (run (parseByte d.logicalSize) p encoded).2
      (consume emit d w d.wireConsumed encoded) := by
  rw [consume, if_neg h.state_ne.2, if_neg (by simp), if_neg (by omega)]
  exact consumeLoop_outcome emit _ encoded (by omega) d w p h

/-- `finish` on a decoder in order: it has read a complete stream, or it fails. -/
theorem finish_cases (emit : Emit W) (w : W) (h : Refines d p) :
    (finish emit d w = (.ok, d, w) ∧ p = { produced := d.logicalSize } ∧
      d.wireConsumed = d.wireSize) ∨
    ∃ error, finish emit d w = fail d w error ∧
      ¬(p = { produced := d.logicalSize } ∧ d.wireConsumed = d.wireSize) := by
  rw [finish, if_neg h.state_ne.2, if_neg h.state_ne.1, finishChecks]
  split_ifs with hwire hstate hlogical
  · exact .inr ⟨_, rfl, fun hdone => hwire hdone.2⟩
  · refine .inr ⟨_, rfl, ?_⟩
    rintro ⟨rfl, -⟩
    exact hstate h.phase
  · refine .inr ⟨_, rfl, ?_⟩
    rintro ⟨rfl, -⟩
    exact hlogical h.produced.symm
  · rw [not_not] at hwire hstate hlogical
    refine .inl ⟨rfl, ?_, hwire⟩
    obtain ⟨phase, produced⟩ := p
    obtain rfl : phase = .expectTag := by
      have hphase := h.phase
      cases phase with
      | expectTag => rfl
      | readLength literal bytes => exact absurd (hphase.1.symm.trans hstate) (by decide)
      | readLiteral remaining => exact absurd (hphase.1.symm.trans hstate) (by decide)
      | failed => exact absurd hphase not_false
    rw [← hlogical]
    exact congrArg _ h.produced

/-- The output callback that keeps every byte. -/
def collect : Emit (List UInt8) := fun out _ data => (true, out ++ data)

theorem Emitted.collect_eq {out last data : List UInt8} {offset : Nat}
    (h : Emitted collect out offset data last) : last = out ++ data := by
  induction h with
  | nil w offset => exact (List.append_nil w).symm
  | cons hemit _ ih =>
      rw [ih, ← List.append_assoc]
      exact congrArg (· ++ _) (congrArg Prod.snd hemit).symm

theorem not_refused_collect {out last : List UInt8} {offset : Nat} :
    ¬Refused collect out offset last := by
  rintro ⟨done, middle, data, -, hrefused⟩
  exact Bool.noConfusion (congrArg Prod.fst hrefused)

/-- Bytes the byte machine can read are accepted. -/
theorem consume_collect (h : Refines d p) {encoded : List UInt8} (out : List UInt8)
    (hfits : d.wireConsumed + encoded.length ≤ d.wireSize)
    (hphase : (run (parseByte d.logicalSize) p encoded).1.phase ≠ .failed) :
    ∃ d', consume collect d out d.wireConsumed encoded =
        (.ok, d', out ++ (run (parseByte d.logicalSize) p encoded).2) ∧
      SameSizes d d' ∧ d'.wireConsumed = d.wireConsumed + encoded.length ∧
      Refines d' (run (parseByte d.logicalSize) p encoded).1 := by
  have houtcome : Outcome collect d out _ _ _ (consume collect d out d.wireConsumed encoded) :=
    consume_outcome h hfits
  generalize consume collect d out d.wireConsumed encoded = r at houtcome
  cases houtcome with
  | accepted hsizes hwire hrefines hemitted =>
      rw [hemitted.collect_eq]
      exact ⟨_, rfl, hsizes, hwire, hrefines⟩
  | malformed _ hfailed _ _ _ => exact absurd hfailed hphase
  | refused _ _ _ hrefused => exact absurd hrefused not_refused_collect

/-- Feed a stream in pieces from wire offset `offset` on, and finish. -/
def consumeAll (emit : Emit W) : Decoder → W → Nat → List (List UInt8) → Result × Decoder × W
  | d, w, _, [] => finish emit d w
  | d, w, offset, encoded :: rest =>
      match consume emit d w offset encoded with
      | (.ok, d, w) => consumeAll emit d w (offset + encoded.length) rest
      | failure => failure

theorem refines_init {logicalSize wireSize zeroBufferBytes : Nat} (h : 0 < zeroBufferBytes) :
    Refines (init logicalSize wireSize zeroBufferBytes) {} :=
  ⟨rfl, rfl, Nat.zero_le _, h⟩

theorem finish_ok {out : List UInt8} (h : Refines d { produced := d.logicalSize })
    (hwire : d.wireConsumed = d.wireSize) : finish collect d out = (.ok, d, out) := by
  have hstate : d.state = .expectTag := h.phase
  have hproduced : d.logicalSize = d.logicalProduced := h.produced
  simp [finish, finishChecks, hstate, hwire, ← hproduced]

/-- However a good stream is cut, it is decoded. -/
theorem consumeAll_ok (h : Refines d p) {chunks : List (List UInt8)} {out rest : List UInt8}
    (hwire : d.wireConsumed + chunks.flatten.length = d.wireSize)
    (hrun : run (parseByte d.logicalSize) p chunks.flatten =
      ({ produced := d.logicalSize }, rest)) :
    ∃ d', consumeAll collect d out d.wireConsumed chunks = (.ok, d', out ++ rest) := by
  induction chunks generalizing d p out rest with
  | nil =>
      rw [List.flatten_nil, run_nil, Prod.mk.injEq] at hrun
      obtain ⟨rfl, rfl⟩ := hrun
      rw [consumeAll, finish_ok h (by simpa using hwire), List.append_nil]
      exact ⟨d, rfl⟩
  | cons encoded chunks ih =>
      rw [List.flatten_cons, List.length_append] at hwire
      rw [List.flatten_cons, run_append, Prod.mk.injEq] at hrun
      obtain ⟨hlast, rfl⟩ := hrun
      have hphase : (run (parseByte d.logicalSize) p encoded).1.phase ≠ .failed := by
        intro hfailed
        generalize (run (parseByte d.logicalSize) p encoded).1 = middle at hfailed hlast
        obtain ⟨phase, produced⟩ := middle
        obtain rfl : phase = .failed := hfailed
        rw [run_failed] at hlast
        exact Phase.noConfusion (congrArg Parse.phase hlast)
      obtain ⟨d', hconsume, hsizes, hconsumed, hrefines⟩ :=
        consume_collect h out (by omega) hphase
      rw [consumeAll, hconsume]
      simp only
      rw [← hconsumed, ← List.append_assoc]
      rw [← hsizes.logicalSize] at hlast hrefines ⊢
      refine ih hrefines ?_ (Prod.ext hlast rfl)
      rw [hsizes.wireSize]
      omega

end Refinement

end EspNp2.FileTransfer.ZeroRleDecoder
