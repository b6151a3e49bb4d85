import EspNp2.SerialStream.Demultiplexing

/-!
Repeating a frame does not realign a stream that has slipped: from an aligned
stream every copy is delivered, from any other reachable one no copy after the
first. The four-NUL token followed by a byte of text realigns every stream.
-/

namespace EspNp2.SerialStream.Resynchronization

open EspNp2.BinaryDataPlane.BinaryCodec
open EspNp2.BinaryDataPlane.FrameRoundTrip
open EspNp2.ControlPlane.ControlFraming
open EspNp2.Library.Transducer
open EspNp2.SerialStream.Multiplexer
open EspNp2.SerialStream.Demultiplexing

def Reachable (stream : ControlStream) : Prop :=
  ∃ chunks, stream = (feedAll {} chunks).1

/-- The decoded bytes a call hands to `handle_decoded_frame`. -/
def decodedOf : Call → Option (List UInt8)
  | .handleDecodedFrame decoded _ => some decoded
  | .handleFrame _ => none

/-- What the fields of a reachable stream say about each other. -/
def Legal (stream : ControlStream) : Prop :=
  match stream.state with
  | .text => stream.transportSync.consecutiveZeros ≤ 4 ∧
      stream.transportSync.consecutiveZeros ≠ 2
  | .startZero => stream.transportSync.consecutiveZeros = 1 ∨
      stream.transportSync.consecutiveZeros = 2
  | .binaryCollect =>
      stream.encoded = [] ∧ (stream.transportSync.consecutiveZeros = 2 ∨
        stream.transportSync.consecutiveZeros = 3) ∨
      stream.encoded ≠ [] ∧ stream.transportSync.consecutiveZeros = 0
  | .binaryDiscard => stream.transportSync.consecutiveZeros = 0

theorem processTextByte_of_ne_zero {stream : ControlStream} {byte : UInt8} (hbyte : byte ≠ 0) :
    processTextByte stream byte =
      ({ stream with control := (consumeByte stream.control byte).1 },
        (consumeByte stream.control byte).2.map .handleFrame) := by
  rw [processTextByte, if_neg hbyte]

theorem legal_of_ne_zero (stream : ControlStream) {input : TimedByte}
    (hinput : input.1 ≠ 0) : Legal (feedTransportByte stream input).1 := by
  rw [feedTransportByte_of_ne_zero stream hinput]
  unfold feedByte
  cases stream.state with
  | text => simp [processTextByte_of_ne_zero hinput, Legal]
  | startZero => simp [hinput, processTextByte_of_ne_zero hinput, Legal]
  | binaryCollect =>
      simp only [hinput, if_false]
      split_ifs
      · simp [Legal]
      · simp [Legal]
  | binaryDiscard => simp [hinput, Legal]

/-- The state behind a NUL that completes no token. -/
def State.afterZero : State → State
  | .text => .startZero
  | .startZero => .binaryCollect
  | .binaryCollect | .binaryDiscard => .text

theorem feedByte_zero (stream : ControlStream) (nowMs : UInt32) :
    (feedByte stream 0 nowMs).1.state = State.afterZero stream.state ∧
      (feedByte stream 0 nowMs).1.transportSync = stream.transportSync ∧
      (stream.state = .startZero → (feedByte stream 0 nowMs).1.encoded = []) := by
  unfold feedByte
  cases stream.state with
  | text => simp [processTextByte, State.afterZero]
  | startZero => simp [State.afterZero]
  | binaryCollect => simp [finishBinaryCandidate, resetBinary, State.afterZero]
  | binaryDiscard => simp [resetBinary, State.afterZero]

/-- One NUL, by the number of NULs in front of it. -/
inductive ZeroStep (stream next : ControlStream) : Prop
  | short (zeros : stream.transportSync.consecutiveZeros < 3)
      (state : next.state = State.afterZero stream.state)
      (nextZeros : next.transportSync.consecutiveZeros =
        stream.transportSync.consecutiveZeros + 1)
      (encoded : stream.state = .startZero → next.encoded = [])
  | sync (zeros : stream.transportSync.consecutiveZeros = 3) (state : next.state = .text)
      (nextZeros : next.transportSync.consecutiveZeros = 4)
  | active (zeros : 4 ≤ stream.transportSync.consecutiveZeros) (same : next = stream)

theorem zeroStep (stream : ControlStream) (nowMs : UInt32) :
    ZeroStep stream (feedTransportByte stream (0, nowMs)).1 := by
  rcases Nat.lt_trichotomy (stream.transportSync.consecutiveZeros + 1) kTransportSyncLength with
    hshort | hsync | hlong
  · obtain ⟨hstate, hzeros, hencoded⟩ := feedByte_zero
      { stream with
        transportSync := { consecutiveZeros := stream.transportSync.consecutiveZeros + 1 } } nowMs
    rw [feedTransportByte_zero stream nowMs hshort]
    simp only [kTransportSyncLength] at hshort
    exact .short (by omega) hstate (by rw [hzeros]) hencoded
  · rw [feedTransportByte_sync stream nowMs hsync]
    simp only [kTransportSyncLength] at hsync
    exact .sync (by omega) rfl rfl
  · rw [feedTransportByte_active stream nowMs (by omega)]
    simp only [kTransportSyncLength] at hlong
    exact .active (by omega) rfl

theorem ZeroStep.legal {stream next : ControlStream} (hstep : ZeroStep stream next)
    (h : Legal stream) : Legal next := by
  cases hstep with
  | short hzeros hstate hnext hencoded =>
      unfold Legal at h ⊢
      rw [hstate, hnext]
      cases hbefore : stream.state with
      | text =>
          simp only [hbefore] at h
          simp only [State.afterZero]
          omega
      | startZero =>
          simp only [hbefore] at h
          simp only [State.afterZero, hencoded hbefore, true_and]
          omega
      | binaryCollect =>
          simp only [hbefore] at h
          simp only [State.afterZero]
          omega
      | binaryDiscard =>
          simp only [hbefore] at h
          simp only [State.afterZero]
          omega
  | sync hzeros hstate hnext =>
      unfold Legal
      rw [hstate, hnext]
      exact ⟨le_rfl, by decide⟩
  | active hzeros hsame =>
      rw [hsame]
      exact h

theorem legal_of_reachable {stream : ControlStream} (h : Reachable stream) : Legal stream := by
  obtain ⟨chunks, rfl⟩ := h
  rw [feedAll_eq_run]
  refine run_invariant feedTransportByte ?_ (show Legal {} from ⟨by decide, by decide⟩) _
  rintro stream ⟨byte, nowMs⟩ hlegal
  by_cases hzero : byte = 0
  · subst hzero
    exact (zeroStep stream nowMs).legal hlegal
  · exact legal_of_ne_zero stream hzero

/-- A stream that takes the bytes of a body for text. -/
def Textual (stream : ControlStream) : Prop :=
  stream.state = .text ∨ stream.state = .startZero

/-- Behind a copy the stream did not recognize: its closing NUL opens the next
candidate one byte too early. -/
def Slipped (stream : ControlStream) : Prop :=
  stream.state = .startZero ∧ stream.transportSync.consecutiveZeros = 1

theorem feedTransportByte_textual {stream : ControlStream} (h : Textual stream)
    (input : TimedByte) (hinput : input.1 ≠ 0) :
    (feedTransportByte stream input).1.state = .text ∧
      (feedTransportByte stream input).1.transportSync.consecutiveZeros = 0 ∧
      ∀ call ∈ (feedTransportByte stream input).2, decodedOf call = none := by
  rw [feedTransportByte_of_ne_zero stream hinput]
  rcases h with hstate | hstate
  · simp only [feedByte, hstate, processTextByte_of_ne_zero hinput, List.mem_map, true_and]
    rintro call ⟨frame, -, rfl⟩
    rfl
  · simp only [feedByte, hstate, hinput, if_false, processTextByte_of_ne_zero hinput, List.mem_map,
      true_and]
    rintro call ⟨frame, -, rfl⟩
    rfl

/-- A body read as text. -/
theorem run_textual {stream : ControlStream} (h : Textual stream) (head : TimedByte)
    (rest : List TimedByte) (hinput : ∀ input ∈ head :: rest, input.1 ≠ 0) :
    (run feedTransportByte stream (head :: rest)).1.state = .text ∧
      (run feedTransportByte stream (head :: rest)).1.transportSync.consecutiveZeros = 0 ∧
      ∀ call ∈ (run feedTransportByte stream (head :: rest)).2, decodedOf call = none := by
  induction rest generalizing stream head with
  | nil =>
      rw [run_cons, run_nil, List.append_nil]
      exact feedTransportByte_textual h head (hinput head (by simp))
  | cons next rest ih =>
      obtain ⟨hstate, -, hcalls⟩ := feedTransportByte_textual h head (hinput head (by simp))
      have hnext : Textual (feedTransportByte stream head).1 := .inl hstate
      obtain ⟨hlast, hzeros, hmore⟩ :=
        ih hnext next (fun input hmem => hinput input (by simp [hmem]))
      rw [run_cons]
      refine ⟨hlast, hzeros, fun call hcall => ?_⟩
      rcases List.mem_append.mp hcall with hfirst | hrest
      · exact hcalls call hfirst
      · exact hmore call hrest

/-- The body and the closing NUL of a copy whose opening was missed. -/
theorem run_missed {stream : ControlStream} (h : Textual stream) (head : TimedByte)
    (rest : List TimedByte) (hinput : ∀ input ∈ head :: rest, input.1 ≠ 0) (lastMs : UInt32) :
    Slipped (run feedTransportByte stream (head :: rest ++ [(0, lastMs)])).1 ∧
      ∀ call ∈ (run feedTransportByte stream (head :: rest ++ [(0, lastMs)])).2,
        decodedOf call = none := by
  obtain ⟨hstate, hzeros, hcalls⟩ := run_textual h head rest hinput
  rw [run_append, run_cons, run_nil,
    feedTransportByte_zero _ _ (by simp only [hzeros, kTransportSyncLength]; omega)]
  simp only [feedByte, hstate, processTextByte, if_true, List.append_nil, Slipped, hzeros]
  exact ⟨⟨trivial, trivial⟩, hcalls⟩

/-- The opening NULs of a copy, seen by a stream that is not aligned. -/
theorem textual_of_not_aligned {stream : ControlStream} (hlegal : Legal stream)
    (h : ¬Aligned stream) (first second : UInt32) :
    Textual (run feedTransportByte stream [(0, first), (0, second)]).1 := by
  rw [run_cons, run_cons, run_nil]
  have hfirst := zeroStep stream first
  have hsecond := zeroStep (feedTransportByte stream (0, first)).1 second
  generalize (feedTransportByte stream (0, first)).1 = middle at *
  generalize (feedTransportByte middle (0, second)).1 = next at *
  unfold Legal at hlegal
  unfold Textual
  cases hfirst with
  | short hzeros hstate hnext hencoded =>
      cases hsecond with
      | short _ hlast _ _ =>
          rw [hlast, hstate]
          cases hbefore : stream.state with
          | text =>
              simp only [hbefore] at hlegal
              exact absurd ⟨hbefore, by omega⟩ h
          | startZero => exact .inl rfl
          | binaryCollect => exact .inr rfl
          | binaryDiscard => exact .inr rfl
      | sync _ hlast _ => exact .inl hlast
      | active hactive _ => omega
  | sync hzeros hstate hnext =>
      cases hsecond with
      | short hshort _ _ _ => omega
      | sync hsync _ _ => omega
      | active _ hsame =>
          rw [hsame]
          exact .inl hstate
  | active hzeros hsame =>
      subst hsame
      have htext : middle.state = .text := by
        cases hbefore : middle.state with
        | text => rfl
        | startZero =>
            simp only [hbefore] at hlegal
            omega
        | binaryCollect =>
            simp only [hbefore] at hlegal
            omega
        | binaryDiscard =>
            simp only [hbefore] at hlegal
            omega
      cases hsecond with
      | short hshort _ _ _ => omega
      | sync hsync _ _ => omega
      | active _ hsame =>
          rw [hsame]
          exact .inl htext

/-- The opening NULs of a copy, seen by a slipped stream: an empty candidate. -/
theorem run_slipped_opening {stream : ControlStream} (h : Slipped stream) (first second : UInt32) :
    Textual (run feedTransportByte stream [(0, first), (0, second)]).1 ∧
      (run feedTransportByte stream [(0, first), (0, second)]).2 = [] := by
  obtain ⟨hstate, hzeros⟩ := h
  have hone : feedTransportByte stream (0, first) =
      ({ stream with
          encoded := []
          state := .binaryCollect
          transportSync := { consecutiveZeros := 2 } }, []) := by
    rw [feedTransportByte_zero _ _ (by rw [hzeros]; decide), hzeros]
    simp [feedByte, hstate]
  have htwo : feedTransportByte
      { stream with
        encoded := []
        state := .binaryCollect
        transportSync := { consecutiveZeros := 2 } } (0, second) =
      ({ stream with
          encoded := []
          state := .text
          transportSync := { consecutiveZeros := 3 } }, []) := by
    rw [feedTransportByte_zero _ _ (by simp only; decide)]
    simp [feedByte, finishBinaryCandidate, resetBinary]
  rw [run_cons, hone, run_cons, htwo]
  exact ⟨.inl rfl, rfl⟩

/-- One copy of a frame, seen by a slipped stream. -/
theorem run_slipped {frame : EncodedFrame} (hbuilt : Built frame) {stream : ControlStream}
    (h : Slipped stream) {input : List TimedByte} (hinput : input.map Prod.fst = frame.wire) :
    Slipped (run feedTransportByte stream input).1 ∧
      ∀ call ∈ (run feedTransportByte stream input).2, decodedOf call = none := by
  obtain ⟨body, hwire, hbody, hzero, -, -⟩ := hbuilt.exists_body
  obtain ⟨firstMs, secondMs, lastMs, head, rest, rfl, -, hne⟩ :=
    timed_frame (hinput.trans hwire) hbody hzero
  obtain ⟨htextual, hcalls⟩ := run_slipped_opening h firstMs secondMs
  rw [List.append_assoc, run_append, hcalls, List.nil_append]
  exact run_missed htextual head rest hne lastMs

theorem run_not_aligned {frame : EncodedFrame} (hbuilt : Built frame) {stream : ControlStream}
    (hlegal : Legal stream) (h : ¬Aligned stream) {input : List TimedByte}
    (hinput : input.map Prod.fst = frame.wire) :
    Slipped (run feedTransportByte stream input).1 := by
  obtain ⟨body, hwire, hbody, hzero, -, -⟩ := hbuilt.exists_body
  obtain ⟨firstMs, secondMs, lastMs, head, rest, rfl, -, hne⟩ :=
    timed_frame (hinput.trans hwire) hbody hzero
  rw [List.append_assoc, run_append]
  exact (run_missed (textual_of_not_aligned hlegal h firstMs secondMs) head rest hne lastMs).1

/-- Any number of copies, seen by a slipped stream. -/
theorem run_slipped_copies {frame : EncodedFrame} (hbuilt : Built frame) (copies : Nat)
    {stream : ControlStream} (h : Slipped stream) {input : List TimedByte}
    (hinput : input.map Prod.fst = (List.replicate copies frame.wire).flatten) :
    ∀ call ∈ (run feedTransportByte stream input).2, decodedOf call = none := by
  induction copies generalizing stream input with
  | zero =>
      obtain rfl : input = [] := by simpa using hinput
      simp
  | succ copies ih =>
      rw [List.replicate_succ, List.flatten_cons] at hinput
      obtain ⟨copy, rest, rfl, hcopy, hrest⟩ := List.map_eq_append_iff.mp hinput
      obtain ⟨hslipped, hcalls⟩ := run_slipped hbuilt h hcopy
      rw [run_append]
      intro call hcall
      rcases List.mem_append.mp hcall with hfirst | hmore
      · exact hcalls call hfirst
      · exact ih hslipped hrest call hmore

/-- Any number of copies, seen by an aligned stream. -/
theorem run_aligned_copies {frame : EncodedFrame} (hbuilt : Built frame) (copies : Nat)
    {stream : ControlStream} (h : Aligned stream) {input : List TimedByte}
    (hinput : input.map Prod.fst = (List.replicate copies frame.wire).flatten) :
    Aligned (run feedTransportByte stream input).1 ∧
      (run feedTransportByte stream input).2.map decodedOf =
        List.replicate copies (some frame.decoded) := by
  induction copies generalizing stream input with
  | zero =>
      obtain rfl : input = [] := by simpa using hinput
      exact ⟨h, rfl⟩
  | succ copies ih =>
      rw [List.replicate_succ, List.flatten_cons] at hinput
      obtain ⟨copy, rest, rfl, hcopy, hrest⟩ := List.map_eq_append_iff.mp hinput
      obtain ⟨nowMs, hrun⟩ := run_frame hbuilt h hcopy
      obtain ⟨haligned, hcalls⟩ := ih (aligned_resting le_rfl) hrest
      rw [run_append, hrun, List.map_append, hcalls, List.replicate_succ]
      exact ⟨haligned, rfl⟩

theorem Legal.zeros_le {stream : ControlStream} (h : Legal stream) :
    stream.transportSync.consecutiveZeros ≤ 4 ∧
      (stream.transportSync.consecutiveZeros = 4 → stream.state = .text) := by
  unfold Legal at h
  cases hstate : stream.state with
  | text =>
      simp only [hstate] at h
      exact ⟨h.1, fun _ => rfl⟩
  | startZero =>
      simp only [hstate] at h
      omega
  | binaryCollect =>
      simp only [hstate] at h
      omega
  | binaryDiscard =>
      simp only [hstate] at h
      omega

theorem ZeroStep.zeros {stream next : ControlStream} (hstep : ZeroStep stream next)
    (hlegal : Legal stream) : next.transportSync.consecutiveZeros =
      min 4 (stream.transportSync.consecutiveZeros + 1) := by
  have hle := hlegal.zeros_le.1
  cases hstep with
  | short hzeros hstate hnext hencoded => omega
  | sync hzeros hstate hnext => omega
  | active hzeros hsame =>
      subst hsame
      omega

theorem run_zeros {stream : ControlStream} (hlegal : Legal stream) (count : Nat) (nowMs : UInt32) :
    let last := (run feedTransportByte stream (List.replicate count (0, nowMs))).1
    Legal last ∧ last.transportSync.consecutiveZeros =
      min 4 (stream.transportSync.consecutiveZeros + count) := by
  induction count generalizing stream with
  | zero => exact ⟨hlegal, by simpa using hlegal.zeros_le.1⟩
  | succ count ih =>
      have hstep := zeroStep stream nowMs
      obtain ⟨hnext, hzeros⟩ := ih (hstep.legal hlegal)
      have hfirst := hstep.zeros hlegal
      rw [List.replicate_succ, run_cons]
      exact ⟨hnext, hzeros.trans (by omega)⟩

/-- Four NULs and a byte of text realign any stream. -/
theorem aligned_of_token {stream : ControlStream} (hlegal : Legal stream) {byte : UInt8}
    (hbyte : byte ≠ 0) (nowMs : UInt32) :
    Aligned (feed stream ([0, 0, 0, 0, byte], nowMs)).1 := by
  obtain ⟨hlegal', hzeros⟩ := run_zeros hlegal 4 nowMs
  have htext : Textual (run feedTransportByte stream (List.replicate 4 (0, nowMs))).1 :=
    .inl (hlegal'.zeros_le.2 (by omega))
  obtain ⟨hstate, hnone, -⟩ := feedTransportByte_textual htext (byte, nowMs) hbyte
  have hsplit : timedBytes ([0, 0, 0, 0, byte], nowMs) =
      List.replicate 4 (0, nowMs) ++ [(byte, nowMs)] := rfl
  rw [feed, hsplit, run_append, run_cons, run_nil]
  exact ⟨hstate, by simp only [hnone]; omega⟩

/-- Copies of a frame, fed in any chunks behind a first copy. -/
theorem repeated_frame {stream : ControlStream} (hreachable : Reachable stream)
    {frame : EncodedFrame} (hbuilt : Built frame) (copies : Nat) {first later : List Chunk}
    (hfirst : chunkBytes first = frame.wire)
    (hlater : chunkBytes later = (List.replicate copies frame.wire).flatten) :
    (Aligned stream →
      (feedAll stream first).2.map decodedOf = [some frame.decoded] ∧
      (feedAll (feedAll stream first).1 later).2.map decodedOf =
        List.replicate copies (some frame.decoded)) ∧
    (¬Aligned stream →
      ∀ call ∈ (feedAll (feedAll stream first).1 later).2, decodedOf call = none) ∧
    ∀ byte nowMs, byte ≠ 0 → Aligned (feed stream ([0, 0, 0, 0, byte], nowMs)).1 := by
  have hlegal := legal_of_reachable hreachable
  rw [← map_fst_timedBytes] at hfirst hlater
  simp only [feedAll_eq_run]
  refine ⟨fun haligned => ?_, fun hnot => ?_,
    fun byte nowMs hbyte => aligned_of_token hlegal hbyte nowMs⟩
  · obtain ⟨nowMs, hrun⟩ := run_frame hbuilt haligned hfirst
    rw [hrun]
    exact ⟨rfl, (run_aligned_copies hbuilt copies (aligned_resting le_rfl) hlater).2⟩
  · exact run_slipped_copies hbuilt copies (run_not_aligned hbuilt hlegal hnot hfirst) hlater

/-- The stream behind an ACK that lost its first delimiter byte. -/
def slippedStream : ControlStream :=
  (feedAll {} [(ackImage.wire.tail, 0)]).1

theorem slippedStream_loses_copies :
    Reachable slippedStream ∧ Built ackImage ∧
      (feedAll slippedStream
        [(ackImage.wire, 1), (ackImage.wire, 2), (ackImage.wire, 3)]).2.filterMap decodedOf = [] :=
  ⟨⟨_, rfl⟩, built_ackImage, by decide +kernel⟩

/-- The slipped stream behind a token and a line feed. -/
def realignedStream : ControlStream := (feed slippedStream ([0, 0, 0, 0, 10], 3)).1

/-- The slipped stream loses both copies; behind the token both are delivered. -/
theorem repeated_frame_realigned :
    (∀ call ∈ (feedAll (feedAll slippedStream [(ackImage.wire, 1)]).1 [(ackImage.wire, 2)]).2,
      decodedOf call = none) ∧
    (feedAll realignedStream [(ackImage.wire, 4)]).2.map decodedOf = [some ackImage.decoded] ∧
    (feedAll (feedAll realignedStream [(ackImage.wire, 4)]).1 [(ackImage.wire, 5)]).2.map
      decodedOf = List.replicate 1 (some ackImage.decoded) := by
  have hslipped : Reachable slippedStream := ⟨_, rfl⟩
  have hnot : ¬Aligned slippedStream := by decide +kernel
  have hrealigned : Reachable realignedStream :=
    ⟨[(ackImage.wire.tail, 0), ([0, 0, 0, 0, 10], 3)], by
      rw [realignedStream, slippedStream, feedAll, feedAll, run_cons, run_cons, run_cons]
      simp only [run_nil]⟩
  obtain ⟨-, hlost, htoken⟩ := @repeated_frame slippedStream hslipped ackImage built_ackImage 1
    [(ackImage.wire, 1)] [(ackImage.wire, 2)] (by simp [chunkBytes]) (by simp [chunkBytes])
  have hfound := (@repeated_frame realignedStream hrealigned ackImage built_ackImage 1
    [(ackImage.wire, 4)] [(ackImage.wire, 5)] (by simp [chunkBytes])
    (by simp [chunkBytes])).1 (htoken 10 3 (by decide))
  exact ⟨hlost hnot, hfound⟩

end EspNp2.SerialStream.Resynchronization
