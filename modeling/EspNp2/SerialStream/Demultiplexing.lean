import EspNp2.BinaryDataPlane.FrameRoundTrip
import EspNp2.SerialStream.Multiplexer

/-!
What an honest peer sends reaches the right handler: any sequence of binary frames
and text lines, cut into chunks in any way.
-/

namespace EspNp2.SerialStream.Demultiplexing

open EspNp2.BinaryDataPlane
open EspNp2.BinaryDataPlane.BinaryCodec
open EspNp2.BinaryDataPlane.FrameRoundTrip
open EspNp2.ControlPlane.ControlFraming
open EspNp2.Library.ByteStuffing
open EspNp2.Library.Transducer
open EspNp2.SerialStream.Multiplexer

/-- A binary frame or a text line. -/
inductive Item where
  | frame (image : EncodedFrame) (built : Built image)
  | line (bytes : List UInt8) (length_le : bytes.length ≤ kMaxFrameBytes)
      (zero_notMem : 0 ∉ bytes) (lineFeed_notMem : lineFeed ∉ bytes)

def Item.wire : Item → List UInt8
  | .frame image _ => image.wire
  | .line bytes _ _ _ => bytes ++ [lineFeed]

/-- The one call an item is answered with. -/
def Item.AnsweredBy : Item → Call → Prop
  | .frame image _, call => ∃ nowMs, call = .handleDecodedFrame image.decoded nowMs
  | .line bytes _ _ _, call =>
      call = .handleFrame
        { bytes := bytes, protocolCandidate := agreesWithPrefix bytes, tooLong := false }

/-- A stream between two items. -/
def resting (zeros : Nat) : ControlStream :=
  { transportSync := { consecutiveZeros := zeros } }

/-- A run that starts with a byte other than NUL forgets the NULs before it. -/
theorem run_of_ne_zero (stream : ControlStream) {input : TimedByte} (hinput : input.1 ≠ 0)
    (rest : List TimedByte) :
    run feedTransportByte stream (input :: rest) =
      run feedTransportByte { stream with transportSync := { consecutiveZeros := 0 } }
        (input :: rest) := by
  rw [run_cons, run_cons, feedTransportByte_of_ne_zero stream hinput,
    feedTransportByte_of_ne_zero _ hinput]

/-- A stream that collects a candidate. -/
def collectingBinary (encoded : List UInt8) (zeros : Nat) : ControlStream :=
  { state := .binaryCollect, encoded := encoded, transportSync := { consecutiveZeros := zeros } }

theorem run_collectingBinary (encoded : List UInt8) (input : List TimedByte)
    (hinput : ∀ byte ∈ input.map Prod.fst, byte ≠ 0)
    (hlength : encoded.length + input.length ≤ kMaxEncodedBodyBytes) :
    run feedTransportByte (collectingBinary encoded 0) input =
      (collectingBinary (encoded ++ input.map Prod.fst) 0, []) := by
  induction input generalizing encoded with
  | nil => simp
  | cons first rest ih =>
      have hfirst : first.1 ≠ 0 := hinput first.1 (by simp)
      rw [List.length_cons] at hlength
      have hstep : feedTransportByte (collectingBinary encoded 0) first =
          (collectingBinary (encoded ++ [first.1]) 0, []) := by
        have hroom : encoded.length < kMaxEncodedBodyBytes := by omega
        rw [feedTransportByte_of_ne_zero _ hfirst]
        simp [feedByte, collectingBinary, hfirst, hroom]
      rw [run_cons, hstep, ih (encoded ++ [first.1])
        (fun byte hbyte => hinput byte (by simp [hbyte]))
        (by rw [List.length_append, List.length_singleton]; omega)]
      simp

/-- A stream that takes the next NUL for the start of a frame. -/
def Aligned (stream : ControlStream) : Prop :=
  stream.state = .text ∧ stream.transportSync.consecutiveZeros ≤ 1

instance (stream : ControlStream) : Decidable (Aligned stream) :=
  inferInstanceAs (Decidable (_ ∧ _))

theorem aligned_resting {zeros : Nat} (hzeros : zeros ≤ 1) : Aligned (resting zeros) :=
  ⟨rfl, hzeros⟩

/-- The two opening NULs. -/
theorem run_opening {stream : ControlStream} (h : Aligned stream) (first second : UInt32) :
    run feedTransportByte stream [(0, first), (0, second)] =
      (collectingBinary [] (stream.transportSync.consecutiveZeros + 2), []) := by
  obtain ⟨hstate, hzeros⟩ := h
  have hone : feedTransportByte stream (0, first) =
      ({ state := .startZero
         encoded := stream.encoded
         transportSync :=
          { consecutiveZeros := stream.transportSync.consecutiveZeros + 1 } }, []) := by
    rw [feedTransportByte_zero _ _ (by simp only [kTransportSyncLength]; omega)]
    simp [feedByte, hstate, processTextByte]
  have htwo : feedTransportByte
      { state := .startZero
        encoded := stream.encoded
        transportSync := { consecutiveZeros := stream.transportSync.consecutiveZeros + 1 } }
      (0, second) =
      (collectingBinary [] (stream.transportSync.consecutiveZeros + 2), []) := by
    rw [feedTransportByte_zero _ _ (by simp only [kTransportSyncLength]; omega)]
    rfl
  rw [run_cons, hone, run_cons, htwo]
  rfl

/-- The closing NUL hands the decoded candidate on. -/
theorem feedTransportByte_closing {encoded decoded : List UInt8} (hencoded : encoded ≠ [])
    (hdecode : Cobs.decode encoded kMaxDecodedFrameBytes = some decoded) (nowMs : UInt32) :
    feedTransportByte (collectingBinary encoded 0) (0, nowMs) =
      (resting 1, [.handleDecodedFrame decoded nowMs]) := by
  rw [feedTransportByte_zero _ _ (by simp only [collectingBinary, kTransportSyncLength]; omega)]
  simp [feedByte, collectingBinary, finishBinaryCandidate, hencoded, hdecode, resetBinary, resting]

/-- The bytes of a wire form, with their times. -/
theorem timed_frame {body : List UInt8} {input : List TimedByte}
    (hinput : input.map Prod.fst = [0, 0] ++ body ++ [0]) (hbody : body ≠ []) (hzero : 0 ∉ body) :
    ∃ firstMs secondMs lastMs head rest,
      input = [(0, firstMs), (0, secondMs)] ++ head :: rest ++ [(0, lastMs)] ∧
      body = (head :: rest).map Prod.fst ∧ ∀ input ∈ head :: rest, input.1 ≠ 0 := by
  obtain ⟨before, closing, rfl, hbefore, hclosing⟩ := List.map_eq_append_iff.mp hinput
  obtain ⟨opening, middle, rfl, hopening, rfl⟩ := List.map_eq_append_iff.mp hbefore
  obtain ⟨⟨first, firstMs⟩, ⟨second, secondMs⟩, rfl⟩ :
      ∃ first second, opening = [first, second] := by
    have hlength := congrArg List.length hopening
    rw [List.length_map] at hlength
    exact List.length_eq_two.mp hlength
  obtain ⟨⟨last, lastMs⟩, rfl⟩ : ∃ last, closing = [last] := by
    have hlength := congrArg List.length hclosing
    rw [List.length_map] at hlength
    exact List.length_eq_one_iff.mp hlength
  simp only [List.map_cons, List.map_nil, List.cons.injEq, and_true] at hopening hclosing
  obtain ⟨rfl, rfl⟩ := hopening
  subst hclosing
  cases middle with
  | nil => exact absurd rfl hbody
  | cons head rest =>
      refine ⟨firstMs, secondMs, lastMs, head, rest, rfl, rfl, fun input hmem heq => ?_⟩
      exact hzero (heq ▸ List.mem_map_of_mem hmem)

theorem run_frame {frame : EncodedFrame} (hbuilt : Built frame) {stream : ControlStream}
    (haligned : Aligned stream) {input : List TimedByte}
    (hinput : input.map Prod.fst = frame.wire) :
    ∃ nowMs, run feedTransportByte stream input =
      (resting 1, [.handleDecodedFrame frame.decoded nowMs]) := by
  obtain ⟨body, hwire, hbody, hzero, hlength, hdecode⟩ := hbuilt.exists_body
  obtain ⟨firstMs, secondMs, lastMs, head, rest, rfl, rfl, hne⟩ :=
    timed_frame (hinput.trans hwire) hbody hzero
  have hcollect : run feedTransportByte
      (collectingBinary [] (stream.transportSync.consecutiveZeros + 2)) (head :: rest) =
      (collectingBinary ((head :: rest).map Prod.fst) 0, []) := by
    rw [run_of_ne_zero _ (hne head (by simp))]
    exact run_collectingBinary [] (head :: rest)
      (by
        rintro _ hbyte rfl
        exact hzero hbyte)
      (by simpa using hlength)
  refine ⟨lastMs, ?_⟩
  rw [run_append, run_append, run_opening haligned, hcollect, run_cons,
    feedTransportByte_closing hbody hdecode]
  rfl

/-- A stream that collects a text line. -/
def collectingText (bytes : List UInt8) : ControlStream :=
  { control := collecting bytes }

theorem run_collectingText (bytes : List UInt8) (input : List TimedByte)
    (hinput : ∀ byte ∈ input.map Prod.fst, byte ≠ 0 ∧ byte ≠ lineFeed)
    (hlength : bytes.length + input.length ≤ kMaxFrameBytes) :
    run feedTransportByte (collectingText bytes) input =
      (collectingText (bytes ++ input.map Prod.fst), []) := by
  induction input generalizing bytes with
  | nil => simp
  | cons first rest ih =>
      obtain ⟨hzero, hfeed⟩ := hinput first.1 (by simp)
      rw [List.length_cons] at hlength
      have hstep : feedTransportByte (collectingText bytes) first =
          (collectingText (bytes ++ [first.1]), []) := by
        rw [feedTransportByte_of_ne_zero _ hzero]
        simp only [feedByte, collectingText, processTextByte, if_neg hzero]
        rw [consumeByte_collecting hfeed (by omega)]
        rfl
      rw [run_cons, hstep, ih (bytes ++ [first.1]) (fun byte hbyte => hinput byte (by simp [hbyte]))
        (by rw [List.length_append, List.length_singleton]; omega)]
      simp

theorem run_line {bytes : List UInt8} (hlength : bytes.length ≤ kMaxFrameBytes)
    (hzero : 0 ∉ bytes) (hfeed : lineFeed ∉ bytes) (zeros : Nat) {input : List TimedByte}
    (hinput : input.map Prod.fst = bytes ++ [lineFeed]) :
    run feedTransportByte (resting zeros) input =
      (resting 0, [.handleFrame
        { bytes := bytes, protocolCandidate := agreesWithPrefix bytes, tooLong := false }]) := by
  obtain ⟨text, closing, rfl, rfl, hclosing⟩ := List.map_eq_append_iff.mp hinput
  obtain ⟨⟨last, lastMs⟩, rfl⟩ : ∃ last, closing = [last] := by
    have hone := congrArg List.length hclosing
    rw [List.length_map] at hone
    exact List.length_eq_one_iff.mp hone
  obtain rfl : last = lineFeed := by simpa using hclosing
  have hstart : run feedTransportByte (resting zeros) (text ++ [(lineFeed, lastMs)]) =
      run feedTransportByte (collectingText []) (text ++ [(lineFeed, lastMs)]) := by
    cases text with
    | nil => exact run_of_ne_zero (resting zeros) (show lineFeed ≠ 0 by decide) []
    | cons first rest =>
        exact run_of_ne_zero (resting zeros) (fun heq => hzero (by simp [← heq])) _
  have htext := run_collectingText [] text
    (fun byte hbyte => ⟨fun heq => hzero (heq ▸ hbyte), fun heq => hfeed (heq ▸ hbyte)⟩)
    (by simpa using hlength)
  have hlast : feedTransportByte (collectingText (text.map Prod.fst)) (lineFeed, lastMs) =
      (resting 0, [.handleFrame
        { bytes := text.map Prod.fst
          protocolCandidate := agreesWithPrefix (text.map Prod.fst)
          tooLong := false }]) := by
    rw [feedTransportByte_of_ne_zero _ (show lineFeed ≠ 0 by decide)]
    simp only [feedByte, collectingText, processTextByte]
    rw [if_neg (by decide), consumeByte_lineFeed]
    rfl
  rw [hstart, run_append, htext, List.nil_append, run_cons, hlast]
  rfl

/-- One item, from a stream at rest to a stream at rest. -/
theorem run_item (item : Item) {zeros : Nat} (hzeros : zeros ≤ 1) {input : List TimedByte}
    (hinput : input.map Prod.fst = item.wire) :
    ∃ next call, next ≤ 1 ∧ item.AnsweredBy call ∧
      run feedTransportByte (resting zeros) input = (resting next, [call]) := by
  cases item with
  | frame image built =>
      obtain ⟨nowMs, hrun⟩ := run_frame built (aligned_resting hzeros) hinput
      exact ⟨1, _, le_rfl, ⟨nowMs, rfl⟩, hrun⟩
  | line bytes hlength hzero hfeed =>
      exact ⟨0, _, Nat.zero_le _, rfl, run_line hlength hzero hfeed zeros hinput⟩

theorem run_items (items : List Item) {zeros : Nat} (hzeros : zeros ≤ 1)
    {input : List TimedByte} (hinput : input.map Prod.fst = items.flatMap Item.wire) :
    ∃ next ≤ 1, (run feedTransportByte (resting zeros) input).1 = resting next ∧
      List.Forall₂ Item.AnsweredBy items (run feedTransportByte (resting zeros) input).2 := by
  induction items generalizing zeros input with
  | nil =>
      obtain rfl : input = [] := by simpa using hinput
      exact ⟨zeros, hzeros, rfl, .nil⟩
  | cons item items ih =>
      rw [List.flatMap_cons] at hinput
      obtain ⟨head, tail, rfl, hhead, htail⟩ := List.map_eq_append_iff.mp hinput
      obtain ⟨middle, call, hmiddle, hanswer, hrun⟩ := run_item item hzeros hhead
      obtain ⟨next, hnext, hstate, hanswers⟩ := ih hmiddle htail
      rw [run_append, hrun]
      exact ⟨next, hnext, hstate, .cons hanswer hanswers⟩

/-- Every item is answered by exactly its own call, in order, and nothing else is
called; the stream is left in Text with empty buffers. -/
theorem feedAll_items (items : List Item) (chunks : List Chunk)
    (hbytes : chunkBytes chunks = items.flatMap Item.wire) :
    List.Forall₂ Item.AnsweredBy items (feedAll {} chunks).2 ∧
      (feedAll {} chunks).1.state = .text ∧ (feedAll {} chunks).1.encoded = [] ∧
      (feedAll {} chunks).1.control = {} := by
  rw [feedAll_eq_run]
  rw [← map_fst_timedBytes] at hbytes
  obtain ⟨next, -, hstate, hanswers⟩ := run_items items (Nat.zero_le 1) hbytes
  refine ⟨hanswers, ?_⟩
  change (run feedTransportByte (resting 0) _).1.state = _ ∧ _
  rw [show ({} : ControlStream) = resting 0 from rfl, hstate]
  exact ⟨rfl, rfl, rfl⟩

/-- The ACK of a transfer's first frame. -/
def ackImage : EncodedFrame :=
  { decoded := decodedImage .ack 0 1 1 7 0 []
    encoded := stuff [] (decodedImage .ack 0 1 1 7 0 [])
    wire := frameWire .ack 1 1 7 0 [] }

theorem built_ackImage : Built ackImage :=
  ⟨_, _, _, _, _, _, _, _, _, _,
    (encodeFrame_eq .ack 1 1 7 0 [] (by decide) (by decide) (by decide)).1⟩

/-- Two adjacent frames and a line, one byte at a time. -/
theorem feedAll_items_bytewise :
    let items : List Item :=
      [.frame ackImage built_ackImage, .frame ackImage built_ackImage,
        .line [0x40, 0x45] (by decide) (by decide) (by decide)]
    let chunks : List Chunk := (items.flatMap Item.wire).map fun byte => ([byte], 5)
    List.Forall₂ Item.AnsweredBy items (feedAll {} chunks).2 ∧
      (feedAll {} chunks).1.state = .text ∧ (feedAll {} chunks).1.encoded = [] ∧
      (feedAll {} chunks).1.control = {} := by
  intro items chunks
  refine feedAll_items items chunks ?_
  simp only [chunks, chunkBytes, List.flatMap_map]
  exact List.flatMap_singleton' _

end EspNp2.SerialStream.Demultiplexing
