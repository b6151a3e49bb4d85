import EspNp2.HostUpload.HostWire
import Mathlib.Data.List.Induction

/-!
`_SerialParser` of `np2_fixture_cache.py`: the host's demultiplexer for response lines and
binary frames, and what it reads out of a device's output.  `json.loads` behind the UTF-8
decoder is a parameter.
-/

namespace EspNp2.HostUpload.SerialParser

open EspNp2.Library.ByteStuffing
open EspNp2.BinaryDataPlane
open EspNp2.BinaryDataPlane.BinaryCodec
open EspNp2.BinaryDataPlane.FrameRoundTrip
open EspNp2.HostUpload.HostWire

section Parser

def lineFeed : UInt8 := 0x0a

/-- `json.loads` of the decoded text, `none` where one of the two raises, and whether the
value is a `dict`.  A line feed behind the text is white space. -/
structure JsonDecoder (Value : Type) where
  loads : List UInt8 → Option Value
  isDict : Value → Bool
  loads_lineFeed : ∀ text, loads (text ++ [lineFeed]) = loads text

/-- The bytes of `@ESP-NP2 `. -/
def framePrefix : List UInt8 := [0x40, 0x45, 0x53, 0x50, 0x2d, 0x4e, 0x50, 0x32, 0x20]

/-- `bytes.rstrip(b"\r")`. -/
def rstripReturns (line : List UInt8) : List UInt8 :=
  (line.reverse.dropWhile (· = 0x0d)).reverse

/-- `bytes.find`: the first place of a pattern. -/
def find (pattern : List UInt8) : List UInt8 → Option Nat
  | [] => if pattern.isPrefixOf [] then some 0 else none
  | byte :: rest =>
      if pattern.isPrefixOf (byte :: rest) then some 0 else (find pattern rest).map (· + 1)

inductive Mode where
  | text
  | zero
  | binary
  | discard
deriving DecidableEq, Repr

structure Parser (Value : Type) where
  mode : Mode := .text
  text : List UInt8 := []
  encoded : List UInt8 := []
  lines : List Value := []
  frames : List ParsedFrame := []

variable {Value : Type} (decoder : JsonDecoder Value)

/-- What a line without its prefix adds to `lines`. -/
def lineValues (line : List UInt8) : List Value :=
  match find framePrefix line with
  | none => []
  | some index =>
      match decoder.loads (line.drop (index + framePrefix.length)) with
      | none => []
      | some value => if decoder.isDict value then [value] else []

def finishTextLine (parser : Parser Value) : Parser Value :=
  if parser.text = [] then parser
  else
    { parser with
      text := []
      lines := parser.lines ++ lineValues decoder (rstripReturns parser.text) }

/-- A byte that goes to the text buffer. -/
def textByte (parser : Parser Value) (byte : UInt8) : Parser Value :=
  let parser := { parser with text := parser.text ++ [byte] }
  if byte = lineFeed then finishTextLine decoder parser else parser

/-- The frames that an encoded body adds. -/
def bodyFrames (encoded : List UInt8) : List ParsedFrame :=
  if encoded = [] then [] else ((cobsDecode encoded).bind parseReceivedFrame).toList

def feedByte (parser : Parser Value) (byte : UInt8) : Parser Value :=
  match parser.mode with
  | .text => if byte = 0 then { parser with mode := .zero } else textByte decoder parser byte
  | .zero =>
      if byte = 0 then { parser with encoded := [], mode := .binary }
      else textByte decoder { parser with mode := .text } byte
  | .binary =>
      if byte = 0 then
        { parser with
          frames := parser.frames ++ bodyFrames parser.encoded
          encoded := []
          mode := .text }
      else if parser.encoded.length < kMaxEncodedBodyBytes then
        { parser with encoded := parser.encoded ++ [byte] }
      else { parser with mode := .discard }
  | .discard => if byte = 0 then { parser with mode := .text, encoded := [] } else parser

def feed (parser : Parser Value) (data : List UInt8) : Parser Value :=
  data.foldl (feedByte decoder) parser

end Parser

section Output

/-- What the device writes: a response with the text of its object, a frame with the
arguments that `encode_frame` was given and the bytes it wrote, or a piece of the log. -/
inductive OutputItem where
  | response (text : List UInt8)
  | frame (type : FrameType) (transferId sequence : UInt32) (offset : UInt64) (status : UInt16)
      (payload wire : List UInt8)
  | log (bytes : List UInt8)
deriving DecidableEq, Repr

def OutputItem.bytes : OutputItem → List UInt8
  | .response text => framePrefix ++ text ++ [lineFeed]
  | .frame _ _ _ _ _ _ wire => wire
  | .log bytes => bytes

def OutputItem.logBytes : OutputItem → List UInt8
  | .log bytes => bytes
  | _ => []

def OutputItem.isResponse : OutputItem → Bool
  | .response _ => true
  | _ => false

def OutputItem.fields : OutputItem → List ParsedFrame
  | .frame type transferId sequence offset status payload _ =>
      [imageFrame type transferId sequence offset status payload]
  | _ => []

variable {Value : Type} (decoder : JsonDecoder Value)

def OutputItem.objects : OutputItem → List Value
  | .response text => (decoder.loads text).toList
  | _ => []

/-- A response is one JSON object without raw control characters, a frame is one that
`encode_frame` has written, and a piece of the log has neither a NUL nor the prefix. -/
def OutputItem.WellFormed : OutputItem → Prop
  | .response text => (∀ byte ∈ text, 0x20 ≤ byte) ∧
      ∃ value, decoder.loads text = some value ∧ decoder.isDict value = true
  | .frame type transferId sequence offset status payload wire =>
      ∃ flags decodedCapacity encodedCapacity wireCapacity built,
        encodeFrame type flags transferId sequence offset status payload decodedCapacity
          encodedCapacity wireCapacity = some built ∧ built.wire = wire
  | .log bytes => 0 ∉ bytes ∧ ¬ framePrefix <:+: bytes

/-- The pieces of the log that no response separates do not make up the prefix together. -/
def Separated (items : List OutputItem) : Prop :=
  ∀ before stretch after, items = before ++ stretch ++ after →
    (∀ item ∈ stretch, item.isResponse = false) →
    ¬ framePrefix <:+: stretch.flatMap OutputItem.logBytes

/-- The host has the objects and the frames of the items, in their order and nothing else. -/
def ReadsBack (items : List OutputItem) (parser : Parser Value) : Prop :=
  parser.lines = items.flatMap (OutputItem.objects decoder) ∧
    parser.frames = items.flatMap OutputItem.fields

end Output

section Lines

theorem find_eq_none {pattern line : List UInt8} (h : ¬ pattern <:+: line) :
    find pattern line = none := by
  induction line with
  | nil =>
      rw [find, if_neg]
      intro hstarts
      exact h (List.isPrefixOf_iff_prefix.mp hstarts).isInfix
  | cons byte rest ih =>
      have hhead : ¬ pattern.isPrefixOf (byte :: rest) = true := by
        intro hstarts
        exact h (List.isPrefixOf_iff_prefix.mp hstarts).isInfix
      rw [find, if_neg hhead, ih fun hwithin => h (hwithin.trans (List.suffix_cons _ _).isInfix)]
      rfl

/-- The prefix does not begin inside itself. -/
theorem not_framePrefix_shifted {before : List UInt8} (rest : List UInt8) (hne : before ≠ [])
    (hbefore : ¬ framePrefix <:+: before) :
    framePrefix.isPrefixOf (before ++ framePrefix ++ rest) = false := by
  rw [Bool.eq_false_iff]
  intro hstarts
  rw [List.isPrefixOf_iff_prefix, List.append_assoc] at hstarts
  by_cases hlong : framePrefix.length ≤ before.length
  · have hwhole : framePrefix <+: before :=
      List.prefix_of_prefix_length_le hstarts (List.prefix_append _ _) hlong
    exact hbefore hwhole.isInfix
  · have hpositive := List.length_pos_iff.mpr hne
    have hshort : before.length < framePrefix.length := by omega
    have hbyte := List.prefix_iff_getElem?.mp hstarts before.length hshort
    rw [List.getElem?_append_right (Nat.le_refl _), Nat.sub_self] at hbyte
    have hat : framePrefix[before.length]? = some 0x40 := by
      rw [List.getElem?_eq_getElem hshort, ← hbyte]
      rfl
    have hlater : ∀ place < 9, 0 < place → framePrefix[place]? ≠ some 0x40 := by decide
    exact hlater before.length hshort hpositive hat

theorem find_framePrefix {before : List UInt8} (rest : List UInt8)
    (hbefore : ¬ framePrefix <:+: before) :
    find framePrefix (before ++ framePrefix ++ rest) = some before.length := by
  induction before with
  | nil => rfl
  | cons byte before ih =>
      have hhead := not_framePrefix_shifted rest (List.cons_ne_nil byte before) hbefore
      have htail : ¬ framePrefix <:+: before := fun hwithin =>
        hbefore (hwithin.trans (List.suffix_cons _ _).isInfix)
      rw [List.cons_append, List.cons_append] at hhead ⊢
      rw [find, if_neg (Bool.eq_false_iff.mp hhead), ih htail]
      rfl

theorem rstripReturns_within (line : List UInt8) : rstripReturns line <:+: line := by
  rw [rstripReturns]
  refine List.IsPrefix.isInfix ?_
  rw [← List.reverse_suffix, List.reverse_reverse]
  exact List.dropWhile_suffix _

theorem rstripReturns_snoc (line : List UInt8) :
    rstripReturns (line ++ [lineFeed]) = line ++ [lineFeed] := by
  simp [rstripReturns, lineFeed]

end Lines

section Feeding

variable {Value : Type} {decoder : JsonDecoder Value} {parser : Parser Value}

theorem feed_append (parser : Parser Value) (first second : List UInt8) :
    feed decoder parser (first ++ second) = feed decoder (feed decoder parser first) second :=
  List.foldl_append

/-- The parser goes on byte by byte, so the chunks do not matter. -/
theorem foldl_feed (parser : Parser Value) (chunks : List (List UInt8)) :
    chunks.foldl (feed decoder) parser = feed decoder parser chunks.flatten := by
  induction chunks generalizing parser with
  | nil => rfl
  | cons chunk chunks ih => rw [List.foldl_cons, ih, List.flatten_cons, feed_append]

theorem feedByte_text (hmode : parser.mode = .text) {byte : UInt8} (hbyte : byte ≠ 0)
    (hline : byte ≠ lineFeed) :
    feedByte decoder parser byte = { parser with text := parser.text ++ [byte] } := by
  simp only [feedByte, hmode, textByte]
  rw [if_neg hbyte, if_neg hline]

theorem feedByte_lineFeed (hmode : parser.mode = .text) :
    feedByte decoder parser lineFeed =
      { parser with
        text := []
        lines := parser.lines ++ lineValues decoder
          (rstripReturns (parser.text ++ [lineFeed])) } := by
  simp only [feedByte, hmode, textByte, finishTextLine]
  rw [if_neg (by decide), if_pos trivial, if_neg (by simp)]

theorem feed_text (hmode : parser.mode = .text) {bytes : List UInt8}
    (hbytes : ∀ byte ∈ bytes, byte ≠ 0 ∧ byte ≠ lineFeed) :
    feed decoder parser bytes = { parser with text := parser.text ++ bytes } := by
  induction bytes generalizing parser with
  | nil => simp [feed]
  | cons byte rest ih =>
      obtain ⟨hzero, hline⟩ := hbytes byte (by simp)
      rw [feed, List.foldl_cons, feedByte_text hmode hzero hline]
      refine (@ih { parser with text := parser.text ++ [byte] } hmode
        fun other hother => hbytes other (by simp [hother])).trans ?_
      simp

/-- A piece of the log leaves nothing but an unfinished line. -/
theorem feed_log (hmode : parser.mode = .text) {bytes : List UInt8} (hzero : 0 ∉ bytes)
    (hstarts : ¬ framePrefix <:+: parser.text ++ bytes) :
    ∃ text, text <:+ parser.text ++ bytes ∧
      feed decoder parser bytes = { parser with text := text } := by
  induction bytes generalizing parser with
  | nil => exact ⟨parser.text, by simp, rfl⟩
  | cons byte rest ih =>
      have hbyte : byte ≠ 0 := fun h => hzero (by simp [h])
      have hrest : 0 ∉ rest := fun h => hzero (by simp [h])
      rw [feed, List.foldl_cons]
      by_cases hline : byte = lineFeed
      · subst hline
        rw [feedByte_lineFeed hmode]
        have hvalues : lineValues decoder (rstripReturns (parser.text ++ [lineFeed])) = [] := by
          have hnot : ¬ framePrefix <:+: rstripReturns (parser.text ++ [lineFeed]) := by
            intro hwithin
            refine hstarts ((hwithin.trans (rstripReturns_within _)).trans ?_)
            exact ⟨[], rest, by simp⟩
          rw [lineValues, find_eq_none hnot]
        rw [hvalues, List.append_nil]
        obtain ⟨text, htext, hfeed⟩ := @ih { parser with text := [] } hmode hrest
          fun hwithin => hstarts (hwithin.trans ⟨parser.text ++ [lineFeed], [], by simp⟩)
        refine ⟨text, htext.trans ⟨parser.text ++ [lineFeed], by simp⟩, hfeed⟩
      · rw [feedByte_text hmode hbyte hline]
        obtain ⟨text, htext, hfeed⟩ := @ih { parser with text := parser.text ++ [byte] }
          hmode hrest (by simpa using hstarts)
        exact ⟨text, by simpa using htext, hfeed⟩

/-- A response line gives its object, behind whatever unfinished line. -/
theorem feed_response (hmode : parser.mode = .text) {text : List UInt8} {value : Value}
    (htext : ∀ byte ∈ text, 0x20 ≤ byte) (hloads : decoder.loads text = some value)
    (hdict : decoder.isDict value = true) (hstarts : ¬ framePrefix <:+: parser.text) :
    feed decoder parser (framePrefix ++ text ++ [lineFeed]) =
      { parser with text := [], lines := parser.lines ++ [value] } := by
  have hbytes : ∀ byte ∈ framePrefix ++ text, byte ≠ 0 ∧ byte ≠ lineFeed := by
    intro byte hbyte
    have hle : 0x20 ≤ byte := by
      rcases List.mem_append.mp hbyte with hbyte | hbyte
      · have hall : ∀ byte ∈ framePrefix, 0x20 ≤ byte := by decide +kernel
        exact hall byte hbyte
      · exact htext byte hbyte
    constructor <;> rintro rfl <;> exact absurd hle (by decide)
  rw [feed_append, feed_text hmode hbytes]
  change feedByte decoder { parser with text := parser.text ++ (framePrefix ++ text) } lineFeed = _
  refine Eq.trans (feedByte_lineFeed hmode) ?_
  have hvalues : lineValues decoder (rstripReturns (parser.text ++ (framePrefix ++ text) ++
      [lineFeed])) = [value] := by
    rw [rstripReturns_snoc, show parser.text ++ (framePrefix ++ text) ++ [lineFeed] =
      parser.text ++ framePrefix ++ (text ++ [lineFeed]) by simp, lineValues,
      find_framePrefix _ hstarts]
    have hdrop : (parser.text ++ framePrefix ++ (text ++ [lineFeed])).drop
        (parser.text.length + framePrefix.length) = text ++ [lineFeed] := by
      rw [← List.length_append, List.drop_left]
    simp only [hdrop, decoder.loads_lineFeed, hloads, hdict, if_true]
  simp only [hvalues]

theorem feed_binary {body : List UInt8} (hmode : parser.mode = .binary) (hzero : 0 ∉ body)
    (hlength : parser.encoded.length + body.length ≤ kMaxEncodedBodyBytes) :
    feed decoder parser body = { parser with encoded := parser.encoded ++ body } := by
  induction body generalizing parser with
  | nil => simp [feed]
  | cons byte rest ih =>
      have hbyte : byte ≠ 0 := fun h => hzero (by simp [h])
      simp only [List.length_cons] at hlength
      rw [feed, List.foldl_cons]
      have hstep : feedByte decoder parser byte =
          { parser with encoded := parser.encoded ++ [byte] } := by
        simp only [feedByte, hmode]
        rw [if_neg hbyte, if_pos (by omega)]
      rw [hstep]
      refine (@ih { parser with encoded := parser.encoded ++ [byte] } hmode
        (fun h => hzero (by simp [h])) ?_).trans (by simp)
      simp only [List.length_append, List.length_singleton]
      omega

/-- A body between its delimiters is decoded, and the text is left as it was. -/
theorem feed_wire {body : List UInt8} (hmode : parser.mode = .text) (hzero : 0 ∉ body)
    (hne : body ≠ []) (hlength : body.length ≤ kMaxEncodedBodyBytes) :
    feed decoder parser ([0, 0] ++ body ++ [0]) =
      { parser with
        encoded := []
        frames := parser.frames ++ ((cobsDecode body).bind parseReceivedFrame).toList } := by
  rw [feed_append, feed_append]
  have hstart : feed decoder parser [0, 0] = { parser with mode := .binary, encoded := [] } := by
    simp [feed, feedByte, hmode]
  rw [hstart, feed_binary rfl hzero (by simpa using hlength)]
  simp [feed, feedByte, bodyFrames, hne, hmode]

end Feeding

section ReadingBack

variable {Value : Type} {decoder : JsonDecoder Value}

/-- What `encode_frame` writes, and what it has checked. -/
theorem wire_of_encodeFrame {type : FrameType} {flags : UInt16} {transferId sequence : UInt32}
    {offset : UInt64} {status : UInt16} {payload : List UInt8}
    {decodedCapacity encodedCapacity wireCapacity : Nat} {built : EncodedFrame}
    (h : encodeFrame type flags transferId sequence offset status payload decodedCapacity
      encodedCapacity wireCapacity = some built) :
    transferId ≠ 0 ∧ payload.length ≤ kMaxPayloadBytes ∧
      hasValidTypeFields type status (UInt16.ofNat payload.length) = true ∧
      built.wire = frameWire type transferId sequence offset status payload := by
  unfold encodeFrame at h
  split_ifs at h with hreject
  simp only [not_or, not_lt, ne_eq, not_not] at hreject
  obtain ⟨rfl, hid, hlength, hfields, -⟩ := hreject
  simp only at h
  cases hcobs : Cobs.encode (decodedImage type 0 transferId sequence offset status payload)
      encodedCapacity with
  | none => simp [hcobs] at h
  | some encoded =>
      simp only [hcobs] at h
      split_ifs at h
      obtain rfl := Option.some.inj h
      obtain rfl := Cobs.stuff_of_encode hcobs
      exact ⟨hid, by omega, by simpa using hfields, rfl⟩

/-- The host builds the bytes that the device writes. -/
theorem buildFrame_frameWire {type : FrameType} {transferId : UInt32} (sequence : UInt32)
    (offset : UInt64) {status : UInt16} {payload : List UInt8} (hid : transferId ≠ 0)
    (hlength : payload.length ≤ kMaxPayloadBytes)
    (hfields : hasValidTypeFields type status (UInt16.ofNat payload.length) = true) :
    buildFrame type transferId sequence.toNat offset.toNat status payload =
      some (frameWire type transferId sequence offset status payload) := by
  have hempty : (UInt16.ofNat payload.length = 0) ↔ payload = [] := by
    simp only [kMaxPayloadBytes] at hlength
    have hsize : (UInt16.ofNat payload.length).toNat = payload.length :=
      UInt16.toNat_ofNat_of_lt' (Nat.lt_of_le_of_lt hlength (by decide))
    rw [← UInt16.toNat_inj, hsize, UInt16.toNat_zero, List.length_eq_zero_iff]
  have hbody := (encodeFrame_eq type transferId sequence offset status payload hid hlength
    hfields).2
  have hdecoded : (decodedImage type 0 transferId sequence offset status payload).length ≤
      kMaxDecodedFrameBytes := by
    rw [decodedImage_length]
    simp only [kMaxDecodedFrameBytes]
    omega
  have htype : ¬ (type = .data ∧ (payload = [] ∨ status ≠ 0)) ∧
      ¬ (type = .ack ∧ (payload ≠ [] ∨ status ≠ 0)) ∧
      ¬ (type = .nack ∧ (payload ≠ [] ∨ status = 0)) := by
    rw [← hempty]
    cases type <;> simp_all [hasValidTypeFields]
  have hrange : ¬ (sequence.toNat ≥ 2 ^ 32 ∨ offset.toNat ≥ 2 ^ 64) := by
    have hsequence := sequence.toNat_lt
    have hoffset := offset.toNat_lt
    omega
  unfold buildFrame
  rw [if_neg (by omega), if_neg htype.1, if_neg htype.2.1, if_neg htype.2.2, if_neg hrange]
  simp only [UInt32.ofNat_toNat, UInt64.ofNat_toNat, cobsEncode_eq_stuff]
  rw [if_neg (by omega), frameWire]

/-- After a sequence of items the parser waits for text, with an unfinished line of the log
that the last response has not ended. -/
theorem feed_items {items : List OutputItem}
    (hitems : ∀ item ∈ items, item.WellFormed decoder) (hseparated : Separated items) :
    ∃ text before stretch, items = before ++ stretch ∧
      (∀ item ∈ stretch, item.isResponse = false) ∧
      text <:+ stretch.flatMap OutputItem.logBytes ∧
      feed decoder {} (items.flatMap OutputItem.bytes) =
        { text := text
          lines := items.flatMap (OutputItem.objects decoder)
          frames := items.flatMap OutputItem.fields } := by
  induction items using List.reverseRecOn with
  | nil => exact ⟨[], [], [], rfl, nofun, List.suffix_refl _, rfl⟩
  | append_singleton items item ih =>
      have hbefore : Separated items := by
        rintro before stretch after rfl hstretch
        exact hseparated before stretch (after ++ [item]) (by simp) hstretch
      obtain ⟨text, before, stretch, hsplit, hstretch, htext, hfeed⟩ :=
        ih (fun other hother => hitems other (by simp [hother])) hbefore
      have hitem := hitems item (by simp)
      rw [List.flatMap_append, feed_append, hfeed, List.flatMap_append, List.flatMap_append]
      simp only [List.flatMap_singleton]
      cases item with
      | response body =>
          obtain ⟨hbody, value, hloads, hdict⟩ := hitem
          have hstarts : ¬ framePrefix <:+: text := fun hwithin =>
            hbefore before stretch [] (by simp [hsplit]) hstretch (hwithin.trans htext.isInfix)
          refine ⟨[], items ++ [.response body], [], by simp, nofun, List.suffix_refl _, ?_⟩
          refine Eq.trans (feed_response rfl hbody hloads hdict hstarts) ?_
          simp [OutputItem.objects, OutputItem.fields, hloads]
      | log bytes =>
          obtain ⟨hzero, -⟩ := hitem
          have hstretch' : ∀ item ∈ stretch ++ [.log bytes], item.isResponse = false := by
            simpa [or_imp, forall_and, OutputItem.isResponse] using hstretch
          have htext' : text ++ bytes <:+
              (stretch ++ [OutputItem.log bytes]).flatMap OutputItem.logBytes := by
            rw [List.flatMap_append]
            obtain ⟨rest, hrest⟩ := htext
            exact ⟨rest, by simp [← hrest, OutputItem.logBytes]⟩
          have hstarts : ¬ framePrefix <:+: text ++ bytes := fun hwithin =>
            hseparated before (stretch ++ [.log bytes]) [] (by simp [hsplit]) hstretch'
              (hwithin.trans htext'.isInfix)
          obtain ⟨text', hsuffix, hfeed'⟩ := @feed_log _ decoder
            { text := text
              lines := items.flatMap (OutputItem.objects decoder)
              frames := items.flatMap OutputItem.fields } rfl bytes hzero hstarts
          refine ⟨text', before, stretch ++ [.log bytes], by simp [hsplit], hstretch',
            hsuffix.trans htext', hfeed'.trans ?_⟩
          simp [OutputItem.objects, OutputItem.fields]
      | frame type transferId sequence offset status payload wire =>
          obtain ⟨flags, decodedCapacity, encodedCapacity, wireCapacity, built, hencode, rfl⟩ :=
            hitem
          obtain ⟨hid, hlength, hfields, hwire⟩ := wire_of_encodeFrame hencode
          have hstretch' : ∀ item ∈ stretch ++
              [.frame type transferId sequence offset status payload built.wire],
              item.isResponse = false := by
            simpa [or_imp, forall_and, OutputItem.isResponse] using hstretch
          refine ⟨text, before, _, by rw [hsplit, List.append_assoc], hstretch', ?_, ?_⟩
          · simpa [OutputItem.logBytes] using htext
          · have hbody := (encodeFrame_eq type transferId sequence offset status payload hid
              hlength hfields).2
            have hreceived := receivedFrame_frameWire type sequence offset hid hlength hfields
            rw [receivedFrame] at hreceived
            simp only [frameWire, List.cons_append, List.nil_append, List.drop_succ_cons,
              List.drop_zero, List.dropLast_concat] at hreceived
            rw [OutputItem.bytes, hwire]
            refine Eq.trans (feed_wire rfl (zero_not_mem_stuff [] _ (by simp) (by simp))
              (stuff_ne_nil [] _) hbody) ?_
            rw [hreceived]
            simp [OutputItem.objects, OutputItem.fields]

/-- Both sides build the same frames, and the host reads back the objects and the frames of
any output whose pieces of the log do not make up the prefix together, for every chunking. -/
theorem device_output_reads_back (decoder : JsonDecoder Value) :
    (∀ type flags transferId sequence offset status payload decodedCapacity encodedCapacity
        wireCapacity built,
      encodeFrame type flags transferId sequence offset status payload decodedCapacity
        encodedCapacity wireCapacity = some built →
      buildFrame type transferId sequence.toNat offset.toNat status payload = some built.wire) ∧
    ∀ items : List OutputItem, (∀ item ∈ items, item.WellFormed decoder) → Separated items →
      ∀ chunks : List (List UInt8), chunks.flatten = items.flatMap OutputItem.bytes →
        ReadsBack decoder items (chunks.foldl (feed decoder) {}) := by
  constructor
  · intro type flags transferId sequence offset status payload decodedCapacity encodedCapacity
      wireCapacity built hencode
    obtain ⟨hid, hlength, hfields, hwire⟩ := wire_of_encodeFrame hencode
    rw [hwire, buildFrame_frameWire sequence offset hid hlength hfields]
  · intro items hitems hseparated chunks hchunks
    obtain ⟨text, before, stretch, -, -, -, hfeed⟩ := feed_items hitems hseparated
    rw [foldl_feed, hchunks, hfeed]
    exact ⟨rfl, rfl⟩

/-- The decoder of the empty object alone. -/
def emptyObjectDecoder : JsonDecoder Unit where
  loads text := if text.reverse.dropWhile (· = lineFeed) = [0x7d, 0x7b] then some () else none
  isDict _ := true
  loads_lineFeed text := by simp

/-- Two pieces of the log, `@ESP-NP2` and ` \x7b\x7d` with a line feed. -/
def joinedLog : List OutputItem :=
  [.log [0x40, 0x45, 0x53, 0x50, 0x2d, 0x4e, 0x50, 0x32], .log [0x20, 0x7b, 0x7d, 0x0a]]

/-- Pieces of the log that are free of the prefix one by one can make it up together, and the
host then reads a response that was not sent. -/
theorem joinedLog_reads_object : ¬ ∀ items : List OutputItem,
    (∀ item ∈ items, item.WellFormed emptyObjectDecoder) →
      ∀ chunks : List (List UInt8), chunks.flatten = items.flatMap OutputItem.bytes →
        ReadsBack emptyObjectDecoder items (chunks.foldl (feed emptyObjectDecoder) {}) := by
  intro h
  have hitems : ∀ item ∈ joinedLog, item.WellFormed emptyObjectDecoder := by
    intro item hitem
    rcases List.mem_cons.mp hitem with rfl | hitem
    · exact ⟨by decide, by decide⟩
    · obtain rfl := List.mem_singleton.mp hitem
      exact ⟨by decide, by decide⟩
  have hlines := (h joinedLog hitems [joinedLog.flatMap OutputItem.bytes] (by simp)).1
  revert hlines
  decide

/-- An unfinished line of the log, a response and an acknowledgement. -/
def mixedOutput : List OutputItem :=
  [.log [0x49, 0x20], .response [0x7b, 0x7d],
    .frame .ack 1 0 0 0 [] (frameWire .ack 1 0 0 0 [])]

theorem device_output_reads_back_mixed :
    ReadsBack emptyObjectDecoder mixedOutput
      (((mixedOutput.flatMap OutputItem.bytes).map fun byte => [byte]).foldl
        (feed emptyObjectDecoder) {}) := by
  refine (device_output_reads_back emptyObjectDecoder).2 _ ?_ ?_ _ ?_
  · have hencode := (encodeFrame_eq .ack 1 0 0 0 [] (by decide) (by decide) (by decide)).1
    have hlog : (OutputItem.log [0x49, 0x20]).WellFormed emptyObjectDecoder :=
      ⟨by decide, by decide⟩
    have hresponse : (OutputItem.response [0x7b, 0x7d]).WellFormed emptyObjectDecoder :=
      ⟨by decide +kernel, (), rfl, rfl⟩
    simpa [mixedOutput, hlog, hresponse] using ⟨_, _, _, _, _, hencode, rfl⟩
  · rintro before stretch after hsplit - hwithin
    have hlogs : stretch.flatMap OutputItem.logBytes <:+:
        mixedOutput.flatMap OutputItem.logBytes := by
      rw [hsplit, List.flatMap_append, List.flatMap_append]
      exact List.infix_append _ _ _
    have hshort := (hwithin.trans hlogs).length_le
    revert hshort
    decide
  · rw [← List.flatMap_def, List.flatMap_singleton']

end ReadingBack

end EspNp2.HostUpload.SerialParser
