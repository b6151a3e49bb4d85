import EspNp2.BinaryDataPlane.FrameRoundTrip

/-!
The frame codec of the host tools (`uart_binary_data_plane_test.py` and
`_parse_received_frame` of `np2_fixture_cache.py`), and its agreement with the
device's codec. A raised exception is `none`.
-/

namespace EspNp2.HostUpload.HostWire

open EspNp2.Library.ByteStuffing
open EspNp2.BinaryDataPlane
open EspNp2.BinaryDataPlane.BinaryCodec
open EspNp2.BinaryDataPlane.FrameRoundTrip

/-- The locals of `cobs_encode`. -/
structure CobsState where
  output : List UInt8
  code : UInt8
  codeIndex : Nat

def cobsEncodeByte (s : CobsState) (byte : UInt8) : CobsState :=
  if byte = 0 then
    let output := s.output.set s.codeIndex s.code
    { output := output ++ [0], code := 1, codeIndex := output.length }
  else
    let output := s.output ++ [byte]
    let code := s.code + 1
    if code = 0xff then
      let output := output.set s.codeIndex code
      { output := output ++ [0], code := 1, codeIndex := output.length }
    else { output := output, code := code, codeIndex := s.codeIndex }

/-- The assignment `output[code_index] = code` behind the loop. -/
def cobsFlush (s : CobsState) : List UInt8 :=
  s.output.set s.codeIndex s.code

def cobsEncode (data : List UInt8) : List UInt8 :=
  cobsFlush (data.foldl cobsEncodeByte { output := [0], code := 1, codeIndex := 0 })

/-- The `while` loop of `cobs_decode` over the bytes from `index` on. Every round
reads at least one byte. -/
def cobsDecodeLoop : Nat → List UInt8 → List UInt8 → Option (List UInt8)
  | _, [], output => some output
  | 0, _ :: _, _ => none
  | fuel + 1, code :: rest, output =>
      if code = 0 ∨ code.toNat - 1 > rest.length then none
      else
        let output := output ++ rest.take (code.toNat - 1)
        let rest := rest.drop (code.toNat - 1)
        if code ≠ 0xff ∧ rest ≠ [] then cobsDecodeLoop fuel rest (output ++ [0])
        else cobsDecodeLoop fuel rest output

def cobsDecode (data : List UInt8) : Option (List UInt8) :=
  if data = [] then none
  else
    match cobsDecodeLoop data.length data [] with
    | none => none
    | some output => if output.length > kMaxDecodedFrameBytes then none else some output

/-- `build_frame`: `struct.pack` raises when a field does not fit its width. -/
def buildFrame (type : FrameType) (transferId : UInt32) (sequence offset : Nat)
    (status : UInt16) (payload : List UInt8) : Option (List UInt8) :=
  if payload.length > kMaxPayloadBytes then none
  else if type = .data ∧ (payload = [] ∨ status ≠ 0) then none
  else if type = .ack ∧ (payload ≠ [] ∨ status ≠ 0) then none
  else if type = .nack ∧ (payload ≠ [] ∨ status = 0) then none
  else if sequence ≥ 2 ^ 32 ∨ offset ≥ 2 ^ 64 then none
  else
    let decoded := decodedImage type 0 transferId (UInt32.ofNat sequence) (UInt64.ofNat offset)
      status payload
    let encoded := cobsEncode decoded
    if decoded.length > kMaxDecodedFrameBytes ∨ encoded.length > kMaxEncodedBodyBytes then none
    else some ([0, 0] ++ encoded ++ [0])

/-- `_parse_received_frame`. DATA frames go through the canonical parser, which
also checks their type fields. -/
def parseReceivedFrame (decoded : List UInt8) : Option ParsedFrame :=
  if decoded.length < kHeaderBytes + kCrcBytes then none
  else
    let payloadLength := getU16 decoded 24
    let status := getU16 decoded 26
    let wireCrc := getU32 decoded (decoded.length - kCrcBytes)
    if decoded.getD 0 0 ≠ kMagic0 ∨ decoded.getD 1 0 ≠ kMagic1 ∨
        decoded.getD 2 0 ≠ kDataPlaneVersion ∨ getU16 decoded 4 ≠ 0 ∨
        (getU16 decoded 6).toNat ≠ kHeaderBytes then none
    else
      match FrameType.ofByte (decoded.getD 3 0) with
      | none => none
      | some type =>
          if payloadLength.toNat > kMaxPayloadBytes ∨
              decoded.length ≠ kHeaderBytes + payloadLength.toNat + kCrcBytes then none
          else if type = .data ∧ (payloadLength = 0 ∨ status ≠ 0) then none
          else
            some
              { crcValid := Crc32.calculate (decoded.take (decoded.length - kCrcBytes)) == wireCrc
                type := type
                transferId := getU32 decoded 8
                sequence := getU32 decoded 12
                offset := getU64 decoded 16
                payloadLength := payloadLength
                status := status
                wireCrc := wireCrc
                payload := (decoded.drop kHeaderBytes).take payloadLength.toNat }

/-- The frame the serial parser queues for a wire form; `none` where it drops
the body. -/
def receivedFrame (wire : List UInt8) : Option ParsedFrame :=
  (cobsDecode (wire.drop 2).dropLast).bind parseReceivedFrame

/-- The encoder's locals while `block` is collected behind the finished bytes
`done`. -/
private def hostCollecting (done block : List UInt8) : CobsState :=
  { output := done ++ 0 :: block, code := blockCode block, codeIndex := done.length }

theorem cobsEncodeByte_zero (done block : List UInt8) :
    cobsEncodeByte (hostCollecting done block) 0 =
      hostCollecting (done ++ blockCode block :: block) [] := by
  simp only [cobsEncodeByte, hostCollecting, if_true]
  simp [blockCode]

theorem cobsEncodeByte_full {done block : List UInt8} {byte : UInt8} (hbyte : byte ≠ 0)
    (hfull : block.length + 1 = 254) :
    cobsEncodeByte (hostCollecting done block) byte =
      hostCollecting (done ++ 255 :: (block ++ [byte])) [] := by
  have hcode : blockCode block + 1 = 0xff := by
    simp only [blockCode, hfull]
    decide
  simp only [cobsEncodeByte, hostCollecting, hbyte, hcode, if_true, if_false]
  simp [blockCode]

theorem cobsEncodeByte_more {done block : List UInt8} {byte : UInt8} (hbyte : byte ≠ 0)
    (hblock : (block ++ [byte]).length < 254) :
    cobsEncodeByte (hostCollecting done block) byte =
      hostCollecting done (block ++ [byte]) := by
  have hcode : blockCode block + 1 = blockCode (block ++ [byte]) := by
    simp [blockCode, UInt8.ofNat_add]
  simp only [cobsEncodeByte, hostCollecting, hbyte, hcode, blockCode_ne_full hblock, if_false]
  simp

theorem foldl_cobsEncodeByte (input done block : List UInt8) (hblock : block.length < 254) :
    cobsFlush (input.foldl cobsEncodeByte (hostCollecting done block)) =
      done ++ stuff block input := by
  induction input generalizing done block with
  | nil => simp [cobsFlush, hostCollecting, stuff]
  | cons byte rest ih =>
      rw [List.foldl_cons, stuff]
      split_ifs with hzero hfull
      · subst hzero
        rw [cobsEncodeByte_zero, ih _ [] (by simp)]
        simp
      · rw [cobsEncodeByte_full hzero hfull, ih _ [] (by simp)]
        simp
      · have hlonger : (block ++ [byte]).length < 254 := by
          simp only [List.length_append, List.length_singleton]
          omega
        rw [cobsEncodeByte_more hzero hlonger, ih _ _ hlonger]

theorem cobsEncode_eq_stuff (data : List UInt8) : cobsEncode data = stuff [] data := by
  have hfold := foldl_cobsEncodeByte data [] [] (by simp)
  rw [List.nil_append] at hfold
  exact hfold

theorem cobsDecodeLoop_stuff (input block output : List UInt8) (fuel : Nat)
    (hblock : block.length < 254) (hfuel : (stuff block input).length ≤ fuel) :
    cobsDecodeLoop fuel (stuff block input) output = some (output ++ block ++ input) := by
  induction input generalizing block output fuel with
  | nil =>
      obtain ⟨fuel, rfl⟩ : ∃ n, fuel = n + 1 :=
        Nat.exists_eq_add_one.mpr (by have := length_le_stuff block []; omega)
      have hcopy := blockCode_toNat hblock
      simp only [stuff, cobsDecodeLoop, hcopy, Nat.add_sub_cancel, List.take_length,
        List.drop_length, ne_eq, not_true_eq_false, and_false, if_false]
      rw [if_neg (by simp [blockCode_ne_zero hblock])]
      simp
  | cons byte rest ih =>
      obtain ⟨fuel, rfl⟩ : ∃ n, fuel = n + 1 :=
        Nat.exists_eq_add_one.mpr (by have := length_le_stuff block (byte :: rest); omega)
      have hne := stuff_ne_nil [] rest
      by_cases hzero : byte = 0
      · subst hzero
        have hcopy := blockCode_toNat hblock
        have hshape : stuff block (0 :: rest) =
            blockCode block :: (block ++ stuff [] rest) := by simp [stuff]
        rw [hshape] at hfuel ⊢
        simp only [List.length_append, List.length_cons] at hfuel
        simp only [cobsDecodeLoop, hcopy, Nat.add_sub_cancel, List.take_left, List.drop_left]
        rw [if_neg (by simp [blockCode_ne_zero hblock]), if_pos ⟨blockCode_ne_full hblock, hne⟩,
          ih [] (output ++ block ++ [0]) fuel (by simp) (by omega)]
        simp
      · by_cases hfull : block.length + 1 = 254
        · have hshape : stuff block (byte :: rest) =
              255 :: ((block ++ [byte]) ++ stuff [] rest) := by
            simp [stuff, hzero, hfull]
          have hcopy : (255 : UInt8).toNat - 1 = (block ++ [byte]).length := by
            simp only [List.length_append, List.length_singleton, hfull]
            decide
          rw [hshape] at hfuel ⊢
          simp only [List.length_append, List.length_cons, List.length_nil] at hfuel
          simp only [cobsDecodeLoop, hcopy, List.take_left, List.drop_left]
          rw [if_neg (by simp), if_neg (by simp),
            ih [] (output ++ (block ++ [byte])) fuel (by simp) (by omega)]
          simp
        · have hshape : stuff block (byte :: rest) = stuff (block ++ [byte]) rest := by
            simp [stuff, hzero, hfull]
          rw [hshape] at hfuel ⊢
          rw [ih (block ++ [byte]) output (fuel + 1) (by
            simp only [List.length_append, List.length_singleton]
            omega) hfuel]
          simp

theorem cobsDecode_stuff {input : List UInt8} (hlength : input.length ≤ kMaxDecodedFrameBytes) :
    cobsDecode (stuff [] input) = some input := by
  rw [cobsDecode, if_neg (stuff_ne_nil [] input),
    cobsDecodeLoop_stuff input [] [] _ (by simp) le_rfl]
  simp only [List.nil_append]
  rw [if_neg (by omega)]

/-- What the host parser accepts is at least what the device parser accepts, and
both report the same frame. -/
theorem parseReceivedFrame_of_parseDecoded {decoded : List UInt8} {frame : ParsedFrame}
    (hparse : parseDecoded decoded = some frame) : parseReceivedFrame decoded = some frame := by
  unfold parseDecoded at hparse
  unfold parseReceivedFrame
  split_ifs at hparse with hshort
  rw [if_neg hshort]
  simp only at hparse ⊢
  cases htype : FrameType.ofByte (decoded.getD 3 0) with
  | none =>
      rw [htype] at hparse
      simp only [reduceCtorEq] at hparse
  | some type =>
      simp only [htype] at hparse ⊢
      split_ifs at hparse with hinvalid
      simp only [not_or, ne_eq, not_not] at hinvalid
      obtain ⟨hmagic0, hmagic1, hversion, hflags, hheader, hpayload, hfields, -, hlength⟩ :=
        hinvalid
      have hdata : ¬ (type = .data ∧ (getU16 decoded 24 = 0 ∨ ¬ getU16 decoded 26 = 0)) := by
        rintro ⟨rfl, hbad⟩
        simp only [hasValidReceivedTypeFields, hasValidTypeFields] at hfields
        rcases hbad with hzero | hstatus
        · simp [hzero] at hfields
        · simp [hstatus] at hfields
      have hcovered : decoded.length - kCrcBytes =
          kHeaderBytes + (getU16 decoded 24).toNat := by
        omega
      have hstart : ¬ (decoded.getD 0 0 ≠ kMagic0 ∨ decoded.getD 1 0 ≠ kMagic1 ∨
          decoded.getD 2 0 ≠ kDataPlaneVersion ∨ getU16 decoded 4 ≠ 0 ∨
          (getU16 decoded 6).toNat ≠ kHeaderBytes) := by
        simp only [hmagic0, hmagic1, hversion, hflags, hheader, ne_eq, not_true_eq_false, or_self,
          not_false_eq_true]
      rw [if_neg hstart,
        if_neg (by rw [not_or, not_not]; exact ⟨hpayload, hlength⟩), if_neg hdata, ← hparse,
        hcovered]

/-- The host reads back the control frames the device writes. -/
theorem receivedFrame_frameWire (type : FrameType) {transferId : UInt32} (sequence : UInt32)
    (offset : UInt64) {status : UInt16} {payload : List UInt8} (hid : transferId ≠ 0)
    (hlength : payload.length ≤ kMaxPayloadBytes)
    (hfields : hasValidTypeFields type status (UInt16.ofNat payload.length) = true) :
    receivedFrame (frameWire type transferId sequence offset status payload) =
      some (imageFrame type transferId sequence offset status payload) := by
  have hbody : ((frameWire type transferId sequence offset status payload).drop 2).dropLast =
      stuff [] (decodedImage type 0 transferId sequence offset status payload) := by
    simp [frameWire]
  have hdecoded : (decodedImage type 0 transferId sequence offset status payload).length ≤
      kMaxDecodedFrameBytes := by
    rw [decodedImage_length]
    simp only [kMaxDecodedFrameBytes]
    omega
  rw [receivedFrame, hbody, cobsDecode_stuff hdecoded, Option.bind_some]
  exact parseReceivedFrame_of_parseDecoded
    (parseDecoded_decodedImage type transferId sequence offset status payload hid hlength hfields)

/-- The DATA frames the host builds are the ones the device's format names. -/
theorem frameWire_of_buildFrame {transferId : UInt32} {sequence offset : Nat}
    {payload wire : List UInt8}
    (hbuild : buildFrame .data transferId sequence offset 0 payload = some wire) :
    wire = frameWire .data transferId (UInt32.ofNat sequence) (UInt64.ofNat offset) 0 payload ∧
      0 < payload.length ∧ payload.length ≤ kMaxPayloadBytes ∧ sequence < 2 ^ 32 ∧
      offset < 2 ^ 64 := by
  unfold buildFrame at hbuild
  split_ifs at hbuild with hlong hdata hack hnack hrange
  simp only at hbuild
  split_ifs at hbuild
  obtain ⟨hsequence, hoffset⟩ := not_or.mp hrange
  have hpayload : payload ≠ [] := by
    intro hnil
    exact hdata ⟨rfl, .inl hnil⟩
  refine ⟨?_, List.length_pos_iff.mpr hpayload, by omega, by omega, by omega⟩
  rw [← Option.some.inj hbuild, frameWire, cobsEncode_eq_stuff]

end EspNp2.HostUpload.HostWire
