import EspNp2.BinaryDataPlane.BinaryCodec

/-!
Every frame the builder accepts survives the wire: the COBS body fits the
transfer manager's buffers and decodes and parses back to the fields it was
built from. Conversely a parsed frame with canonical type fields is the image of
its own fields.
-/

namespace EspNp2.BinaryDataPlane.FrameRoundTrip

open EspNp2.Library.LittleEndian
open EspNp2.Library.ByteStuffing
open EspNp2.BinaryDataPlane.BinaryCodec

theorem getLe_putU16 (value : UInt16) :
    UInt16.ofNat (getLe (putU16 value)) = value := by
  apply UInt16.toNat_inj.mp
  have hvalue : value.toNat < 2 ^ 16 := value.toNat_lt
  rw [UInt16.toNat_ofNat', putU16, getLe_putLe]
  omega

theorem getLe_putU32 (value : UInt32) :
    UInt32.ofNat (getLe (putU32 value)) = value := by
  apply UInt32.toNat_inj.mp
  have hvalue : value.toNat < 2 ^ 32 := value.toNat_lt
  rw [UInt32.toNat_ofNat', putU32, getLe_putLe]
  omega

theorem getLe_putU64 (value : UInt64) :
    UInt64.ofNat (getLe (putU64 value)) = value := by
  apply UInt64.toNat_inj.mp
  have hvalue : value.toNat < 2 ^ 64 := value.toNat_lt
  rw [UInt64.toNat_ofNat', putU64, getLe_putLe]
  omega

theorem putU16_getU16 (data : List UInt8) (offset : Nat)
    (hbound : offset + 2 ≤ data.length) :
    putU16 (getU16 data offset) = (data.drop offset).take 2 := by
  have hlt : getLe ((data.drop offset).take 2) < 2 ^ 16 := getLe_slice_lt data offset 2
  rw [putU16, getU16, UInt16.toNat_ofNat', Nat.mod_eq_of_lt hlt,
    putLe_getLe_slice data offset 2 hbound]

theorem putU32_getU32 (data : List UInt8) (offset : Nat)
    (hbound : offset + 4 ≤ data.length) :
    putU32 (getU32 data offset) = (data.drop offset).take 4 := by
  have hlt : getLe ((data.drop offset).take 4) < 2 ^ 32 := getLe_slice_lt data offset 4
  rw [putU32, getU32, UInt32.toNat_ofNat', Nat.mod_eq_of_lt hlt,
    putLe_getLe_slice data offset 4 hbound]

theorem putU64_getU64 (data : List UInt8) (offset : Nat)
    (hbound : offset + 8 ≤ data.length) :
    putU64 (getU64 data offset) = (data.drop offset).take 8 := by
  have hlt : getLe ((data.drop offset).take 8) < 2 ^ 64 := getLe_slice_lt data offset 8
  rw [putU64, getU64, UInt64.toNat_ofNat', Nat.mod_eq_of_lt hlt,
    putLe_getLe_slice data offset 8 hbound]

section Image

variable (type : FrameType) (transferId sequence : UInt32) (offset : UInt64)
  (status : UInt16) (payload : List UInt8)

@[simp] theorem headerImage_length (flags payloadLength : UInt16) :
    (headerImage type flags transferId sequence offset status payloadLength).length =
      kHeaderBytes := by
  rfl

@[simp] theorem decodedImage_length :
    (decodedImage type 0 transferId sequence offset status payload).length =
      kHeaderBytes + payload.length + kCrcBytes := by
  simp [decodedImage, putU32, kCrcBytes, Nat.add_assoc]

/-- The bytes a frame's CRC covers. -/
def coveredImage : List UInt8 :=
  headerImage type 0 transferId sequence offset status (UInt16.ofNat payload.length) ++ payload

theorem decodedImage_eq :
    decodedImage type 0 transferId sequence offset status payload =
      coveredImage type transferId sequence offset status payload ++
        putU32 (Crc32.calculate
          (coveredImage type transferId sequence offset status payload)) :=
  rfl

theorem coveredImage_length :
    (coveredImage type transferId sequence offset status payload).length =
      kHeaderBytes + payload.length := by
  simp [coveredImage]

/-- The frame `parse_decoded` reports for an image. -/
def imageFrame : ParsedFrame :=
  { crcValid := true
    type := type
    transferId := transferId
    sequence := sequence
    offset := offset
    payloadLength := UInt16.ofNat payload.length
    status := status
    wireCrc := Crc32.calculate (coveredImage type transferId sequence offset status payload)
    payload := payload }

theorem getU32_crc :
    getU32 (decodedImage type 0 transferId sequence offset status payload)
        ((decodedImage type 0 transferId sequence offset status payload).length - kCrcBytes) =
      Crc32.calculate (coveredImage type transferId sequence offset status payload) := by
  have hdrop : (decodedImage type 0 transferId sequence offset status payload).length -
      kCrcBytes = (coveredImage type transferId sequence offset status payload).length := by
    rw [decodedImage_length, coveredImage_length, Nat.add_sub_cancel]
  have htake : (putU32 (Crc32.calculate
      (coveredImage type transferId sequence offset status payload))).take 4 =
        putU32 (Crc32.calculate
          (coveredImage type transferId sequence offset status payload)) := rfl
  rw [getU32, hdrop, decodedImage_eq, List.drop_left, htake, getLe_putU32]

theorem hasValidReceived_of_hasValid {type : FrameType} {status payloadLength : UInt16}
    (hfields : hasValidTypeFields type status payloadLength = true) :
    hasValidReceivedTypeFields type status payloadLength = true := by
  cases type
  · exact hfields
  · rfl
  · rfl

theorem parseDecoded_decodedImage (hid : transferId ≠ 0)
    (hlength : payload.length ≤ kMaxPayloadBytes)
    (hfields : hasValidTypeFields type status (UInt16.ofNat payload.length) = true) :
    parseDecoded (decodedImage type 0 transferId sequence offset status payload) =
      some (imageFrame type transferId sequence offset status payload) := by
  have hsmall : (UInt16.ofNat payload.length).toNat = payload.length := by
    simp only [kMaxPayloadBytes] at hlength
    rw [UInt16.toNat_ofNat']
    omega
  have hcrc := getU32_crc type transferId sequence offset status payload
  have hcovered : (decodedImage type 0 transferId sequence offset status payload).take
      (kHeaderBytes + payload.length) =
        coveredImage type transferId sequence offset status payload := by
    rw [decodedImage_eq, ← coveredImage_length type transferId sequence offset status payload,
      List.take_left]
  have hpayload : ((decodedImage type 0 transferId sequence offset status payload).drop
      kHeaderBytes).take payload.length = payload := by
    rw [decodedImage_eq, coveredImage, List.append_assoc,
      ← headerImage_length type transferId sequence offset status 0
        (UInt16.ofNat payload.length), List.drop_left, List.take_left]
  have hflags : getU16 (decodedImage type 0 transferId sequence offset status payload) 4 = 0 :=
    getLe_putU16 0
  have hheader : getU16 (decodedImage type 0 transferId sequence offset status payload) 6 =
      UInt16.ofNat kHeaderBytes := getLe_putU16 _
  have htransfer : getU32 (decodedImage type 0 transferId sequence offset status payload) 8 =
      transferId := getLe_putU32 _
  have hsequence : getU32 (decodedImage type 0 transferId sequence offset status payload) 12 =
      sequence := getLe_putU32 _
  have hoffset : getU64 (decodedImage type 0 transferId sequence offset status payload) 16 =
      offset := getLe_putU64 _
  have hpayloadLength :
      getU16 (decodedImage type 0 transferId sequence offset status payload) 24 =
        UInt16.ofNat payload.length := getLe_putU16 _
  have hstatus : getU16 (decodedImage type 0 transferId sequence offset status payload) 26 =
      status := getLe_putU16 _
  have htype : FrameType.ofByte
      ((decodedImage type 0 transferId sequence offset status payload).getD 3 0) = some type :=
    FrameType.ofByte_toByte type
  have hreject : ¬ ((decodedImage type 0 transferId sequence offset status payload).getD 0 0 ≠
        kMagic0 ∨
      (decodedImage type 0 transferId sequence offset status payload).getD 1 0 ≠ kMagic1 ∨
      (decodedImage type 0 transferId sequence offset status payload).getD 2 0 ≠
        kDataPlaneVersion ∨ (0 : UInt16) ≠ 0 ∨
      (UInt16.ofNat kHeaderBytes).toNat ≠ kHeaderBytes ∨
      payload.length > kMaxPayloadBytes ∨
      hasValidReceivedTypeFields type status (UInt16.ofNat payload.length) = false ∨
      transferId = 0 ∨
      (decodedImage type 0 transferId sequence offset status payload).length ≠
        kHeaderBytes + payload.length + kCrcBytes) := by
    have hreceived := hasValidReceived_of_hasValid hfields
    simp only [not_or, not_not, not_lt]
    exact ⟨rfl, rfl, rfl, trivial, by decide, hlength, by simp [hreceived], hid,
      decodedImage_length ..⟩
  rw [parseDecoded, if_neg (by rw [decodedImage_length]; omega)]
  simp only [htype, hflags, hheader, htransfer, hsequence, hoffset, hpayloadLength, hstatus,
    hcrc, hsmall, hcovered, hpayload]
  rw [if_neg hreject]
  simp [imageFrame]

/-- The builder never meets one of its capacity checks on the transfer manager's
own buffers. -/
theorem encodeFrame_eq (hid : transferId ≠ 0)
    (hlength : payload.length ≤ kMaxPayloadBytes)
    (hfields : hasValidTypeFields type status (UInt16.ofNat payload.length) = true) :
    encodeFrame type 0 transferId sequence offset status payload
        kMaxDecodedFrameBytes kMaxEncodedBodyBytes kMaxWireFrameBytes =
      some
        { decoded := decodedImage type 0 transferId sequence offset status payload
          encoded := stuff [] (decodedImage type 0 transferId sequence offset status payload)
          wire := [0, 0] ++
            stuff [] (decodedImage type 0 transferId sequence offset status payload) ++ [0] } ∧
      (stuff [] (decodedImage type 0 transferId sequence offset status payload)).length ≤
        kMaxEncodedBodyBytes := by
  have hbody := stuff_length_le [] (decodedImage type 0 transferId sequence offset status payload)
    (by simp)
  rw [decodedImage_length] at hbody
  simp only [List.length_nil, kMaxPayloadBytes, kHeaderBytes, kCrcBytes] at hbody hlength
  have hfits : (stuff [] (decodedImage type 0 transferId sequence offset status payload)).length ≤
      kMaxEncodedBodyBytes := by
    simp only [kMaxEncodedBodyBytes]
    omega
  refine ⟨?_, hfits⟩
  have hcobs := Cobs.encode_eq_stuff _ _ hfits
  have hreject : ¬ ((0 : UInt16) ≠ 0 ∨ transferId = 0 ∨ payload.length > kMaxPayloadBytes ∨
      hasValidTypeFields type status (UInt16.ofNat payload.length) = false ∨
      kMaxDecodedFrameBytes < kHeaderBytes + payload.length + kCrcBytes ∨
      kMaxWireFrameBytes < 3) := by
    simp only [hfields, hid, kMaxDecodedFrameBytes, kMaxWireFrameBytes, kMaxPayloadBytes,
      kHeaderBytes, kCrcBytes]
    simp
    omega
  simp only [encodeFrame, hcobs]
  rw [if_neg hreject, if_neg (by simp only [kMaxWireFrameBytes, kMaxEncodedBodyBytes] at *; omega)]

end Image

theorem decodedImage_parseDecoded {decoded : List UInt8} {frame : ParsedFrame}
    (hparse : parseDecoded decoded = some frame) (hcrc : frame.crcValid = true) :
    decoded = decodedImage frame.type 0 frame.transferId frame.sequence frame.offset
        frame.status frame.payload ∧
      frame.transferId ≠ 0 ∧ frame.payload.length ≤ kMaxPayloadBytes ∧
      frame.payloadLength = UInt16.ofNat frame.payload.length := by
  unfold parseDecoded at hparse
  split_ifs at hparse with hshort
  simp only at hparse
  split at hparse
  · simp at hparse
  · rename_i type htype
    split_ifs at hparse with hreject
    simp only [not_or, not_not, not_lt] at hreject
    obtain ⟨hmagic0, hmagic1, hversion, hflags, hheader, hpayloadLength, -, hid, hlength⟩ := hreject
    have hframe := Option.some.inj hparse
    subst hframe
    have hmin : 32 ≤ decoded.length := by
      simp only [kHeaderBytes, kCrcBytes] at hshort
      omega
    have hcrcEq := eq_of_beq hcrc
    have hpayload : ((decoded.drop kHeaderBytes).take (getU16 decoded 24).toNat).length =
        (getU16 decoded 24).toNat := by
      rw [List.length_take, List.length_drop]
      simp only [kHeaderBytes, kCrcBytes] at hlength ⊢
      omega
    have hpayloadBack : UInt16.ofNat
        ((decoded.drop kHeaderBytes).take (getU16 decoded 24).toNat).length =
          getU16 decoded 24 := by
      rw [hpayload, UInt16.ofNat_toNat]
    have hheaderField : UInt16.ofNat kHeaderBytes = getU16 decoded 6 := by
      rw [← hheader, UInt16.ofNat_toNat]
    have hstart : [kMagic0, kMagic1, kDataPlaneVersion, type.toByte] = decoded.take 4 := by
      rw [FrameType.toByte_of_ofByte htype, ← hmagic0, ← hmagic1, ← hversion]
      obtain _ | ⟨b0, _ | ⟨b1, _ | ⟨b2, _ | ⟨b3, rest⟩⟩⟩⟩ := decoded
      all_goals first | rfl | (simp at hmin)
    have hheaderBytes : headerImage type 0 (getU32 decoded 8) (getU32 decoded 12)
        (getU64 decoded 16) (getU16 decoded 26) (getU16 decoded 24) =
          decoded.take kHeaderBytes := by
      rw [headerImage, ← hflags, hheaderField, hstart,
        putU16_getU16 decoded 4 (by omega), putU16_getU16 decoded 6 (by omega),
        putU32_getU32 decoded 8 (by omega), putU32_getU32 decoded 12 (by omega),
        putU64_getU64 decoded 16 (by omega), putU16_getU16 decoded 24 (by omega),
        putU16_getU16 decoded 26 (by omega)]
      change _ = decoded.take (4 + (2 + (2 + (4 + (4 + (8 + (2 + 2)))))))
      simp only [List.take_add, List.drop_drop]
    have hcrcBytes : putU32 (getU32 decoded (decoded.length - kCrcBytes)) =
        decoded.drop (kHeaderBytes + (getU16 decoded 24).toNat) := by
      rw [putU32_getU32 decoded _ (by simp only [kCrcBytes]; omega)]
      rw [hlength, Nat.add_sub_cancel]
      apply List.take_of_length_le
      rw [List.length_drop, hlength]
      simp [kCrcBytes]
    have hcovered : decoded.take kHeaderBytes ++
        (decoded.drop kHeaderBytes).take (getU16 decoded 24).toNat =
          decoded.take (kHeaderBytes + (getU16 decoded 24).toNat) := by
      rw [List.take_add]
    refine ⟨?_, hid, by simpa [hpayload] using hpayloadLength, hpayloadBack.symm⟩
    simp only [decodedImage, hpayloadBack, hheaderBytes, hcovered, hcrcEq, hcrcBytes]
    exact (List.take_append_drop _ decoded).symm

/-- The wire form of a frame the builder accepts. -/
def frameWire (type : FrameType) (transferId sequence : UInt32) (offset : UInt64)
    (status : UInt16) (payload : List UInt8) : List UInt8 :=
  [0, 0] ++ stuff [] (decodedImage type 0 transferId sequence offset status payload) ++ [0]

/-- The COBS body between the delimiters of a wire form, decoded. -/
def wireDecoded (wire : List UInt8) : Option (List UInt8) :=
  Cobs.decode (wire.drop 2).dropLast kMaxDecodedFrameBytes

/-- The frame a wire form carries. -/
def wireFrame (wire : List UInt8) : Option ParsedFrame :=
  (wireDecoded wire).bind parseDecoded

theorem wireDecoded_frameWire (type : FrameType) (transferId sequence : UInt32) (offset : UInt64)
    (status : UInt16) {payload : List UInt8} (hlength : payload.length ≤ kMaxPayloadBytes) :
    wireDecoded (frameWire type transferId sequence offset status payload) =
      some (decodedImage type 0 transferId sequence offset status payload) := by
  have hbody : ((frameWire type transferId sequence offset status payload).drop 2).dropLast =
      stuff [] (decodedImage type 0 transferId sequence offset status payload) := by
    simp [frameWire]
  rw [wireDecoded, hbody]
  apply Cobs.decode_stuff
  rw [decodedImage_length]
  simp only [kMaxDecodedFrameBytes]
  omega

theorem wireFrame_frameWire (type : FrameType) {transferId : UInt32} (sequence : UInt32)
    (offset : UInt64) {status : UInt16} {payload : List UInt8} (hid : transferId ≠ 0)
    (hlength : payload.length ≤ kMaxPayloadBytes)
    (hfields : hasValidTypeFields type status (UInt16.ofNat payload.length) = true) :
    wireFrame (frameWire type transferId sequence offset status payload) =
      some (imageFrame type transferId sequence offset status payload) := by
  rw [wireFrame, wireDecoded_frameWire type transferId sequence offset status hlength]
  exact parseDecoded_decodedImage type transferId sequence offset status payload hid hlength
    hfields

/-- A frame that `encode_frame` has built, whatever its arguments and buffers. -/
def Built (frame : EncodedFrame) : Prop :=
  ∃ type flags transferId sequence offset status payload decodedCapacity encodedCapacity
      wireCapacity,
    encodeFrame type flags transferId sequence offset status payload decodedCapacity
      encodedCapacity wireCapacity = some frame

theorem Built.exists_body {frame : EncodedFrame} (h : Built frame) :
    ∃ body, frame.wire = [0, 0] ++ body ++ [0] ∧ body ≠ [] ∧ 0 ∉ body ∧
      body.length ≤ kMaxEncodedBodyBytes ∧
      Cobs.decode body kMaxDecodedFrameBytes = some frame.decoded := by
  obtain ⟨type, flags, transferId, sequence, offset, status, payload, decodedCapacity,
    encodedCapacity, wireCapacity, hencode⟩ := h
  unfold encodeFrame at hencode
  split_ifs at hencode with hreject
  simp only [not_or, not_lt, ne_eq, not_not] at hreject
  obtain ⟨rfl, hid, hlength, hfields, -⟩ := hreject
  simp only at hencode
  cases hcobs : Cobs.encode (decodedImage type 0 transferId sequence offset status payload)
      encodedCapacity with
  | none => simp [hcobs] at hencode
  | some encoded =>
      simp only [hcobs] at hencode
      split_ifs at hencode
      obtain rfl := Option.some.inj hencode
      obtain rfl := Cobs.stuff_of_encode hcobs
      have hfits := (encodeFrame_eq type transferId sequence offset status payload hid hlength
        (by simpa using hfields)).2
      refine ⟨_, rfl, stuff_ne_nil _ _, zero_not_mem_stuff [] _ (by simp) (by simp), hfits, ?_⟩
      apply Cobs.decode_stuff
      rw [decodedImage_length]
      simp only [kMaxDecodedFrameBytes]
      omega

/-- Encoding a frame and decoding it again on the receiver's buffers. -/
def roundTrips (type : FrameType) (transferId sequence : UInt32) (offset : UInt64)
    (status : UInt16) (payload : List UInt8) : Prop :=
  ∃ frame body,
    encodeFrame type 0 transferId sequence offset status payload
        kMaxDecodedFrameBytes kMaxEncodedBodyBytes kMaxWireFrameBytes = some frame ∧
      frame.wire = [0, 0] ++ body ++ [0] ∧ 0 ∉ body ∧ body.length ≤ kMaxEncodedBodyBytes ∧
      Cobs.decode body kMaxDecodedFrameBytes = some frame.decoded ∧
      ∃ wireCrc, parseDecoded frame.decoded = some
        { crcValid := true
          type := type
          transferId := transferId
          sequence := sequence
          offset := offset
          payloadLength := UInt16.ofNat payload.length
          status := status
          wireCrc := wireCrc
          payload := payload }

theorem frame_codec_roundTrip :
    (∀ (type : FrameType) (transferId sequence : UInt32) (offset : UInt64) (status : UInt16)
        (payload : List UInt8), transferId ≠ 0 → payload.length ≤ kMaxPayloadBytes →
        hasValidTypeFields type status (UInt16.ofNat payload.length) = true →
        roundTrips type transferId sequence offset status payload) ∧
      ∀ (decoded : List UInt8) (frame : ParsedFrame), parseDecoded decoded = some frame →
        frame.crcValid = true →
        hasValidTypeFields frame.type frame.status frame.payloadLength = true →
        ∃ built, encodeFrame frame.type 0 frame.transferId frame.sequence frame.offset
            frame.status frame.payload
            kMaxDecodedFrameBytes kMaxEncodedBodyBytes kMaxWireFrameBytes = some built ∧
          built.decoded = decoded := by
  constructor
  · intro type transferId sequence offset status payload hid hlength hfields
    obtain ⟨hencode, hbody⟩ :=
      encodeFrame_eq type transferId sequence offset status payload hid hlength hfields
    refine ⟨_, _, hencode, rfl, zero_not_mem_stuff [] _ (by simp) (by simp), hbody, ?_, _,
      parseDecoded_decodedImage type transferId sequence offset status payload hid hlength hfields⟩
    apply Cobs.decode_stuff
    rw [decodedImage_length]
    simp only [kMaxDecodedFrameBytes]
    omega
  · intro decoded frame hparse hcrc hfields
    obtain ⟨himage, hid, hlength, hpayloadLength⟩ := decodedImage_parseDecoded hparse hcrc
    rw [hpayloadLength] at hfields
    exact ⟨_, (encodeFrame_eq frame.type frame.transferId frame.sequence frame.offset
      frame.status frame.payload hid hlength hfields).1, himage.symm⟩

theorem frame_codec_roundTrip_data :
    roundTrips .data 7 2 2048 0 [0, 17, 0, 255] ∧
      ∃ built, encodeFrame .data 0 7 2 2048 0 [0, 17, 0, 255]
          kMaxDecodedFrameBytes kMaxEncodedBodyBytes kMaxWireFrameBytes = some built ∧
        built.decoded = decodedImage .data 0 7 2 2048 0 [0, 17, 0, 255] := by
  constructor
  · exact frame_codec_roundTrip.1 .data 7 2 2048 0 [0, 17, 0, 255] (by decide) (by decide)
      (by decide)
  · exact frame_codec_roundTrip.2 (decodedImage .data 0 7 2 2048 0 [0, 17, 0, 255])
      (imageFrame .data 7 2 2048 0 [0, 17, 0, 255])
      (parseDecoded_decodedImage .data 7 2 2048 0 [0, 17, 0, 255] (by decide) (by decide)
        (by decide))
      rfl (by decide)

end EspNp2.BinaryDataPlane.FrameRoundTrip
