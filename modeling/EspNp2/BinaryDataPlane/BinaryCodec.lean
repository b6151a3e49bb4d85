import EspNp2.Library.LittleEndian
import EspNp2.BinaryDataPlane.Cobs

/-!
The frame format of Binary Data Plane v1: the reflected CRC-32 of `crc32.cpp`
and the frame parser and builder of `binary_codec.cpp`.
-/

namespace EspNp2.BinaryDataPlane.BinaryCodec

open EspNp2.Library.LittleEndian

def kMagic0 : UInt8 := 0x4e
def kMagic1 : UInt8 := 0x42
def kDataPlaneVersion : UInt8 := 1
def kHeaderBytes : Nat := 28
def kCrcBytes : Nat := 4
def kMaxPayloadBytes : Nat := 1024
def kMaxDecodedFrameBytes : Nat := kHeaderBytes + kMaxPayloadBytes + kCrcBytes
def kMaxEncodedBodyBytes : Nat := 1061
def kMaxWireFrameBytes : Nat := 1064

namespace Crc32

def kReflectedPolynomial : UInt32 := 0xedb88320

def init : UInt32 := 0xffffffff

/-- One round of the inner bit loop. -/
def shiftBit (running : UInt32) : UInt32 :=
  if running &&& 1 ≠ 0 then (running >>> 1) ^^^ kReflectedPolynomial else running >>> 1

def updateByte (running : UInt32) (byte : UInt8) : UInt32 :=
  shiftBit^[8] (running ^^^ byte.toUInt32)

def update (running : UInt32) (data : List UInt8) : UInt32 :=
  data.foldl updateByte running

def finish (running : UInt32) : UInt32 := running ^^^ 0xffffffff

def calculate (data : List UInt8) : UInt32 := finish (update init data)

theorem update_append (running : UInt32) (first second : List UInt8) :
    update running (first ++ second) = update (update running first) second := by
  simp [update, List.foldl_append]

end Crc32

inductive FrameType where
  | data
  | ack
  | nack
deriving DecidableEq, Repr

/-- The wire value of a frame type. -/
def FrameType.toByte : FrameType → UInt8
  | .data => 0x01
  | .ack => 0x02
  | .nack => 0x03

/-- The known frame type with a wire value; `none` where `is_known_type` is
false. -/
def FrameType.ofByte (byte : UInt8) : Option FrameType :=
  if byte = 0x01 then some .data
  else if byte = 0x02 then some .ack
  else if byte = 0x03 then some .nack
  else none

@[simp] theorem FrameType.ofByte_toByte (type : FrameType) :
    FrameType.ofByte type.toByte = some type := by
  cases type <;> rfl

theorem FrameType.toByte_of_ofByte {byte : UInt8} {type : FrameType}
    (h : FrameType.ofByte byte = some type) : type.toByte = byte := by
  unfold FrameType.ofByte at h
  split_ifs at h with h1 h2 h3
  · rw [← Option.some.inj h, h1, FrameType.toByte]
  · rw [← Option.some.inj h, h2, FrameType.toByte]
  · rw [← Option.some.inj h, h3, FrameType.toByte]

def getU16 (data : List UInt8) (offset : Nat) : UInt16 :=
  UInt16.ofNat (getLe ((data.drop offset).take 2))

def getU32 (data : List UInt8) (offset : Nat) : UInt32 :=
  UInt32.ofNat (getLe ((data.drop offset).take 4))

def getU64 (data : List UInt8) (offset : Nat) : UInt64 :=
  UInt64.ofNat (getLe ((data.drop offset).take 8))

def putU16 (value : UInt16) : List UInt8 := putLe 2 value.toNat

def putU32 (value : UInt32) : List UInt8 := putLe 4 value.toNat

def putU64 (value : UInt64) : List UInt8 := putLe 8 value.toNat

/-- `has_valid_type_fields`, with the payload length as the 16-bit value both
callers pass. -/
def hasValidTypeFields (type : FrameType) (status payloadLength : UInt16) : Bool :=
  match type with
  | .data => payloadLength != 0 && status == 0
  | .ack => payloadLength == 0 && status == 0
  | .nack => payloadLength == 0 && status != 0

def hasValidReceivedTypeFields (type : FrameType) (status payloadLength : UInt16) : Bool :=
  match type with
  | .data => hasValidTypeFields type status payloadLength
  | .ack | .nack => true

structure ParsedFrame where
  crcValid : Bool
  type : FrameType
  transferId : UInt32
  sequence : UInt32
  offset : UInt64
  payloadLength : UInt16
  status : UInt16
  wireCrc : UInt32
  payload : List UInt8
deriving DecidableEq, Repr

/-- `parse_decoded`: `some` frame where the source returns true. A frame with a
wrong CRC parses with `crcValid = false`. -/
def parseDecoded (decoded : List UInt8) : Option ParsedFrame :=
  if decoded.length < kHeaderBytes + kCrcBytes then none
  else
    let flags := getU16 decoded 4
    let headerLength := getU16 decoded 6
    let transferId := getU32 decoded 8
    let payloadLength := getU16 decoded 24
    let status := getU16 decoded 26
    let wireCrc := getU32 decoded (decoded.length - kCrcBytes)
    match FrameType.ofByte (decoded.getD 3 0) with
    | none => none
    | some type =>
        if decoded.getD 0 0 ≠ kMagic0 ∨ decoded.getD 1 0 ≠ kMagic1 ∨
            decoded.getD 2 0 ≠ kDataPlaneVersion ∨ flags ≠ 0 ∨
            headerLength.toNat ≠ kHeaderBytes ∨
            payloadLength.toNat > kMaxPayloadBytes ∨
            hasValidReceivedTypeFields type status payloadLength = false ∨
            transferId = 0 ∨
            decoded.length ≠ kHeaderBytes + payloadLength.toNat + kCrcBytes then none
        else
          some
            { crcValid :=
                Crc32.calculate (decoded.take (kHeaderBytes + payloadLength.toNat)) == wireCrc
              type := type
              transferId := transferId
              sequence := getU32 decoded 12
              offset := getU64 decoded 16
              payloadLength := payloadLength
              status := status
              wireCrc := wireCrc
              payload := (decoded.drop kHeaderBytes).take payloadLength.toNat }

/-- The 28 header bytes, in buffer order. -/
def headerImage (type : FrameType) (flags : UInt16) (transferId sequence : UInt32)
    (offset : UInt64) (status payloadLength : UInt16) : List UInt8 :=
  [kMagic0, kMagic1, kDataPlaneVersion, type.toByte] ++
    (putU16 flags ++ (putU16 (UInt16.ofNat kHeaderBytes) ++ (putU32 transferId ++
      (putU32 sequence ++ (putU64 offset ++ (putU16 payloadLength ++ putU16 status))))))

/-- Header, payload and trailing CRC: the decoded buffer of `encode_frame`. -/
def decodedImage (type : FrameType) (flags : UInt16) (transferId sequence : UInt32)
    (offset : UInt64) (status : UInt16) (payload : List UInt8) : List UInt8 :=
  let covered := headerImage type flags transferId sequence offset status
    (UInt16.ofNat payload.length) ++ payload
  covered ++ putU32 (Crc32.calculate covered)

/-- The three buffers `encode_frame` fills when it succeeds. -/
structure EncodedFrame where
  decoded : List UInt8
  encoded : List UInt8
  wire : List UInt8
deriving DecidableEq, Repr

def encodeFrame (type : FrameType) (flags : UInt16) (transferId sequence : UInt32)
    (offset : UInt64) (status : UInt16) (payload : List UInt8)
    (decodedCapacity encodedCapacity wireCapacity : Nat) : Option EncodedFrame :=
  if flags ≠ 0 ∨ transferId = 0 ∨ payload.length > kMaxPayloadBytes ∨
      hasValidTypeFields type status (UInt16.ofNat payload.length) = false ∨
      decodedCapacity < kHeaderBytes + payload.length + kCrcBytes ∨
      wireCapacity < 3 then none
  else
    let decoded := decodedImage type flags transferId sequence offset status payload
    match Cobs.encode decoded encodedCapacity with
    | none => none
    | some encoded =>
        if wireCapacity < encoded.length + 3 then none
        else some
          { decoded := decoded
            encoded := encoded
            wire := [0, 0] ++ encoded ++ [0] }

end EspNp2.BinaryDataPlane.BinaryCodec
