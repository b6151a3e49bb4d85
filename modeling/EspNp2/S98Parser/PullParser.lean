import EspNp2.S98Parser.MulDivFloor
import EspNp2.S98Parser.SynthEvents

/-!
The S98 parser. The file is scanned once when the parser is set up; then every call gives the
next event of the dump. The bytes that can be read are given to every call: a read outside them
is a failure of the model, and so is a loop that does not end.
-/

namespace EspNp2.S98Parser.PullParser

open EspNp2.Digest
open EspNp2.S98Parser.MulDivFloor
open EspNp2.S98Parser.SynthEvents

inductive ResultCategory where
  | pass
  | malformed
  | unsupported
deriving DecidableEq, Repr

inductive Error where
  | none
  | header
  | magic
  | offset
  | device
  | clock
  | pan
  | loop
  | tag
  | command
  | truncated
  | varint
  | register
  | key
  | timing
  | sequence
  | trace
deriving DecidableEq, Repr

inductive ClockPolicy where
  | exactNp2
  | workloadClockMismatch
deriving DecidableEq, Repr

structure Metadata where
  s98Version : UInt32
  deviceCount : UInt32
  deviceType : UInt32
  declaredDeviceClockHz : UInt32
  effectiveOpngenClockHz : UInt32
  rawTimerNumerator : UInt32
  rawTimerDenominator : UInt32
  effectiveTimerNumerator : UInt32
  effectiveTimerDenominator : UInt32
  dataOffset : UInt32
  tagOffset : UInt32
  loopOffset : UInt32
  sourceWriteCount : UInt64
  emittedEventCount : UInt64
  ignoredWriteCount : UInt64
  finalSyncCount : UInt64
  endFrame : UInt64
  clockPolicy : ClockPolicy

structure Parser where
  size : ℕ
  cursor : ℕ
  dumpEnd : ℕ
  syncCount : UInt64
  nextSequence : UInt64
  lastTimestamp : UInt64
  metadata : Metadata
  eventTrace : TraceState
  resultCategory : ResultCategory
  error : Error
  ended : Bool
  hasEvent : Bool

inductive Next where
  | event (event : SynthEvent)
  | «end»
  | error
deriving DecidableEq, Repr

def getLe32 (memory : List UInt8) (offset : ℕ) : Option UInt32 := do
  let byte0 ← memory[offset]?
  let byte1 ← memory[offset + 1]?
  let byte2 ← memory[offset + 2]?
  let byte3 ← memory[offset + 3]?
  some (byte0.toUInt32 ||| (byte1.toUInt32 <<< 8) ||| (byte2.toUInt32 <<< 16) |||
    (byte3.toUInt32 <<< 24))

/-- The comparison of some bytes; all of them must be readable. -/
def compare (memory : List UInt8) (offset : ℕ) (bytes : List UInt8) : Option Bool :=
  if offset + bytes.length ≤ memory.length then
    some ((memory.drop offset).take bytes.length == bytes)
  else
    none

def setError (parser : Parser) (category : ResultCategory) (error : Error) : Int32 × Parser :=
  (-1, { parser with resultCategory := category, error := error })

def rangeValid (size : ℕ) (offset : UInt32) (bytes : ℕ) : Bool :=
  offset.toNat ≤ size && bytes ≤ size - offset.toNat

def mappedFrame (parser : Parser) (syncCount : UInt64) : Option UInt64 :=
  let scale := parser.metadata.effectiveTimerNumerator.toUInt64 * 48000
  (mulDivFloor syncCount scale parser.metadata.effectiveTimerDenominator).run.1

section Preflight

/-- The loop over the bytes left below the size: the cursor after it and the value, or none. -/
def decodeVarintLoop (memory : List UInt8) :
    ℕ → ℕ → UInt64 → ℕ → Option (ℕ × Option UInt64)
  | 0, cursor, _, _ => some (cursor, none)
  | left + 1, cursor, decoded, shift => do
      let byte ← memory[cursor]?
      let cursor := cursor + 1
      let payload := (byte &&& 0x7f).toUInt64
      if shift > 63 || (shift == 63 && payload > 1) then
        some (cursor, none)
      else
        let decoded := decoded ||| (payload <<< UInt64.ofNat shift)
        if byte &&& 0x80 == 0 then
          some (cursor, some decoded)
        else
          decodeVarintLoop memory left cursor decoded (shift + 7)

def decodeVarint (memory : List UInt8) (size cursor : ℕ) : Option (ℕ × Option UInt64) :=
  decodeVarintLoop memory (size - cursor) cursor 0 0

/-- The commands from the cursor on, with the loop offset met or not. -/
def preflightLoop (memory : List UInt8) : ℕ → Parser → ℕ → Bool → Option (Int32 × Parser × Bool)
  | 0, _, _, _ => none
  | passes + 1, parser, cursor, loopOnBoundary =>
      if cursor < parser.size then do
        let commandOffset := cursor
        let command ← memory[cursor]?
        let cursor := cursor + 1
        let loopOnBoundary := loopOnBoundary || (parser.metadata.loopOffset != 0 &&
          commandOffset == parser.metadata.loopOffset.toNat)
        if command == 0x00 || command == 0x01 then
          if parser.size - cursor < 2 then
            let (status, parser) := setError parser .malformed .truncated
            some (status, parser, loopOnBoundary)
          else
            preflightLoop memory passes parser (cursor + 2) loopOnBoundary
        else if command == 0xff then
          preflightLoop memory passes parser cursor loopOnBoundary
        else if command == 0xfe then do
          let (cursor, ignoredValue) ← decodeVarint memory parser.size cursor
          match ignoredValue with
          | some value =>
              if value > 0xffffffffffffffff - 2 then
                let (status, parser) := setError parser .malformed .varint
                some (status, parser, loopOnBoundary)
              else
                preflightLoop memory passes parser cursor loopOnBoundary
          | none =>
              let (status, parser) := setError parser .malformed .varint
              some (status, parser, loopOnBoundary)
        else if command == 0xfd then
          some (0, { parser with dumpEnd := cursor }, loopOnBoundary)
        else
          let (status, parser) := setError parser .malformed .command
          some (status, parser, loopOnBoundary)
      else
        some (0, parser, loopOnBoundary)

/-- The tag of a file has to follow its dump. -/
def tagRejected (memory : List UInt8) (parser : Parser) : Option Bool :=
  let tagOffset := parser.metadata.tagOffset.toNat
  if parser.metadata.tagOffset == 0 then
    some false
  else if tagOffset < parser.dumpEnd || parser.size - tagOffset < 5 then
    some true
  else do
    let equal ← compare memory tagOffset [0x5b, 0x53, 0x39, 0x38, 0x5d]
    some !equal

def preflightDump (memory : List UInt8) (parser : Parser) : Option (Int32 × Parser) := do
  let cursor := parser.metadata.dataOffset.toNat
  let (status, parser, loopOnBoundary) ←
    preflightLoop memory (parser.size + 1) parser cursor (parser.metadata.loopOffset == 0)
  if status != 0 then
    some (status, parser)
  else if parser.dumpEnd == 0 then
    some (setError parser .malformed .command)
  else do
    let rejected ← tagRejected memory parser
    if rejected then
      some (setError parser .malformed .tag)
    else if parser.metadata.loopOffset != 0 then
      let loopOffset := parser.metadata.loopOffset.toNat
      if loopOffset < parser.metadata.dataOffset.toNat || loopOffset ≥ parser.dumpEnd ||
          !loopOnBoundary then
        some (setError parser .malformed .loop)
      else
        some (setError parser .unsupported .loop)
    else
      some (0, parser)

end Preflight

section Init

/-- The parser of zeros, for bytes of a size. -/
def blank (size : ℕ) : Parser where
  size := size
  cursor := 0
  dumpEnd := 0
  syncCount := 0
  nextSequence := 0
  lastTimestamp := 0
  metadata := ⟨3, 0, 0, 0, 3993600, 0, 0, 0, 0, 0, 0, 0, 0, 0, 0, 0, 0, .exactNp2⟩
  eventTrace := ⟨0, 0, ⟨Vector.replicate 8 0, 0, Vector.replicate 64 0, 0⟩⟩
  resultCategory := .pass
  error := .none
  ended := false
  hasEvent := false

/-- The part of the metadata that stands in the header. -/
def readHeader (memory : List UInt8) (metadata : Metadata) : Option (UInt32 × Metadata) := do
  let rawTimerNumerator ← getLe32 memory 0x04
  let rawTimerDenominator ← getLe32 memory 0x08
  let compression ← getLe32 memory 0x0c
  let tagOffset ← getLe32 memory 0x10
  let dataOffset ← getLe32 memory 0x14
  let loopOffset ← getLe32 memory 0x18
  let deviceCount ← getLe32 memory 0x1c
  some (compression, { metadata with
    rawTimerNumerator := rawTimerNumerator
    rawTimerDenominator := rawTimerDenominator
    tagOffset := tagOffset
    dataOffset := dataOffset
    loopOffset := loopOffset
    deviceCount := deviceCount
    effectiveTimerNumerator := if rawTimerNumerator == 0 then 10 else rawTimerNumerator
    effectiveTimerDenominator := if rawTimerDenominator == 0 then 1000 else rawTimerDenominator })

def offsetsRejected (size : ℕ) (metadata : Metadata) : Bool :=
  let deviceTableEnd : UInt32 := 0x20 + metadata.deviceCount * 0x10
  let deviceTableBytes := metadata.deviceCount.toNat * 0x10
  !rangeValid size 0x20 deviceTableBytes || metadata.dataOffset < deviceTableEnd ||
    !rangeValid size metadata.dataOffset 1 ||
    (metadata.tagOffset != 0 && !rangeValid size metadata.tagOffset 1) ||
    (metadata.loopOffset != 0 && !rangeValid size metadata.loopOffset 1)

/-- The device record and the scan of the dump. -/
def readDevice (memory : List UInt8) (parser : Parser) : Option (Int32 × Parser) := do
  let deviceType ← getLe32 memory 0x20
  let declaredDeviceClockHz ← getLe32 memory 0x24
  let devicePan ← getLe32 memory 0x28
  let deviceReserved ← getLe32 memory 0x2c
  let parser := { parser with
    metadata.deviceType := deviceType
    metadata.declaredDeviceClockHz := declaredDeviceClockHz }
  if deviceType != 2 then
    some (setError parser .unsupported .device)
  else if declaredDeviceClockHz == 0 then
    some (setError parser .malformed .clock)
  else if devicePan != 0 || deviceReserved != 0 then
    some (setError parser .unsupported (if devicePan != 0 then .pan else .device))
  else if declaredDeviceClockHz != 3993600 && declaredDeviceClockHz != 4000000 then
    some (setError parser .unsupported .clock)
  else do
    let clockPolicy : ClockPolicy :=
      if declaredDeviceClockHz == 3993600 then .exactNp2 else .workloadClockMismatch
    let parser := { parser with
      metadata.clockPolicy := clockPolicy
      eventTrace := traceInit parser.eventTrace }
    let (status, parser) ← preflightDump memory parser
    if status != 0 then
      some (-1, parser)
    else
      some (0, { parser with cursor := parser.metadata.dataOffset.toNat })

/-- The whole memory is the file. -/
def init (memory : List UInt8) : Option (Int32 × Parser) :=
  let size := memory.length
  let parser := blank size
  if size < 0x20 then
    some (setError parser .malformed .header)
  else do
    let magic ← compare memory 0 [0x53, 0x39, 0x38, 0x33]
    if !magic then
      some (setError parser .malformed .magic)
    else do
      let (compression, metadata) ← readHeader memory parser.metadata
      let parser := { parser with metadata := metadata }
      if compression != 0 then
        some (setError parser .unsupported .header)
      else if metadata.deviceCount > (0xffffffff - 0x20) / 0x10 then
        some (setError parser .malformed .offset)
      else if offsetsRejected size metadata then
        some (setError parser .malformed .offset)
      else if metadata.deviceCount != 1 then
        some (setError parser .unsupported .device)
      else
        readDevice memory parser

end Init

section Next

def addSyncs (parser : Parser) (syncs : UInt64) : Int32 × Parser :=
  if syncs > 0xffffffffffffffff - parser.syncCount then
    setError parser .malformed .timing
  else
    (0, { parser with syncCount := parser.syncCount + syncs })

def isRegister (reg : UInt8) : Bool :=
  if reg ≥ 0x30 && reg ≤ 0x9f then
    reg &&& 0x03 != 0x03
  else
    (reg ≥ 0xa0 && reg ≤ 0xa2) || (reg ≥ 0xa4 && reg ≤ 0xa6) || (reg ≥ 0xb0 && reg ≤ 0xb2)

/-- What a write of the dump stands for, or why it is not supported. -/
def payloadOf (reg value : UInt8) : Except Error Payload :=
  if reg == 0x28 then
    if value &&& 0x04 != 0 || value &&& 0x03 > 2 then
      .error .key
    else
      .ok (.keyEvent (value &&& 0x03) (value &&& 0xf0) 0)
  else if isRegister reg then
    .ok (.registerWrite 0 reg.toUInt16 value)
  else
    .error .register

def emitRegisterOrKey (parser : Parser) (reg value : UInt8) : Option (Next × Parser) :=
  if parser.metadata.sourceWriteCount == 0xffffffffffffffff then
    some (.error, (setError parser .malformed .sequence).2)
  else
    let parser := { parser with
      metadata.sourceWriteCount := parser.metadata.sourceWriteCount + 1 }
    if parser.nextSequence == 0xffffffffffffffff then
      some (.error, (setError parser .malformed .sequence).2)
    else
      match mappedFrame parser parser.syncCount with
      | none => some (.error, (setError parser .malformed .timing).2)
      | some timestamp =>
          match payloadOf reg value with
          | .error error => some (.error, (setError parser .unsupported error).2)
          | .ok payload => do
              let event : SynthEvent := ⟨timestamp, parser.nextSequence, payload⟩
              let (status, eventTrace) ← traceUpdate parser.eventTrace event
              let parser := { parser with eventTrace := eventTrace }
              if status != .ok then
                some (.error, (setError parser .malformed .trace).2)
              else
                some (.event event, { parser with
                  metadata.emittedEventCount := parser.metadata.emittedEventCount + 1
                  nextSequence := parser.nextSequence + 1
                  lastTimestamp := timestamp
                  hasEvent := true })

def endOfDump (parser : Parser) : Next × Parser :=
  match mappedFrame parser parser.syncCount with
  | none => (.error, (setError parser .malformed .timing).2)
  | some endFrame =>
      let parser := { parser with metadata.endFrame := endFrame }
      if parser.hasEvent && endFrame < parser.lastTimestamp then
        (.error, (setError parser .malformed .timing).2)
      else
        (.end, { parser with metadata.finalSyncCount := parser.syncCount, ended := true })

/-- A wait whose value cannot be read, or whose syncs cannot be added. -/
def addWait (parser : Parser) (rawWait : Option UInt64) : Int32 × Parser :=
  match rawWait with
  | none => setError parser .malformed .varint
  | some rawWait =>
      if rawWait > 0xffffffffffffffff - 2 then
        setError parser .malformed .varint
      else
        addSyncs parser (rawWait + 2)

def nextLoop (memory : List UInt8) : ℕ → Parser → Option (Next × Parser)
  | 0, _ => none
  | passes + 1, parser =>
      if parser.cursor + 1 < parser.dumpEnd then do
        let command ← memory[parser.cursor]?
        let parser := { parser with cursor := parser.cursor + 1 }
        if command == 0x00 then do
          let reg ← memory[parser.cursor]?
          let value ← memory[parser.cursor + 1]?
          emitRegisterOrKey { parser with cursor := parser.cursor + 2 } reg value
        else if command == 0x01 then
          some (.error, (setError parser .unsupported .command).2)
        else if command == 0xff then
          let added := addSyncs parser 1
          if added.1 != 0 then some (.error, added.2) else nextLoop memory passes added.2
        else if command == 0xfe then do
          let (cursor, rawWait) ← decodeVarint memory parser.dumpEnd parser.cursor
          let added := addWait { parser with cursor := cursor } rawWait
          if added.1 != 0 then some (.error, added.2) else nextLoop memory passes added.2
        else
          some (.error, (setError parser .malformed .command).2)
      else
        some (endOfDump parser)

def next (memory : List UInt8) (parser : Parser) : Option (Next × Parser) :=
  if parser.resultCategory != .pass then
    some (.error, parser)
  else if parser.ended then
    some (.end, parser)
  else
    nextLoop memory (parser.dumpEnd + 1) parser

def eventTraceFinish (parser : Parser) :
    Option (Option (UInt64 × UInt32 × List UInt8) × Parser) :=
  if parser.resultCategory != .pass || !parser.ended then
    some (none, parser)
  else do
    let (eventTrace, result) ← traceFinish parser.eventTrace
    some (some result, { parser with eventTrace := eventTrace })

end Next

end EspNp2.S98Parser.PullParser
