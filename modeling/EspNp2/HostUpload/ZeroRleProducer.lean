import EspNp2.Library.LittleEndian

/-!
The two passes of a compressed upload in `np2_fixture_cache.py`: `analyze_zero_rle`
plans the wire size, `_ZeroRleProducer` hands out the DATA payloads. The file is a
byte string that does not change between the passes, so the comparisons of its
signature are left out; a running SHA-256 is the bytes it was updated with.
-/

namespace EspNp2.HostUpload.ZeroRleProducer

open EspNp2.Library.LittleEndian

def zeroRleScanBytes : Nat := 64 * 1024
def zeroRleDataLogicalBudget : Nat := 64 * 1024
def zeroRleRecordOverhead : Nat := 5
def zeroRleMaxRecordBytes : Nat := 0xFFFFFFFF
/-- `wire.MAX_PAYLOAD`. -/
def maxPayload : Nat := 1024

inductive ProducerError where
  | recordLengthOutOfRange
  | sourceEndedScanning
  | literalExceedsUint32
  | sourceEndedEncoding
  | sourceEndedZeroRun
  | maximumNotPositive
  | maximumTooSmallForRecord
  | maximumTooSmallForHeader
  | recordExceedsBudget
  | lengthOverflow
  | notFullyConsumed
  | sourceChanged
  | endedBeforeWireSize
  /-- A loop went on after all its rounds. -/
  | stalled
deriving DecidableEq, Repr

structure UploadPlan (Digest : Type) where
  sizeBytes : Nat
  sha256 : Digest
  wireSizeBytes : Nat
  zeroRunCount : Nat
  literalRecordCount : Nat
  literalBytes : Nat

section Analysis

def recordWireSize (kindIsLiteral : Bool) (length : Nat) : Except ProducerError Nat :=
  if length = 0 ∨ length > zeroRleMaxRecordBytes then .error .recordLengthOutOfRange
  else .ok (zeroRleRecordOverhead + if kindIsLiteral then length else 0)

/-- The locals of `analyze_zero_rle`. -/
structure Analysis where
  digested : List UInt8 := []
  size : Nat := 0
  wireSize : Nat := 0
  zeroRuns : Nat := 0
  literalRecords : Nat := 0
  literalBytes : Nat := 0
  currentLiteral : Option Bool := none
  currentLength : Nat := 0

/-- The records a zero run is split into. -/
def splitRecords (length : Nat) : Nat :=
  (length + zeroRleDataLogicalBudget - 1) / zeroRleDataLogicalBudget

def finishRecord (a : Analysis) : Except ProducerError Analysis :=
  match a.currentLiteral with
  | none => .ok a
  | some true => do
      let wireSize ← recordWireSize true a.currentLength
      return { a with
        wireSize := a.wireSize + wireSize
        literalRecords := a.literalRecords + 1
        literalBytes := a.literalBytes + a.currentLength }
  | some false =>
      .ok { a with
        wireSize := a.wireSize + splitRecords a.currentLength * zeroRleRecordOverhead
        zeroRuns := a.zeroRuns + splitRecords a.currentLength }

/-- The body of the `for` loop. -/
def analyzeByte (a : Analysis) (byte : UInt8) : Except ProducerError Analysis :=
  let literal := decide (byte ≠ 0)
  match a.currentLiteral with
  | none => .ok { a with currentLiteral := some literal, currentLength := 1 }
  | some current =>
      if literal = current then .ok { a with currentLength := a.currentLength + 1 }
      else do
        let a ← finishRecord a
        return { a with currentLiteral := some literal, currentLength := 1 }

def analyzeChunk (a : Analysis) (chunk : List UInt8) : Except ProducerError Analysis :=
  chunk.foldlM analyzeByte
    { a with digested := a.digested ++ chunk, size := a.size + chunk.length }

/-- The `while` loop over what is left of the file; every round reads a byte. -/
def analyzeLoop : Nat → Analysis → List UInt8 → Except ProducerError Analysis
  | rounds, a, rest =>
      let chunk := rest.take zeroRleScanBytes
      if chunk = [] then .ok a
      else
        match rounds with
        | 0 => .error .stalled
        | rounds + 1 => do
            let a ← analyzeChunk a chunk
            analyzeLoop rounds a (rest.drop zeroRleScanBytes)

variable {Digest : Type} (sha256 : List UInt8 → Digest)

def analyzeZeroRle (source : List UInt8) : Except ProducerError (UploadPlan Digest) := do
  let a ← analyzeLoop source.length {} source
  let a ← finishRecord a
  return {
    sizeBytes := a.size
    sha256 := sha256 a.digested
    wireSizeBytes := a.wireSize
    zeroRunCount := a.zeroRuns
    literalRecordCount := a.literalRecords
    literalBytes := a.literalBytes }

end Analysis

section Scan

def checkLiteral (literal : Bool) (length : Nat) : Except ProducerError (Bool × Nat) :=
  if literal ∧ length > zeroRleMaxRecordBytes then .error .literalExceedsUint32
  else .ok (literal, length)

/-- The `while` loop of `_scan_run` over what is left of the file. -/
def scanLoop (literal : Bool) : Nat → Nat → List UInt8 → Except ProducerError (Bool × Nat)
  | rounds, length, rest =>
      let chunk := rest.take zeroRleScanBytes
      if chunk = [] then checkLiteral literal length
      else
        match chunk.findIdx? fun byte => decide (byte ≠ 0) != literal with
        | some index => checkLiteral literal (length + index)
        | none =>
            match rounds with
            | 0 => .error .stalled
            | rounds + 1 =>
                scanLoop literal rounds (length + chunk.length) (rest.drop zeroRleScanBytes)

def scanRun (source : List UInt8) (start : Nat) : Except ProducerError (Bool × Nat) :=
  match source.drop start with
  | [] => .error .sourceEndedScanning
  | first :: rest => scanLoop (decide (first ≠ 0)) rest.length 1 rest

end Scan

/-- `_ZeroRleProducer`, with the position of its open file. -/
structure Producer where
  position : Nat := 0
  digested : List UInt8 := []
  logicalOffset : Nat := 0
  logicalRead : Nat := 0
  wireReturned : Nat := 0
  lastDataLogicalWork : Nat := 0
  sourceRunLiteral : Option Bool := none
  sourceRunRemaining : Nat := 0
  recordLiteral : Bool := false
  recordRemaining : Nat := 0
  header : List UInt8 := []
  headerOffset : Nat := 0
  done : Bool
deriving DecidableEq, Repr

section Production

variable {Digest : Type} [DecidableEq Digest] (sha256 : List UInt8 → Digest)
  (source : List UInt8) (plan : UploadPlan Digest)

def Producer.start : Producer :=
  { done := plan.sizeBytes = 0 }

def prepareSourceRun (p : Producer) : Except ProducerError Producer :=
  if p.sourceRunRemaining ≠ 0 then .ok p
  else if p.logicalOffset ≥ plan.sizeBytes then .ok { p with done := true }
  else do
    let (literal, length) ← scanRun source p.logicalOffset
    return { p with
      position := p.logicalOffset
      sourceRunLiteral := some literal
      sourceRunRemaining := length }

/-- The length of the next record. -/
def nextLength (literal : Bool) (sourceRunRemaining : Nat) : Nat :=
  if literal then sourceRunRemaining else min sourceRunRemaining zeroRleDataLogicalBudget

def startRecord (p : Producer) : Except ProducerError Producer := do
  let p ← prepareSourceRun source plan p
  match p.sourceRunLiteral with
  | none => .error .sourceEndedEncoding
  | some literal =>
      if p.sourceRunRemaining = 0 then .error .sourceEndedEncoding
      else
        let length := nextLength literal p.sourceRunRemaining
        if length ≥ 2 ^ 32 then .error .lengthOverflow
        else
          .ok { p with
            header := (if literal then 1 else 0) :: putLe 4 length
            headerOffset := 0
            recordLiteral := literal
            recordRemaining := length }

/-- Read `count` source bytes of the open record. -/
def readSource (p : Producer) (count : Nat) (error : ProducerError) :
    Except ProducerError (List UInt8 × Producer) :=
  let data := (source.drop p.position).take count
  if data.length ≠ count then .error error
  else
    .ok (data, { p with
      position := p.position + data.length
      digested := p.digested ++ data
      logicalRead := p.logicalRead + count
      logicalOffset := p.logicalOffset + count
      recordRemaining := p.recordRemaining - count
      sourceRunRemaining := p.sourceRunRemaining - count })

def markDone (p : Producer) : Producer :=
  if p.logicalOffset ≥ plan.sizeBytes then { p with done := true } else p

/-- `_consume_zero_run`; every round reads a byte of the record. -/
def consumeZeroRun : Nat → Producer → Except ProducerError Producer
  | rounds, p =>
      if p.recordRemaining ≠ 0 then
        match rounds with
        | 0 => .error .stalled
        | rounds + 1 => do
            let (_, p) ← readSource source p (min p.recordRemaining zeroRleScanBytes)
              .sourceEndedZeroRun
            consumeZeroRun rounds p
      else .ok (markDone plan p)

/-- The locals of `read`. -/
structure Reading where
  producer : Producer
  output : List UInt8 := []
  logicalWork : Nat := 0

/-- Leave the `while` loop, or go on. -/
inductive Flow where
  | leave (r : Reading)
  | next (r : Reading)

/-- Leave with what there is, or raise when there is nothing. -/
def leaveOr (r : Reading) (error : ProducerError) : Except ProducerError Flow :=
  if r.output ≠ [] then .ok (.leave r) else .error error

/-- The block `if self.record_remaining == 0`. -/
def openRecord (maximum : Nat) (r : Reading) : Except ProducerError Flow :=
  if r.producer.recordRemaining ≠ 0 then .ok (.next r)
  else if r.producer.logicalOffset ≥ plan.sizeBytes then
    .ok (.leave { r with producer := { r.producer with done := true } })
  else do
    let p ← prepareSourceRun source plan r.producer
    let r := { r with producer := p }
    match p.sourceRunLiteral with
    | none => .error .sourceEndedEncoding
    | some literal =>
        if p.sourceRunRemaining = 0 then .error .sourceEndedEncoding
        else if maximum - r.output.length < zeroRleRecordOverhead then
          leaveOr r .maximumTooSmallForRecord
        else if literal = false ∧
            r.logicalWork + nextLength literal p.sourceRunRemaining > zeroRleDataLogicalBudget then
          leaveOr r .recordExceedsBudget
        else do
          let p ← startRecord source plan p
          return .next { r with producer := p }

/-- The header block and the literal bytes of the loop. -/
def emitRecord (maximum : Nat) (r : Reading) : Except ProducerError Flow :=
  let p := r.producer
  if p.headerOffset < p.header.length then
    if maximum - r.output.length < p.header.length - p.headerOffset then
      leaveOr r .maximumTooSmallForHeader
    else
      let output := r.output ++ p.header.drop p.headerOffset
      let p := { p with headerOffset := p.header.length }
      if p.recordLiteral then .ok (.next { r with producer := p, output := output })
      else do
        let work := r.logicalWork + p.recordRemaining
        let p ← consumeZeroRun source plan p.recordRemaining p
        let r : Reading := { producer := p, output := output, logicalWork := work }
        return if work = zeroRleDataLogicalBudget then .leave r else .next r
  else if p.recordLiteral = false then do
    let p ← consumeZeroRun source plan p.recordRemaining p
    return .next { r with producer := p }
  else
    let count := min (min (maximum - r.output.length) p.recordRemaining)
      (zeroRleDataLogicalBudget - r.logicalWork)
    if count = 0 then .ok (.leave r)
    else do
      let (data, p) ← readSource source p count .sourceEndedEncoding
      let p := if p.recordRemaining = 0 then markDone plan p else p
      return .next
        { producer := p
          output := r.output ++ data
          logicalWork := r.logicalWork + count }

/-- The `while` loop of `read`; every round adds a byte to the output. -/
def readLoop (maximum : Nat) : Nat → Reading → Except ProducerError Reading
  | rounds, r =>
      if r.output.length < maximum then
        match rounds with
        | 0 => .error .stalled
        | rounds + 1 => do
            match ← openRecord source plan maximum r with
            | .leave r => return r
            | .next r =>
                match ← emitRecord source plan maximum r with
                | .leave r => return r
                | .next r => readLoop maximum rounds r
      else .ok r

def read (p : Producer) (maximum : Nat) : Except ProducerError (List UInt8 × Producer) :=
  if maximum = 0 then .error .maximumNotPositive
  else if p.done then .ok ([], p)
  else do
    let r ← readLoop source plan maximum maximum { producer := p }
    return (r.output, { r.producer with
      lastDataLogicalWork := r.logicalWork
      wireReturned := r.producer.wireReturned + r.output.length })

def finish (p : Producer) : Except ProducerError Unit :=
  if p.done = false ∨ p.logicalRead ≠ plan.sizeBytes ∨ p.wireReturned ≠ plan.wireSizeBytes then
    .error .notFullyConsumed
  else if sha256 p.digested ≠ plan.sha256 then .error .sourceChanged
  else .ok ()

/-- What one `read` of an upload loop handed out. -/
structure Payload where
  bytes : List UInt8
  logicalWork : Nat
deriving DecidableEq, Repr

/-- The reads of an upload loop: payloads until the planned wire size is reached.
Every round returns a byte. -/
def producePayloads : Nat → Producer → Nat → Except ProducerError (List Payload × Producer)
  | rounds, p, offset =>
      if offset < plan.wireSizeBytes then
        match rounds with
        | 0 => .error .stalled
        | rounds + 1 => do
            let (bytes, p) ← read source plan p (min maxPayload (plan.wireSizeBytes - offset))
            if bytes = [] then .error .endedBeforeWireSize
            else do
              let (payloads, last) ← producePayloads rounds p (offset + bytes.length)
              return ({ bytes := bytes, logicalWork := p.lastDataLogicalWork } :: payloads, last)
      else .ok ([], p)

end Production

end EspNp2.HostUpload.ZeroRleProducer
