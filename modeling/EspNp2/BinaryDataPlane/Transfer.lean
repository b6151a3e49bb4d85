import EspNp2.BinaryDataPlane.BinaryCodec

/-!
The transfer manager of the Binary Data Plane (`transfer_manager.cpp`), built
without the emulator test seam. Everything outside the manager, the machine
output and the state behind the endpoint callbacks, is one value of type `W`
that the callbacks read and replace; a null callback is `none`.
-/

namespace EspNp2.BinaryDataPlane.Transfer

open EspNp2.BinaryDataPlane.BinaryCodec

def kMaxTransferBytes : UInt64 := 0xffffffff * 1024
def kAckTimeoutMs : UInt32 := 1000
def kMaxRetransmissions : UInt32 := 3
def kReceiverTimeoutMs : UInt32 := 10000
def kMaxWindowFrames : UInt8 := 2

inductive Direction where
  | hostToDevice
  | deviceToHost
deriving DecidableEq, Repr

inductive TransportMode where
  | stopAndWait
  | windowedGbnV1
deriving DecidableEq, Repr

structure TransferOptions where
  transport : TransportMode := .stopAndWait
  windowFrames : UInt8 := 1
deriving DecidableEq, Repr

inductive TransferState where
  | idle
  | active
  | completed
  | aborted
deriving DecidableEq, Repr

inductive ManagerError where
  | busy
  | invalidSize
  | unknownTransfer
  | transferClosed
  | invalidParams
deriving DecidableEq, Repr

inductive EndpointResult where
  | ok
  | failed
deriving DecidableEq, Repr

inductive TerminalReason where
  | completed
  | explicitAbort
  | receiverTimeout
  | retryExhausted
  | protocolError
  | outputError
  | endpointIoError
  | endpointFinishError
deriving DecidableEq, Repr

inductive NackReason where
  | badCrc
  | badSequence
  | badOffset
  | invalidLength
  | unknownTransfer
  | transferClosed
  | badHeader
  | wrongDirection
deriving DecidableEq, Repr

def NackReason.toStatus : NackReason → UInt16
  | .badCrc => 1
  | .badSequence => 2
  | .badOffset => 3
  | .invalidLength => 4
  | .unknownTransfer => 5
  | .transferClosed => 6
  | .badHeader => 7
  | .wrongDirection => 8

structure TransferInfo where
  transferId : UInt32 := 0
  direction : Direction := .hostToDevice
  state : TransferState := .idle
  totalBytes : UInt64 := 0
  transferredBytes : UInt64 := 0
  expectedSequence : UInt32 := 0
  expectedOffset : UInt64 := 0
  crc32 : UInt32 := 0
  hasCrc32 : Bool := false
deriving DecidableEq, Repr

structure OutputSink (W : Type) where
  write : Option (W → List UInt8 → Bool × W)

/-- The endpoint callbacks. `produce` returns the bytes it stored in the output
buffer; `terminal` receives the manager's terminal record, which endpoints read
through their pointer to the manager. -/
structure TransferEndpoint (W : Type) where
  context : Option Nat
  begin : Option (W → Direction → UInt64 → EndpointResult × W)
  consume : Option (W → UInt64 → List UInt8 → EndpointResult × W)
  produce : Option (W → UInt64 → Nat → (EndpointResult × List UInt8) × W)
  finish : Option (W → EndpointResult × W)
  abort : Option (W → TerminalReason → W)
  terminal : Option (W → TransferInfo → TerminalReason → W)

def TransferEndpoint.null {W : Type} : TransferEndpoint W :=
  { context := none, begin := none, consume := none, produce := none, finish := none,
    abort := none, terminal := none }

structure DataIdentity where
  valid : Bool := false
  sequence : UInt32 := 0
  offset : UInt64 := 0
  payloadLength : UInt16 := 0
  wireCrc : UInt32 := 0
deriving DecidableEq, Repr

structure FinalAckReplay where
  valid : Bool := false
  transferId : UInt32 := 0
  identities : List DataIdentity := []
  acknowledgedSequence : UInt32 := 0
  acknowledgedOffset : UInt64 := 0
deriving DecidableEq, Repr

/-- `TransferManager` without its three scratch buffers, which every write
fills before it reads them. The history arrays with their counts are lists. -/
structure TransferManager (W : Type) where
  output : OutputSink W
  endpoint : TransferEndpoint W := .null
  nextTransferId : UInt32 := 1
  active : Bool := false
  direction : Direction := .hostToDevice
  transport : TransportMode := .stopAndWait
  windowFrames : UInt8 := 1
  state : TransferState := .idle
  transferId : UInt32 := 0
  totalBytes : UInt64 := 0
  transferredBytes : UInt64 := 0
  expectedSequence : UInt32 := 0
  expectedOffset : UInt64 := 0
  runningCrc : UInt32 := 0xffffffff
  terminalCrc : UInt32 := 0
  terminalHasCrc : Bool := false
  txPendingStart : Bool := false
  txFrameReady : Bool := false
  txWaitingAck : Bool := false
  txSequence : UInt32 := 0
  txOffset : UInt64 := 0
  txLength : UInt16 := 0
  txRetries : UInt32 := 0
  txLastSentMs : UInt32 := 0
  txCrc : UInt32 := 0xffffffff
  txPayload : List UInt8 := []
  acceptedDataHistory : List DataIdentity := []
  lastActivityMs : UInt32 := 0
  activityPending : Bool := false
  terminalValid : Bool := false
  terminal : TransferInfo := {}
  endpointStarted : Bool := false
  endpointFinalized : Bool := false
  terminalNotified : Bool := false
  finalAckReplay : FinalAckReplay := {}

/-- A manager together with the world its callbacks act on. -/
structure Device (W : Type) where
  manager : TransferManager W
  world : W

variable {W : Type}

def elapsed (now then_ duration : UInt32) : Bool := now - then_ ≥ duration

def currentInfo (manager : TransferManager W) : TransferInfo :=
  { transferId := manager.transferId
    direction := manager.direction
    state := manager.state
    totalBytes := manager.totalBytes
    transferredBytes := manager.transferredBytes
    expectedSequence := manager.expectedSequence
    expectedOffset := manager.expectedOffset
    crc32 := if !manager.active && manager.terminalHasCrc then manager.terminalCrc else 0
    hasCrc32 := !manager.active && manager.terminalHasCrc }

def endpointAbort (d : Device W) (reason : TerminalReason) : Device W :=
  if d.manager.endpointStarted && !d.manager.endpointFinalized then
    let manager := { d.manager with endpointFinalized := true }
    match manager.endpoint.abort with
    | none => { d with manager := manager }
    | some abort => { manager := manager, world := abort d.world reason }
  else d

def notifyTerminal (d : Device W) (reason : TerminalReason) : Device W :=
  if d.manager.endpointStarted && !d.manager.terminalNotified then
    let manager := { d.manager with terminalNotified := true }
    match manager.endpoint.terminal with
    | none => { d with manager := manager }
    | some terminal => { manager := manager, world := terminal d.world manager.terminal reason }
  else d

/-- The transfer stops running: the assignments of `finish_active` before the
endpoint is told. -/
def closeTransfer (manager : TransferManager W) (state : TransferState) : TransferManager W :=
  { manager with
    state := state
    active := false
    txPendingStart := false
    txFrameReady := false
    txWaitingAck := false }

/-- The terminal record `finish_active` stores. -/
def recordTerminal (manager : TransferManager W) (state : TransferState) : TransferManager W :=
  let crc :=
    if state = .completed then
      Crc32.finish (if manager.direction = .deviceToHost then manager.txCrc
        else manager.runningCrc)
    else 0
  { manager with
    terminal := { currentInfo manager with
      state := state
      crc32 := crc
      hasCrc32 := state = .completed }
    terminalCrc := crc
    terminalHasCrc := state = .completed
    terminalValid := true }

def finishActive (d : Device W) (state : TransferState) (reason : TerminalReason) : Device W :=
  if !d.manager.active && d.manager.terminalValid then d
  else
    let d := { d with manager := closeTransfer d.manager state }
    let d := if state ≠ .completed then endpointAbort d reason else d
    notifyTerminal { d with manager := recordTerminal d.manager state } reason

/-- Encode one frame on the manager's buffers and hand it to the output. -/
def writeWire (d : Device W) (type : FrameType) (transferId sequence : UInt32)
    (offset : UInt64) (status : UInt16) (payload : List UInt8) : Bool × Device W :=
  match encodeFrame type 0 transferId sequence offset status payload
      kMaxDecodedFrameBytes kMaxEncodedBodyBytes kMaxWireFrameBytes with
  | none => (false, d)
  | some frame =>
      match d.manager.output.write with
      | none => (false, d)
      | some write =>
          let (written, world) := write d.world frame.wire
          (written, { d with world := world })

def sendAckValues (d : Device W) (transferId sequence : UInt32) (offset : UInt64) :
    Bool × Device W :=
  writeWire d .ack transferId sequence offset 0 []

/-- Abort the transfer when a frame could not be written. -/
def orOutputError (result : Bool × Device W) : Device W :=
  if result.1 then result.2 else finishActive result.2 .aborted .outputError

def sendAck (d : Device W) : Device W :=
  orOutputError (sendAckValues d d.manager.transferId d.manager.expectedSequence
    d.manager.expectedOffset)

def sendNack (d : Device W) (reason : NackReason) : Device W :=
  orOutputError (writeWire d .nack d.manager.transferId d.manager.expectedSequence
    d.manager.expectedOffset reason.toStatus [])

def isValidNackReason (reason : UInt16) : Bool :=
  1 ≤ reason && reason ≤ 8

def isOlderControlPair (sequence : UInt32) (offset : UInt64) (currentSequence : UInt32)
    (currentOffset : UInt64) : Bool :=
  sequence < currentSequence && offset < currentOffset

def isStaleAckPair (sequence : UInt32) (offset : UInt64) (currentSequence : UInt32)
    (currentOffset : UInt64) : Bool :=
  (sequence == currentSequence && offset == currentOffset) ||
    isOlderControlPair sequence offset currentSequence currentOffset

def matchesIdentity (identity : DataIdentity) (frame : ParsedFrame) : Bool :=
  identity.valid && identity.sequence == frame.sequence && identity.offset == frame.offset &&
    identity.payloadLength == frame.payloadLength && identity.wireCrc == frame.wireCrc

def identityOf (frame : ParsedFrame) : DataIdentity :=
  { valid := true
    sequence := frame.sequence
    offset := frame.offset
    payloadLength := frame.payloadLength
    wireCrc := frame.wireCrc }

/-- The accepted-data history after one more frame: the oldest identity is
dropped once the window's capacity is reached. -/
def rememberAcceptedData (manager : TransferManager W) (frame : ParsedFrame) :
    List DataIdentity :=
  let capacity := if manager.transport = .windowedGbnV1 then kMaxWindowFrames.toNat else 1
  if manager.acceptedDataHistory.length < capacity then
    manager.acceptedDataHistory ++ [identityOf frame]
  else manager.acceptedDataHistory.drop 1 ++ [identityOf frame]

def prepareTxPayload (d : Device W) : Device W :=
  let remaining := d.manager.totalBytes - d.manager.txOffset
  let requested := if remaining.toNat > kMaxPayloadBytes then kMaxPayloadBytes
    else remaining.toNat
  match d.manager.endpoint.produce with
  | none => finishActive d .aborted .endpointIoError
  | some produce =>
      let ((result, produced), world) := produce d.world d.manager.txOffset requested
      let d := { d with world := world }
      if result ≠ .ok ∨ produced.length ≠ requested then
        finishActive d .aborted .endpointIoError
      else
        { d with manager := { d.manager with
            txPayload := produced
            txLength := UInt16.ofNat produced.length
            txRetries := 0
            txCrc := Crc32.update d.manager.txCrc produced
            txFrameReady := true } }

def sendCurrentTx (d : Device W) (nowMs : UInt32) : Device W :=
  if !d.manager.active then d
  else if !d.manager.txFrameReady then finishActive d .aborted .outputError
  else
    let (written, d) := writeWire d .data d.manager.transferId d.manager.txSequence
      d.manager.txOffset 0 (d.manager.txPayload.take d.manager.txLength.toNat)
    if !written then finishActive d .aborted .outputError
    else { d with manager := { d.manager with txWaitingAck := true, txLastSentMs := nowMs } }

def retryCurrentTx (d : Device W) (nowMs : UInt32) : Device W :=
  if d.manager.txRetries ≥ kMaxRetransmissions then
    finishActive d .aborted .retryExhausted
  else
    sendCurrentTx
      { d with manager := { d.manager with txRetries := d.manager.txRetries + 1 } } nowMs

/-- The manager after a DATA frame was consumed, before it is acknowledged. -/
def acceptData (manager : TransferManager W) (frame : ParsedFrame) : TransferManager W :=
  { manager with
    runningCrc := Crc32.update manager.runningCrc frame.payload
    acceptedDataHistory := rememberAcceptedData manager frame
    transferredBytes := manager.transferredBytes + frame.payloadLength.toUInt64
    expectedSequence := manager.expectedSequence + 1
    expectedOffset := manager.expectedOffset + frame.payloadLength.toUInt64 }

/-- The manager after a successful `finish` of a received transfer, with the
record that replays its final ACK. -/
def finalizeReceive (manager : TransferManager W) : TransferManager W :=
  { manager with
    endpointFinalized := true
    finalAckReplay :=
      { valid := true
        transferId := manager.transferId
        identities := manager.acceptedDataHistory
        acknowledgedSequence := manager.expectedSequence
        acknowledgedOffset := manager.expectedOffset } }

/-- The tail of `handle_rx_data`: a consumed frame is acknowledged, or, when it
was the last one, the endpoint is finished first. -/
def acknowledgeData (d : Device W) : Device W :=
  if d.manager.transferredBytes ≠ d.manager.totalBytes then sendAck d
  else
    match d.manager.endpoint.finish with
    | none => finishActive d .aborted .endpointFinishError
    | some finish =>
        let (result, world) := finish d.world
        let d := { d with world := world }
        if result ≠ .ok then finishActive d .aborted .endpointFinishError
        else
          let d := finishActive { d with manager := finalizeReceive d.manager }
            .completed .completed
          (sendAckValues d d.manager.transferId
            d.manager.finalAckReplay.acknowledgedSequence
            d.manager.finalAckReplay.acknowledgedOffset).2

def handleRxData (d : Device W) (frame : ParsedFrame) : Device W :=
  if frame.transferId ≠ d.manager.transferId then d
  else if !frame.crcValid then sendNack d .badCrc
  else if d.manager.acceptedDataHistory.any (matchesIdentity · frame) then sendAck d
  else if frame.payloadLength = 0 ∨
      frame.payloadLength.toUInt64 > d.manager.totalBytes - d.manager.transferredBytes then
    sendNack d .invalidLength
  else if frame.sequence ≠ d.manager.expectedSequence then sendNack d .badSequence
  else if frame.offset ≠ d.manager.expectedOffset then sendNack d .badOffset
  else
    match d.manager.endpoint.consume with
    | none => finishActive d .aborted .endpointIoError
    | some consume =>
        let (result, world) := consume d.world frame.offset frame.payload
        let d := { d with world := world }
        if result ≠ .ok then finishActive d .aborted .endpointIoError
        else acknowledgeData { d with manager := acceptData d.manager frame }

/-- The manager after an ACK for exactly the outstanding frame. -/
def acceptAck (manager : TransferManager W) (expectedSequence : UInt32)
    (expectedOffset : UInt64) : TransferManager W :=
  { manager with
    transferredBytes := expectedOffset
    expectedSequence := expectedSequence
    expectedOffset := expectedOffset
    txWaitingAck := false
    txFrameReady := false }

/-- The tail of the accepted-ACK branch of `handle_tx_ack`. -/
def advanceTx (d : Device W) : Device W :=
  if d.manager.transferredBytes = d.manager.totalBytes then
    match d.manager.endpoint.finish with
    | none => finishActive d .aborted .endpointFinishError
    | some finish =>
        let (result, world) := finish d.world
        let d := { d with world := world }
        if result ≠ .ok then finishActive d .aborted .endpointFinishError
        else finishActive { d with manager := { d.manager with endpointFinalized := true } }
          .completed .completed
  else
    { d with manager := { d.manager with
        txSequence := d.manager.expectedSequence
        txOffset := d.manager.expectedOffset } }

def handleTxNack (d : Device W) (frame : ParsedFrame) (nowMs : UInt32) : Device W :=
  if !isValidNackReason frame.status then finishActive d .aborted .protocolError
  else if frame.sequence = d.manager.txSequence ∧ frame.offset = d.manager.txOffset then
    retryCurrentTx d nowMs
  else if isOlderControlPair frame.sequence frame.offset d.manager.txSequence
      d.manager.txOffset then d
  else finishActive d .aborted .protocolError

def handleTxAck (d : Device W) (frame : ParsedFrame) (nowMs : UInt32) : Device W :=
  if frame.transferId ≠ d.manager.transferId ∨ frame.crcValid = false ∨
      d.manager.txWaitingAck = false then d
  else if frame.payloadLength ≠ 0 then finishActive d .aborted .protocolError
  else
    match frame.type with
    | .nack => handleTxNack d frame nowMs
    | .data => d
    | .ack =>
        if frame.status ≠ 0 then finishActive d .aborted .protocolError
        else
          let expectedSequence := d.manager.txSequence + 1
          let expectedOffset := d.manager.txOffset + d.manager.txLength.toUInt64
          if frame.sequence = expectedSequence ∧ frame.offset = expectedOffset then
            advanceTx { d with manager := acceptAck d.manager expectedSequence expectedOffset }
          else if isStaleAckPair frame.sequence frame.offset d.manager.txSequence
              d.manager.txOffset then d
          else finishActive d .aborted .protocolError

/-- The null checks of `begin_common`. -/
def TransferEndpoint.usable (endpoint : TransferEndpoint W) (direction : Direction) : Bool :=
  endpoint.context.isSome && endpoint.begin.isSome && endpoint.finish.isSome &&
    endpoint.abort.isSome && endpoint.terminal.isSome &&
    (direction != .hostToDevice || endpoint.consume.isSome) &&
    (direction != .deviceToHost || endpoint.produce.isSome)

def TransferOptions.supported (options : TransferOptions) (direction : Direction) : Bool :=
  match options.transport with
  | .stopAndWait => options.windowFrames == 1
  | .windowedGbnV1 =>
      options.windowFrames == kMaxWindowFrames && direction == .hostToDevice

/-- The manager of a transfer that just began: a fresh manager that keeps only
the output and the id counter. -/
def startTransfer (manager : TransferManager W) (size : UInt64) (direction : Direction)
    (endpoint : TransferEndpoint W) (options : TransferOptions) : TransferManager W :=
  let nextId := if manager.nextTransferId = 0 then 1 else manager.nextTransferId
  { output := manager.output
    nextTransferId := if nextId + 1 = 0 then 1 else nextId + 1
    endpoint := endpoint
    endpointStarted := true
    active := true
    direction := direction
    transport := options.transport
    windowFrames := options.windowFrames
    state := .active
    transferId := nextId
    totalBytes := size
    runningCrc := Crc32.init
    txCrc := Crc32.init
    txPendingStart := direction = .deviceToHost }

def beginCommon (d : Device W) (size : UInt64) (direction : Direction)
    (endpoint : TransferEndpoint W) (options : TransferOptions) :
    Except ManagerError TransferInfo × Device W :=
  if !endpoint.usable direction then (.error .invalidParams, d)
  else if !options.supported direction then (.error .invalidParams, d)
  else if d.manager.active then (.error .busy, d)
  else if size = 0 ∨ size > kMaxTransferBytes then (.error .invalidSize, d)
  else
    match endpoint.begin with
    | none => (.error .invalidParams, d)
    | some begin =>
        let (result, world) := begin d.world direction size
        if result ≠ .ok then (.error .invalidParams, { d with world := world })
        else
          let manager := startTransfer d.manager size direction endpoint options
          (.ok (currentInfo manager), { manager := manager, world := world })

/-- `init` on a manager whose id counter is `nextTransferId`. -/
def init (nextTransferId : UInt32) (output : OutputSink W) : TransferManager W :=
  { output := output
    nextTransferId := if nextTransferId = 0 then 1 else nextTransferId }

def beginRx (d : Device W) (size : UInt64) (endpoint : TransferEndpoint W)
    (options : TransferOptions) : Except ManagerError TransferInfo × Device W :=
  beginCommon d size .hostToDevice endpoint options

def beginTx (d : Device W) (size : UInt64) (endpoint : TransferEndpoint W) :
    Except ManagerError TransferInfo × Device W :=
  beginCommon d size .deviceToHost endpoint {}

def getStatus (manager : TransferManager W) (transferId : UInt32) :
    Except ManagerError TransferInfo :=
  if manager.active ∧ transferId = manager.transferId then .ok (currentInfo manager)
  else if manager.terminalValid ∧ transferId = manager.terminal.transferId then
    .ok manager.terminal
  else .error .unknownTransfer

def abort (d : Device W) (transferId : UInt32) :
    Except ManagerError TransferInfo × Device W :=
  if d.manager.active ∧ transferId = d.manager.transferId then
    let d := finishActive d .aborted .explicitAbort
    (.ok d.manager.terminal, d)
  else if d.manager.terminalValid ∧ transferId = d.manager.terminal.transferId then
    (.ok d.manager.terminal, d)
  else (.error .unknownTransfer, d)

/-- An idle manager answers a replay of the final DATA frames of the last
completed receive. -/
def replayFinalAck (d : Device W) (frame : ParsedFrame) : Device W :=
  let replay := d.manager.finalAckReplay
  if frame.type = .data ∧ replay.valid ∧ frame.transferId = replay.transferId ∧
      replay.identities.any (matchesIdentity · frame) then
    (sendAckValues d replay.transferId replay.acknowledgedSequence
      replay.acknowledgedOffset).2
  else d

def handleDecodedFrame (d : Device W) (decoded : List UInt8) (nowMs : UInt32) : Device W :=
  match parseDecoded decoded with
  | none =>
      if d.manager.active ∧ decoded.length ≥ 12 ∧ getU32 decoded 8 = d.manager.transferId then
        sendNack d .badHeader
      else d
  | some frame =>
      if !frame.crcValid then
        if d.manager.active ∧ frame.transferId = d.manager.transferId then sendNack d .badCrc
        else d
      else if !d.manager.active then replayFinalAck d frame
      else
        let d := { d with manager := { d.manager with activityPending := true } }
        match d.manager.direction with
        | .hostToDevice =>
            if frame.type ≠ .data then sendNack d .wrongDirection else handleRxData d frame
        | .deviceToHost =>
            if frame.type ≠ .ack ∧ frame.type ≠ .nack then sendNack d .wrongDirection
            else handleTxAck d frame nowMs

/-- The activity bookkeeping at the start of `poll`. -/
def anchorActivity (manager : TransferManager W) (nowMs : UInt32) : TransferManager W :=
  let manager := if manager.activityPending then
      { manager with lastActivityMs := nowMs, activityPending := false }
    else manager
  if manager.lastActivityMs = 0 then { manager with lastActivityMs := nowMs } else manager

/-- The transmit half of `poll`. -/
def pollTx (d : Device W) (nowMs : UInt32) : Device W :=
  if d.manager.txPendingStart then
    sendCurrentTx (prepareTxPayload
      { d with manager := { d.manager with txPendingStart := false } }) nowMs
  else if !d.manager.txWaitingAck then
    sendCurrentTx (if !d.manager.txFrameReady then prepareTxPayload d else d) nowMs
  else if elapsed nowMs d.manager.txLastSentMs kAckTimeoutMs then retryCurrentTx d nowMs
  else d

def poll (d : Device W) (nowMs : UInt32) : Device W :=
  if !d.manager.active then d
  else
    let d := { d with manager := anchorActivity d.manager nowMs }
    if elapsed nowMs d.manager.lastActivityMs kReceiverTimeoutMs then
      finishActive d .aborted .receiverTimeout
    else
      match d.manager.direction with
      | .hostToDevice => d
      | .deviceToHost => pollTx d nowMs

end EspNp2.BinaryDataPlane.Transfer
