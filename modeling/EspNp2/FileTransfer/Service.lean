import EspNp2.BinaryDataPlane.Transfer
import EspNp2.FileTransfer.PathValidation
import EspNp2.FileTransfer.ZeroRleDecoder

/-!
`file_transfer::Service` over any storage backend. The service, the backend and the
machine output are the world of the transfer manager; its callbacks are the endpoint
that `begin_read` and `begin_write` hand to the manager. The two take the endpoint as
an argument, so that an observer can stand between the two.
-/

namespace EspNp2.FileTransfer.Service

open EspNp2.BinaryDataPlane.Transfer
open EspNp2.StorageBackend
open EspNp2.StorageBackend.StorageInterface (Path Metadata DirectoryEntry Storage kMaxPathBytes)
open EspNp2.FileTransfer.PathValidation (validate validComponent)

def kSha256ChunkBytes : Nat := 4096
def kZeroRunBufferBytes : Nat := 4096

inductive Error where
  | ok
  | invalidPath
  | busy
  | notFound
  | alreadyExists
  | notAFile
  | notADirectory
  | parentNotFound
  | noSpace
  | readFailed
  | writeFailed
  | commitFailed
  | outOfRange
  | unsupported
  | responseTooLarge
  | unknownTransfer
  | internalError
deriving DecidableEq, Repr

inductive Encoding where
  | raw
  | zeroRleV1
deriving DecidableEq, Repr

inductive CodecError where
  | none
  | malformedEncoding
deriving DecidableEq, Repr

inductive FileState where
  | active
  | completed
  | failed
  | aborted
deriving DecidableEq, Repr

structure WriteOptions where
  logicalSizeBytes : UInt64 := 0
  wireSizeBytes : UInt64 := 0
  replace : Bool := false
  encoding : Encoding := .raw
  transport : TransportMode := .stopAndWait
  windowFrames : UInt8 := 1
deriving DecidableEq, Repr

structure BeginResult where
  info : TransferInfo := {}
  synchronous : Bool := false
  fileOffset : UInt64 := 0
  encoding : Encoding := .raw
  logicalSizeBytes : UInt64 := 0
  wireSizeBytes : UInt64 := 0
  transport : TransportMode := .stopAndWait
  windowFrames : UInt8 := 1
deriving DecidableEq, Repr

structure Summary where
  valid : Bool := false
  transferId : UInt32 := 0
  path : Path := []
  direction : Direction := .hostToDevice
  transportState : TransferState := .idle
  fileState : FileState := .active
  sizeBytes : UInt64 := 0
  transferredBytes : UInt64 := 0
  encoding : Encoding := .raw
  wireSizeBytes : UInt64 := 0
  wireTransferredBytes : UInt64 := 0
  crc32 : UInt32 := 0
  hasCrc32 : Bool := false
  storageError : StorageInterface.Error := .ok
  codecError : CodecError := .none
  terminalReason : TerminalReason := .completed
deriving DecidableEq, Repr

/-- `EndpointContext` without its session handles. -/
structure EndpointContext where
  write : Bool := false
  replace : Bool := false
  path : Path := []
  fileOffset : UInt64 := 0
  logicalSize : UInt64 := 0
  wireSize : UInt64 := 0
  encoding : Encoding := .raw
  decoder : ZeroRleDecoder.Decoder := {}
  storageError : StorageInterface.Error := .ok
  codecError : CodecError := .none
  decoderInitialized : Bool := false
  sessionOpen : Bool := false
  finishSucceeded : Bool := false
  failed : Bool := false
deriving DecidableEq, Repr

/-- The service with its backend and the machine output. -/
structure World (S O : Type) where
  storage : S
  output : O
  maxFileBytes : UInt64 := 192 * 1024
  current : Summary := {}
  terminal : Summary := {}
  endpoint : EndpointContext := {}

def mapStorage : StorageInterface.Error → Error
  | .ok => .ok
  | .notFound => .notFound
  | .alreadyExists => .alreadyExists
  | .invalidPath => .invalidPath
  | .notAFile => .notAFile
  | .notADirectory => .notADirectory
  | .parentNotFound => .parentNotFound
  | .noSpace => .noSpace
  | .readFailed => .readFailed
  | .writeFailed => .writeFailed
  | .commitFailed => .commitFailed
  | .busy => .busy
  | .outOfRange => .outOfRange
  | .unsupported => .unsupported

variable {S O : Type}

section Endpoint

variable (api : Storage S)

def toResult (error : StorageInterface.Error) : EndpointResult :=
  if error = .ok then .ok else .failed

def endpointBegin (w : World S O) (_ : Direction) (_ : UInt64) : EndpointResult × World S O :=
  let ctx := w.endpoint
  if ctx.write then
    match api.beginWrite with
    | none => (.failed, { w with endpoint := { ctx with storageError := .writeFailed } })
    | some beginWrite =>
        let (error, storage) := beginWrite w.storage ctx.path ctx.logicalSize ctx.replace
        let ctx := { ctx with storageError := error, sessionOpen := error = .ok }
        let ctx := if ctx.sessionOpen ∧ ctx.encoding = .zeroRleV1 then
            { ctx with
              decoder := ZeroRleDecoder.init ctx.logicalSize.toNat ctx.wireSize.toNat
                kZeroRunBufferBytes
              decoderInitialized := true }
          else ctx
        (toResult error, { w with storage := storage, endpoint := ctx })
  else
    match api.beginRead with
    | none => (.failed, { w with endpoint := { ctx with storageError := .readFailed } })
    | some beginRead =>
        let (error, storage) := beginRead w.storage ctx.path
        (toResult error, { w with
          storage := storage
          endpoint := { ctx with storageError := error, sessionOpen := error = .ok } })

/-- A write to the open session, and the flags it leaves when it fails. -/
def writeSession (write : S → UInt64 → List UInt8 → StorageInterface.Error × S) (w : World S O)
    (offset : UInt64) (data : List UInt8) : Bool × World S O :=
  let (error, storage) := write w.storage offset data
  if error ≠ .ok then
    (false, { w with
      storage := storage
      endpoint := { w.endpoint with storageError := error, failed := true } })
  else (true, { w with storage := storage })

def decoderEmit : ZeroRleDecoder.Emit (World S O) := fun w offset data =>
  match api.write with
  | none => (false, w)
  | some write =>
      if w.endpoint.sessionOpen = false then (false, w)
      else writeSession write w (UInt64.ofNat offset) data

/-- The branches of `endpoint_consume` on the decoder's result. -/
def consumeResult (result : ZeroRleDecoder.Result × ZeroRleDecoder.Decoder × World S O) :
    EndpointResult × World S O :=
  match result with
  | (.malformed, decoder, w) =>
      (.failed, { w with endpoint := { w.endpoint with
        decoder := decoder
        codecError := .malformedEncoding
        failed := true } })
  | (.outputFailed, decoder, w) =>
      (.failed, { w with endpoint := { w.endpoint with decoder := decoder, failed := true } })
  | (.ok, decoder, w) => (.ok, { w with endpoint := { w.endpoint with decoder := decoder } })

def endpointConsume (w : World S O) (offset : UInt64) (data : List UInt8) :
    EndpointResult × World S O :=
  match api.write with
  | none => (.failed, w)
  | some write =>
      if w.endpoint.sessionOpen = false then (.failed, w)
      else
        match w.endpoint.encoding with
        | .zeroRleV1 =>
            if w.endpoint.decoderInitialized = false ∨
                offset.toNat ≠ w.endpoint.decoder.wireConsumed then
              (.failed, { w with endpoint := { w.endpoint with
                codecError := .malformedEncoding
                failed := true } })
            else
              consumeResult
                (ZeroRleDecoder.consume (decoderEmit api) w.endpoint.decoder w offset.toNat data)
        | .raw =>
            let (written, w) := writeSession write w offset data
            (if written then .ok else .failed, w)

def endpointProduce (w : World S O) (offset : UInt64) (requested : Nat) :
    (EndpointResult × List UInt8) × World S O :=
  match api.read with
  | none => ((.failed, []), w)
  | some read =>
      if w.endpoint.sessionOpen = false then ((.failed, []), w)
      else
        let ((error, produced), storage) :=
          read w.storage (w.endpoint.fileOffset + offset) requested
        let w := { w with storage := storage }
        if error ≠ .ok ∨ produced.length ≠ requested then
          ((.failed, produced), { w with endpoint := { w.endpoint with
            storageError := if error = .ok then .readFailed else error
            failed := true } })
        else ((.ok, produced), w)

/-- Abort the open write session. -/
def abortSession (w : World S O) : World S O :=
  match api.abort with
  | none => w
  | some abort => { w with storage := abort w.storage }

/-- Close the open read session. -/
def closeSession (w : World S O) : World S O :=
  match api.close with
  | none => w
  | some close => { w with storage := close w.storage }

/-- The end of `endpoint_finish`. -/
def closeFinished (w : World S O) (error : StorageInterface.Error) : EndpointResult × World S O :=
  (toResult error, { w with endpoint := { w.endpoint with
    sessionOpen := false
    storageError := error
    failed := error ≠ .ok
    finishSucceeded := error = .ok } })

def commitSession (w : World S O) : EndpointResult × World S O :=
  let (error, w) : StorageInterface.Error × World S O :=
    match api.commit with
    | none => (.commitFailed, w)
    | some commit =>
        let (error, storage) := commit w.storage
        (error, { w with storage := storage })
  closeFinished (if error ≠ .ok then abortSession api w else w) error

def endpointFinish (w : World S O) : EndpointResult × World S O :=
  if w.endpoint.sessionOpen = false then (.failed, w)
  else if w.endpoint.write then
    if w.endpoint.encoding = .zeroRleV1 ∧ w.endpoint.decoderInitialized then
      match ZeroRleDecoder.finish (decoderEmit api) w.endpoint.decoder w with
      | (.malformed, decoder, w) =>
          let w := abortSession api w
          (.failed, { w with endpoint := { w.endpoint with
            decoder := decoder
            codecError := .malformedEncoding
            failed := true
            sessionOpen := false
            storageError := .ok
            finishSucceeded := false } })
      | (.outputFailed, decoder, w) =>
          let w := abortSession api w
          (.failed, { w with endpoint := { w.endpoint with
            decoder := decoder
            failed := true
            sessionOpen := false
            finishSucceeded := false } })
      | (.ok, decoder, w) =>
          commitSession api { w with endpoint := { w.endpoint with decoder := decoder } }
    else commitSession api w
  else closeFinished (closeSession api w) .ok

def endpointAbort (w : World S O) (_ : TerminalReason) : World S O :=
  let w :=
    if w.endpoint.sessionOpen then
      let w := if w.endpoint.write then abortSession api w else closeSession api w
      { w with endpoint := { w.endpoint with sessionOpen := false } }
    else w
  if w.endpoint.failed then w
  else { w with endpoint := { w.endpoint with storageError := .ok } }

/-- The state a terminal summary reports. -/
def terminalFileState (ctx : EndpointContext) (reason : TerminalReason) : FileState :=
  if ctx.finishSucceeded then .completed
  else if ctx.failed then .failed
  else if reason = .completed then .completed
  else .aborted

/-- The logical bytes a status reports for `wire` transferred bytes. -/
def logicalTransferred (encoding : Encoding) (ctx : EndpointContext) (wire : UInt64) : UInt64 :=
  if encoding = .zeroRleV1 ∧ ctx.decoderInitialized then
    UInt64.ofNat ctx.decoder.logicalProduced
  else wire

def endpointTerminal (w : World S O) (info : TransferInfo) (reason : TerminalReason) : World S O :=
  let ctx := w.endpoint
  { w with
    terminal := { w.current with
      transportState := info.state
      wireTransferredBytes := info.transferredBytes
      transferredBytes := logicalTransferred ctx.encoding ctx info.transferredBytes
      encoding := ctx.encoding
      sizeBytes := ctx.logicalSize
      wireSizeBytes := ctx.wireSize
      crc32 := info.crc32
      hasCrc32 := info.hasCrc32
      fileState := terminalFileState ctx reason
      storageError := ctx.storageError
      codecError := ctx.codecError
      terminalReason := reason
      valid := true }
    current := { w.current with valid := false } }

def makeEndpoint : TransferEndpoint (World S O) where
  context := some 0
  begin := some (endpointBegin api)
  consume := some (endpointConsume api)
  produce := some (endpointProduce api)
  finish := some (endpointFinish api)
  abort := some (endpointAbort api)
  terminal := some endpointTerminal

end Endpoint

section Operations

variable (api : Storage S) (endpoint : TransferEndpoint (World S O))

def copyCurrent (w : World S O) (path : Path) (direction : Direction) (encoding : Encoding)
    (logicalSize wireSize : UInt64) (transferId : UInt32) : World S O :=
  { w with
    terminal := {}
    current :=
      { valid := true
        direction := direction
        sizeBytes := logicalSize
        encoding := encoding
        wireSizeBytes := wireSize
        fileState := .active
        path := if path.length ≤ kMaxPathBytes then path else []
        transferId := transferId } }

/-- The storage part of `stat`. -/
def statStorage (d : Device (World S O)) (path : Path) :
    (Error × Metadata) × Device (World S O) :=
  match api.stat with
  | none => ((.internalError, {}), d)
  | some stat =>
      let ((error, metadata), storage) := stat d.world.storage path
      ((mapStorage error, metadata), { d with world := { d.world with storage := storage } })

def stat (d : Device (World S O)) (path : Path) : (Error × Metadata) × Device (World S O) :=
  if validate path true = false then ((.invalidPath, {}), d) else statStorage api d path

/-- `stat` for an operation on a file. -/
def statFile (d : Device (World S O)) (path : Path) : (Error × Metadata) × Device (World S O) :=
  match stat api d path with
  | ((.ok, metadata), d) =>
      if metadata.type ≠ .file then ((.notAFile, metadata), d) else ((.ok, metadata), d)
  | failure => failure

def listPage (d : Device (World S O)) (path cursor : Path) (limit : Nat) :
    (Error × List DirectoryEntry × Bool) × Device (World S O) :=
  if d.manager.active then ((.busy, [], false), d)
  else if validate path true = false ∨ (cursor ≠ [] ∧ validComponent cursor = false) ∨
      limit = 0 ∨ limit > 16 then ((.invalidPath, [], false), d)
  else
    match api.listPage with
    | none => ((.internalError, [], false), d)
    | some listPage =>
        let ((error, entries, hasMore), storage) := listPage d.world.storage path cursor limit 16
        ((mapStorage error, entries, hasMore),
          { d with world := { d.world with storage := storage } })

/-- Open a read session and close it, as an empty read does. -/
def touchFile (d : Device (World S O)) (path : Path) : Error × Device (World S O) :=
  match api.beginRead with
  | none => (.internalError, d)
  | some beginRead =>
      let (error, storage) := beginRead d.world.storage path
      let w := { d.world with storage := storage }
      if error ≠ .ok then (mapStorage error, { d with world := w })
      else (.ok, { d with world := closeSession api w })

/-- What `begin_read` and `begin_write` return when the manager refuses. -/
def beginError (w : World S O) (error : ManagerError) : Error :=
  if w.endpoint.storageError ≠ .ok then mapStorage w.endpoint.storageError
  else if error = .busy then .busy else .internalError

/-- The non-empty read of `begin_read`. -/
def startRead (d : Device (World S O)) (path : Path) (offset selected : UInt64) :
    (Error × BeginResult) × Device (World S O) :=
  let context : EndpointContext :=
    { write := false
      fileOffset := offset
      logicalSize := selected
      wireSize := selected
      encoding := .raw
      path := path }
  match beginTx { d with world := { d.world with endpoint := context } } selected endpoint with
  | (.error error, d) => ((beginError d.world error, {}), d)
  | (.ok info, d) =>
      let w := copyCurrent d.world path .deviceToHost .raw selected selected info.transferId
      ((.ok,
        { info := info
          fileOffset := offset
          logicalSizeBytes := selected
          wireSizeBytes := selected }), { d with world := w })

def beginRead (d : Device (World S O)) (path : Path) (offset : UInt64) (length : Option UInt64) :
    (Error × BeginResult) × Device (World S O) :=
  if validate path false = false then ((.invalidPath, {}), d)
  else if d.manager.active then ((.busy, {}), d)
  else
    match statFile api d path with
    | ((.ok, metadata), d) =>
        if offset > metadata.sizeBytes then ((.outOfRange, {}), d)
        else
          let remaining := metadata.sizeBytes - offset
          let selected := length.getD remaining
          if selected > remaining then ((.outOfRange, {}), d)
          else if selected = 0 then
            match touchFile api d path with
            | (.ok, d) =>
                ((.ok,
                  { synchronous := true
                    fileOffset := offset
                    info := { direction := .deviceToHost, state := .completed } }),
                  { d with world := { d.world with current := {}, terminal := {} } })
            | (error, d) => ((error, {}), d)
          else startRead endpoint d path offset selected
    | ((error, _), d) => ((error, {}), d)

/-- The empty write of `begin_write`. -/
def writeEmpty (d : Device (World S O)) (path : Path) (options : WriteOptions) :
    (Error × BeginResult) × Device (World S O) :=
  match api.beginWrite with
  | none => ((.internalError, {}), d)
  | some beginWrite =>
      let (error, storage) := beginWrite d.world.storage path 0 options.replace
      let w := { d.world with storage := storage }
      if error ≠ .ok then ((mapStorage error, {}), { d with world := w })
      else
        let (committed, w) : StorageInterface.Error × World S O :=
          match api.commit with
          | none => (.commitFailed, w)
          | some commit =>
              let (error, storage) := commit w.storage
              (error, { w with storage := storage })
        if committed ≠ .ok then
          ((mapStorage committed, {}), { d with world := abortSession api w })
        else
          ((.ok,
            { synchronous := true
              info := { direction := .hostToDevice, state := .completed }
              encoding := options.encoding
              transport := options.transport
              windowFrames := options.windowFrames }),
            { d with world := { w with current := {}, terminal := {} } })

/-- The non-empty write of `begin_write`. -/
def startWrite (d : Device (World S O)) (path : Path) (options : WriteOptions) :
    (Error × BeginResult) × Device (World S O) :=
  let context : EndpointContext :=
    { write := true
      replace := options.replace
      logicalSize := options.logicalSizeBytes
      wireSize := options.wireSizeBytes
      encoding := options.encoding
      path := path }
  match beginRx { d with world := { d.world with endpoint := context } } options.wireSizeBytes
      endpoint { transport := options.transport, windowFrames := options.windowFrames } with
  | (.error error, d) => ((beginError d.world error, {}), d)
  | (.ok info, d) =>
      let w := copyCurrent d.world path .hostToDevice options.encoding options.logicalSizeBytes
        options.wireSizeBytes info.transferId
      ((.ok,
        { info := info
          encoding := options.encoding
          logicalSizeBytes := options.logicalSizeBytes
          wireSizeBytes := options.wireSizeBytes
          transport := options.transport
          windowFrames := options.windowFrames }), { d with world := w })

def unsupportedWindow (options : WriteOptions) : Bool :=
  (options.transport == .stopAndWait && options.windowFrames != 1) ||
    (options.transport == .windowedGbnV1 && options.windowFrames != kMaxWindowFrames)

def beginWrite (d : Device (World S O)) (path : Path) (options : WriteOptions) :
    (Error × BeginResult) × Device (World S O) :=
  if validate path false = false then ((.invalidPath, {}), d)
  else if d.manager.active then ((.busy, {}), d)
  else if unsupportedWindow options then ((.unsupported, {}), d)
  else if options.logicalSizeBytes > d.world.maxFileBytes ∨
      options.wireSizeBytes > d.world.maxFileBytes then ((.noSpace, {}), d)
  else if decide (options.logicalSizeBytes = 0) ≠ decide (options.wireSizeBytes = 0) then
    ((.invalidPath, {}), d)
  else if options.encoding = .raw ∧ options.logicalSizeBytes ≠ options.wireSizeBytes then
    ((.invalidPath, {}), d)
  else if options.logicalSizeBytes = 0 then writeEmpty api d path options
  else startWrite endpoint d path options

def status (d : Device (World S O)) (transferId : UInt32) : Error × Summary :=
  let w := d.world
  if w.terminal.valid ∧ w.terminal.transferId = transferId then (.ok, w.terminal)
  else if w.current.valid = false ∨ w.current.transferId ≠ transferId then (.unknownTransfer, {})
  else
    match getStatus d.manager transferId with
    | .error _ => (.unknownTransfer, {})
    | .ok info =>
        (.ok, { w.current with
          transportState := info.state
          wireTransferredBytes := info.transferredBytes
          transferredBytes := logicalTransferred w.current.encoding w.endpoint info.transferredBytes
          crc32 := info.crc32
          hasCrc32 := info.hasCrc32 })

end Operations

section Sha256

/-- The `mbedtls_sha256` functions; each returns whether it succeeded. -/
structure Sha256 (C : Type) where
  init : C
  starts : C → Bool × C
  update : C → List UInt8 → Bool × C
  finish : C → Bool × List UInt8

structure Sha256Result where
  sizeBytes : UInt64 := 0
  sha256 : List UInt8 := []
deriving DecidableEq, Repr

def hexDigit (nibble : UInt8) : UInt8 := if nibble < 10 then 0x30 + nibble else 0x57 + nibble

/-- The 64 hexadecimal digits of a digest. -/
def formatSha256 (digest : List UInt8) : List UInt8 :=
  (List.range 32).flatMap fun index =>
    [hexDigit (digest.getD index 0 >>> 4), hexDigit (digest.getD index 0 &&& 0x0f)]

variable {C : Type} (api : Storage S) (hash : Sha256 C)

/-- The `while` loop of `sha256`; every round reads a byte. -/
def hashLoop (read : S → UInt64 → Nat → (StorageInterface.Error × List UInt8) × S)
    (size : UInt64) : Nat → S → C → UInt64 → (Error × C) × S
  | 0, storage, context, _ => ((.ok, context), storage)
  | rounds + 1, storage, context, offset =>
      if offset < size then
        let requested := min (size - offset).toNat kSha256ChunkBytes
        let ((error, produced), storage) := read storage offset requested
        if error ≠ .ok then ((mapStorage error, context), storage)
        else if produced.length ≠ requested then ((.readFailed, context), storage)
        else
          match hash.update context produced with
          | (false, context) => ((.readFailed, context), storage)
          | (true, context) =>
              hashLoop read size rounds storage context (offset + UInt64.ofNat produced.length)
      else ((.ok, context), storage)

/-- The digest of the open session. -/
def hashSession (storage : S) (size : UInt64) : (Error × List UInt8) × S :=
  match api.read with
  | none => ((.readFailed, []), storage)
  | some read =>
      if api.close.isNone then ((.readFailed, []), storage)
      else
        match hash.starts hash.init with
        | (false, _) => ((.readFailed, []), storage)
        | (true, context) =>
            match hashLoop hash read size size.toNat storage context 0 with
            | ((.ok, context), storage) =>
                match hash.finish context with
                | (false, digest) => ((.readFailed, digest), storage)
                | (true, digest) => ((.ok, digest), storage)
            | ((error, _), storage) => ((error, []), storage)

def sha256 (d : Device (World S O)) (path : Path) :
    (Error × Sha256Result) × Device (World S O) :=
  if validate path false = false then ((.invalidPath, {}), d)
  else if d.manager.active then ((.busy, {}), d)
  else if api.stat.isNone then ((.internalError, {}), d)
  else
    match api.beginRead with
    | none => ((.internalError, {}), d)
    | some beginRead =>
        match statFile api d path with
        | ((.ok, metadata), d) =>
            let (error, storage) := beginRead d.world.storage path
            let w := { d.world with storage := storage }
            if error ≠ .ok then ((mapStorage error, {}), { d with world := w })
            else
              let ((operation, digest), storage) :=
                hashSession api hash w.storage metadata.sizeBytes
              let d := { d with world := closeSession api { w with storage := storage } }
              if operation ≠ .ok then ((operation, {}), d)
              else ((.ok, { sizeBytes := metadata.sizeBytes, sha256 := formatSha256 digest }), d)
        | ((error, _), d) => ((error, {}), d)

end Sha256

end EspNp2.FileTransfer.Service
