import EspNp2.CodecLease.SharedI2c

/-!
The two holders of a codec lease: the backend of the physical sink,
`p4_nano_audio86_physical_sink_idf.cpp`, and the tone profile's `run`,
`p4_nano_audio_output.cpp`.  Delays, clocks, texts and the bytes of the tone are left out.
-/

namespace EspNp2.CodecLease.CodecClients

open Library.CallProgram
open SharedI2c

section Codec

def kCodecAddress : UInt8 := 0x18

def kDacMuteRegister : UInt8 := 0x31

def kDacVolumeRegister : UInt8 := 0x32

def kMuteMask : UInt8 := 0x60

def kDacVolume : UInt8 := 0xa0

def codecWrite (lease : LeaseId) (register value : UInt8) : BoardCode Bool :=
  transmit lease [register, value]

def codecRead (lease : LeaseId) (register : UInt8) : BoardCode (Option UInt8) :=
  transmitReceive lease [register]

/-- Writes in their order, up to the first that fails. -/
def codecWrites (lease : LeaseId) : List (UInt8 × UInt8) → BoardCode Bool
  | [] => return true
  | (register, value) :: rest => do
      let written ← codecWrite lease register value
      if written then codecWrites lease rest else return false

/-- A register is read and written back with some bits changed. -/
def codecChange (lease : LeaseId) (register : UInt8) (change : UInt8 → UInt8) : BoardCode Bool := do
  let value ← codecRead lease register
  match value with
  | none => return false
  | some value => codecWrite lease register (change value)

def muteBits (mute : Bool) (value : UInt8) : UInt8 :=
  if mute then value ||| kMuteMask else value &&& ~~~kMuteMask

end Codec

section Sink

/-- The fields of an `IdfBackend`; the lease `codec` is in the ledger. -/
structure IdfBackend where
  tx : Bool := false
  codecAcquired : Bool := false
  paInitialized : Bool := false
  channelCreated : Bool := false
  channelEnabled : Bool := false
  callbacksRegistered : Bool := false
  callbackGate : Bool := false
deriving DecidableEq, Repr

structure SinkWorld where
  board : Board := {}
  backend : IdfBackend := {}

abbrev SinkCode := StateT SinkWorld Driver

def onBoard {α : Type} (code : BoardCode α) : SinkCode α := fun world =>
  (code world.board).bind fun result => .done (result.1, { world with board := result.2 })

def modifyBackend (change : IdfBackend → IdfBackend) : SinkCode Unit :=
  modify fun world => { world with backend := change world.backend }

variable (codec : LeaseId)

/-- `codec_mute` of the sink, which reads the bits back. -/
def sinkMute (mute : Bool) : BoardCode Bool := do
  let changed ← codecChange codec kDacMuteRegister (muteBits mute)
  if ¬ changed then
    return false
  else
    let value ← codecRead codec kDacMuteRegister
    match value with
    | none => return false
    | some value => return value &&& kMuteMask = if mute then kMuteMask else 0

def sinkConfigure : BoardCode Bool := do
  let reset ← codecWrites codec [(0x00, 0x1f), (0x00, 0x00), (0x00, 0x80), (0x01, 0x3f),
    (0x02, 0x00), (0x03, 0x10), (0x04, 0x10), (0x05, 0x00), (0x08, 0xff)]
  if ¬ reset then
    return false
  else
    let sixth ← codecChange codec 0x06 fun value => (value &&& 0xe0) ||| 0x03
    if ¬ sixth then
      return false
    else
      let seventh ← codecChange codec 0x07 fun value => value &&& 0xc0
      if ¬ seventh then
        return false
      else
        let settings ← codecWrites codec [(0x09, 0x0c), (0x0a, 0x0c), (0x0d, 0x01), (0x12, 0x00),
          (0x13, 0x10), (0x37, 0x08), (kDacVolumeRegister, kDacVolume)]
        if ¬ settings then
          return false
        else
          let muted ← sinkMute codec true
          if ¬ muted then
            return false
          else
            let value ← codecRead codec kDacVolumeRegister
            return value = some kDacVolume

def createI2s : SinkCode Bool := do
  let created : Bool ← onBoard (call .i2sNewChannel)
  if ¬ created then
    return false
  else
    modifyBackend fun backend => { backend with tx := true, channelCreated := true }
    onBoard (call .i2sInitStdMode)

/-- `i2s_channel_disable` with the flag that goes with it. -/
def disableChannel : SinkCode Bool := do
  let disabled : Bool ← onBoard (call .i2sDisable)
  if disabled then
    modifyBackend fun backend => { backend with channelEnabled := false }
    return true
  else
    return false

/-- The codec's lease is given back, and the flag is cleared whatever comes of it. -/
def dropCodec : SinkCode Unit := do
  let world ← get
  if world.backend.codecAcquired then
    let _ ← onBoard (release codec)
    modifyBackend fun backend => { backend with codecAcquired := false }
    let _ ← onBoard shutdown
    return
  else
    return

def dropPa : SinkCode Unit := do
  let world ← get
  if world.backend.paInitialized then
    let _ ← onBoard paServiceShutdown
    modifyBackend fun backend => { backend with paInitialized := false }
  else
    return

def rollbackMute : SinkCode Unit := do
  let world ← get
  if world.backend.codecAcquired then
    let _ ← onBoard (sinkMute codec true)
    return
  else
    return

def rollbackPa : SinkCode Unit := do
  let world ← get
  if world.backend.paInitialized then
    let _ ← onBoard paServiceDisable
    return
  else
    return

def rollbackDisable : SinkCode Unit := do
  let world ← get
  if world.backend.channelEnabled ∧ world.backend.tx then
    let _ ← disableChannel
    return
  else
    return

def rollbackDelete : SinkCode Unit := do
  let world ← get
  if world.backend.channelCreated ∧ ¬ world.backend.channelEnabled ∧ world.backend.tx then
    let deleted : Bool ← onBoard (call .i2sDelChannel)
    if deleted then
      modifyBackend fun backend => { backend with
        tx := false
        channelCreated := false
        callbacksRegistered := false
        callbackGate := false }
    else
      return
  else
    return

def rollbackPrepare : SinkCode Unit := do
  rollbackMute codec
  rollbackPa
  rollbackDisable
  rollbackDelete
  dropCodec codec
  dropPa

def failPrepare : SinkCode Bool := do
  rollbackPrepare codec
  return false

/-- The rest of `prepare` behind the acquisition of the codec. -/
def prepareStream : SinkCode Bool := do
  let configured ← onBoard (sinkConfigure codec)
  if ¬ configured then
    failPrepare codec
  else
    let created ← createI2s
    if ¬ created then
      failPrepare codec
    else
      let enabled : Bool ← onBoard (call .i2sEnable)
      if ¬ enabled then
        failPrepare codec
      else
        modifyBackend fun backend => { backend with channelEnabled := true }
        let pa ← onBoard paServiceEnable
        if ¬ pa then
          failPrepare codec
        else
          let disabled ← disableChannel
          if ¬ disabled then
            failPrepare codec
          else
            modifyBackend fun backend => { backend with callbackGate := true }
            let registered : Bool ← onBoard (call .i2sRegisterCallbacks)
            if ¬ registered then
              failPrepare codec
            else
              modifyBackend fun backend => { backend with callbacksRegistered := true }
              return true

def prepare : SinkCode Bool := do
  let initialized ← onBoard paServiceInit
  if ¬ initialized then
    failPrepare codec
  else
    modifyBackend fun backend => { backend with paInitialized := true }
    let low ← onBoard paServiceDisable
    if ¬ low then
      failPrepare codec
    else
      let acquired ← onBoard (acquire kCodecAddress codec)
      if acquired ≠ .ok then
        failPrepare codec
      else
        modifyBackend fun backend => { backend with codecAcquired := true }
        prepareStream codec

def preload (bytes : Nat) : SinkCode Unit := do
  let _ ← onBoard (call (.i2sPreload bytes))
  return

def enableStream : SinkCode Bool := do
  let enabled : Bool ← onBoard (call .i2sEnable)
  if ¬ enabled then
    return false
  else
    modifyBackend fun backend => { backend with channelEnabled := true }
    let unmuted ← onBoard (sinkMute codec false)
    if unmuted then
      return true
    else
      let _ : Bool ← onBoard (call .i2sDisable)
      modifyBackend fun backend => { backend with channelEnabled := false }
      return false

def write (bytes : Nat) : SinkCode Unit := do
  let _ ← onBoard (call (.i2sWrite bytes))
  return

def mute : SinkCode Bool := do
  let world ← get
  if world.backend.codecAcquired then onBoard (sinkMute codec true) else return true

def paLow : SinkCode Bool := do
  let world ← get
  if world.backend.paInitialized then onBoard paServiceDisable else return true

def disable : SinkCode Bool := do
  let world ← get
  if world.backend.channelEnabled then disableChannel else return true

def unregisterCallbacks : SinkCode Bool := do
  let world ← get
  if world.backend.channelCreated then
    if world.backend.channelEnabled then
      return false
    else
      let deleted : Bool ← onBoard (call .i2sDelChannel)
      if ¬ deleted then
        return false
      else
        modifyBackend fun backend => { backend with
          tx := false
          channelCreated := false
          callbacksRegistered := false
          callbackGate := false }
        return true
  else
    modifyBackend fun backend =>
      { backend with callbacksRegistered := false, callbackGate := false }
    return true

def releaseDisable : SinkCode Unit := do
  let world ← get
  if world.backend.channelEnabled then
    let _ : Bool ← onBoard (call .i2sDisable)
    modifyBackend fun backend => { backend with channelEnabled := false }
  else
    return

def releaseDelete : SinkCode Unit := do
  let world ← get
  if world.backend.channelCreated then
    let _ : Bool ← onBoard (call .i2sDelChannel)
    modifyBackend fun backend => { backend with tx := false, channelCreated := false }
  else
    return

/-- `release`, up to the destruction of the backend and of the lease in it. -/
def releaseBackend : SinkCode Unit := do
  releaseDisable
  releaseDelete
  dropCodec codec
  dropPa

end Sink

section Tone

variable (codec : LeaseId)

def toneMute (mute : Bool) : BoardCode Bool :=
  codecChange codec kDacMuteRegister (muteBits mute)

def toneConfigure : BoardCode Bool := do
  let reset ← codecWrites codec [(0x00, 0x1f), (0x00, 0x00), (0x00, 0x80), (0x01, 0x3f),
    (0x02, 0x00), (0x03, 0x10), (0x04, 0x10), (0x05, 0x00), (0x08, 0xff)]
  if ¬ reset then
    return false
  else
    let sixth ← codecChange codec 0x06 fun value => (value &&& 0xe0) ||| 0x03
    if ¬ sixth then
      return false
    else
      let seventh ← codecChange codec 0x07 fun value => value &&& 0xc0
      if ¬ seventh then
        return false
      else
        let started ← codecChange codec 0x00 fun value => value &&& 0xbf
        if ¬ started then
          return false
        else
          let settings ← codecWrites codec [(0x09, 0x0c), (0x0a, 0x0c), (0x0d, 0x01), (0x12, 0x00),
            (0x13, 0x10), (0x37, 0x08), (kDacVolumeRegister, kDacVolume)]
          if ¬ settings then return false else toneMute codec true

/-- The registers that `codec_readback_ok` reads, with the value and the mask it expects. -/
def readbackExpected : List (UInt8 × UInt8 × UInt8) :=
  [(0x01, 0x3f, 0xff), (0x03, 0x10, 0xff), (0x04, 0x10, 0xff), (0x09, 0x0c, 0x1c),
    (0x0a, 0x0c, 0x1c), (kDacMuteRegister, kMuteMask, kMuteMask), (0x12, 0x00, 0x03),
    (0x06, 0x03, 0x1f), (kDacVolumeRegister, kDacVolume, 0xff)]

def codecReadbackOk : List (UInt8 × UInt8 × UInt8) → BoardCode Bool
  | [] => return true
  | (register, value, mask) :: rest => do
      let actual ← codecRead codec register
      match actual with
      | none => return false
      | some actual =>
          if actual &&& mask = value &&& mask then codecReadbackOk rest else return false

/-- A step that is taken only while the result is `ESP_OK`. -/
def whenOk (result : Bool) (code : BoardCode Bool) : BoardCode Bool :=
  if result then code else return false

/-- The local variables of `run` that its shutdown reads. -/
structure ToneLocals where
  created : Bool := false
  enabled : Bool := false
  paReady : Bool := false

/-- `configure_i2s`: whether it was successful, and whether there is a channel. -/
def configureI2s : BoardCode (Bool × Bool) := do
  let created : Bool ← call .i2sNewChannel
  if ¬ created then
    return (false, false)
  else
    let initialized : Bool ← call .i2sInitStdMode
    return (initialized, true)

def preloadSilence (bytes : Nat) : Nat → BoardCode Bool
  | 0 => return true
  | count + 1 => do
      let (loaded, length) ← call (.i2sPreload bytes)
      if loaded ∧ length = bytes then preloadSilence bytes count else return false

def writeBlocks (bytes : Nat) : Nat → BoardCode Bool
  | 0 => return true
  | count + 1 => do
      let (written, length) ← call (.i2sWrite bytes)
      if written ∧ length = bytes then writeBlocks bytes count else return false

/-- The unmuting and its reading back. -/
def unmute : BoardCode Bool := do
  let unmuted ← toneMute codec false
  if ¬ unmuted then
    return false
  else
    let value ← codecRead codec kDacMuteRegister
    match value with
    | none => return false
    | some value => return value &&& kMuteMask = 0

/-- The steps of `run` up to its shutdown.  The generated tone may differ from the expected
one, and the buffers have so many descriptors and blocks. -/
def runSteps (identityOk : Bool) (descriptors blocks bytes : Nat) :
    BoardCode (Bool × ToneLocals) := do
  let paReady ← paServiceInit
  if ¬ paReady then
    return (false, {})
  else
    let acquired ← acquire kCodecAddress codec
    if acquired ≠ .ok then
      return (false, { paReady := true })
    else
      let (configured, created) ← configureI2s
      let locals : ToneLocals := { created := created, paReady := true }
      let result ← whenOk configured (toneConfigure codec)
      let result ← whenOk result (codecReadbackOk codec readbackExpected)
      let result ← whenOk (result && identityOk) (preloadSilence bytes descriptors)
      let enabled ← whenOk result (call .i2sEnable)
      let locals := { locals with enabled := enabled }
      let result ← whenOk enabled paServiceEnable
      let result ← whenOk result (unmute codec)
      let result ← whenOk result (writeBlocks bytes blocks)
      return (result, locals)

def ifReady (ready : Bool) (code : BoardCode Bool) : BoardCode Unit := do
  if ready then
    let _ ← code
    return
  else
    return

/-- What the shutdown does while the lease is active. -/
def ifActive {α : Type} (code : BoardCode α) : BoardCode Unit := do
  let board ← get
  if (board.ledger.leases codec).active then
    let _ ← code
    return
  else
    return

def runShutdown (locals : ToneLocals) : BoardCode Unit := do
  ifReady locals.paReady paServiceDisable
  ifActive codec (toneMute codec true)
  ifReady locals.enabled (call .i2sDisable)
  ifReady locals.created (call .i2sDelChannel)
  ifActive codec (release codec)
  ifReady locals.paReady paServiceShutdown

/-- `run`, up to the end of its local `codec_lease`. -/
def runTone (identityOk : Bool) (descriptors blocks bytes : Nat) : BoardCode Unit := do
  let (_, locals) ← runSteps codec identityOk descriptors blocks bytes
  runShutdown codec locals

end Tone

end EspNp2.CodecLease.CodecClients
