import EspNp2.BinaryDataPlane.TransferTrace
import EspNp2.HostUpload.UploadClient

/-!
The upload client of the host and the transfer manager of the device, joined by
two FIFO channels of wire forms. Any frame in a channel may be dropped, or
replaced by bytes in which its receiver finds no frame with a valid CRC; timeouts
and polls come at any time.
-/

namespace EspNp2.HostUpload.UploadNetwork

open EspNp2.BinaryDataPlane.BinaryCodec
open EspNp2.BinaryDataPlane.FrameRoundTrip
open EspNp2.BinaryDataPlane.Transfer
open EspNp2.BinaryDataPlane.TransferContract
open EspNp2.BinaryDataPlane.TransferTrace
open EspNp2.HostUpload.HostWire
open EspNp2.HostUpload.UploadClient

variable {P W : Type}

structure Net (P W : Type) where
  host : Host P
  toDevice : List (List UInt8)
  toHost : List (List UInt8)
  device : Device (Traced W)

inductive Action where
  | hostReceive
  | hostTimeout
  | hostSerialError
  | deviceReceive (nowMs : UInt32)
  | devicePoll (nowMs : UInt32)
  | deviceAbort (transferId : UInt32)
  | dropToDevice (index : Nat)
  | dropToHost (index : Nat)
  | corruptToDevice (index : Nat) (wire : List UInt8)
  | corruptToHost (index : Nat) (wire : List UInt8)
deriving DecidableEq, Repr

/-- The device finds a frame with a valid CRC in these bytes. -/
def deviceAccepts (wire : List UInt8) : Bool :=
  (wireFrame wire).any fun frame => frame.crcValid

/-- The host finds a frame with a valid CRC in these bytes. -/
def hostAccepts (wire : List UInt8) : Bool :=
  (receivedFrame wire).any fun frame => frame.crcValid

def writtenWire : Event → Option (List UInt8)
  | .write wire true => some wire
  | _ => none

/-- The wire forms that went out on the device's serial line. -/
def writtenWires (events : List Event) : List (List UInt8) :=
  events.filterMap writtenWire

/-- The device performs an operation; what it writes enters the channel. -/
def Net.onDevice (net : Net P W) (op : Operation (Traced W)) : Net P W :=
  let device := perform net.device op
  { net with
    device := device
    toHost := net.toHost ++
      writtenWires (device.world.events.drop net.device.world.events.length) }

def Net.onHost (net : Net P W) (reaction : Reaction P) : Net P W :=
  { net with host := reaction.1, toDevice := net.toDevice ++ reaction.2 }

section Network

variable (producer : Producer P) (plan : UploadPlan)

def step (net : Net P W) : Action → Net P W
  | .hostReceive =>
      match net.toHost with
      | [] => net
      | wire :: rest =>
          let net := { net with toHost := rest }
          match receivedFrame wire with
          | none => net
          | some response => net.onHost (receiveResponse producer plan net.host response)
  | .hostTimeout => net.onHost (responseTimeout net.host)
  | .hostSerialError => { net with host := serialError net.host }
  | .deviceReceive nowMs =>
      match net.toDevice with
      | [] => net
      | wire :: rest =>
          let net := { net with toDevice := rest }
          match wireDecoded wire with
          | none => net
          | some decoded => net.onDevice (.handleDecodedFrame decoded nowMs)
  | .devicePoll nowMs => net.onDevice (.poll nowMs)
  | .deviceAbort transferId => net.onDevice (.abort transferId)
  | .dropToDevice index => { net with toDevice := net.toDevice.eraseIdx index }
  | .dropToHost index => { net with toHost := net.toHost.eraseIdx index }
  | .corruptToDevice index wire =>
      if deviceAccepts wire then net else { net with toDevice := net.toDevice.set index wire }
  | .corruptToHost index wire =>
      if hostAccepts wire then net else { net with toHost := net.toHost.set index wire }

def runNet (net : Net P W) (actions : List Action) : Net P W :=
  actions.foldl (step producer plan) net

end Network

/-- Everything an upload starts from. -/
structure Setup (P W : Type) where
  mode : UploadMode
  producer : Producer P
  source : P
  wireSize : UInt64
  nextTransferId : UInt32
  output : OutputSink W
  endpoint : TransferEndpoint W
  world : W

/-- The transfer options the device is asked for. -/
def UploadMode.options : UploadMode → TransferOptions
  | .stopAndWait => { transport := .stopAndWait, windowFrames := 1 }
  | .windowed => { transport := .windowedGbnV1, windowFrames := 2 }

/-- The device's `begin_rx` for the upload. -/
def Setup.begin (setup : Setup P W) : Except ManagerError TransferInfo × Device (Traced W) :=
  beginRx
    { manager := init setup.nextTransferId (tracedSink setup.output)
      world := { world := setup.world, events := [] } }
    setup.wireSize (tracedEndpoint setup.endpoint) (UploadMode.options setup.mode)

def Setup.plan (setup : Setup P W) (info : TransferInfo) : UploadPlan :=
  { transferId := info.transferId, wireSize := setup.wireSize.toNat }

/-- The network once the transfer was begun as `info` and the host has entered
its send loop. -/
def Setup.start (setup : Setup P W) (info : TransferInfo) : Net P W :=
  let reaction := startUpload setup.producer (setup.plan info) setup.mode setup.source
  { host := reaction.1
    toDevice := reaction.2
    toHost := []
    device := setup.begin.2 }

def Setup.run (setup : Setup P W) (info : TransferInfo) (actions : List Action) : Net P W :=
  runNet setup.producer (setup.plan info) (setup.start info) actions

end EspNp2.HostUpload.UploadNetwork
