import EspNp2.KeyboardInput.KeyboardBridge
import EspNp2.KeyboardInput.UsbReports
import EspNp2.Library.Concurrent

/-!
The producer of the USB keyboard: the task of the USB host library, the task of the HID
driver and the producer's own task, with the callbacks that run inside the calls of the host
stack.  The replies of the host stack and of the bridge are arbitrary.

The printed markers, the counters and the task notifications, which no task waits for, are
left out.
-/

namespace EspNp2.KeyboardInput.UsbProducer

open EspNp2.Library.Concurrent
open KeyboardBridge
open Ownership
open UsbReports

section Memory

abbrev Handle := Nat

inductive EspErr where
  | ok
  | timeout
  | notFinished
  | other (code : Int)
deriving DecidableEq, Repr

/-- An error of an event loop; a timeout is none. -/
def EspErr.fails (result : EspErr) : Bool :=
  result ≠ .ok && result ≠ .timeout

inductive RawEventKind where
  | connected
  | inputReport
  | disconnected
  | transferError
deriving DecidableEq, Repr

structure RawEvent where
  kind : RawEventKind
  handle : Option Handle
  error : EspErr := .ok
  data : List UInt8 := []
deriving DecidableEq, Repr

def rawQueueCapacity : Nat := 24

inductive Word where
  | stopRequested
  | accepting
  | faultLatched
  | sourceCleanupRequested
  | bridgeFailure
  | bridgeCallsAllowed
  | activeOpen
  | usbHostInstalled
  | hidInstalled
  | hidDisconnectRequested
  | hidDisconnectCallbackDone
  | directDeviceGone
  | hidUninstallRequested
  | hidEventStopRequested
  | teardownFailed
  | startResult
  | usbDoneFlag
  | hidDoneFlag
  | producerDoneFlag
deriving DecidableEq, Repr

inductive HandleWord where
  | usbClient
  | directDevice
  | activeHandle
deriving DecidableEq, Repr

inductive Semaphore where
  | usbReady
  | usbDone
  | hidStart
  | hidDone
  | hidDisconnectDone
  | directDeviceGoneDone
  | producerReady
  | producerDone
deriving DecidableEq, Repr

structure DeviceParams where
  bootInterface : Bool
  keyboardProtocol : Bool
deriving DecidableEq, Repr

inductive InterfaceEvent where
  | inputReport
  | transferError
  | disconnected
  | other
deriving DecidableEq, Repr

/-- What the HID driver reports to the callbacks of the producer. -/
inductive HidEvent where
  | driver (handle : Option Handle) (connected : Bool)
  | interface (handle : Option Handle) (event : InterfaceEvent)
deriving DecidableEq, Repr

/-- What the host library reports to a client. -/
inductive ClientEvent where
  | newDevice (address : UInt8)
  | deviceGone (device : Option Handle)
  | other
deriving DecidableEq, Repr

/-- The calls of the HID driver that may run callbacks before they return. -/
inductive HidCall where
  | handleEvents
  | deviceStop (handle : Handle)
  | uninstall
deriving DecidableEq, Repr

inductive HostCall where
  | install
  | libHandleEvents
  | deviceFreeAll
  | uninstall
  | clientRegister
  | clientHandleEvents (client : Handle)
  | clientUnblock (client : Handle)
  | clientDeregister (client : Handle)
  | deviceOpen (client : Handle) (address : UInt8)
  | deviceClose (client : Handle) (device : Option Handle)
  | rootPortPowerOff
  | hidInstall
  | hid (call : HidCall)
  | hidGetParams (handle : Handle)
  | hidDeviceOpen (handle : Handle)
  | hidSetProtocol (handle : Handle)
  | hidSetIdle (handle : Handle)
  | hidDeviceStart (handle : Handle)
  | hidDeviceClose (handle : Option Handle)
  | hidInputReport (handle : Option Handle)
  | deadlineReached
  | delay
deriving DecidableEq, Repr

structure LibFlags where
  noClients : Bool
  allFree : Bool
deriving DecidableEq, Repr

/-- A call that runs callbacks replies with the next of them until it returns. -/
abbrev HostReply : HostCall → Type
  | .libHandleEvents => EspErr × LibFlags
  | .clientRegister => Except EspErr Handle
  | .clientHandleEvents _ => ClientEvent ⊕ EspErr
  | .deviceOpen _ _ => Except EspErr Handle
  | .hid _ => HidEvent ⊕ EspErr
  | .hidGetParams _ => EspErr × DeviceParams
  | .hidInputReport _ => EspErr × List UInt8
  | .deadlineReached => Bool
  | .delay => Unit
  | _ => EspErr

inductive Op where
  | load (word : Word)
  | store (word : Word) (value : Bool)
  | exchange (word : Word) (value : Bool)
  | loadHandle (word : HandleWord)
  | storeHandle (word : HandleWord) (value : Option Handle)
  | exchangeHandle (word : HandleWord) (value : Option Handle)
  | claimDevice (device : Handle)
  | give (semaphore : Semaphore)
  | take (semaphore : Semaphore)
  | queueSend (event : RawEvent)
  | queueReceive
  | host (call : HostCall)
  | bridgeLoad (word : BridgeWord)
  | bridgeStore (word : BridgeWord) (value : Bool)
  | bridgeSend (command : Command)
deriving DecidableEq, Repr

abbrev Result : Op → Type
  | .load _ => Bool
  | .exchange _ _ => Bool
  | .loadHandle _ => Option Handle
  | .exchangeHandle _ _ => Option Handle
  | .claimDevice _ => Bool
  | .take _ => Bool
  | .queueSend _ => Bool
  | .queueReceive => Option RawEvent
  | .host call => HostReply call
  | .bridgeLoad _ => Bool
  | .bridgeSend _ => Bool
  | _ => Unit

/-- The members of the producer that its tasks share, as `start` leaves them to the tasks. -/
structure ProducerState where
  flags : Word → Bool := fun word => word = .accepting || word = .bridgeCallsAllowed
  handles : HandleWord → Option Handle := fun _ => none
  given : Semaphore → Bool := fun _ => false
  rawQueue : List RawEvent := []

def ProducerState.setFlag (s : ProducerState) (word : Word) (value : Bool) : ProducerState :=
  { s with flags := Function.update s.flags word value }

def ProducerState.setHandle (s : ProducerState) (word : HandleWord) (value : Option Handle) :
    ProducerState :=
  { s with handles := Function.update s.handles word value }

def ProducerState.setGiven (s : ProducerState) (semaphore : Semaphore) (value : Bool) :
    ProducerState :=
  { s with given := Function.update s.given semaphore value }

/-- A wait may time out at any moment.  The host stack replies as it likes, and so does the
bridge, whose flags and queue its owner and the other producers change meanwhile. -/
def acts (s : ProducerState) : (request : Op) → Result request → ProducerState → Prop
  | .load word, value, s' => value = s.flags word ∧ s' = s
  | .store word value, _, s' => s' = s.setFlag word value
  | .exchange word value, old, s' => old = s.flags word ∧ s' = s.setFlag word value
  | .loadHandle word, value, s' => value = s.handles word ∧ s' = s
  | .storeHandle word value, _, s' => s' = s.setHandle word value
  | .exchangeHandle word value, old, s' => old = s.handles word ∧ s' = s.setHandle word value
  | .claimDevice device, claimed, s' =>
      if s.handles .directDevice = none then
        claimed = true ∧ s' = s.setHandle .directDevice device
      else claimed = false ∧ s' = s
  | .give semaphore, _, s' => s' = s.setGiven semaphore true
  | .take semaphore, taken, s' =>
      taken = true ∧ s.given semaphore = true ∧ s' = s.setGiven semaphore false ∨
        taken = false ∧ s' = s
  | .queueSend event, sent, s' =>
      if s.rawQueue.length < rawQueueCapacity then
        sent = true ∧ s' = { s with rawQueue := s.rawQueue ++ [event] }
      else sent = false ∧ s' = s
  | .queueReceive, event, s' =>
      event = s.rawQueue.head? ∧ s' = { s with rawQueue := s.rawQueue.tail }
  | .host _, _, s' => s' = s
  | .bridgeLoad _, _, s' => s' = s
  | .bridgeStore _ _, _, s' => s' = s
  | .bridgeSend _, _, s' => s' = s

abbrev Code := Thread Op Result

/-- What the producer's task alone uses. -/
structure KeyboardFields where
  parser : ParserState := {}
  adapter : Adapter := {}
deriving DecidableEq, Repr

abbrev Producer := StateT KeyboardFields Code

def operate (request : Op) : Code (Result request) := perform request

def load (word : Word) : Code Bool := operate (.load word)
def store (word : Word) (value : Bool) : Code Unit := operate (.store word value)
def exchange (word : Word) (value : Bool) : Code Bool := operate (.exchange word value)
def loadHandle (word : HandleWord) : Code (Option Handle) := operate (.loadHandle word)

def storeHandle (word : HandleWord) (value : Option Handle) : Code Unit :=
  operate (.storeHandle word value)

def give (semaphore : Semaphore) : Code Unit := operate (.give semaphore)
def take (semaphore : Semaphore) : Code Bool := operate (.take semaphore)
def queueSend (event : RawEvent) : Code Bool := operate (.queueSend event)
def queueReceive : Code (Option RawEvent) := operate .queueReceive
def host (call : HostCall) : Code (HostReply call) := operate (.host call)

def bridgeAccess : BridgeAccess Code where
  load word := operate (.bridgeLoad word)
  store word value := operate (.bridgeStore word value)
  send command := operate (.bridgeSend command)

end Memory

section Callbacks

def unblockClient : Code Unit := do
  match ← loadHandle .usbClient with
  | none => return
  | some client => discard (host (.clientUnblock client))

def markTeardownFailed : Code Unit := store .teardownFailed true

def enqueueRaw (event : RawEvent) : Code Bool := do
  if ← load .accepting then
    if ← queueSend event then return true
    else
      store .sourceCleanupRequested true
      store .faultLatched true
      store .accepting false
      store .stopRequested true
      unblockClient
      return false
  else return false

/-- The client closes the device it has opened when that is gone. -/
def deviceGoneCallback (client : Handle) (device : Option Handle) : Code Unit := do
  let direct ← loadHandle .directDevice
  if direct ≠ none ∧ direct = device then
    let result ← host (.deviceClose client device)
    if result ≠ .ok then
      if ← load .hidDisconnectRequested then markTeardownFailed else return
    else
      storeHandle .directDevice none
      store .directDeviceGone true
      give .directDeviceGoneDone
  else return

def newDeviceCallback (client : Handle) (address : UInt8) : Code Unit := do
  match ← host (.deviceOpen client address) with
  | .error _ => return
  | .ok device =>
      if ← operate (.claimDevice device) then store .directDeviceGone false
      else discard (host (.deviceClose client device))

def usbClientEventCallback (event : ClientEvent) : Code Unit := do
  match ← loadHandle .usbClient with
  | none => return
  | some client =>
      match event with
      | .deviceGone device => deviceGoneCallback client device
      | .newDevice address => newDeviceCallback client address
      | .other => return

def hidDriverCallback (handle : Option Handle) (connected : Bool) : Code Unit := do
  if connected = false then return
  else if ← load .accepting then discard (enqueueRaw ⟨.connected, handle, .ok, []⟩)
  else return

/-- The raw event of an interface event; a disconnected device is closed at once. -/
def interfaceRawEvent (handle : Option Handle) : InterfaceEvent → Code (Option RawEvent)
  | .inputReport => do
      let report ← host (.hidInputReport handle)
      if report.1 ≠ .ok then return some ⟨.transferError, handle, report.1, []⟩
      else return some ⟨.inputReport, handle, .ok, report.2⟩
  | .transferError => return some ⟨.transferError, handle, .other (-1), []⟩
  | .disconnected => do
      let closed ← host (.hidDeviceClose handle)
      if closed ≠ .ok then return some ⟨.disconnected, handle, .ok, []⟩
      else
        if ← load .hidDisconnectRequested then
          store .hidDisconnectCallbackDone true
          give .hidDisconnectDone
        return some ⟨.disconnected, handle, .ok, []⟩
  | .other => return none

def hidInterfaceCallback (handle : Option Handle) (event : InterfaceEvent) : Code Unit := do
  match ← interfaceRawEvent handle event with
  | none => return
  | some raw =>
      if ← load .accepting then discard (enqueueRaw raw) else return

def hidCallback : HidEvent → Code Unit
  | .driver handle connected => hidDriverCallback handle connected
  | .interface handle event => hidInterfaceCallback handle event

/-- A call of the HID driver with the callbacks that it runs. -/
def hidCall (call : HidCall) : Code EspErr :=
  iterate (fun _ => do
    match ← host (.hid call) with
    | .inl event =>
        hidCallback event
        return .inl ()
    | .inr result => return .inr result) ()

def usbHostClientHandleEvents (client : Handle) : Code EspErr :=
  iterate (fun _ => do
    match ← host (.clientHandleEvents client) with
    | .inl event =>
        usbClientEventCallback event
        return .inl ()
    | .inr result => return .inr result) ()

end Callbacks

section EventTasks

/-- The wait for the freed devices; the result tells whether they are free. -/
def awaitAllFree : Code Bool :=
  iterate (fun _ => do
    if ← host .deadlineReached then return .inr false
    else
      let events ← host .libHandleEvents
      if events.1.fails then return .inr false
      else if events.2.allFree then return .inr true
      else return .inl ()) ()

def freeDevices : Code Bool := do
  let result ← host .deviceFreeAll
  if result = .ok then return true
  else if result = .notFinished then awaitAllFree
  else return false

/-- One round of the library's event loop. -/
def usbLibraryRound : Code (Unit ⊕ Bool) := do
  let events ← host .libHandleEvents
  if events.1.fails then store .stopRequested true
  if events.2.noClients then
    if ← load .stopRequested then return .inr (← freeDevices)
    else return .inl ()
  else return .inl ()

def usbLibraryTask : Code Unit := do
  let installed ← host .install
  if installed ≠ .ok then
    store .stopRequested true
    store .accepting false
    give .usbReady
    store .usbDoneFlag true
    give .usbDone
  else
    store .usbHostInstalled true
    give .usbReady
    discard (iterate (fun _ => usbLibraryRound) ())
    discard (host .uninstall)
    store .usbHostInstalled false
    store .usbDoneFlag true
    give .usbDone

/-- One round of the HID driver's event loop. -/
def hidEventRound : Code (Unit ⊕ Unit) := do
  let result ← hidCall .handleEvents
  if result.fails then
    if ← load .hidUninstallRequested then return .inr ()
    else
      store .stopRequested true
      store .accepting false
      store .hidEventStopRequested true
      return .inr ()
  else if ← load .hidEventStopRequested then return .inr ()
  else return .inl ()

def hidEventTask : Code Unit := do
  discard (take .hidStart)
  if ← load .hidInstalled then iterate (fun _ => hidEventRound) ()
  store .hidDoneFlag true
  give .hidDone

end EventTasks

section ProducerTask

variable (created : Bool)

def disableForFault (sourceCleanup : Bool) : Code Unit := do
  if sourceCleanup then store .sourceCleanupRequested true
  store .accepting false
  store .faultLatched true
  store .stopRequested true
  unblockClient

def enqueueSourceDisconnect : Code Bool := do
  if ← load .bridgeCallsAllowed then
    match ← disconnectSource bridgeAccess created usbKeyboardSource with
    | .enqueued => return true
    | .full =>
        store .bridgeFailure true
        return false
    | .quarantined =>
        store .bridgeFailure true
        return false
    | _ => return false
  else return false

/-- The disconnect command of a device that has gone. -/
def disconnectUnlessFailed : Code Unit := do
  if ← load .bridgeCallsAllowed then
    if ← load .bridgeFailure then return
    else discard (enqueueSourceDisconnect created)
  else return

def stopActiveDevice : Code Unit := do
  match ← loadHandle .activeHandle with
  | none => return
  | some handle =>
      if ← load .activeOpen then discard (hidCall (.deviceStop handle)) else return

def resetKeyboardState : Producer Unit := do
  set ({} : KeyboardFields)
  storeHandle .activeHandle none
  store .activeOpen false

/-- The requests that open the keyboard and start it, up to the first that fails. -/
def openKeyboard (handle : Handle) : Code EspErr := do
  let opened ← host (.hidDeviceOpen handle)
  if opened ≠ .ok then return opened
  else
    storeHandle .activeHandle (some handle)
    store .activeOpen true
    let protocol ← host (.hidSetProtocol handle)
    if protocol ≠ .ok then return protocol
    else
      let idle ← host (.hidSetIdle handle)
      if idle ≠ .ok then return idle else host (.hidDeviceStart handle)

/-- The active interface is closed, if it is open. -/
def closeActive (handle : Option Handle) : Code Unit := do
  if ← exchange .activeOpen false then discard (host (.hidDeviceClose handle)) else return

def processConnected : Option Handle → Code Unit
  | none => return
  | some handle => do
      let params ← host (.hidGetParams handle)
      if params.1 ≠ .ok then disableForFault true
      else if params.2.bootInterface = false ∨ params.2.keyboardProtocol = false then return
      else if (← loadHandle .activeHandle) ≠ none then return
      else
        let result ← openKeyboard handle
        if result ≠ .ok then
          closeActive (some handle)
          storeHandle .activeHandle none
          disableForFault false
        else return

/-- The neutral events of a report go to the bridge one after the other. -/
def enqueueEvents : List Event → Code Unit
  | [] => return
  | event :: rest => do
      if ← load .accepting then
        if ← load .bridgeCallsAllowed then
          match ← enqueue bridgeAccess created event with
          | .enqueued => enqueueEvents rest
          | .full =>
              store .bridgeFailure true
              disableForFault false
          | .quarantined =>
              store .bridgeFailure true
              disableForFault false
          | _ => disableForFault false
        else return
      else return

def translateInputReport (data : List UInt8) : Producer Unit := do
  let fields ← get
  let parsed := hidBootKeyboardProcess fields.parser data maxEvents
  let translated := translateReport fields.adapter parsed.2.1 (data.getD 0 0) maxNeutralEvents
  set ({ parser := parsed.2.2, adapter := translated.2.2 } : KeyboardFields)
  if translated.1.status = .errorUsage then return
  else if translated.1.status = .invalidInput ∨ translated.1.status = .capacityInsufficient then
    disableForFault true
  else enqueueEvents created translated.2.1

def processInputReport (event : RawEvent) : Producer Unit := do
  if ← load .accepting then
    if event.handle = none then return
    else if (← loadHandle .activeHandle) ≠ event.handle then return
    else if event.data.length ≠ reportSize then return
    else translateInputReport created event.data
  else return

def processDisconnected (handle : Option Handle) : Producer Unit := do
  if handle = none then return
  else if (← loadHandle .activeHandle) ≠ handle then return
  else
    disconnectUnlessFailed created
    resetKeyboardState

def processTransferError (handle : Option Handle) : Producer Unit := do
  if handle = none then return
  else if (← loadHandle .activeHandle) ≠ handle then return
  else
    stopActiveDevice
    closeActive handle
    disconnectUnlessFailed created
    resetKeyboardState

def processEvent (event : RawEvent) : Producer Unit :=
  match event.kind with
  | .connected => processConnected event.handle
  | .inputReport => processInputReport created event
  | .disconnected => processDisconnected created event.handle
  | .transferError => processTransferError created event.handle

end ProducerTask

section Teardown

variable (created : Bool)

/-- The cleanup step of the teardown. -/
def sourceCleanup : Code Unit := do
  if ← load .sourceCleanupRequested then disconnectUnlessFailed created else return

/-- A device is still awaited. -/
def stillWaiting (waitForDirectDevice waitForHidDisconnect : Bool) : Code Bool := do
  let gone ← load .directDeviceGone
  if !gone && waitForDirectDevice then return true
  else
    let closed ← load .hidDisconnectCallbackDone
    return !closed && waitForHidDisconnect

/-- The events of the client that teardown still has to handle. -/
def pollClient : Code EspErr := do
  match ← loadHandle .usbClient with
  | some client => usbHostClientHandleEvents client
  | none =>
      host .delay
      return .ok

def awaitDisconnect (waitForDirectDevice waitForHidDisconnect : Bool) : Code Bool :=
  iterate (fun _ => do
    if ← stillWaiting waitForDirectDevice waitForHidDisconnect then
      let result ← pollClient
      if result.fails then
        markTeardownFailed
        return .inr false
      else if ← host .deadlineReached then
        markTeardownFailed
        return .inr false
      else return .inl ()
    else return .inr true) ()

def powerOff (waitForDirectDevice waitForHidDisconnect : Bool) : Code Bool := do
  if waitForDirectDevice || waitForHidDisconnect then
    let result ← host .rootPortPowerOff
    if result ≠ .ok then
      markTeardownFailed
      return false
    else awaitDisconnect waitForDirectDevice waitForHidDisconnect
  else return true

/-- The HID driver goes, and the result tells whether cleanly. -/
def uninstallHid : Code Bool := do
  if ← exchange .hidInstalled false then
    store .hidUninstallRequested true
    let result ← hidCall .uninstall
    if result ≠ .ok then
      markTeardownFailed
      return false
    else return true
  else return true

def deregisterClient : Code Bool := do
  match ← operate (.exchangeHandle .usbClient none) with
  | none => return true
  | some client =>
      let result ← host (.clientDeregister client)
      if result ≠ .ok then
        markTeardownFailed
        return false
      else return true

def releaseHost : Code Bool := do
  give .hidStart
  let uninstalled ← uninstallHid
  store .hidEventStopRequested true
  if ← take .hidDone then
    if ← load .hidDoneFlag then
      let deregistered ← deregisterClient
      let failed ← load .teardownFailed
      return uninstalled && deregistered && !failed
    else
      markTeardownFailed
      return false
  else
    markTeardownFailed
    return false

def directDevicePresent : Code Bool := do
  if (← loadHandle .directDevice) ≠ none then
    let gone ← load .directDeviceGone
    return !gone
  else return false

def hidDevicePresent : Code Bool := do
  if ← load .hidInstalled then load .activeOpen else return false

def teardownUsbAndHid : Code Bool := do
  store .accepting false
  sourceCleanup created
  let waitForDirectDevice ← directDevicePresent
  let waitForHidDisconnect ← hidDevicePresent
  store .hidDisconnectRequested waitForHidDisconnect
  stopActiveDevice
  if ← powerOff waitForDirectDevice waitForHidDisconnect then releaseHost else return false

end Teardown

section System

variable (created : Bool)

/-- A start that fails is reported to `start`. -/
def failStart : Code Bool := do
  store .startResult false
  give .producerReady
  return false

def usbHostReady : Code Bool := do
  if ← take .usbReady then load .usbHostInstalled else return false

/-- The producer's part of the start; the result tells whether the keyboard is served. -/
def startProducer : Code Bool := do
  if ← usbHostReady then
    match ← host .clientRegister with
    | .error _ => failStart
    | .ok client =>
        storeHandle .usbClient client
        let installed ← host .hidInstall
        if installed ≠ .ok then failStart
        else
          store .hidInstalled true
          give .hidStart
          store .startResult true
          give .producerReady
          return true
  else failStart

/-- The raw events that are queued, until one of them requests a stop. -/
def processQueued : Producer Unit :=
  iterating (fun _ => do
    match ← queueReceive with
    | none => return .inr ()
    | some event =>
        processEvent created event
        if ← load .stopRequested then return .inr () else return .inl ()) ()

def mainRound : Producer (Unit ⊕ Unit) := do
  if ← load .stopRequested then return .inr ()
  else
    processQueued created
    match ← loadHandle .usbClient with
    | none => return .inr ()
    | some client =>
        let result ← usbHostClientHandleEvents client
        if result.fails then
          if ← load .stopRequested then return .inl ()
          else
            disableForFault true
            return .inl ()
        else return .inl ()

/-- The raw events behind a stop are discarded. -/
def discardQueued : Code Unit :=
  iterate (fun _ => do
    match ← queueReceive with
    | none => return .inr ()
    | some _ => return .inl ()) ()

def producerTask : Producer Unit := do
  if ← startProducer then
    iterating (fun _ => mainRound created) ()
    discardQueued
  let _ ← teardownUsbAndHid created
  store .producerDoneFlag true
  give .producerDone

inductive Party where
  | usbLibrary
  | hidEvents
  | producer
deriving DecidableEq, Repr

abbrev ProducerSystem := System Party Op Result (fun _ => Unit) ProducerState

/-- The tasks of a producer that `start` has created, over a bridge with or without a
queue. -/
def startedProducer : ProducerSystem where
  threads
    | .usbLibrary => usbLibraryTask
    | .hidEvents => hidEventTask
    | .producer => do
        discard ((producerTask created).run {})
  state := {}

end System

end EspNp2.KeyboardInput.UsbProducer
