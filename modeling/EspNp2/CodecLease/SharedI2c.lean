import EspNp2.Library.CallMonitor
import Mathlib.Logic.Function.Basic

/-!
The board's shared services: the lease ledger of the I2C bus, `shared_i2c_lease_model.hpp`,
with the callbacks of `p4_nano_board.cpp`, and the service of the power amplifier.  The driver
replies to each call as it likes; a call for a device says for which lease it is made.
-/

namespace EspNp2.CodecLease.SharedI2c

open Library.CallProgram

section Driver

/-- A lease object, by its place in memory. -/
abbrev LeaseId := Nat

abbrev Token := Nat

inductive DriverCall where
  | newMasterBus
  | delMasterBus (bus : Token)
  | addDevice (lease : LeaseId) (bus : Token) (address : UInt8)
  | rmDevice (lease : LeaseId) (device : Token)
  | transmit (device : Token) (data : List UInt8)
  | transmitReceive (device : Token) (data : List UInt8)
  | gpioConfig
  | gpioSetLevel (level : Bool)
  | i2sNewChannel
  | i2sInitStdMode
  | i2sEnable
  | i2sDisable
  | i2sDelChannel
  | i2sRegisterCallbacks
  | i2sPreload (bytes : Nat)
  | i2sWrite (bytes : Nat)

/-- A reply is whether the call was successful, with what it has delivered then. -/
@[reducible] def DriverReply : DriverCall → Type
  | .newMasterBus => Option Token
  | .addDevice _ _ _ => Option Token
  | .transmitReceive _ _ => Option UInt8
  | .i2sPreload _ => Bool × Nat
  | .i2sWrite _ => Bool × Nat
  | _ => Bool

abbrev Driver := Program DriverCall DriverReply

abbrev DriverLabel := Label DriverCall DriverReply

end Driver

section Ledger

/-- The fields of a lease object; `owned` says that its owner is the ledger. -/
structure Lease where
  owned : Bool := false
  address : UInt8 := 0
  deviceToken : Token := 0
  active : Bool := false
deriving DecidableEq, Repr

inductive LeaseResult where
  | ok
  | invalidArgument
  | duplicateAddress
  | noLeaseSlots
  | busCreateFailed
  | deviceCreateFailed
  | deviceDeleteFailed
  | shutdownBusy
  | busDeleteFailed
deriving DecidableEq, Repr

/-- The ledger's slots point to lease objects that their holders own. -/
structure Ledger where
  slots : Fin 4 → Option LeaseId := fun _ => none
  busToken : Token := 0
  leaseCount : Nat := 0
  busAlive : Bool := false
  leases : LeaseId → Lease := fun _ => {}

/-- The board: the ledger and the state of the power amplifier. -/
structure Board where
  ledger : Ledger := {}
  paInitialized : Bool := false
  paEnabled : Bool := false

abbrev BoardCode := StateT Board Driver

def call (request : DriverCall) : BoardCode (DriverReply request) :=
  liftM (perform request : Driver (DriverReply request))

def Ledger.hasAddress (ledger : Ledger) (address : UInt8) : Bool :=
  (List.finRange 4).any fun slot => match ledger.slots slot with
    | some lease => (ledger.leases lease).address = address
    | none => false

/-- The first slot with this content. -/
def Ledger.firstSlot (ledger : Ledger) (content : Option LeaseId) : Option (Fin 4) :=
  (List.finRange 4).find? fun slot => ledger.slots slot = content

def Ledger.findSlot (ledger : Ledger) (lease : LeaseId) : Option (Fin 4) :=
  if ¬ (ledger.leases lease).owned ∨ ¬ (ledger.leases lease).active then none
  else ledger.firstSlot (some lease)

def Ledger.owns (ledger : Ledger) (lease : LeaseId) : Bool := (ledger.findSlot lease).isSome

def modifyLedger (change : Ledger → Ledger) : BoardCode Unit :=
  modify fun board => { board with ledger := change board.ledger }

/-- The bus of `acquire`, created when there is none; whether it was created. -/
def ensureBus : BoardCode (Option Bool) := do
  let board ← get
  if board.ledger.busAlive then
    return some false
  else
    let bus ← call .newMasterBus
    match bus with
    | none => return none
    | some token =>
        if token = 0 then
          return none
        else
          modifyLedger fun ledger => { ledger with busToken := token, busAlive := true }
          return some true

/-- A bus that was created for a device that is not there. -/
def dropBus : BoardCode LeaseResult := do
  let board ← get
  let deleted : Bool ← call (.delMasterBus board.ledger.busToken)
  if deleted then
    modifyLedger fun ledger => { ledger with busToken := 0, busAlive := false }
    return .deviceCreateFailed
  else
    return .busDeleteFailed

/-- The registration at the end of `acquire`. -/
def Ledger.register (ledger : Ledger) (slot : Fin 4) (lease : LeaseId) (address : UInt8)
    (device : Token) : Ledger :=
  { ledger with
    leases := Function.update ledger.leases lease
      { owned := true, address := address, deviceToken := device, active := true }
    slots := Function.update ledger.slots slot (some lease)
    leaseCount := ledger.leaseCount + 1 }

/-- The callback `create_device` leaves the token zero when the driver fails, so that
`acquire` has no device to delete then. -/
def acquire (address : UInt8) (lease : LeaseId) : BoardCode LeaseResult := do
  let board ← get
  if (board.ledger.leases lease).active ∨ (board.ledger.leases lease).owned then
    return .invalidArgument
  else if board.ledger.hasAddress address then
    return .duplicateAddress
  else
    match board.ledger.firstSlot none with
    | none => return .noLeaseSlots
    | some slot =>
        let created ← ensureBus
        match created with
        | none => return .busCreateFailed
        | some created =>
            let board ← get
            let device : Option Token ← call (.addDevice lease board.ledger.busToken address)
            if device.getD 0 = 0 then
              if created then dropBus else return .deviceCreateFailed
            else
              modifyLedger fun ledger => ledger.register slot lease address (device.getD 0)
              return .ok

/-- What `release` does when the device is deleted. -/
def Ledger.unregister (ledger : Ledger) (slot : Fin 4) (lease : LeaseId) : Ledger :=
  { ledger with
    slots := Function.update ledger.slots slot none
    leaseCount := ledger.leaseCount - 1
    leases := Function.update ledger.leases lease {} }

def release (lease : LeaseId) : BoardCode LeaseResult := do
  let board ← get
  match board.ledger.findSlot lease with
  | none => return .invalidArgument
  | some slot =>
      let deleted : Bool ← call (.rmDevice lease (board.ledger.leases lease).deviceToken)
      if deleted then
        modifyLedger fun ledger => ledger.unregister slot lease
        return .ok
      else
        return .deviceDeleteFailed

def shutdown : BoardCode LeaseResult := do
  let board ← get
  if board.ledger.leaseCount ≠ 0 then
    return .shutdownBusy
  else if ¬ board.ledger.busAlive then
    return .ok
  else
    let deleted : Bool ← call (.delMasterBus board.ledger.busToken)
    if deleted then
      modifyLedger fun ledger => { ledger with busToken := 0, busAlive := false }
      return .ok
    else
      return .busDeleteFailed

end Ledger

section Services

/-- `shared_i2c_device_transmit`. -/
def transmit (lease : LeaseId) (data : List UInt8) : BoardCode Bool := do
  let board ← get
  if board.ledger.owns lease then
    call (.transmit (board.ledger.leases lease).deviceToken data)
  else
    return false

/-- `shared_i2c_device_transmit_receive` of one byte. -/
def transmitReceive (lease : LeaseId) (data : List UInt8) : BoardCode (Option UInt8) := do
  let board ← get
  if board.ledger.owns lease then
    call (.transmitReceive (board.ledger.leases lease).deviceToken data)
  else
    return none

def modifyPa (initialized enabled : Bool) : BoardCode Unit :=
  modify fun board => { board with paInitialized := initialized, paEnabled := enabled }

def paServiceInit : BoardCode Bool := do
  let board ← get
  if board.paInitialized then
    return true
  else
    let configured : Bool ← call .gpioConfig
    if ¬ configured then
      modifyPa false false
      return false
    else
      let low : Bool ← call (.gpioSetLevel false)
      modifyPa low false
      return low

/-- `pa_service_enable` and `pa_service_disable`. -/
def paServiceSet (enabled : Bool) : BoardCode Bool := do
  let board ← get
  if ¬ board.paInitialized then
    return false
  else
    let set : Bool ← call (.gpioSetLevel enabled)
    if set then
      modifyPa board.paInitialized enabled
      return true
    else
      return false

def paServiceEnable : BoardCode Bool := paServiceSet true

def paServiceDisable : BoardCode Bool := paServiceSet false

def paServiceShutdown : BoardCode Bool := do
  let board ← get
  if ¬ board.paInitialized then
    return true
  else
    let low : Bool ← call (.gpioSetLevel false)
    if low then
      modifyPa false false
      return true
    else
      return false

end Services

end EspNp2.CodecLease.SharedI2c
