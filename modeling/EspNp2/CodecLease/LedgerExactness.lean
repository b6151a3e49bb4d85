import EspNp2.CodecLease.LeaseLifetime
import EspNp2.Library.WorldContract
import Mathlib.Order.Lattice.Nat

/-!
The ledger of the I2C bus against the world behind its callbacks. The world knows which buses
and which devices are alive; after every call the ledger agrees with it.
-/

namespace EspNp2.CodecLease.LedgerExactness

open Library.CallProgram
open Library.LabelledRun
open Library.WorldContract
open SharedI2c
open LeaseLifetime (ClientOp clientOps firstSlot_spec findSlot_spec)

section World

structure Device where
  token : Token
  bus : Token
  address : UInt8
deriving DecidableEq, Repr

/-- The buses and devices that are alive. `misused` notes a bus that is deleted while a device
is alive, a device for a bus that is not alive, and the deletion of what is not alive. -/
structure World where
  buses : Finset Token := ∅
  devices : Finset Device := ∅
  misused : Bool := false
deriving DecidableEq

def World.newBus (world : World) (bus : Token) : World :=
  { world with buses := insert bus world.buses }

def World.noteBusDeletion (world : World) (bus : Token) : World :=
  { world with misused := world.misused || !decide (world.devices = ∅ ∧ bus ∈ world.buses) }

def World.dropBus (world : World) (bus : Token) : World :=
  { world with buses := world.buses.erase bus }

def World.noteCreation (world : World) (bus : Token) : World :=
  { world with misused := world.misused || !decide (bus ∈ world.buses) }

def World.newDevice (world : World) (device : Device) : World :=
  { world with devices := insert device world.devices }

def World.noteDeletion (world : World) (token : Token) : World :=
  { world with misused := world.misused || !decide (∃ device ∈ world.devices,
    device.token = token) }

def World.dropDevice (world : World) (token : Token) : World :=
  { world with devices := world.devices.filter fun device => device.token ≠ token }

/-- A create that fails makes nothing; one that does not gives a token that is not zero and not
of a live object. A delete that fails leaves the object. -/
def answers (world : World) : (request : DriverCall) → DriverReply request → World → Prop
  | .newMasterBus, none, world' => world' = world
  | .newMasterBus, some token, world' =>
      token ≠ 0 ∧ token ∉ world.buses ∧ world' = world.newBus token
  | .delMasterBus bus, deleted, world' =>
      world' = if deleted then (world.noteBusDeletion bus).dropBus bus
        else world.noteBusDeletion bus
  | .addDevice _ bus _, none, world' => world' = world.noteCreation bus
  | .addDevice _ bus address, some token, world' =>
      token ≠ 0 ∧ (∀ device ∈ world.devices, device.token ≠ token) ∧
        world' = (world.noteCreation bus).newDevice ⟨token, bus, address⟩
  | .rmDevice _ token, deleted, world' =>
      world' = if deleted then (world.noteDeletion token).dropDevice token
        else world.noteDeletion token
  | _, _, world' => world' = world

/-- What holds of the world at any time. -/
structure Proper (world : World) : Prop where
  used : world.misused = false
  bus : ∀ bus ∈ world.buses, ∀ other ∈ world.buses, bus = other
  powered : ∀ device ∈ world.devices, device.bus ∈ world.buses

end World

section Exact

/-- The device that a lease stands for. -/
def deviceOf (ledger : Ledger) (lease : LeaseId) : Device where
  token := (ledger.leases lease).deviceToken
  bus := ledger.busToken
  address := (ledger.leases lease).address

def Registered (ledger : Ledger) (lease : LeaseId) : Prop :=
  ∃ slot, ledger.slots slot = some lease

def usedSlots (ledger : Ledger) : Finset (Fin 4) :=
  Finset.univ.filter fun slot => ledger.slots slot ≠ none

/-- The ledger agrees with the world. -/
structure Exact (world : World) (ledger : Ledger) : Prop where
  alive : ledger.busAlive = true → ledger.busToken ≠ 0 ∧ world.buses = {ledger.busToken}
  dead : ledger.busAlive = false → ledger.busToken = 0 ∧ world.buses = ∅
  powered : ∀ lease, Registered ledger lease → ledger.busAlive = true
  count : ledger.leaseCount = (usedSlots ledger).card
  once : ∀ slot slot' lease, ledger.slots slot = some lease → ledger.slots slot' = some lease →
    slot = slot'
  object : ∀ lease, Registered ledger lease →
    (ledger.leases lease).owned = true ∧ (ledger.leases lease).active = true
  idle : ∀ lease, ¬ Registered ledger lease →
    (ledger.leases lease).owned = false ∧ (ledger.leases lease).active = false
  address : ∀ lease lease', Registered ledger lease → Registered ledger lease' →
    (ledger.leases lease).address = (ledger.leases lease').address → lease = lease'
  token : ∀ lease lease', Registered ledger lease → Registered ledger lease' →
    (ledger.leases lease).deviceToken = (ledger.leases lease').deviceToken → lease = lease'
  devices : ∀ device, device ∈ world.devices ↔
    ∃ lease, Registered ledger lease ∧ deviceOf ledger lease = device

variable {world : World} {ledger : Ledger}

theorem exact_start : Exact {} {} where
  alive := nofun
  dead := fun _ => ⟨rfl, rfl⟩
  powered := by rintro lease ⟨slot, ⟨⟩⟩
  count := by decide
  once := nofun
  object := by rintro lease ⟨slot, ⟨⟩⟩
  idle := fun _ _ => ⟨rfl, rfl⟩
  address := by rintro lease lease' ⟨slot, ⟨⟩⟩
  token := by rintro lease lease' ⟨slot, ⟨⟩⟩
  devices := by
    intro device
    constructor
    · intro h
      cases h
    · rintro ⟨lease, ⟨slot, ⟨⟩⟩, -⟩

theorem mem_usedSlots {slot : Fin 4} :
    slot ∈ usedSlots ledger ↔ ∃ lease, ledger.slots slot = some lease := by
  rw [usedSlots, Finset.mem_filter, Option.ne_none_iff_exists']
  simp

/-- Every live device is the one of a registered lease, and of one lease only. -/
theorem Exact.card_devices (h : Exact world ledger) :
    world.devices.card = (usedSlots ledger).card := by
  have himage : world.devices = (usedSlots ledger).image fun slot =>
      deviceOf ledger ((ledger.slots slot).getD 0) := by
    ext device
    rw [h.devices, Finset.mem_image]
    constructor
    · rintro ⟨lease, ⟨slot, hslot⟩, rfl⟩
      refine ⟨slot, mem_usedSlots.mpr ⟨lease, hslot⟩, ?_⟩
      rw [hslot]
      rfl
    · rintro ⟨slot, hslot, rfl⟩
      obtain ⟨lease, hlease⟩ := mem_usedSlots.mp hslot
      refine ⟨lease, ⟨slot, hlease⟩, ?_⟩
      rw [hlease]
      rfl
  rw [himage]
  apply Finset.card_image_of_injOn
  intro slot hslot slot' hslot' hsame
  obtain ⟨lease, hlease⟩ := mem_usedSlots.mp (Finset.mem_coe.mp hslot)
  obtain ⟨lease', hlease'⟩ := mem_usedSlots.mp (Finset.mem_coe.mp hslot')
  have htoken : (ledger.leases lease).deviceToken = (ledger.leases lease').deviceToken := by
    have hdevice := congrArg Device.token hsame
    dsimp only at hdevice
    rw [hlease, hlease'] at hdevice
    exact hdevice
  have hsameLease := h.token lease lease' ⟨slot, hlease⟩ ⟨slot', hlease'⟩ htoken
  rw [← hsameLease] at hlease'
  exact h.once slot slot' lease hlease hlease'

theorem Exact.proper (h : Exact world ledger) (hused : world.misused = false) :
    Proper world where
  used := hused
  bus := by
    cases halive : ledger.busAlive with
    | true =>
        rw [(h.alive halive).2]
        intro bus hbus other hother
        rw [Finset.mem_singleton.mp hbus, Finset.mem_singleton.mp hother]
    | false =>
        rw [(h.dead halive).2]
        nofun
  powered := by
    intro device hdevice
    obtain ⟨lease, hlease, rfl⟩ := (h.devices device).mp hdevice
    rw [(h.alive (h.powered lease hlease)).2]
    exact Finset.mem_singleton_self _

end Exact

section Changes

variable {world : World} {ledger : Ledger}

/-- The bus is there, and the rest of the ledger is as it was. -/
theorem Exact.busCreated (h : Exact world ledger) (hdead : ledger.busAlive = false) {bus : Token}
    (hbus : bus ≠ 0) :
    Exact (world.newBus bus) { ledger with busToken := bus, busAlive := true } where
  alive := by
    intro _
    refine ⟨hbus, ?_⟩
    change insert bus world.buses = {bus}
    rw [(h.dead hdead).2]
    rfl
  dead := nofun
  powered := fun _ _ => rfl
  count := h.count
  once := h.once
  object := h.object
  idle := h.idle
  address := h.address
  token := h.token
  devices := by
    intro device
    rw [show (world.newBus bus).devices = world.devices from rfl, h.devices]
    constructor
    · rintro ⟨lease, hlease, -⟩
      have halive := h.powered lease hlease
      rw [hdead] at halive
      cases halive
    · rintro ⟨lease, hlease, -⟩
      have halive := h.powered lease hlease
      rw [hdead] at halive
      cases halive

theorem Exact.not_registered_of_count (h : Exact world ledger) (hcount : ledger.leaseCount = 0)
    (lease : LeaseId) : ¬ Registered ledger lease := by
  rintro ⟨slot, hslot⟩
  have hempty : usedSlots ledger = ∅ := by
    rw [← Finset.card_eq_zero, ← h.count, hcount]
  have hmem : slot ∈ usedSlots ledger := mem_usedSlots.mpr ⟨lease, hslot⟩
  rw [hempty] at hmem
  exact Finset.notMem_empty slot hmem

theorem Exact.devices_of_count (h : Exact world ledger) (hcount : ledger.leaseCount = 0) :
    world.devices = ∅ := by
  rw [← Finset.card_eq_zero, h.card_devices, ← h.count, hcount]

theorem Exact.busDeleted (h : Exact world ledger) (halive : ledger.busAlive = true)
    (hcount : ledger.leaseCount = 0) :
    Exact (world.dropBus ledger.busToken) { ledger with busToken := 0, busAlive := false } where
  alive := nofun
  dead := by
    intro _
    refine ⟨rfl, ?_⟩
    change world.buses.erase ledger.busToken = ∅
    rw [(h.alive halive).2, Finset.erase_singleton]
  powered := fun lease hlease => absurd hlease (h.not_registered_of_count hcount lease)
  count := h.count
  once := h.once
  object := h.object
  idle := h.idle
  address := h.address
  token := h.token
  devices := by
    intro device
    rw [show (world.dropBus ledger.busToken).devices = world.devices from rfl,
      h.devices_of_count hcount]
    constructor
    · intro hdevice
      exact absurd hdevice (Finset.notMem_empty device)
    · rintro ⟨lease, hlease, -⟩
      exact absurd hlease (h.not_registered_of_count hcount lease)

theorem ne_of_registered {lease other : LeaseId} (hother : Registered ledger other)
    (hfree : ¬ Registered ledger lease) : other ≠ lease := by
  rintro rfl
  exact hfree hother

theorem registered_register {slot : Fin 4} {lease other : LeaseId} {address : UInt8}
    {device : Token} (hslot : ledger.slots slot = none) :
    Registered (ledger.register slot lease address device) other ↔
      other = lease ∨ Registered ledger other := by
  constructor
  · rintro ⟨place, hplace⟩
    rw [Ledger.register] at hplace
    dsimp only at hplace
    rw [Function.update_apply] at hplace
    split at hplace
    · exact Or.inl (Option.some.inj hplace).symm
    · exact Or.inr ⟨place, hplace⟩
  · rintro (rfl | ⟨place, hplace⟩)
    · exact ⟨slot, Function.update_self slot _ _⟩
    · refine ⟨place, ?_⟩
      rw [Ledger.register]
      dsimp only
      rw [Function.update_of_ne]
      · exact hplace
      · rintro rfl
        rw [hslot] at hplace
        cases hplace

theorem leases_register_self {slot : Fin 4} {lease : LeaseId} {address : UInt8} {device : Token} :
    (ledger.register slot lease address device).leases lease =
      { owned := true, address := address, deviceToken := device, active := true } :=
  Function.update_self lease _ _

theorem leases_register_of_ne {slot : Fin 4} {lease other : LeaseId} {address : UInt8}
    {device : Token} (hother : other ≠ lease) :
    (ledger.register slot lease address device).leases other = ledger.leases other :=
  Function.update_of_ne hother _ _

theorem slots_register {slot place : Fin 4} {lease other : LeaseId} {address : UInt8}
    {device : Token}
    (h : (ledger.register slot lease address device).slots place = some other) :
    place = slot ∧ other = lease ∨ ledger.slots place = some other := by
  rw [Ledger.register] at h
  dsimp only at h
  rw [Function.update_apply] at h
  split at h
  · exact Or.inl ⟨‹_›, (Option.some.inj h).symm⟩
  · exact Or.inr h

theorem usedSlots_register {slot : Fin 4} {lease : LeaseId} {address : UInt8} {device : Token} :
    usedSlots (ledger.register slot lease address device) = insert slot (usedSlots ledger) := by
  ext place
  rw [Finset.mem_insert, mem_usedSlots, mem_usedSlots, Ledger.register]
  dsimp only
  rw [Function.update_apply]
  split
  · rename_i hplace
    simp [hplace]
  · rename_i hplace
    simp [hplace]

/-- A mark that sets the registered leases apart does so still when the new lease has another. -/
theorem apart_register {Mark : Type} {mark : Lease → Mark} {slot : Fin 4} {lease : LeaseId}
    {address : UInt8} {device : Token} (hslot : ledger.slots slot = none)
    (hfree : ¬ Registered ledger lease)
    (hnew : ∀ other, Registered ledger other →
      mark (ledger.leases other) ≠ mark ⟨true, address, device, true⟩)
    (hapart : ∀ other other', Registered ledger other → Registered ledger other' →
      mark (ledger.leases other) = mark (ledger.leases other') → other = other')
    {other other' : LeaseId}
    (hother : Registered (ledger.register slot lease address device) other)
    (hother' : Registered (ledger.register slot lease address device) other')
    (hsame : mark ((ledger.register slot lease address device).leases other) =
      mark ((ledger.register slot lease address device).leases other')) : other = other' := by
  rcases (registered_register hslot).mp hother with rfl | hold
  · rcases (registered_register hslot).mp hother' with rfl | hold'
    · rfl
    · rw [leases_register_self, leases_register_of_ne (ne_of_registered hold' hfree)] at hsame
      exact absurd hsame.symm (hnew other' hold')
  · rcases (registered_register hslot).mp hother' with rfl | hold'
    · rw [leases_register_self, leases_register_of_ne (ne_of_registered hold hfree)] at hsame
      exact absurd hsame (hnew other hold)
    · rw [leases_register_of_ne (ne_of_registered hold hfree),
        leases_register_of_ne (ne_of_registered hold' hfree)] at hsame
      exact hapart other other' hold hold' hsame

/-- The devices of the registered leases, and the new one. -/
theorem device_register {slot : Fin 4} {lease : LeaseId} {address : UInt8} {device : Token}
    {live : Device} (hslot : ledger.slots slot = none) (hfree : ¬ Registered ledger lease) :
    (∃ other, Registered (ledger.register slot lease address device) other ∧
      deviceOf (ledger.register slot lease address device) other = live) ↔
      live = ⟨device, ledger.busToken, address⟩ ∨
        ∃ other, Registered ledger other ∧ deviceOf ledger other = live := by
  have hold (other : LeaseId) (hother : Registered ledger other) :
      deviceOf (ledger.register slot lease address device) other = deviceOf ledger other := by
    rw [deviceOf, leases_register_of_ne (ne_of_registered hother hfree)]
    rfl
  have hnew : deviceOf (ledger.register slot lease address device) lease =
      ⟨device, ledger.busToken, address⟩ := by
    rw [deviceOf, leases_register_self]
    rfl
  constructor
  · rintro ⟨other, hother, rfl⟩
    rcases (registered_register hslot).mp hother with rfl | hother
    · exact Or.inl hnew
    · exact Or.inr ⟨other, hother, (hold other hother).symm⟩
  · rintro (rfl | ⟨other, hother, rfl⟩)
    · exact ⟨lease, (registered_register hslot).mpr (Or.inl rfl), hnew⟩
    · exact ⟨other, (registered_register hslot).mpr (Or.inr hother), hold other hother⟩

theorem Exact.registered (h : Exact world ledger) (halive : ledger.busAlive = true)
    {slot : Fin 4} {lease : LeaseId} {address : UInt8} {device : Token}
    (hslot : ledger.slots slot = none) (hfree : ¬ Registered ledger lease)
    (haddress : ∀ other, Registered ledger other → (ledger.leases other).address ≠ address)
    (hdevice : ∀ other ∈ world.devices, other.token ≠ device) :
    Exact (world.newDevice ⟨device, ledger.busToken, address⟩)
      (ledger.register slot lease address device) where
  alive := fun _ => h.alive halive
  dead := by
    intro hdead
    have hsame : ledger.busAlive = false := hdead
    rw [halive] at hsame
    cases hsame
  powered := fun _ _ => halive
  count := by
    have hnew : slot ∉ usedSlots ledger := by
      rw [mem_usedSlots, hslot]
      rintro ⟨_, hsome⟩
      cases hsome
    rw [usedSlots_register, Finset.card_insert_of_notMem hnew, ← h.count]
    rfl
  once := by
    intro place place' other hplace hplace'
    rcases slots_register hplace with ⟨rfl, rfl⟩ | hold
    · rcases slots_register hplace' with ⟨rfl, -⟩ | hold'
      · rfl
      · exact absurd ⟨place', hold'⟩ hfree
    · rcases slots_register hplace' with ⟨rfl, rfl⟩ | hold'
      · exact absurd ⟨place, hold⟩ hfree
      · exact h.once place place' other hold hold'
  object := by
    intro other hother
    rcases (registered_register hslot).mp hother with rfl | hold
    · rw [leases_register_self]
      exact ⟨rfl, rfl⟩
    · rw [leases_register_of_ne (ne_of_registered hold hfree)]
      exact h.object other hold
  idle := by
    intro other hother
    rw [registered_register hslot, not_or] at hother
    rw [leases_register_of_ne hother.1]
    exact h.idle other hother.2
  address := fun other other' hother hother' hsame =>
    apart_register hslot hfree haddress h.address hother hother' hsame
  token := by
    have hlive (other : LeaseId) (hold : Registered ledger other) :
        (ledger.leases other).deviceToken ≠ device :=
      hdevice (deviceOf ledger other) ((h.devices _).mpr ⟨other, hold, rfl⟩)
    exact fun other other' hother hother' hsame =>
      apart_register hslot hfree hlive h.token hother hother' hsame
  devices := by
    intro live
    change live ∈ insert _ world.devices ↔ _
    rw [Finset.mem_insert, h.devices, device_register hslot hfree]

theorem slots_unregister {slot place : Fin 4} {lease other : LeaseId} :
    (ledger.unregister slot lease).slots place = some other ↔
      place ≠ slot ∧ ledger.slots place = some other := by
  rw [Ledger.unregister]
  dsimp only
  rw [Function.update_apply]
  split
  · rename_i hplace
    simp [hplace]
  · rename_i hplace
    simp [hplace]

theorem leases_unregister_of_ne {slot : Fin 4} {lease other : LeaseId} (hother : other ≠ lease) :
    (ledger.unregister slot lease).leases other = ledger.leases other :=
  Function.update_of_ne hother _ _

/-- The lease of the slot is the one that is no longer registered. -/
theorem Exact.registered_unregister (h : Exact world ledger) {slot : Fin 4}
    {lease other : LeaseId} (hslot : ledger.slots slot = some lease) :
    Registered (ledger.unregister slot lease) other ↔
      other ≠ lease ∧ Registered ledger other := by
  constructor
  · rintro ⟨place, hplace⟩
    obtain ⟨hne, hold⟩ := slots_unregister.mp hplace
    refine ⟨?_, place, hold⟩
    rintro rfl
    exact hne (h.once place slot other hold hslot)
  · rintro ⟨hne, place, hplace⟩
    refine ⟨place, slots_unregister.mpr ⟨?_, hplace⟩⟩
    rintro rfl
    rw [hslot] at hplace
    exact hne (Option.some.inj hplace).symm

theorem Exact.unregistered (h : Exact world ledger) {slot : Fin 4} {lease : LeaseId}
    (hslot : ledger.slots slot = some lease) :
    Exact (world.dropDevice (ledger.leases lease).deviceToken)
      (ledger.unregister slot lease) where
  alive := h.alive
  dead := h.dead
  powered := fun other hother => h.powered other ((h.registered_unregister hslot).mp hother).2
  count := by
    have hused : usedSlots (ledger.unregister slot lease) = (usedSlots ledger).erase slot := by
      ext place
      rw [Finset.mem_erase, mem_usedSlots, mem_usedSlots]
      constructor
      · rintro ⟨other, hother⟩
        obtain ⟨hne, hold⟩ := slots_unregister.mp hother
        exact ⟨hne, other, hold⟩
      · rintro ⟨hne, other, hold⟩
        exact ⟨other, slots_unregister.mpr ⟨hne, hold⟩⟩
    rw [hused, Finset.card_erase_of_mem (mem_usedSlots.mpr ⟨lease, hslot⟩), ← h.count]
    rfl
  once := fun place place' other hplace hplace' =>
    h.once place place' other (slots_unregister.mp hplace).2 (slots_unregister.mp hplace').2
  object := by
    intro other hother
    obtain ⟨hne, hold⟩ := (h.registered_unregister hslot).mp hother
    rw [leases_unregister_of_ne hne]
    exact h.object other hold
  idle := by
    intro other hother
    by_cases hsame : other = lease
    · rw [hsame, Ledger.unregister]
      dsimp only
      rw [Function.update_self]
      exact ⟨rfl, rfl⟩
    · rw [leases_unregister_of_ne hsame]
      exact h.idle other fun hold => hother ((h.registered_unregister hslot).mpr ⟨hsame, hold⟩)
  address := by
    intro other other' hother hother' hsame
    obtain ⟨hne, hold⟩ := (h.registered_unregister hslot).mp hother
    obtain ⟨hne', hold'⟩ := (h.registered_unregister hslot).mp hother'
    rw [leases_unregister_of_ne hne, leases_unregister_of_ne hne'] at hsame
    exact h.address other other' hold hold' hsame
  token := by
    intro other other' hother hother' hsame
    obtain ⟨hne, hold⟩ := (h.registered_unregister hslot).mp hother
    obtain ⟨hne', hold'⟩ := (h.registered_unregister hslot).mp hother'
    rw [leases_unregister_of_ne hne, leases_unregister_of_ne hne'] at hsame
    exact h.token other other' hold hold' hsame
  devices := by
    intro device
    change device ∈ world.devices.filter _ ↔ _
    rw [Finset.mem_filter, h.devices]
    constructor
    · rintro ⟨⟨other, hother, rfl⟩, htoken⟩
      have hne : other ≠ lease := by
        rintro rfl
        exact htoken rfl
      refine ⟨other, (h.registered_unregister hslot).mpr ⟨hne, hother⟩, ?_⟩
      rw [deviceOf, leases_unregister_of_ne hne]
      rfl
    · rintro ⟨other, hother, rfl⟩
      obtain ⟨hne, hold⟩ := (h.registered_unregister hslot).mp hother
      have hdevice : deviceOf (ledger.unregister slot lease) other = deviceOf ledger other := by
        rw [deviceOf, leases_unregister_of_ne hne]
        rfl
      rw [hdevice]
      refine ⟨⟨other, hold, rfl⟩, fun htoken => hne ?_⟩
      exact h.token other lease hold ⟨slot, hslot⟩ htoken

end Changes

section Calls

variable {world : World} {board : Board}

/-- A call that is refused leaves the leases, their slots and the devices. It leaves the bus as
well, unless `acquire` has made the bus and cannot delete it. -/
structure Refused (world : World) (board : Board) (result : LeaseResult) (world' : World)
    (board' : Board) : Prop where
  slots : board'.ledger.slots = board.ledger.slots
  leases : board'.ledger.leases = board.ledger.leases
  count : board'.ledger.leaseCount = board.ledger.leaseCount
  devices : world'.devices = world.devices
  bus : (board'.ledger.busAlive = board.ledger.busAlive ∧
      board'.ledger.busToken = board.ledger.busToken ∧ world'.buses = world.buses) ∨
    result = .busDeleteFailed ∧ board.ledger.busAlive = false ∧ board'.ledger.busAlive = true

theorem refused_same (result : LeaseResult) : Refused world board result world board :=
  ⟨rfl, rfl, rfl, rfl, Or.inl ⟨rfl, rfl, rfl⟩⟩

/-- The bus of `acquire` is there; whether it was made for this call. -/
structure BusReady (world : World) (board : Board) (created : Bool) (world' : World)
    (board' : Board) : Prop where
  created : created = !board.ledger.busAlive
  exact : Exact world' board'.ledger
  alive : board'.ledger.busAlive = true
  slots : board'.ledger.slots = board.ledger.slots
  leases : board'.ledger.leases = board.ledger.leases
  count : board'.ledger.leaseCount = board.ledger.leaseCount
  devices : world'.devices = world.devices
  kept : board.ledger.busAlive = true →
    board'.ledger.busToken = board.ledger.busToken ∧ world'.buses = world.buses

def BusOutcome (world : World) (board : Board) (world' : World) :
    Option Bool → Board → Prop
  | none, board' => world' = world ∧ board' = board
  | some created, board' => BusReady world board created world' board'

/-- A new bus, or none. -/
theorem meets_newMasterBus (h : Exact world board.ledger) (hdead : board.ledger.busAlive = false) :
    Meets answers Proper (fun w s => w = world ∧ s = board) (call .newMasterBus)
      (fun w bus s => s = board ∧ match bus with
        | none => w = world
        | some token => token ≠ 0 ∧ w = world.newBus token) := by
  refine meets_perform ?_
  rintro w s reply w' hproper ⟨rfl, rfl⟩ hanswer
  cases reply with
  | none =>
      obtain rfl : w' = w := hanswer
      exact ⟨hproper, rfl, rfl⟩
  | some token =>
      obtain ⟨htoken, -, rfl⟩ := hanswer
      exact ⟨(h.busCreated hdead htoken).proper hproper.used, rfl, htoken, rfl⟩

theorem meets_ensureBus (h : Exact world board.ledger) :
    Meets answers Proper (fun w s => w = world ∧ s = board) ensureBus
      (fun w created s => BusOutcome world board w created s) := by
  refine meets_get_bind fun current => meets_ite (fun halive => ?_) fun hdead => ?_
  · apply meets_pure
    rintro w s ⟨⟨rfl, rfl⟩, rfl⟩
    refine ⟨?_, h, halive, rfl, rfl, rfl, rfl, fun _ => ⟨rfl, rfl⟩⟩
    rw [halive]
    rfl
  · refine meets_with fun hcurrent => ?_
    obtain rfl : board = current := hcurrent
    rw [Bool.not_eq_true] at hdead
    refine Meets.bind (meets_newMasterBus h hdead) fun bus => ?_
    cases bus with
    | none =>
        apply meets_pure
        rintro w s ⟨rfl, rfl⟩
        exact ⟨rfl, rfl⟩
    | some token =>
        refine meets_ite (fun hzero => ?_) fun _ => ?_
        · apply meets_pure
          rintro w s ⟨-, htoken, -⟩
          exact absurd hzero htoken
        · have hmodify : Meets answers Proper
              (fun w s => s = board ∧ token ≠ 0 ∧ w = world.newBus token)
              (modifyLedger fun ledger => { ledger with busToken := token, busAlive := true })
              (fun w _ s => BusReady world board true w s) := by
            apply meets_modify
            rintro w s ⟨rfl, htoken, rfl⟩
            refine ⟨?_, h.busCreated hdead htoken, rfl, rfl, rfl, rfl, rfl, fun halive => ?_⟩
            · rw [hdead]
              rfl
            · rw [hdead] at halive
              cases halive
          exact hmodify.bind fun _ => meets_pure fun w s hready => hready

theorem Exact.noteBusDeletion_eq (h : Exact world board.ledger)
    (halive : board.ledger.busAlive = true) (hcount : board.ledger.leaseCount = 0) :
    world.noteBusDeletion board.ledger.busToken = world := by
  have hbus : board.ledger.busToken ∈ world.buses := by
    rw [(h.alive halive).2]
    exact Finset.mem_singleton_self _
  rw [World.noteBusDeletion, decide_eq_true ⟨h.devices_of_count hcount, hbus⟩, Bool.not_true,
    Bool.or_false]

/-- The deletion of the bus when no lease is left. -/
theorem meets_delMasterBus (h : Exact world board.ledger) (halive : board.ledger.busAlive = true)
    (hcount : board.ledger.leaseCount = 0) :
    Meets answers Proper (fun w s => w = world ∧ s = board)
      (call (.delMasterBus board.ledger.busToken)) (fun w deleted s => s = board ∧
        w = if (deleted : Bool) then world.dropBus board.ledger.busToken else world) := by
  refine meets_perform ?_
  rintro w s deleted w' hproper ⟨rfl, rfl⟩ hanswer
  have hworld : w' = if (deleted : Bool) then w.dropBus s.ledger.busToken else w := by
    change w' = if (deleted : Bool) then _ else _ at hanswer
    rwa [h.noteBusDeletion_eq halive hcount] at hanswer
  refine ⟨?_, rfl, hworld⟩
  cases deleted with
  | true =>
      obtain rfl : w' = w.dropBus s.ledger.busToken := hworld
      exact (h.busDeleted halive hcount).proper hproper.used
  | false =>
      obtain rfl : w' = w := hworld
      exact hproper

theorem meets_dropBus (h : Exact world board.ledger) (halive : board.ledger.busAlive = true)
    (hcount : board.ledger.leaseCount = 0) :
    Meets answers Proper (fun w s => w = world ∧ s = board) dropBus (fun w result s =>
      result = .deviceCreateFailed ∧ w = world.dropBus board.ledger.busToken ∧
        s = { board with ledger := { board.ledger with busToken := 0, busAlive := false } } ∨
      result = .busDeleteFailed ∧ w = world ∧ s = board) := by
  refine meets_get_bind fun current => meets_with fun hcurrent => ?_
  obtain rfl : board = current := hcurrent
  refine Meets.bind (meets_delMasterBus h halive hcount) fun deleted => ?_
  refine meets_ite (fun hdeleted => ?_) fun hkept => ?_
  · have hmodify : Meets answers Proper
        (fun w s => s = board ∧
          w = if (deleted : Bool) then world.dropBus board.ledger.busToken else world)
        (modifyLedger fun ledger => { ledger with busToken := 0, busAlive := false })
        (fun w _ s => w = world.dropBus board.ledger.busToken ∧
          s = { board with ledger := { board.ledger with busToken := 0, busAlive := false } }) := by
      apply meets_modify
      rintro w s ⟨rfl, rfl⟩
      rw [if_pos hdeleted]
      exact ⟨rfl, rfl⟩
    refine hmodify.bind fun _ => meets_pure fun w s hdropped => ?_
    exact Or.inl ⟨rfl, hdropped⟩
  · apply meets_pure
    rintro w s ⟨rfl, rfl⟩
    rw [if_neg hkept]
    exact Or.inr ⟨rfl, rfl, rfl⟩

/-- What a call that returns `ok` has done. -/
def Accepted : ClientOp → World → Ledger → Prop
  | .acquire address lease, _, ledger =>
      Registered ledger lease ∧ (ledger.leases lease).address = address
  | .release lease, _, ledger => ¬ Registered ledger lease
  | .shutdown, world, _ => world.buses = ∅ ∧ world.devices = ∅

structure Outcome (op : ClientOp) (world : World) (board : Board) (world' : World)
    (result : LeaseResult) (board' : Board) : Prop where
  exact : Exact world' board'.ledger
  refused : result ≠ .ok → Refused world board result world' board'
  accepted : result = .ok → Accepted op world' board'.ledger

theorem outcome_refused {op : ClientOp} {result : LeaseResult} (h : Exact world board.ledger)
    (hresult : result ≠ .ok) : Outcome op world board world result board where
  exact := h
  refused := fun _ => refused_same result
  accepted := fun hok => absurd hok hresult

theorem meets_shutdown (h : Exact world board.ledger) :
    Meets answers Proper (fun w s => w = world ∧ s = board) shutdown
      (fun w result s => Outcome .shutdown world board w result s) := by
  refine meets_get_bind fun current => meets_with fun hcurrent => ?_
  obtain rfl : board = current := hcurrent
  refine meets_ite (fun _ => ?_) fun hcount => ?_
  · apply meets_pure
    rintro w s ⟨rfl, rfl⟩
    exact outcome_refused h nofun
  · rw [not_ne_iff] at hcount
    refine meets_ite (fun hdead => ?_) fun halive => ?_
    · rw [Bool.not_eq_true] at hdead
      apply meets_pure
      rintro w s ⟨rfl, rfl⟩
      exact ⟨h, fun hok => absurd rfl hok,
        fun _ => ⟨(h.dead hdead).2, h.devices_of_count hcount⟩⟩
    · rw [not_not] at halive
      refine Meets.bind (meets_delMasterBus h halive hcount) fun deleted => ?_
      refine meets_ite (fun hdeleted => ?_) fun hkept => ?_
      · have hmodify : Meets answers Proper
            (fun w s => s = board ∧
              w = if (deleted : Bool) then world.dropBus board.ledger.busToken else world)
            (modifyLedger fun ledger => { ledger with busToken := 0, busAlive := false })
            (fun w _ s => Outcome .shutdown world board w .ok s) := by
          apply meets_modify
          rintro w s ⟨rfl, rfl⟩
          rw [if_pos hdeleted]
          have hdropped := h.busDeleted halive hcount
          exact ⟨hdropped, fun hok => absurd rfl hok,
            fun _ => ⟨(hdropped.dead rfl).2, h.devices_of_count hcount⟩⟩
        exact hmodify.bind fun _ => meets_pure fun w s houtcome => houtcome
      · apply meets_pure
        rintro w s ⟨rfl, rfl⟩
        rw [if_neg hkept]
        exact outcome_refused h nofun

theorem Exact.noteDeletion_eq (h : Exact world board.ledger) {lease : LeaseId}
    (hlease : Registered board.ledger lease) :
    world.noteDeletion (board.ledger.leases lease).deviceToken = world := by
  have hdevice : ∃ device ∈ world.devices,
      device.token = (board.ledger.leases lease).deviceToken :=
    ⟨deviceOf board.ledger lease, (h.devices _).mpr ⟨lease, hlease, rfl⟩, rfl⟩
  rw [World.noteDeletion, decide_eq_true hdevice, Bool.not_true, Bool.or_false]

/-- A slot is found for a registered lease only. -/
theorem meets_release (h : Exact world board.ledger) (lease : LeaseId) :
    Meets answers Proper (fun w s => w = world ∧ s = board) (release lease)
      (fun w result s => Outcome (.release lease) world board w result s) := by
  refine meets_get_bind fun current => meets_with fun hcurrent => ?_
  obtain rfl : board = current := hcurrent
  cases hfound : board.ledger.findSlot lease with
  | none =>
      apply meets_pure
      rintro w s ⟨rfl, rfl⟩
      exact outcome_refused h nofun
  | some slot =>
      have hslot := findSlot_spec hfound
      have hcall : Meets answers Proper (fun w s => w = world ∧ s = board)
          (call (.rmDevice lease (board.ledger.leases lease).deviceToken))
          (fun w deleted s => s = board ∧ w = if (deleted : Bool) then
            world.dropDevice (board.ledger.leases lease).deviceToken else world) := by
        refine meets_perform ?_
        rintro w s deleted w' hproper ⟨rfl, rfl⟩ hanswer
        have hworld : w' = if (deleted : Bool) then
            w.dropDevice (s.ledger.leases lease).deviceToken else w := by
          change w' = if (deleted : Bool) then _ else _ at hanswer
          rwa [h.noteDeletion_eq ⟨slot, hslot⟩] at hanswer
        refine ⟨?_, rfl, hworld⟩
        cases deleted with
        | true =>
            obtain rfl : w' = w.dropDevice (s.ledger.leases lease).deviceToken := hworld
            exact (h.unregistered hslot).proper hproper.used
        | false =>
            obtain rfl : w' = w := hworld
            exact hproper
      refine Meets.bind hcall fun deleted => ?_
      refine meets_ite (fun hdeleted => ?_) fun hkept => ?_
      · have hmodify : Meets answers Proper
            (fun w s => s = board ∧ w = if (deleted : Bool) then
              world.dropDevice (board.ledger.leases lease).deviceToken else world)
            (modifyLedger fun ledger => ledger.unregister slot lease)
            (fun w _ s => Outcome (.release lease) world board w .ok s) := by
          apply meets_modify
          rintro w s ⟨rfl, rfl⟩
          rw [if_pos hdeleted]
          refine ⟨h.unregistered hslot, fun hok => absurd rfl hok, fun _ hlease => ?_⟩
          exact ((h.registered_unregister hslot).mp hlease).1 rfl
        exact hmodify.bind fun _ => meets_pure fun w s houtcome => houtcome
      · apply meets_pure
        rintro w s ⟨rfl, rfl⟩
        rw [if_neg hkept]
        exact outcome_refused h nofun

theorem address_ne_of_hasAddress {ledger : Ledger} {address : UInt8}
    (h : ¬ ledger.hasAddress address) {other : LeaseId} (hother : Registered ledger other) :
    (ledger.leases other).address ≠ address := by
  obtain ⟨slot, hslot⟩ := hother
  intro hsame
  apply h
  rw [Ledger.hasAddress, List.any_eq_true]
  refine ⟨slot, List.mem_finRange slot, ?_⟩
  rw [hslot]
  exact decide_eq_true hsame

theorem World.noteCreation_eq {bus : Token} (h : bus ∈ world.buses) :
    world.noteCreation bus = world := by
  rw [World.noteCreation, decide_eq_true h, Bool.not_true, Bool.or_false]

/-- The device of `acquire`, on a bus that is ready. -/
theorem meets_addDevice {w₁ : World} {board₁ : Board} {created : Bool} {slot : Fin 4}
    {address : UInt8} {lease : LeaseId} (hready : BusReady world board created w₁ board₁)
    (hslot : board.ledger.slots slot = none) (hfree : ¬ Registered board.ledger lease)
    (haddress : ∀ other, Registered board.ledger other →
      (board.ledger.leases other).address ≠ address) :
    Meets answers Proper (fun w s => w = w₁ ∧ s = board₁)
      (call (.addDevice lease board₁.ledger.busToken address)) (fun w device s => s = board₁ ∧
        ((device : Option Token).getD 0 = 0 ∧ w = w₁ ∨
          (device : Option Token).getD 0 ≠ 0 ∧
          Exact w (board₁.ledger.register slot lease address
            ((device : Option Token).getD 0)))) := by
  have hbus : board₁.ledger.busToken ∈ w₁.buses := by
    rw [(hready.exact.alive hready.alive).2]
    exact Finset.mem_singleton_self _
  refine meets_perform ?_
  rintro w s reply w' hproper ⟨rfl, rfl⟩ hanswer
  cases reply with
  | none =>
      have hworld : w' = w.noteCreation s.ledger.busToken := hanswer
      rw [World.noteCreation_eq hbus] at hworld
      rw [hworld]
      exact ⟨hproper, rfl, Or.inl ⟨rfl, rfl⟩⟩
  | some token =>
      obtain ⟨htoken, hfresh, hworld⟩ := hanswer
      rw [World.noteCreation_eq hbus] at hworld
      have hexact : Exact w' (s.ledger.register slot lease address token) := by
        rw [hworld]
        refine hready.exact.registered hready.alive ?_ ?_ ?_ hfresh
        · rw [hready.slots, hslot]
        · rw [Registered, hready.slots]
          exact hfree
        · intro other hother
          rw [Registered, hready.slots] at hother
          rw [hready.leases]
          exact haddress other hother
      have hused : w'.misused = false := by
        rw [hworld]
        exact hproper.used
      exact ⟨hexact.proper hused, rfl, Or.inr ⟨htoken, hexact⟩⟩

/-- A bus that was made is dropped again; one that was there stays. -/
theorem BusReady.refused {created : Bool} {w₁ : World} {board₁ : Board}
    (h : BusReady world board created w₁ board₁) (hkept : created = false)
    (result : LeaseResult) : Refused world board result w₁ board₁ := by
  have halive : board.ledger.busAlive = true := by
    have hcreated := h.created
    rw [hkept] at hcreated
    cases hboard : board.ledger.busAlive with
    | true => rfl
    | false =>
        rw [hboard] at hcreated
        cases hcreated
  refine ⟨h.slots, h.leases, h.count, h.devices, Or.inl ⟨?_, h.kept halive⟩⟩
  rw [h.alive, halive]

/-- The rest of `acquire` when the bus is ready. -/
def createDevice (address : UInt8) (lease : LeaseId) (slot : Fin 4) (created : Bool) :
    BoardCode LeaseResult := do
  let board ← get
  let device : Option Token ← call (.addDevice lease board.ledger.busToken address)
  if device.getD 0 = 0 then
    if created then dropBus else return .deviceCreateFailed
  else
    modifyLedger fun ledger => ledger.register slot lease address (device.getD 0)
    return .ok

theorem meets_createDevice (h : Exact world board.ledger) {w₁ : World} {board₁ : Board}
    {created : Bool} {slot : Fin 4} {address : UInt8} {lease : LeaseId}
    (hready : BusReady world board created w₁ board₁)
    (hslot : board.ledger.slots slot = none) (hfree : ¬ Registered board.ledger lease)
    (haddress : ∀ other, Registered board.ledger other →
      (board.ledger.leases other).address ≠ address) :
    Meets answers Proper (fun w s => w = w₁ ∧ s = board₁) (createDevice address lease slot created)
      (fun w result s => Outcome (.acquire address lease) world board w result s) := by
  refine meets_get_bind fun current => meets_with fun hcurrent => ?_
  obtain rfl : board₁ = current := hcurrent
  refine Meets.bind (meets_addDevice hready hslot hfree haddress) fun device => ?_
  refine meets_ite (fun hnone => ?_) fun hsome => ?_
  · have hsame : ∀ w s, (s = board₁ ∧ (device.getD 0 = 0 ∧ w = w₁ ∨ device.getD 0 ≠ 0 ∧
        Exact w (board₁.ledger.register slot lease address (device.getD 0)))) →
        w = w₁ ∧ s = board₁ := by
      rintro w s ⟨rfl, ⟨-, rfl⟩ | ⟨hdevice, -⟩⟩
      · exact ⟨rfl, rfl⟩
      · exact absurd hnone hdevice
    refine meets_before ?_ hsame
    refine meets_ite (fun hcreated => ?_) fun hkept => ?_
    · have hdead : board.ledger.busAlive = false := by
        have hflag := hready.created
        rw [hcreated] at hflag
        cases halive : board.ledger.busAlive with
        | true =>
            rw [halive] at hflag
            cases hflag
        | false => rfl
      have hnobody : board.ledger.leaseCount = 0 := by
        rw [h.count, Finset.card_eq_zero, Finset.eq_empty_iff_forall_notMem]
        intro place hplace
        obtain ⟨other, hother⟩ := mem_usedSlots.mp hplace
        have halive := h.powered other ⟨place, hother⟩
        rw [hdead] at halive
        cases halive
      have hcount : board₁.ledger.leaseCount = 0 := by
        rw [hready.count, hnobody]
      refine (meets_dropBus hready.exact hready.alive hcount).mono ?_
      rintro w result s (⟨rfl, rfl, rfl⟩ | ⟨rfl, rfl, rfl⟩)
      · have hdropped := hready.exact.busDeleted hready.alive hcount
        refine ⟨hdropped, fun _ => ⟨hready.slots, hready.leases, hready.count, hready.devices,
          Or.inl ⟨hdead.symm, (h.dead hdead).1.symm, ?_⟩⟩, nofun⟩
        rw [(hdropped.dead rfl).2, (h.dead hdead).2]
      · exact ⟨hready.exact, fun _ => ⟨hready.slots, hready.leases, hready.count, hready.devices,
          Or.inr ⟨rfl, hdead, hready.alive⟩⟩, nofun⟩
    · apply meets_pure
      rintro w s ⟨rfl, rfl⟩
      rw [Bool.not_eq_true] at hkept
      exact ⟨hready.exact, fun _ => hready.refused hkept _, nofun⟩
  · have hmodify : Meets answers Proper
        (fun w s => s = board₁ ∧ (device.getD 0 = 0 ∧ w = w₁ ∨ device.getD 0 ≠ 0 ∧
          Exact w (board₁.ledger.register slot lease address (device.getD 0))))
        (modifyLedger fun ledger => ledger.register slot lease address (device.getD 0))
        (fun w _ s => Outcome (.acquire address lease) world board w .ok s) := by
      apply meets_modify
      rintro w s ⟨rfl, ⟨hdevice, -⟩ | ⟨-, hexact⟩⟩
      · exact absurd hdevice hsome
      · refine ⟨hexact, fun hok => absurd rfl hok, fun _ => ⟨⟨slot, ?_⟩, ?_⟩⟩
        · exact Function.update_self slot _ _
        · exact congrArg Lease.address leases_register_self
    exact hmodify.bind fun _ => meets_pure fun w s houtcome => houtcome

theorem meets_acquire (h : Exact world board.ledger) (address : UInt8) (lease : LeaseId) :
    Meets answers Proper (fun w s => w = world ∧ s = board) (acquire address lease)
      (fun w result s => Outcome (.acquire address lease) world board w result s) := by
  have hrefuse (result : LeaseResult) (hresult : result ≠ .ok) :
      Meets answers Proper (fun w s => w = world ∧ s = board)
        (pure result : BoardCode LeaseResult)
        (fun w result s => Outcome (.acquire address lease) world board w result s) := by
    apply meets_pure
    rintro w s ⟨rfl, rfl⟩
    exact outcome_refused h hresult
  refine meets_get_bind fun current => meets_with fun hcurrent => ?_
  obtain rfl : board = current := hcurrent
  refine meets_ite (fun _ => hrefuse _ nofun) fun hinactive => ?_
  refine meets_ite (fun _ => hrefuse _ nofun) fun haddress => ?_
  cases hfirst : board.ledger.firstSlot none with
  | none => exact hrefuse _ nofun
  | some slot =>
      have hslot := firstSlot_spec hfirst
      have hfree : ¬ Registered board.ledger lease :=
        fun hlease => hinactive (Or.inl (h.object lease hlease).2)
      refine Meets.bind (meets_ensureBus h) fun created => ?_
      cases created with
      | none =>
          refine meets_before (hrefuse _ nofun) ?_
          rintro w s ⟨rfl, rfl⟩
          exact ⟨rfl, rfl⟩
      | some created =>
          intro trace w₁ board₁ hproper hready
          change BusReady world board created w₁ board₁ at hready
          refine meets_createDevice h hready hslot hfree (fun other hother => ?_) trace w₁ board₁
            hproper ⟨rfl, rfl⟩
          exact address_ne_of_hasAddress haddress hother

end Calls

section Sequences

theorem meets_code {world : World} {board : Board} (h : Exact world board.ledger) (op : ClientOp) :
    Meets answers Proper (fun w s => w = world ∧ s = board) op.code
      (fun w result s => Outcome op world board w result s) := by
  cases op with
  | acquire address lease => exact meets_acquire h address lease
  | release lease => exact meets_release h lease
  | shutdown => exact meets_shutdown h

theorem meets_clientOps (ops : List ClientOp) :
    Meets answers Proper (fun w s => Exact w s.ledger) (clientOps ops)
      (fun w _ s => Exact w s.ledger) := by
  induction ops with
  | nil => exact meets_pure fun w s h => h
  | cons op ops ih =>
      have hop : Meets answers Proper (fun w s => Exact w s.ledger) op.code
          (fun w _ s => Exact w s.ledger) := by
        intro trace w s hproper hexact
        have hcode : Meets answers Proper (fun w' s' => w' = w ∧ s' = s) op.code
            (fun w' _ s' => Exact w' s'.ledger) :=
          (meets_code hexact op).mono fun w' result s' houtcome => houtcome.exact
        exact hcode trace w s hproper ⟨rfl, rfl⟩
      exact hop.bind fun _ => ih

theorem proper_start : Proper {} where
  used := rfl
  bus := nofun
  powered := nofun

/-- At every stop of every sequence of calls the world is used properly; when the calls have
returned the ledger agrees with it, and so does every next call. -/
theorem ledger_agrees_with_world (ops : List ClientOp) (labels : List DriverLabel)
    (rest : Program DriverCall DriverReply (Unit × Board)) (world : World)
    (hrun : Run (Step answers) (clientOps ops {}, {}) labels (rest, world)) :
    Proper world ∧ ∀ board, rest = .done ((), board) →
      Exact world board.ledger ∧ world.devices.card = board.ledger.leaseCount ∧
      ∀ (op : ClientOp) (labels' : List DriverLabel) (result : LeaseResult) (board' : Board)
        (world' : World),
        Run (Step answers) (op.code board, world) labels' (.done (result, board'), world') →
        Outcome op world board world' result board' := by
  have hmeets := meets_clientOps ops
  have hproper := hmeets.stopped proper_start exact_start hrun
  refine ⟨hproper, ?_⟩
  rintro board rfl
  have hexact := hmeets.result proper_start exact_start hrun
  refine ⟨hexact, hexact.card_devices.trans hexact.count.symm, ?_⟩
  intro op labels' result board' world' hcall
  exact (meets_code hexact op).result hproper ⟨rfl, rfl⟩ hcall

/-- A driver whose calls are all successful. -/
def serve (world : World) : (request : DriverCall) → DriverReply request × World
  | .newMasterBus =>
      let token := world.buses.sup id + 1
      (some token, world.newBus token)
  | .delMasterBus bus => (true, (world.noteBusDeletion bus).dropBus bus)
  | .addDevice _ bus address =>
      let token := world.devices.sup Device.token + 1
      (some token, (world.noteCreation bus).newDevice ⟨token, bus, address⟩)
  | .rmDevice _ token => (true, (world.noteDeletion token).dropDevice token)
  | .transmit _ _ => (true, world)
  | .transmitReceive _ _ => (some 0, world)
  | .gpioConfig => (true, world)
  | .gpioSetLevel _ => (true, world)
  | .i2sNewChannel => (true, world)
  | .i2sInitStdMode => (true, world)
  | .i2sEnable => (true, world)
  | .i2sDisable => (true, world)
  | .i2sDelChannel => (true, world)
  | .i2sRegisterCallbacks => (true, world)
  | .i2sPreload bytes => ((true, bytes), world)
  | .i2sWrite bytes => ((true, bytes), world)

theorem serve_answers (world : World) (request : DriverCall) :
    answers world request (serve world request).1 (serve world request).2 := by
  cases request with
  | newMasterBus =>
      refine ⟨Nat.succ_ne_zero _, fun hmem => ?_, rfl⟩
      exact absurd (Finset.le_sup hmem : id _ ≤ world.buses.sup id) (Nat.not_succ_le_self _)
  | addDevice lease bus address =>
      refine ⟨Nat.succ_ne_zero _, fun device hmem hsame => ?_, rfl⟩
      have hle : device.token ≤ world.devices.sup Device.token := Finset.le_sup hmem
      rw [hsame] at hle
      exact absurd hle (Nat.not_succ_le_self _)
  | _ => rfl

/-- Two clients, the first of which releases its lease. -/
def twoClients : List ClientOp := [.acquire 0x45 1, .acquire 0x18 2, .release 1]

theorem ledger_agrees_with_world_twoClients :
    ∃ (labels : List DriverLabel) (board : Board) (world : World),
      Run (Step answers) (clientOps twoClients {}, {}) labels (.done ((), board), world) ∧
      Exact world board.ledger ∧ world.devices.card = 1 ∧ board.ledger.leaseCount = 1 := by
  have hvalue : (execute serve 9 (clientOps twoClients {}, ({} : World))).2.1.value?.isSome =
    true := by
    decide +kernel
  obtain ⟨⟨_, board⟩, hdone⟩ := Option.isSome_iff_exists.mp hvalue
  have hrun := execute_result answers serve serve_answers hdone
  have hagrees := (ledger_agrees_with_world twoClients _ _ _ hrun).2 board rfl
  have hcard : (execute serve 9 (clientOps twoClients {}, ({} : World))).2.2.devices.card = 1 := by
    decide +kernel
  exact ⟨_, board, _, hrun, hagrees.1, hcard, hagrees.2.1.symm.trans hcard⟩

end Sequences

end EspNp2.CodecLease.LedgerExactness
