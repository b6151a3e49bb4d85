import Mathlib.Logic.Function.Basic
import Mathlib.Data.List.FinRange
import EspNp2.KeyboardInput.KeyMapping

/-!
The ownership engine of the keyboard input layer.  Up to four sources hold keys; each
frontend key carries the number of its owners, and the sink hears of a key when the first
owner arrives and when the last one leaves.  `SinkCall` records the calls of the sink.
-/

namespace EspNp2.KeyboardInput.Ownership

open KeyMapping

def maxActiveSources : Nat := 4

inductive ShiftMode where
  | collapsed
  | separate
deriving DecidableEq, Repr

inductive EventResult where
  | injected
  | accepted
  | duplicate
  | invalid
  | quarantined
  | sourceCapacityExceeded
deriving DecidableEq, Repr

inductive InputState where
  | ready
  | desynchronized
deriving DecidableEq, Repr

inductive Action where
  | press
  | release
deriving DecidableEq, Repr

def Action.value : Action → UInt8
  | .press => 0
  | .release => 1

structure SourceId where
  value : UInt8 := 0
deriving DecidableEq, Repr

def SourceId.valid (source : SourceId) : Bool :=
  source.value ≠ 0

/-- A producer's edge.  Key and action are the raw bytes of their enumerations, which may
name no key and no action. -/
structure Event where
  source : SourceId
  key : UInt8
  action : UInt8
deriving DecidableEq, Repr

/-- The edge of a named key. -/
def Event.edge (source : SourceId) (key : Key) (action : Action) : Event :=
  ⟨source, key.value, action.value⟩

@[simp] theorem Event.edge_key (source : SourceId) (key : Key) (action : Action) :
    (Event.edge source key action).key = key.value :=
  rfl

@[simp] theorem Event.edge_action (source : SourceId) (key : Key) (action : Action) :
    (Event.edge source key action).action = action.value :=
  rfl

structure OwnershipCounters where
  acceptedEvents : UInt32 := 0
  pressInjected : UInt32 := 0
  releaseInjected : UInt32 := 0
  duplicateSuppressed : UInt32 := 0
  invalidRejected : UInt32 := 0
  sourceDisconnects : UInt32 := 0
  sourceCapacityFailures : UInt32 := 0
  blockedEvents : UInt32 := 0
  globalRecoveries : UInt32 := 0
deriving DecidableEq, Repr

inductive SinkCall where
  | press (key : FrontendKeyId)
  | release (key : FrontendKeyId)
  | allRelease
deriving DecidableEq, Repr

/-- A source's slot.  The held bitmap is read by key, and the effective ids, which the
source stores as bytes, by the id they name; the zero byte is the id of `escape`. -/
structure SourceSlot where
  active : Bool := false
  id : SourceId := {}
  held : Key → Bool := fun _ => false
  effectiveIds : Key → FrontendKeyId := fun _ => .escape

structure OwnershipEngine where
  shiftMode : ShiftMode := .collapsed
  state : InputState := .ready
  recoveryDone : Bool := false
  sources : Fin maxActiveSources → SourceSlot := fun _ => {}
  ownerCounts : FrontendKeyId → UInt16 := fun _ => 0
  counters : OwnershipCounters := {}
  calls : List SinkCall := []

def validAction (action : UInt8) : Bool :=
  action = Action.press.value || action = Action.release.value

def isValidEvent (event : Event) : Bool :=
  event.source.valid && event.key ≠ Key.unknown.value && event.key < Key.count.value &&
    validAction event.action

def isToggleKey (key : Key) : Bool :=
  key = .capsLock || key = .kana

def effectiveFrontendKeyId (key : FrontendKeyId) (mode : ShiftMode) : FrontendKeyId :=
  if mode = .collapsed ∧ key = .rightShift then .leftShift else key

def hasHeldKeys (slot : SourceSlot) : Bool :=
  keys.any slot.held

namespace OwnershipEngine

variable (engine : OwnershipEngine)

def findSource (source : SourceId) : Option (Fin maxActiveSources) :=
  (List.finRange maxActiveSources).find? fun i =>
    (engine.sources i).active && (engine.sources i).id = source

def freeSlot : Option (Fin maxActiveSources) :=
  (List.finRange maxActiveSources).find? fun i => !(engine.sources i).active

def setSlot (i : Fin maxActiveSources) (slot : SourceSlot) : OwnershipEngine :=
  { engine with sources := Function.update engine.sources i slot }

@[simp] theorem setSlot_calls (i : Fin maxActiveSources) (slot : SourceSlot) :
    (engine.setSlot i slot).calls = engine.calls :=
  rfl

def setCount (key : FrontendKeyId) (count : UInt16) : OwnershipEngine :=
  { engine with ownerCounts := Function.update engine.ownerCounts key count }

def count (update : OwnershipCounters → OwnershipCounters) : OwnershipEngine :=
  { engine with counters := update engine.counters }

def allocateSource (source : SourceId) : Option (Fin maxActiveSources × OwnershipEngine) :=
  engine.freeSlot.map fun i => (i, engine.setSlot i { active := true, id := source })

def clearState : OwnershipEngine :=
  { engine with sources := fun _ => {}, ownerCounts := fun _ => 0 }

def pressSink (key : FrontendKeyId) : OwnershipEngine :=
  { engine with
    calls := engine.calls ++ [.press key]
    counters := { engine.counters with pressInjected := engine.counters.pressInjected + 1 } }

def releaseSink (key : FrontendKeyId) : OwnershipEngine :=
  { engine with
    calls := engine.calls ++ [.release key]
    counters := { engine.counters with releaseInjected := engine.counters.releaseInjected + 1 } }

def recoverySink : OwnershipEngine :=
  { engine with
    calls := engine.calls ++ [.allRelease]
    counters := { engine.counters with globalRecoveries := engine.counters.globalRecoveries + 1 } }

/-- One more owner of a momentary key; the first one presses it. -/
def addOwner (key : FrontendKeyId) : OwnershipEngine :=
  let pressed := if engine.ownerCounts key = 0 then engine.pressSink key else engine
  pressed.setCount key (pressed.ownerCounts key + 1)

/-- One owner less; the last one releases the key. -/
def dropOwner (key : FrontendKeyId) : OwnershipEngine :=
  if 0 < engine.ownerCounts key then
    let dropped := engine.setCount key (engine.ownerCounts key - 1)
    if dropped.ownerCounts key = 0 then dropped.releaseSink key else dropped
  else
    engine

/-- The held bit of a key is set and the id it was pressed under is remembered. -/
def takeKey (i : Fin maxActiveSources) (key : Key) (effective : FrontendKeyId) :
    OwnershipEngine :=
  let slot := engine.sources i
  engine.setSlot i { slot with
    held := Function.update slot.held key true
    effectiveIds := Function.update slot.effectiveIds key effective }

/-- The held bit of a key is cleared with the id it was pressed under. -/
def leaveKey (i : Fin maxActiveSources) (key : Key) : OwnershipEngine :=
  let slot := engine.sources i
  engine.setSlot i { slot with
    held := Function.update slot.held key false
    effectiveIds := Function.update slot.effectiveIds key .escape }

/-- Gives up a held key: its bit goes, and a momentary key loses an owner under the id it
was pressed under. -/
def giveUp (i : Fin maxActiveSources) (key : Key) : OwnershipEngine :=
  let heldEffective := (engine.sources i).effectiveIds key
  let left := engine.leaveKey i key
  if isToggleKey key then left else left.dropOwner heldEffective

def countDuplicate : OwnershipEngine :=
  engine.count fun c => { c with duplicateSuppressed := c.duplicateSuppressed + 1 }

def countAccepted : OwnershipEngine :=
  engine.count fun c => { c with acceptedEvents := c.acceptedEvents + 1 }

def countInvalid : OwnershipEngine :=
  engine.count fun c => { c with invalidRejected := c.invalidRejected + 1 }

/-- The press branch of `process`, once the source's slot is known. -/
def pressHeld (i : Fin maxActiveSources) (key : Key) (effective : FrontendKeyId) :
    EventResult × OwnershipEngine :=
  if (engine.sources i).held key then
    (.duplicate, engine.countDuplicate)
  else
    let taken := (engine.takeKey i key effective).countAccepted
    if isToggleKey key then
      (.injected, taken.pressSink effective)
    else
      let owned := taken.addOwner effective
      (if owned.ownerCounts effective = 1 then .injected else .accepted, owned)

def processPress (source : SourceId) (key : Key) (effective : FrontendKeyId) :
    EventResult × OwnershipEngine :=
  match engine.findSource source with
  | some i => engine.pressHeld i key effective
  | none =>
      match engine.allocateSource source with
      | some (i, allocated) => allocated.pressHeld i key effective
      | none =>
          (.sourceCapacityExceeded, { engine with
            state := .desynchronized
            counters := { engine.counters with
              sourceCapacityFailures := engine.counters.sourceCapacityFailures + 1 } })

def processRelease (source : SourceId) (key : Key) : EventResult × OwnershipEngine :=
  match engine.findSource source with
  | some i =>
      if (engine.sources i).held key then
        let left := engine.countAccepted.giveUp i key
        (.accepted, if hasHeldKeys (left.sources i) then left else left.setSlot i {})
      else
        (.duplicate, engine.countDuplicate)
  | none => (.duplicate, engine.countDuplicate)

def process (event : Event) : EventResult × OwnershipEngine :=
  if engine.state = .desynchronized then
    (.quarantined, engine.count fun c => { c with blockedEvents := c.blockedEvents + 1 })
  else if !isValidEvent event then
    (.invalid, engine.countInvalid)
  else
    match toFrontendKeyId (Key.ofValue event.key) with
    | none => (.invalid, engine.countInvalid)
    | some mapped =>
        if event.action = Action.press.value then
          engine.processPress event.source (Key.ofValue event.key)
            (effectiveFrontendKeyId mapped engine.shiftMode)
        else
          engine.processRelease event.source (Key.ofValue event.key)

/-- One round of the loop of `disconnectSource`. -/
def disconnectKey (i : Fin maxActiveSources) (key : Key) : OwnershipEngine :=
  if (engine.sources i).held key then engine.giveUp i key else engine

/-- The loop of `disconnectSource` over a list of keys. -/
def disconnectKeys (i : Fin maxActiveSources) (list : List Key) : OwnershipEngine :=
  list.foldl (fun engine key => engine.disconnectKey i key) engine

def disconnectSource (source : SourceId) : Bool × OwnershipEngine :=
  if !source.valid then
    (false, engine.countInvalid)
  else
    let counted := engine.count fun c => { c with sourceDisconnects := c.sourceDisconnects + 1 }
    match engine.findSource source with
    | none => (false, counted)
    | some i =>
        (true, (counted.disconnectKeys i properKeys).setSlot i {})

def setShiftMode (mode : ShiftMode) : OwnershipEngine :=
  { engine with shiftMode := mode }

def emergencyRecover : Bool × OwnershipEngine :=
  if engine.recoveryDone then
    (false, engine)
  else
    (true, { engine.clearState with state := .desynchronized, recoveryDone := true }.recoverySink)

def rearm : Bool × OwnershipEngine :=
  if engine.state ≠ .desynchronized ∨ engine.recoveryDone = false then
    (false, engine)
  else
    (true, { engine.clearState with state := .ready, recoveryDone := false })

def discardWithoutInjection : OwnershipEngine :=
  { engine.clearState with state := .ready, recoveryDone := false }

end OwnershipEngine

end EspNp2.KeyboardInput.Ownership
