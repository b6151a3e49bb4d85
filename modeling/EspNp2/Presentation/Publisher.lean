import EspNp2.Library.Concurrent
import EspNp2.Presentation.FrameSource

/-!
The publisher of frames: the emulator submits them and the display acquires and releases them.
Every access of a slot state and every copied row is a step of its own. Each party makes one call
after the other, in whatever order the environment asks for them.
-/

namespace EspNp2.Presentation.Publisher

open EspNp2.Library.Concurrent
open EspNp2.Library.Overwriting
open FrameSource

inductive Party where
  | producer
  | consumer
deriving DecidableEq, Repr

inductive SlotState where
  | free
  | writing
  | pending
  | acquired
deriving DecidableEq, Repr

structure FrameView where
  ptr : ℕ := 0
  width : UInt32 := 0
  height : UInt32 := 0
  pitch : ℕ := 0
  bpp : UInt32 := 0
  pixelFormat : PixelFormat := .none
  sourceGeneration : UInt32 := 0
  sourceUpdateSequence : UInt32 := 0
  publishedSequence : UInt64 := 0
deriving DecidableEq, Repr

structure Token where
  slotIndex : UInt32
  lease : UInt32
deriving DecidableEq, Repr

structure Memory where
  slotState : SlotIndex → SlotState := fun _ => .free
  slotLease : SlotIndex → UInt32 := fun _ => 0
  frame : SlotIndex → FrameView := fun _ => {}
  bytes : SlotIndex → List UInt8
  publishedSequence : UInt64 := 0
  coalescedCount : UInt32 := 0
  droppedCount : UInt32 := 0

/-- What the display asks for. -/
inductive ConsumeCall where
  | acquire
  | release (token : Token)
deriving DecidableEq, Repr

/-- A step of a party. The `begin` and `finish` operations mark the calls. -/
inductive Op where
  | loadState (slot : SlotIndex)
  | casState (slot : SlotIndex) (expected desired : SlotState)
  | storeState (slot : SlotIndex) (state : SlotState)
  | loadLease (slot : SlotIndex)
  | storeLease (slot : SlotIndex) (lease : UInt32)
  | copyRow (slot : SlotIndex) (offset : ℕ) (row : List UInt8)
  | storeFrame (slot : SlotIndex) (view : FrameView)
  | loadFrame (slot : SlotIndex)
  | loadSequence
  | storeSequence (sequence : UInt64)
  | countCoalesced
  | countDropped
  | beginSubmit
  | finishSubmit (source : SourceView) (status : PresentationStatus)
  | beginConsume
  | finishAcquire (status : PresentationStatus) (acquired : Option (FrameView × Token))
  | finishRelease (token : Token) (status : PresentationStatus) (left : Token)

@[reducible] def Result : Op → Type
  | .loadState _ => SlotState
  | .casState .. => Bool
  | .loadLease _ => UInt32
  | .loadFrame _ => FrameView
  | .loadSequence => UInt64
  | .beginSubmit => SourceView
  | .beginConsume => ConsumeCall
  | _ => Unit

abbrev Code := Thread Op Result

/-- The environment may ask for any call. -/
inductive Acts (memory : Memory) : (request : Op) → Result request → Memory → Prop
  | loadState (slot : SlotIndex) : Acts memory (.loadState slot) (memory.slotState slot) memory
  | swap {slot : SlotIndex} {expected : SlotState} (desired : SlotState)
      (h : memory.slotState slot = expected) : Acts memory (.casState slot expected desired) true
        { memory with slotState := Function.update memory.slotState slot desired }
  | keep {slot : SlotIndex} {expected : SlotState} (desired : SlotState)
      (h : memory.slotState slot ≠ expected) :
      Acts memory (.casState slot expected desired) false memory
  | storeState (slot : SlotIndex) (state : SlotState) : Acts memory (.storeState slot state) ()
      { memory with slotState := Function.update memory.slotState slot state }
  | loadLease (slot : SlotIndex) : Acts memory (.loadLease slot) (memory.slotLease slot) memory
  | storeLease (slot : SlotIndex) (lease : UInt32) : Acts memory (.storeLease slot lease) ()
      { memory with slotLease := Function.update memory.slotLease slot lease }
  | copyRow (slot : SlotIndex) (offset : ℕ) (row : List UInt8) :
      Acts memory (.copyRow slot offset row) ()
        { memory with
          bytes := Function.update memory.bytes slot (overwrite (memory.bytes slot) offset row) }
  | storeFrame (slot : SlotIndex) (view : FrameView) : Acts memory (.storeFrame slot view) ()
      { memory with frame := Function.update memory.frame slot view }
  | loadFrame (slot : SlotIndex) : Acts memory (.loadFrame slot) (memory.frame slot) memory
  | loadSequence : Acts memory .loadSequence memory.publishedSequence memory
  | storeSequence (sequence : UInt64) : Acts memory (.storeSequence sequence) ()
      { memory with publishedSequence := sequence }
  | countCoalesced : Acts memory .countCoalesced ()
      { memory with coalescedCount := memory.coalescedCount + 1 }
  | countDropped : Acts memory .countDropped ()
      { memory with droppedCount := memory.droppedCount + 1 }
  | beginSubmit (source : SourceView) : Acts memory .beginSubmit source memory
  | finishSubmit (source : SourceView) (status : PresentationStatus) :
      Acts memory (.finishSubmit source status) () memory
  | beginConsume (call : ConsumeCall) : Acts memory .beginConsume call memory
  | finishAcquire (status : PresentationStatus) (acquired : Option (FrameView × Token)) :
      Acts memory (.finishAcquire status acquired) () memory
  | finishRelease (token : Token) (status : PresentationStatus) (left : Token) :
      Acts memory (.finishRelease token status left) () memory

section Producer

variable (target : Target) (slots : Slots)

def slotOrder : List SlotIndex := [0, 1]

def firstSlot : SlotIndex := 0

/-- A pass over the slots that takes the first one found in a state. -/
def claimFrom (visibleBytes : ℕ) (wanted : SlotState) : List SlotIndex → Code (Option SlotIndex)
  | [] => return none
  | slot :: rest =>
      if (slots slot).capacity < visibleBytes then claimFrom visibleBytes wanted rest
      else do
        let state : SlotState ← perform (Op.loadState slot)
        if state ≠ wanted then claimFrom visibleBytes wanted rest
        else do
          let swapped : Bool ← perform (Op.casState slot wanted .writing)
          if swapped then return some slot else claimFrom visibleBytes wanted rest

/-- The claimed slot, and whether it held a pending frame. -/
def claimSlot (visibleBytes : ℕ) : Code (Option (SlotIndex × Bool)) := do
  match ← claimFrom slots visibleBytes .pending slotOrder with
  | some slot => return some (slot, true)
  | none => do
      let claimed ← claimFrom slots visibleBytes .free slotOrder
      return claimed.map fun slot => (slot, false)

/-- The rows from `row` on, with the offsets as `size_t` counts them. -/
def copyRows (source : SourceView) (rowBytes : ℕ) (slot : SlotIndex) : (left row : ℕ) → Code Unit
  | 0, _ => return ()
  | left + 1, row => do
      let start := row * source.pitch % target.size
      let pixels := (List.range rowBytes).map fun offset => source.pixels (start + offset)
      perform (Op.copyRow slot (row * rowBytes % target.size) pixels)
      copyRows source rowBytes slot left (row + 1)

def frameView (source : SourceView) (rowBytes : ℕ) (slot : SlotIndex) (sequence : UInt64) :
    FrameView where
  ptr := (slots slot).ptr
  width := source.width
  height := source.height
  pitch := rowBytes
  bpp := source.bpp
  pixelFormat := source.pixelFormat
  sourceGeneration := source.sourceGeneration
  sourceUpdateSequence := source.sourceUpdateSequence
  publishedSequence := sequence

/-- The end of `np2_presentation_submit`, in a slot that it has claimed. -/
def publishFrame (source : SourceView) (rowBytes : ℕ) (slot : SlotIndex) (replacedPending : Bool) :
    Code PresentationStatus := do
  copyRows target source rowBytes slot source.height.toNat 0
  let sequence : UInt64 ← perform Op.loadSequence
  perform (Op.storeSequence (sequence + 1))
  perform (Op.storeFrame slot (frameView slots source rowBytes slot (sequence + 1)))
  if replacedPending then
    perform Op.countCoalesced
  perform (Op.storeState slot .pending)
  return .ok

def submit (source : SourceView) : Code PresentationStatus :=
  match checkedSizes target source with
  | none => return .invalidFrame
  | some sizes =>
      if slotOrder.any fun slot =>
          sourceAliasesSlot target source sizes.sourceSpan (slots slot) then
        return .aliased
      else do
        match ← claimSlot slots sizes.visibleBytes with
        | none =>
            let hasCapacity :=
              slotOrder.any fun slot => decide ((slots slot).capacity ≥ sizes.visibleBytes)
            perform Op.countDropped
            return if hasCapacity then .dropped else .capacityExceeded
        | some (slot, replacedPending) =>
            publishFrame target slots source sizes.rowBytes slot replacedPending

def producer : Code Unit :=
  iterate (fun _ => do
    let source : SourceView ← perform Op.beginSubmit
    let status ← submit target slots source
    perform (Op.finishSubmit source status)
    return .inl ()) ()

end Producer

section Consumer

/-- Whether some slot is acquired. -/
def anyAcquired : List SlotIndex → Code Bool
  | [] => return false
  | slot :: rest => do
      let state : SlotState ← perform (Op.loadState slot)
      if state = .acquired then return true else anyAcquired rest

/-- The lease of the next acquisition; it is never 0. -/
def nextLease (lease : UInt32) : UInt32 := if lease = -1 then 1 else lease + 1

def slotToken (slot : SlotIndex) (lease : UInt32) : Token := ⟨UInt32.ofNat slot, lease⟩

/-- The first pending frame, with the token of its lease. -/
def acquireFrom : List SlotIndex → Code (Option (FrameView × Token))
  | [] => return none
  | slot :: rest => do
      let swapped : Bool ← perform (Op.casState slot .pending .acquired)
      if swapped then
        let lease : UInt32 ← perform (Op.loadLease slot)
        perform (Op.storeLease slot (nextLease lease))
        let view : FrameView ← perform (Op.loadFrame slot)
        let given : UInt32 ← perform (Op.loadLease slot)
        return some (view, slotToken slot given)
      else acquireFrom rest

def acquire : Code (PresentationStatus × Option (FrameView × Token)) := do
  if ← anyAcquired slotOrder then return (.busy, none)
  else
    match ← acquireFrom slotOrder with
    | none => return (.noFrame, none)
    | some acquired => return (.ok, some acquired)

/-- A token that has been given back. -/
def noToken : Token := ⟨-1, 0⟩

def release (token : Token) : Code (PresentationStatus × Token) :=
  if h : token.slotIndex.toNat < 2 ∧ token.lease ≠ 0 then do
    let slot : SlotIndex := ⟨token.slotIndex.toNat, h.1⟩
    let state : SlotState ← perform (Op.loadState slot)
    if state ≠ .acquired then return (.invalidToken, token)
    else do
      let lease : UInt32 ← perform (Op.loadLease slot)
      if lease ≠ token.lease then return (.invalidToken, token)
      else do
        let swapped : Bool ← perform (Op.casState slot .acquired .free)
        if swapped then return (.ok, noToken) else return (.invalidToken, token)
  else return (.invalidToken, token)

def consumer : Code Unit :=
  iterate (fun _ => do
    let call : ConsumeCall ← perform Op.beginConsume
    match call with
    | .acquire =>
        let result ← acquire
        perform (Op.finishAcquire result.1 result.2)
    | .release token =>
        let result ← release token
        perform (Op.finishRelease token result.1 result.2)
    return .inl ()) ()

end Consumer

section System

variable (target : Target) (slots : Slots)

abbrev Label := Party × OpLabel Op Result

abbrev PublisherSystem := System Party Op Result (fun _ => Unit) Memory

/-- `np2_presentation_init`: the publisher with two slots that do not overlap. -/
def initPublisher : PresentationStatus × Option Memory :=
  if ∃ slot, (slots slot).ptr = 0 ∨ (slots slot).capacity = 0 then (.invalidArgument, none)
  else if rangesOverlap target (slots 0).ptr (slots 0).capacity (slots 1).ptr
    (slots 1).capacity then
    (.aliased, none)
  else (.ok, some { bytes := fun slot => (slots slot).bytes })

def PublisherSystem.initial (memory : Memory) : PublisherSystem where
  threads
    | .producer => producer target slots
    | .consumer => consumer
  state := memory

end System

end EspNp2.Presentation.Publisher
