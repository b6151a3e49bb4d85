import EspNp2.Library.Concurrent

/-!
A ring that one producer and one consumer share.  Each side owns an index and loads the
other's; the producer writes behind the head and the consumer reads behind the tail.  The
indices count items modulo the range of a word, and the slots number a power of two.

The monitors say which accesses a side may make: it touches only the slots that it has seen
to be its own, and tells the truth about them when a call returns.
-/

namespace EspNp2.Library.SharedRing

open Concurrent

inductive Side where
  | producer
  | consumer
deriving DecidableEq, Repr

/-- The slots of a ring number a power of two below the range of its indices. -/
structure Capacity where
  bits : Nat
  small : bits < 32

def Capacity.size (capacity : Capacity) : Nat := 2 ^ capacity.bits

structure RingMemory (α : Type) where
  head : UInt32
  tail : UInt32
  slots : Nat → α

inductive RingStatus where
  | ok
  | empty
  | full
  | argument
  | invariant
deriving DecidableEq, Repr

inductive TakeKind where
  /-- The items are read and stay in the ring. -/
  | look
  /-- The items leave the ring unread. -/
  | drop
  /-- The items are read and leave the ring. -/
  | take
deriving DecidableEq, Repr

structure TakeCall where
  kind : TakeKind
  count : Nat
deriving DecidableEq, Repr

/-- A step of a side.  The `begin` and `finish` operations mark the calls. -/
inductive RingOp (α Call Ask Detail : Type) where
  | loadHead
  | loadTail
  | storeHead (index : UInt32)
  | storeTail (index : UInt32)
  | readSlot (position : Nat)
  | writeSlot (position : Nat) (item : α)
  | beginPush
  | finishPush (detail : Detail) (items : List α) (status : RingStatus)
  | beginTake
  | finishTake (call : TakeCall) (items : List α) (status : RingStatus)

variable {α Call Ask Detail : Type}

@[reducible] def Result : RingOp α Call Ask Detail → Type
  | .loadHead => UInt32
  | .loadTail => UInt32
  | .readSlot _ => α
  | .beginPush => Call
  | .beginTake => Ask
  | _ => Unit

abbrev RingLabel (α Call Ask Detail : Type) := OpLabel (RingOp α Call Ask Detail) Result

inductive Acts (memory : RingMemory α) :
    (request : RingOp α Call Ask Detail) → Result request → RingMemory α → Prop
  | loadHead : Acts memory .loadHead memory.head memory
  | loadTail : Acts memory .loadTail memory.tail memory
  | storeHead (index : UInt32) : Acts memory (.storeHead index) () { memory with head := index }
  | storeTail (index : UInt32) : Acts memory (.storeTail index) () { memory with tail := index }
  | readSlot (position : Nat) : Acts memory (.readSlot position) (memory.slots position) memory
  | writeSlot (position : Nat) (item : α) : Acts memory (.writeSlot position item) ()
      { memory with slots := Function.update memory.slots position item }
  | beginPush (call : Call) : Acts memory .beginPush call memory
  | finishPush (detail : Detail) (items : List α) (status : RingStatus) :
      Acts memory (.finishPush detail items status) () memory
  | beginTake (call : Ask) : Acts memory .beginTake call memory
  | finishTake (call : TakeCall) (items : List α) (status : RingStatus) :
      Acts memory (.finishTake call items status) () memory

section Monitors

inductive Phase where
  | idle
  | pushing
  | pushed
  | taking
  | taken (count : Nat)
deriving DecidableEq, Repr

/-- A side between two operations: its own index, how many slots from there on it has seen to
be its own, and the items that it has written or read in this call. -/
structure Watch (α : Type) where
  index : UInt32 := 0
  phase : Phase := .idle
  reach : Option Nat := none
  moved : List α := []

/-- The slot of the next item. -/
def Watch.position (capacity : Capacity) (w : Watch α) : Nat :=
  (w.index.toNat + w.moved.length) % capacity.size

/-- The slots that the side may still touch. -/
def Watch.free (w : Watch α) : Nat := w.reach.getD 0

/-- The calls that a ring turns down for their arguments. -/
structure Refusals (α Detail : Type) where
  push : Detail → List α → Prop
  take : TakeCall → Prop

/-- What a push may answer. -/
def Watch.pushes (w : Watch α) (refusals : Refusals α Detail) (detail : Detail) (items : List α) :
    RingStatus → Prop
  | .ok => w.phase = .pushed ∧ items = w.moved
  | .full => w.phase = .pushing ∧ w.moved = [] ∧ ∃ room, w.reach = some room ∧ room < items.length
  | .argument => w.phase = .pushing ∧ w.moved = [] ∧ refusals.push detail items
  | _ => False

/-- What a look, a drop or a take may answer. -/
def Watch.takes (w : Watch α) (refusals : Refusals α Detail) (call : TakeCall) (items : List α) :
    RingStatus → Prop
  | .ok => items = w.moved ∧ match call.kind with
      | .look => w.phase = .taking ∧ w.moved.length = call.count
      | .drop => w.phase = .taken call.count
      | .take => w.phase = .taken call.count ∧ w.moved.length = call.count
  | .empty => w.phase = .taking ∧ w.moved = [] ∧
      ∃ avail, w.reach = some avail ∧ avail < call.count
  | .argument => w.phase = .taking ∧ w.moved = [] ∧ refusals.take call
  | _ => False

open scoped Classical in
noncomputable def observeProducer (capacity : Capacity) (refusals : Refusals α Detail)
    (w : Watch α) :
    RingLabel α Call Ask Detail → Option (Watch α)
  | ⟨.beginPush, _⟩ =>
      if w.phase = .idle then some { index := w.index, phase := .pushing } else none
  | ⟨.loadHead, _⟩ => some w
  | ⟨.loadTail, tail⟩ =>
      if w.phase = .pushing then
        some { w with reach := some (capacity.size - (w.index - tail).toNat) }
      else none
  | ⟨.writeSlot position item, _⟩ =>
      if w.phase = .pushing ∧ position = w.position capacity ∧ w.moved.length < w.free then
        some { w with moved := w.moved ++ [item] }
      else none
  | ⟨.storeHead index, _⟩ =>
      if w.phase = .pushing ∧ index = w.index + UInt32.ofNat w.moved.length then
        some { w with index := index, phase := .pushed }
      else none
  | ⟨.finishPush detail items status, _⟩ =>
      if w.pushes refusals detail items status then some { index := w.index } else none
  | _ => none

open scoped Classical in
noncomputable def observeConsumer (capacity : Capacity) (refusals : Refusals α Detail)
    (w : Watch α) :
    RingLabel α Call Ask Detail → Option (Watch α)
  | ⟨.beginTake, _⟩ =>
      if w.phase = .idle then some { index := w.index, phase := .taking } else none
  | ⟨.loadTail, _⟩ => some w
  | ⟨.loadHead, head⟩ =>
      if w.phase = .taking then some { w with reach := some (head - w.index).toNat } else none
  | ⟨.readSlot position, item⟩ =>
      if w.phase = .taking ∧ position = w.position capacity ∧ w.moved.length < w.free then
        some { w with moved := w.moved ++ [item] }
      else none
  | ⟨.storeTail index, _⟩ =>
      if w.phase = .taking ∧ (index - w.index).toNat ≤ w.free then
        some { w with index := index, phase := .taken (index - w.index).toNat }
      else none
  | ⟨.finishTake call items status, _⟩ =>
      if w.takes refusals call items status then some { index := w.index } else none
  | _ => none

/-- The results that a side reckons with: its own index, and an index of the other side that
is at most one round away and has not gone back. -/
noncomputable def producerMonitor (capacity : Capacity) (refusals : Refusals α Detail) :
    Monitor (Watch α) (RingOp α Call Ask Detail) Result where
  expects w
    | ⟨.loadHead, head⟩ => head = w.index
    | ⟨.loadTail, tail⟩ => (w.index - tail).toNat ≤ capacity.size
    | _ => True
  observe := observeProducer capacity refusals

noncomputable def consumerMonitor (capacity : Capacity) (refusals : Refusals α Detail) :
    Monitor (Watch α) (RingOp α Call Ask Detail) Result where
  expects w
    | ⟨.loadTail, tail⟩ => tail = w.index
    | ⟨.loadHead, head⟩ => w.phase = .taking →
        (head - w.index).toNat ≤ capacity.size ∧ w.free ≤ (head - w.index).toNat
    | _ => True
  observe := observeConsumer capacity refusals

noncomputable def monitors (capacity : Capacity) (refusals : Refusals α Detail) :
    Side → Monitor (Watch α) (RingOp α Call Ask Detail) Result
  | .producer => producerMonitor capacity refusals
  | .consumer => consumerMonitor capacity refusals

section Rules

variable {β : Type} {capacity : Capacity} {refusals : Refusals α Detail} {w : Watch α}
  {post : Watch α → β → Prop}

theorem pushing_loadHead {next : UInt32 → Thread (RingOp α Call Ask Detail) Result β}
    (h : Watched (producerMonitor capacity refusals) post (next w.index) w) :
    Watched (producerMonitor capacity refusals) post (.op .loadHead next) w := by
  refine watched_op_iff.mpr fun head hhead => ⟨w, rfl, ?_⟩
  rwa [show head = w.index from hhead]

theorem pushing_loadTail {next : UInt32 → Thread (RingOp α Call Ask Detail) Result β}
    (hphase : w.phase = .pushing)
    (h : ∀ tail, (w.index - tail).toNat ≤ capacity.size →
      Watched (producerMonitor capacity refusals) post (next tail)
        { w with reach := some (capacity.size - (w.index - tail).toNat) }) :
    Watched (producerMonitor capacity refusals) post (.op .loadTail next) w :=
  watched_op_iff.mpr fun tail htail => ⟨_, if_pos hphase, h tail htail⟩

theorem pushing_writeSlot {position : Nat} {item : α}
    {next : Unit → Thread (RingOp α Call Ask Detail) Result β} (hphase : w.phase = .pushing)
    (hposition : position = w.position capacity) (hfree : w.moved.length < w.free)
    (h : Watched (producerMonitor capacity refusals) post (next ())
    { w with moved := w.moved ++ [item] }) :
    Watched (producerMonitor capacity refusals) post (.op (.writeSlot position item) next) w :=
  watched_op_iff.mpr fun _ _ => ⟨_, if_pos ⟨hphase, hposition, hfree⟩, h⟩

theorem pushing_storeHead {index : UInt32}
    {next : Unit → Thread (RingOp α Call Ask Detail) Result β} (hphase : w.phase = .pushing)
    (hindex : index = w.index + UInt32.ofNat w.moved.length)
    (h : Watched (producerMonitor capacity refusals) post (next ())
      { w with index := index, phase := .pushed }) :
    Watched (producerMonitor capacity refusals) post (.op (.storeHead index) next) w :=
  watched_op_iff.mpr fun _ _ => ⟨_, if_pos ⟨hphase, hindex⟩, h⟩

theorem watched_beginPush {next : Call → Thread (RingOp α Call Ask Detail) Result β}
    (hphase : w.phase = .idle)
    (h : ∀ call, Watched (producerMonitor capacity refusals) post (next call)
      { index := w.index, phase := .pushing }) :
    Watched (producerMonitor capacity refusals) post (.op .beginPush next) w :=
  watched_op_iff.mpr fun call _ => ⟨_, if_pos hphase, h call⟩

theorem watched_finishPush {detail : Detail} {items : List α} {status : RingStatus}
    {next : Unit → Thread (RingOp α Call Ask Detail) Result β}
      (hpushes : w.pushes refusals detail items status)
    (h : Watched (producerMonitor capacity refusals) post (next ()) { index := w.index }) :
    Watched (producerMonitor capacity refusals) post
      (.op (.finishPush detail items status) next) w :=
  watched_op_iff.mpr fun _ _ => ⟨_, if_pos hpushes, h⟩

theorem taking_loadTail {next : UInt32 → Thread (RingOp α Call Ask Detail) Result β}
    (h : Watched (consumerMonitor capacity refusals) post (next w.index) w) :
    Watched (consumerMonitor capacity refusals) post (.op .loadTail next) w := by
  refine watched_op_iff.mpr fun tail htail => ⟨w, rfl, ?_⟩
  rwa [show tail = w.index from htail]

theorem taking_loadHead {next : UInt32 → Thread (RingOp α Call Ask Detail) Result β}
    (hphase : w.phase = .taking)
    (h : ∀ head, (head - w.index).toNat ≤ capacity.size → w.free ≤ (head - w.index).toNat →
      Watched (consumerMonitor capacity refusals) post (next head)
        { w with reach := some (head - w.index).toNat }) :
    Watched (consumerMonitor capacity refusals) post (.op .loadHead next) w :=
  watched_op_iff.mpr fun head hhead =>
    ⟨_, if_pos hphase, h head (hhead hphase).1 (hhead hphase).2⟩

theorem taking_readSlot {position : Nat}
    {next : α → Thread (RingOp α Call Ask Detail) Result β} (hphase : w.phase = .taking)
    (hposition : position = w.position capacity) (hfree : w.moved.length < w.free)
    (h : ∀ item, Watched (consumerMonitor capacity refusals) post (next item)
      { w with moved := w.moved ++ [item] }) :
    Watched (consumerMonitor capacity refusals) post (.op (.readSlot position) next) w :=
  watched_op_iff.mpr fun item _ => ⟨_, if_pos ⟨hphase, hposition, hfree⟩, h item⟩

theorem taking_storeTail {index : UInt32} (count : Nat)
    {next : Unit → Thread (RingOp α Call Ask Detail) Result β} (hphase : w.phase = .taking)
    (hindex : index = w.index + UInt32.ofNat count) (hcount : count ≤ w.free)
    (hrange : count < 2 ^ 32)
    (h : Watched (consumerMonitor capacity refusals) post (next ())
      { w with index := index, phase := .taken count }) :
    Watched (consumerMonitor capacity refusals) post (.op (.storeTail index) next) w := by
  have hdistance : (index - w.index).toNat = count := by
    rw [hindex, UInt32.add_comm, UInt32.add_sub_cancel, UInt32.toNat_ofNat',
      Nat.mod_eq_of_lt hrange]
  refine watched_op_iff.mpr fun _ _ => ⟨_, if_pos ⟨hphase, ?_⟩, ?_⟩
  · rwa [hdistance]
  · rwa [hdistance]

theorem watched_beginTake {next : Ask → Thread (RingOp α Call Ask Detail) Result β}
    (hphase : w.phase = .idle)
    (h : ∀ ask, Watched (consumerMonitor capacity refusals) post (next ask)
      { index := w.index, phase := .taking }) :
    Watched (consumerMonitor capacity refusals) post (.op .beginTake next) w :=
  watched_op_iff.mpr fun ask _ => ⟨_, if_pos hphase, h ask⟩

theorem watched_finishTake {call : TakeCall} {items : List α} {status : RingStatus}
    {next : Unit → Thread (RingOp α Call Ask Detail) Result β}
      (htakes : w.takes refusals call items status)
    (h : Watched (consumerMonitor capacity refusals) post (next ()) { index := w.index }) :
    Watched (consumerMonitor capacity refusals) post (.op (.finishTake call items status) next) w :=
  watched_op_iff.mpr fun _ _ => ⟨_, if_pos htakes, h⟩

end Rules

end Monitors

section Audit

/-- So many items from an index on. -/
def ringItems (capacity : Capacity) (slots : Nat → α) (start : UInt32) (count : Nat) : List α :=
  (List.range count).map fun offset => slots ((start.toNat + offset) % capacity.size)

/-- What the labels of a run tell. -/
structure Audit (α : Type) where
  memory : RingMemory α
  /-- The items that a stored head has published. -/
  pushed : List α := []
  /-- The items that a stored tail has given back. -/
  taken : List α := []
  /-- The items of the pushes that have returned `ok`. -/
  accepted : List α := []
  /-- The items of the drops and takes that have returned `ok`. -/
  returned : List α := []
  /-- The items that the current push has published. -/
  inPush : Option (List α) := none
  /-- The items that the current drop or take has given back. -/
  inTake : Option (List α) := none
  /-- The free slots when the current push last loaded the tail. -/
  room : Option Nat := none
  /-- The published items when the current look, drop or take last loaded the head. -/
  avail : Option Nat := none

def Audit.finishTake (a : Audit α) (call : TakeCall) (items : List α) : RingStatus → Audit α
  | .ok =>
      match call.kind with
      | .look => { a with inTake := none }
      | .drop => { a with returned := a.returned ++ a.inTake.getD [], inTake := none }
      | .take => { a with returned := a.returned ++ items, inTake := none }
  | _ => { a with inTake := none }

def Audit.add (capacity : Capacity) (a : Audit α) : Side × RingLabel α Call Ask Detail → Audit α
  | (.producer, ⟨.beginPush, _⟩) => { a with inPush := none, room := none }
  | (.producer, ⟨.loadTail, _⟩) =>
      { a with room := some (capacity.size - (a.pushed.length - a.taken.length)) }
  | (_, ⟨.writeSlot position item, _⟩) =>
      { a with memory.slots := Function.update a.memory.slots position item }
  | (_, ⟨.storeHead index, _⟩) =>
      let items := ringItems capacity a.memory.slots a.memory.head (index - a.memory.head).toNat
      { a with memory.head := index, pushed := a.pushed ++ items, inPush := some items }
  | (.producer, ⟨.finishPush _ items status, _⟩) =>
      { a with
        accepted := if status = .ok then a.accepted ++ items else a.accepted
        inPush := none }
  | (.consumer, ⟨.beginTake, _⟩) => { a with inTake := none, avail := none }
  | (.consumer, ⟨.loadHead, _⟩) => { a with avail := some (a.pushed.length - a.taken.length) }
  | (_, ⟨.storeTail index, _⟩) =>
      let items := ringItems capacity a.memory.slots a.memory.tail (index - a.memory.tail).toNat
      { a with memory.tail := index, taken := a.taken ++ items, inTake := some items }
  | (.consumer, ⟨.finishTake call items status, _⟩) => a.finishTake call items status
  | _ => a

def audit (capacity : Capacity) (memory : RingMemory α)
    (labels : List (Side × RingLabel α Call Ask Detail)) : Audit α :=
  labels.foldl (Audit.add capacity) { memory := memory }

@[simp] theorem audit_snoc (capacity : Capacity) (memory : RingMemory α)
    (labels : List (Side × RingLabel α Call Ask Detail))
    (label : Side × RingLabel α Call Ask Detail) :
    audit capacity memory (labels ++ [label]) =
      (audit capacity memory labels).add capacity label := by
  simp [audit]

end Audit

end EspNp2.Library.SharedRing
