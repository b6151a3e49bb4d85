import EspNp2.Library.SharedRing
import Mathlib.Data.List.Infix
import Mathlib.Data.Nat.ModEq

/-!
Two sides that keep to the monitors of a shared ring make it a bounded queue, whatever the
interleaving and however often the indices and the slots wrap.
-/

namespace EspNp2.Library.SharedRing

open Concurrent
open LabelledRun

variable {α Call Ask Detail : Type} {capacity : Capacity} {refusals : Refusals α Detail}

section Indices

theorem Capacity.size_pos (capacity : Capacity) : 0 < capacity.size :=
  Nat.two_pow_pos capacity.bits

theorem Capacity.size_lt (capacity : Capacity) : capacity.size < 2 ^ 32 :=
  Nat.pow_lt_pow_right (by decide) capacity.small

theorem Capacity.size_dvd (capacity : Capacity) : capacity.size ∣ 2 ^ 32 :=
  Nat.pow_dvd_pow 2 (Nat.le_of_lt capacity.small)

/-- The slot of an item does not see the wrap of the index. -/
theorem slot_ofNat (capacity : Capacity) (number offset : Nat) :
    ((UInt32.ofNat number).toNat + offset) % capacity.size = (number + offset) % capacity.size := by
  rw [UInt32.toNat_ofNat', Nat.add_mod, Nat.mod_mod_of_dvd _ capacity.size_dvd, ← Nat.add_mod]

/-- The distance of two indices that are less than a wrap apart. -/
theorem ofNat_sub_toNat {first second : Nat} (hle : first ≤ second)
    (hlt : second - first < 2 ^ 32) :
    (UInt32.ofNat second - UInt32.ofNat first).toNat = second - first := by
  rw [UInt32.toNat_sub, UInt32.toNat_ofNat', UInt32.toNat_ofNat']
  omega

theorem add_sub_toNat (index : UInt32) {count : Nat} (hcount : count < 2 ^ 32) :
    (index + UInt32.ofNat count - index).toNat = count := by
  rw [UInt32.add_comm, UInt32.add_sub_cancel, UInt32.toNat_ofNat', Nat.mod_eq_of_lt hcount]

theorem ringItems_eq {slots : Nat → α} {number : Nat} {items : List α}
    (h : ∀ offset (hlt : offset < items.length),
      slots ((number + offset) % capacity.size) = items[offset]) :
    ringItems capacity slots (UInt32.ofNat number) items.length = items := by
  apply List.ext_getElem
  · simp [ringItems]
  · intro offset hleft hright
    simp only [ringItems, List.getElem_map, List.getElem_range, slot_ofNat]
    exact h offset hright

end Indices

section Invariant

variable {a : Audit α} {p c : Watch α}

/-- The items that a push has written stand behind the head. -/
structure Pushing (capacity : Capacity) (a : Audit α) (p : Watch α) : Prop where
  none : a.inPush = none
  room : a.room = p.reach
  within : p.moved.length ≤ p.free
  free : a.pushed.length + p.free ≤ a.taken.length + capacity.size
  written : ∀ offset (hlt : offset < p.moved.length),
    a.memory.slots ((a.pushed.length + offset) % capacity.size) = p.moved[offset]

/-- The items that a look or a take has read are the next ones. -/
structure Taking (a : Audit α) (c : Watch α) : Prop where
  none : a.inTake = none
  avail : a.avail = c.reach
  within : c.moved.length ≤ c.free
  published : a.taken.length + c.free ≤ a.pushed.length
  read : a.taken ++ c.moved <+: a.pushed

def ProducerOk (capacity : Capacity) (a : Audit α) (p : Watch α) : Prop :=
  match p.phase with
  | .idle => a.inPush = none
  | .pushing => Pushing capacity a p
  | .pushed => a.inPush = some p.moved
  | _ => False

def ConsumerOk (a : Audit α) (c : Watch α) : Prop :=
  match c.phase with
  | .idle => a.inTake = none
  | .taking => Taking a c
  | .taken count => ∃ items, a.inTake = some items ∧ items.length = count ∧
      (c.moved.length = count → items = c.moved)
  | _ => False

structure Inv (capacity : Capacity) (a : Audit α) (p c : Watch α) : Prop where
  head : a.memory.head = UInt32.ofNat a.pushed.length
  tail : a.memory.tail = UInt32.ofNat a.taken.length
  producerIndex : p.index = a.memory.head
  consumerIndex : c.index = a.memory.tail
  fifo : a.taken <+: a.pushed
  bound : a.pushed.length ≤ a.taken.length + capacity.size
  live : ∀ number (hlt : number < a.pushed.length), a.taken.length ≤ number →
    a.memory.slots (number % capacity.size) = a.pushed[number]
  accepted : a.pushed = a.accepted ++ a.inPush.getD []
  returned : a.taken = a.returned ++ a.inTake.getD []
  producer : ProducerOk capacity a p
  consumer : ConsumerOk a c

theorem inv_initial (slots : Nat → α) : Inv capacity { memory := ⟨0, 0, slots⟩ } {} {} := by
  constructor <;> simp [ProducerOk, ConsumerOk]

theorem Inv.distance (h : Inv capacity a p c) :
    (a.memory.head - a.memory.tail).toNat = a.pushed.length - a.taken.length := by
  rw [h.head, h.tail]
  refine ofNat_sub_toNat h.fifo.length_le ?_
  have := h.bound
  have := capacity.size_lt
  omega

/-- The producer writes where no published item waits. -/
theorem Pushing.apart (hpushing : Pushing capacity a p) (hfree : p.moved.length < p.free)
    {number : Nat} (hlow : a.taken.length ≤ number)
    (hhigh : number < a.pushed.length + p.moved.length) :
    number % capacity.size ≠ (a.pushed.length + p.moved.length) % capacity.size := by
  intro heq
  have hfree' := hpushing.free
  have hdvd := (Nat.modEq_iff_dvd' (Nat.le_of_lt hhigh)).mp heq
  have hle := Nat.le_of_dvd (by omega) hdvd
  omega

/-- The consumer does not mind what the producer does. -/
theorem ConsumerOk.grow {a' : Audit α} (h : ConsumerOk a c) (hinTake : a'.inTake = a.inTake)
    (havail : a'.avail = a.avail) (htaken : a'.taken = a.taken) (hpushed : a.pushed <+: a'.pushed) :
    ConsumerOk a' c := by
  unfold ConsumerOk at h ⊢
  split at h
  · rwa [hinTake]
  · refine ⟨hinTake.trans h.none, havail.trans h.avail, h.within, ?_, ?_⟩
    · rw [htaken]
      exact Nat.le_trans h.published hpushed.length_le
    · rw [htaken]
      exact h.read.trans hpushed
  · rwa [hinTake]
  · exact h

/-- The producer does not mind what the consumer does. -/
theorem ProducerOk.grow {a' : Audit α} (h : ProducerOk capacity a p)
    (hinPush : a'.inPush = a.inPush) (hroom : a'.room = a.room) (hpushed : a'.pushed = a.pushed)
    (htaken : a.taken.length ≤ a'.taken.length) (hslots : a'.memory.slots = a.memory.slots) :
    ProducerOk capacity a' p := by
  unfold ProducerOk at h ⊢
  split at h
  · rwa [hinPush]
  · refine ⟨hinPush.trans h.none, hroom.trans h.room, h.within, ?_, ?_⟩
    · have hfree := h.free
      rw [hpushed]
      omega
    · rw [hpushed, hslots]
      exact h.written
  · rwa [hinPush]
  · exact h

theorem inv_beginPush (h : Inv capacity a p c) (hphase : p.phase = .idle) :
    Inv capacity { a with inPush := none, room := none } { index := p.index, phase := .pushing }
      c := by
  have hproducer := h.producer
  rw [ProducerOk, hphase] at hproducer
  refine ⟨h.head, h.tail, h.producerIndex, h.consumerIndex, h.fifo, h.bound, h.live, ?_, h.returned,
    ⟨rfl, rfl, Nat.le_refl 0, h.bound, nofun⟩, h.consumer.grow rfl rfl rfl List.prefix_rfl⟩
  have haccepted := h.accepted
  rwa [hproducer] at haccepted

theorem inv_loadTail (h : Inv capacity a p c) (hphase : p.phase = .pushing) :
    (p.index - a.memory.tail).toNat ≤ capacity.size ∧
    Inv capacity { a with room := some (capacity.size - (a.pushed.length - a.taken.length)) }
      { p with reach := some (capacity.size - (p.index - a.memory.tail).toNat) } c := by
  have hproducer := h.producer
  rw [ProducerOk, hphase] at hproducer
  have hbound := h.bound
  have hfifo := h.fifo.length_le
  have hfree := hproducer.free
  have hwithin := hproducer.within
  have hdistance : (p.index - a.memory.tail).toNat = a.pushed.length - a.taken.length := by
    rw [h.producerIndex, h.distance]
  rw [hdistance]
  refine ⟨by omega, h.head, h.tail, h.producerIndex, h.consumerIndex, h.fifo, h.bound, h.live,
    h.accepted, h.returned, ?_, h.consumer.grow rfl rfl rfl List.prefix_rfl⟩
  rw [ProducerOk, hphase]
  refine ⟨hproducer.none, rfl, ?_, ?_, hproducer.written⟩
  · change p.moved.length ≤ capacity.size - (a.pushed.length - a.taken.length)
    omega
  · change a.pushed.length + (capacity.size - (a.pushed.length - a.taken.length)) ≤
      a.taken.length + capacity.size
    omega

theorem inv_writeSlot {item : α} (h : Inv capacity a p c) (hphase : p.phase = .pushing)
    (hfree : p.moved.length < p.free) :
    Inv capacity
      { a with memory.slots := Function.update a.memory.slots (p.position capacity) item }
      { p with moved := p.moved ++ [item] } c := by
  have hproducer := h.producer
  rw [ProducerOk, hphase] at hproducer
  have hposition : p.position capacity = (a.pushed.length + p.moved.length) % capacity.size := by
    rw [Watch.position, h.producerIndex, h.head, slot_ofNat]
  have hfifo := h.fifo.length_le
  rw [hposition]
  refine ⟨h.head, h.tail, h.producerIndex, h.consumerIndex, h.fifo, h.bound, ?_, h.accepted,
    h.returned, ?_, h.consumer.grow rfl rfl rfl List.prefix_rfl⟩
  · intro number hlt hle
    have hne := hproducer.apart hfree hle (Nat.lt_add_right _ hlt)
    change Function.update a.memory.slots _ item (number % capacity.size) = a.pushed[number]
    rw [Function.update_of_ne hne]
    exact h.live number hlt hle
  · rw [ProducerOk, hphase]
    refine ⟨hproducer.none, hproducer.room, ?_, hproducer.free, ?_⟩
    · simpa [Watch.free, Nat.succ_le_iff] using hfree
    · intro offset hlt
      by_cases hlast : offset = p.moved.length
      · subst hlast
        simp
      · have hlt' : offset < p.moved.length := by
          have : offset < (p.moved ++ [item]).length := hlt
          rw [List.length_append, List.length_singleton] at this
          omega
        have hne : (a.pushed.length + offset) % capacity.size ≠
            (a.pushed.length + p.moved.length) % capacity.size :=
          hproducer.apart hfree (by omega) (by omega)
        change Function.update a.memory.slots _ item ((a.pushed.length + offset) % capacity.size) =
          (p.moved ++ [item])[offset]
        rw [Function.update_of_ne hne, List.getElem_append_left hlt']
        exact hproducer.written offset hlt'

theorem inv_storeHead (h : Inv capacity a p c) (hphase : p.phase = .pushing) :
    Inv capacity
      { a with
        memory.head := p.index + UInt32.ofNat p.moved.length
        pushed := a.pushed ++ p.moved
        inPush := some p.moved }
      { p with index := p.index + UInt32.ofNat p.moved.length, phase := .pushed } c := by
  have hproducer := h.producer
  rw [ProducerOk, hphase] at hproducer
  have hfree := hproducer.free
  have hwithin := hproducer.within
  refine ⟨?_, h.tail, rfl, h.consumerIndex, h.fifo.trans (List.prefix_append _ _), ?_, ?_, ?_,
    h.returned, rfl, h.consumer.grow rfl rfl rfl (List.prefix_append _ _)⟩
  · change p.index + UInt32.ofNat p.moved.length = UInt32.ofNat (a.pushed ++ p.moved).length
    rw [h.producerIndex, h.head, List.length_append, UInt32.ofNat_add]
  · change (a.pushed ++ p.moved).length ≤ a.taken.length + capacity.size
    rw [List.length_append]
    omega
  · intro number hlt hle
    change a.memory.slots (number % capacity.size) = (a.pushed ++ p.moved)[number]
    by_cases hold : number < a.pushed.length
    · rw [List.getElem_append_left hold]
      exact h.live number hold hle
    · have hlt' : number - a.pushed.length < p.moved.length := by
        have : number < (a.pushed ++ p.moved).length := hlt
        rw [List.length_append] at this
        omega
      have hwritten := hproducer.written (number - a.pushed.length) hlt'
      rw [Nat.add_sub_of_le (Nat.le_of_not_lt hold)] at hwritten
      rw [hwritten, List.getElem_append_right (Nat.le_of_not_lt hold)]
  · have haccepted := h.accepted
    rw [hproducer.none, Option.getD_none, List.append_nil] at haccepted
    change a.pushed ++ p.moved = a.accepted ++ p.moved
    rw [haccepted]

theorem inv_finishPush {detail : Detail} {items : List α} {status : RingStatus}
    (h : Inv capacity a p c) (hpushes : p.pushes refusals detail items status) :
    Inv capacity
      { a with
        accepted := if status = .ok then a.accepted ++ items else a.accepted
        inPush := none }
      { index := p.index } c := by
  have hproducer := h.producer
  have haccepted := h.accepted
  refine ⟨h.head, h.tail, h.producerIndex, h.consumerIndex, h.fifo, h.bound, h.live, ?_, h.returned,
    rfl, h.consumer.grow rfl rfl rfl List.prefix_rfl⟩
  change a.pushed = (if status = .ok then a.accepted ++ items else a.accepted) ++ []
  rw [List.append_nil]
  by_cases hstatus : status = .ok
  · subst hstatus
    obtain ⟨hphase, rfl⟩ := hpushes
    rw [ProducerOk, hphase] at hproducer
    rw [if_pos rfl, haccepted, hproducer]
    rfl
  · have hphase : p.phase = .pushing := by
      cases status with
      | full => exact hpushes.1
      | argument => exact hpushes.1
      | ok => exact absurd rfl hstatus
      | empty => exact hpushes.elim
      | invariant => exact hpushes.elim
    rw [ProducerOk, hphase] at hproducer
    rw [if_neg hstatus, haccepted, hproducer.none, Option.getD_none, List.append_nil]

theorem inv_beginTake (h : Inv capacity a p c) (hphase : c.phase = .idle) :
    Inv capacity { a with inTake := none, avail := none } p
      { index := c.index, phase := .taking } := by
  have hconsumer := h.consumer
  rw [ConsumerOk, hphase] at hconsumer
  refine ⟨h.head, h.tail, h.producerIndex, h.consumerIndex, h.fifo, h.bound, h.live, h.accepted, ?_,
    h.producer.grow rfl rfl rfl (Nat.le_refl _) rfl,
    ⟨rfl, rfl, Nat.le_refl 0, h.fifo.length_le, ?_⟩⟩
  · have hreturned := h.returned
    rwa [hconsumer] at hreturned
  · change a.taken ++ [] <+: a.pushed
    rw [List.append_nil]
    exact h.fifo

theorem inv_loadHead (h : Inv capacity a p c) (hphase : c.phase = .taking) :
    (a.memory.head - c.index).toNat ≤ capacity.size ∧ c.free ≤ (a.memory.head - c.index).toNat ∧
    Inv capacity { a with avail := some (a.pushed.length - a.taken.length) } p
      { c with reach := some (a.memory.head - c.index).toNat } := by
  have hconsumer := h.consumer
  rw [ConsumerOk, hphase] at hconsumer
  have hbound := h.bound
  have hfifo := h.fifo.length_le
  have hpublished := hconsumer.published
  have hwithin := hconsumer.within
  have hdistance : (a.memory.head - c.index).toNat = a.pushed.length - a.taken.length := by
    rw [h.consumerIndex, h.distance]
  rw [hdistance]
  refine ⟨by omega, by omega, h.head, h.tail, h.producerIndex, h.consumerIndex, h.fifo, h.bound,
    h.live, h.accepted, h.returned, h.producer.grow rfl rfl rfl (Nat.le_refl _) rfl, ?_⟩
  rw [ConsumerOk, hphase]
  refine ⟨hconsumer.none, rfl, ?_, ?_, hconsumer.read⟩
  · change c.moved.length ≤ a.pushed.length - a.taken.length
    omega
  · change a.taken.length + (a.pushed.length - a.taken.length) ≤ a.pushed.length
    omega

/-- The next item of a reader. -/
theorem Taking.next (h : Inv capacity a p c) (htaking : Taking a c)
    (hfree : c.moved.length < c.free) :
    a.taken ++ (c.moved ++ [a.memory.slots (c.position capacity)]) <+: a.pushed := by
  have hpublished := htaking.published
  have hlt : a.taken.length + c.moved.length < a.pushed.length := by omega
  have hitem : a.memory.slots (c.position capacity) =
      a.pushed[a.taken.length + c.moved.length] := by
    rw [Watch.position, h.consumerIndex, h.tail, slot_ofNat]
    exact h.live _ hlt (Nat.le_add_right _ _)
  obtain ⟨rest, hrest⟩ := htaking.read
  have hlength : (a.taken ++ c.moved).length = a.taken.length + c.moved.length :=
    List.length_append
  cases rest with
  | nil =>
      rw [List.append_nil] at hrest
      rw [← hrest, hlength] at hlt
      exact absurd hlt (Nat.lt_irrefl _)
  | cons item rest =>
      refine ⟨rest, ?_⟩
      have hnext : a.pushed[a.taken.length + c.moved.length] = item := by
        simp only [← hrest, ← hlength]
        simp
      rw [hitem, hnext, ← hrest]
      simp

theorem inv_readSlot (h : Inv capacity a p c) (hphase : c.phase = .taking)
    (hfree : c.moved.length < c.free) :
    Inv capacity a p
      { c with moved := c.moved ++ [a.memory.slots (c.position capacity)] } := by
  have hconsumer := h.consumer
  rw [ConsumerOk, hphase] at hconsumer
  refine ⟨h.head, h.tail, h.producerIndex, h.consumerIndex, h.fifo, h.bound, h.live, h.accepted,
    h.returned, h.producer, ?_⟩
  rw [ConsumerOk, hphase]
  refine ⟨hconsumer.none, hconsumer.avail, ?_, hconsumer.published, Taking.next h hconsumer hfree⟩
  simpa [Watch.free, Nat.succ_le_iff] using hfree

/-- The items that a stored tail gives back are the oldest ones. -/
theorem Inv.oldest (h : Inv capacity a p c) {count : Nat}
    (hcount : a.taken.length + count ≤ a.pushed.length) :
    ringItems capacity a.memory.slots a.memory.tail count =
      (a.pushed.drop a.taken.length).take count := by
  have hlength : ((a.pushed.drop a.taken.length).take count).length = count := by
    rw [List.length_take, List.length_drop]
    omega
  have hitems : ringItems capacity a.memory.slots (UInt32.ofNat a.taken.length)
      ((a.pushed.drop a.taken.length).take count).length =
        (a.pushed.drop a.taken.length).take count := by
    refine ringItems_eq fun offset hlt => ?_
    rw [List.getElem_take, List.getElem_drop]
    exact h.live _ (by omega) (Nat.le_add_right _ _)
  rwa [hlength, ← h.tail] at hitems

theorem Inv.take_drop (h : Inv capacity a p c) (count : Nat) :
    a.taken ++ (a.pushed.drop a.taken.length).take count = a.pushed.take
      (a.taken.length + count) := by
  have hfifo := List.prefix_iff_eq_take.mp h.fifo
  rw [List.take_add, ← hfifo]

theorem inv_storeTail {count : Nat} (h : Inv capacity a p c) (hphase : c.phase = .taking)
    (hcount : count ≤ c.free) :
    Inv capacity
      { a with
        memory.tail := c.index + UInt32.ofNat count
        taken := a.taken ++ (a.pushed.drop a.taken.length).take count
        inTake := some ((a.pushed.drop a.taken.length).take count) }
      p { c with index := c.index + UInt32.ofNat count, phase := .taken count } := by
  have hconsumer := h.consumer
  rw [ConsumerOk, hphase] at hconsumer
  have hpublished := hconsumer.published
  have hbound := h.bound
  have hlength : ((a.pushed.drop a.taken.length).take count).length = count := by
    rw [List.length_take, List.length_drop]
    omega
  have htaken : (a.taken ++ (a.pushed.drop a.taken.length).take count).length =
      a.taken.length + count := by
    rw [List.length_append, hlength]
  refine ⟨h.head, ?_, h.producerIndex, rfl, ?_, ?_, ?_, h.accepted, ?_,
    h.producer.grow rfl rfl rfl ?_ rfl, ⟨_, rfl, hlength, ?_⟩⟩
  · rw [htaken]
    change c.index + UInt32.ofNat count = UInt32.ofNat (a.taken.length + count)
    rw [h.consumerIndex, h.tail, UInt32.ofNat_add]
  · change a.taken ++ _ <+: a.pushed
    rw [h.take_drop]
    exact List.take_prefix _ _
  · rw [htaken]
    change a.pushed.length ≤ a.taken.length + count + capacity.size
    omega
  · intro number hlt hle
    rw [htaken] at hle
    exact h.live number hlt (by omega)
  · have hreturned := h.returned
    rw [hconsumer.none, Option.getD_none, List.append_nil] at hreturned
    change a.taken ++ _ = a.returned ++ _
    rw [← hreturned]
    rfl
  · rw [htaken]
    exact Nat.le_add_right _ _
  · intro hmoved
    have hread := List.prefix_iff_eq_take.mp hconsumer.read
    rw [List.length_append, show c.moved.length = count from hmoved, ← h.take_drop] at hread
    exact (List.append_cancel_left hread).symm

theorem inv_finishTake {call : TakeCall} {items : List α} {status : RingStatus}
    (h : Inv capacity a p c) (htakes : c.takes refusals call items status) :
    Inv capacity (a.finishTake call items status) p { index := c.index } := by
  have hconsumer := h.consumer
  have hreturned := h.returned
  have hkeep : ∀ returned, a.taken = returned →
      Inv capacity { a with returned := returned, inTake := none } p { index := c.index } := by
    intro returned htaken
    refine ⟨h.head, h.tail, h.producerIndex, h.consumerIndex, h.fifo, h.bound, h.live,
      h.accepted, ?_, h.producer.grow rfl rfl rfl (Nat.le_refl _) rfl, rfl⟩
    rw [htaken]
    exact (List.append_nil _).symm
  have htaking : c.phase = .taking → a.taken = a.returned := by
    intro hphase
    rw [ConsumerOk, hphase] at hconsumer
    rw [hreturned, hconsumer.none, Option.getD_none, List.append_nil]
  cases status with
  | ok =>
      obtain ⟨rfl, hkind⟩ := htakes
      unfold Audit.finishTake
      dsimp only
      cases hcall : call.kind with
      | look =>
          simp only [hcall] at hkind
          exact hkeep a.returned (htaking hkind.1)
      | drop => exact hkeep _ hreturned
      | take =>
          simp only [hcall] at hkind
          rw [ConsumerOk, hkind.1] at hconsumer
          obtain ⟨items, hinTake, -, hsame⟩ := hconsumer
          refine hkeep _ ?_
          rw [hreturned, hinTake, ← hsame hkind.2]
          rfl
  | empty => exact hkeep a.returned (htaking htakes.1)
  | argument => exact hkeep a.returned (htaking htakes.1)
  | full => exact htakes.elim
  | invariant => exact htakes.elim

theorem inv_producer {request : RingOp α Call Ask Detail} {reply : Result request}
    {memory' : RingMemory α} (h : Inv capacity a p c)
    (hacts : Acts a.memory request reply memory') :
    (producerMonitor capacity refusals).expects p ⟨request, reply⟩ ∧
      ∀ p', (producerMonitor capacity refusals).observe p ⟨request, reply⟩ = some p' →
        Inv capacity (a.add capacity (.producer, ⟨request, reply⟩)) p' c ∧
          (a.add capacity (.producer, ⟨request, reply⟩)).memory = memory' := by
  cases hacts with
  | loadHead =>
      refine ⟨h.producerIndex.symm, ?_⟩
      rintro p' ⟨⟩
      exact ⟨h, rfl⟩
  | loadTail =>
      constructor
      · have hbound := h.bound
        change (p.index - a.memory.tail).toNat ≤ capacity.size
        rw [h.producerIndex, h.distance]
        omega
      · intro p' hobserve
        simp only [producerMonitor, observeProducer] at hobserve
        split at hobserve
        · rename_i hphase
          cases hobserve
          exact ⟨(inv_loadTail h hphase).2, rfl⟩
        · cases hobserve
  | writeSlot position item =>
      refine ⟨trivial, fun p' hobserve => ?_⟩
      simp only [producerMonitor, observeProducer] at hobserve
      split at hobserve
      · rename_i hwrite
        cases hobserve
        obtain ⟨hphase, rfl, hfree⟩ := hwrite
        exact ⟨inv_writeSlot h hphase hfree, rfl⟩
      · cases hobserve
  | storeHead index =>
      refine ⟨trivial, fun p' hobserve => ?_⟩
      simp only [producerMonitor, observeProducer] at hobserve
      split at hobserve
      · rename_i hstore
        cases hobserve
        obtain ⟨hphase, rfl⟩ := hstore
        refine ⟨?_, rfl⟩
        have hproducer := h.producer
        rw [ProducerOk, hphase] at hproducer
        have hwithin := hproducer.within
        have hfree := hproducer.free
        have hsize := capacity.size_lt
        have hfifo := h.fifo.length_le
        have hitems : ringItems capacity a.memory.slots a.memory.head
            (p.index + UInt32.ofNat p.moved.length - a.memory.head).toNat = p.moved := by
          rw [h.producerIndex, add_sub_toNat _ (by omega), h.head]
          exact ringItems_eq hproducer.written
        rw [Audit.add]
        dsimp only
        rw [hitems]
        exact inv_storeHead h hphase
      · cases hobserve
  | beginPush call =>
      refine ⟨trivial, fun p' hobserve => ?_⟩
      simp only [producerMonitor, observeProducer] at hobserve
      split at hobserve
      · rename_i hphase
        cases hobserve
        exact ⟨inv_beginPush h hphase, rfl⟩
      · cases hobserve
  | finishPush detail items status =>
      refine ⟨trivial, fun p' hobserve => ?_⟩
      simp only [producerMonitor, observeProducer] at hobserve
      split at hobserve
      · rename_i hpushes
        cases hobserve
        exact ⟨inv_finishPush h hpushes, rfl⟩
      · cases hobserve
  | _ => exact ⟨trivial, fun p' hobserve => nomatch hobserve⟩

theorem finishTake_memory (call : TakeCall) (items : List α) (status : RingStatus) :
    (a.finishTake call items status).memory = a.memory := by
  unfold Audit.finishTake
  split
  · split <;> rfl
  · rfl

theorem inv_consumer {request : RingOp α Call Ask Detail} {reply : Result request}
    {memory' : RingMemory α} (h : Inv capacity a p c)
    (hacts : Acts a.memory request reply memory') :
    (consumerMonitor capacity refusals).expects c ⟨request, reply⟩ ∧
      ∀ c', (consumerMonitor capacity refusals).observe c ⟨request, reply⟩ = some c' →
        Inv capacity (a.add capacity (.consumer, ⟨request, reply⟩)) p c' ∧
          (a.add capacity (.consumer, ⟨request, reply⟩)).memory = memory' := by
  cases hacts with
  | loadTail =>
      refine ⟨h.consumerIndex.symm, ?_⟩
      rintro c' ⟨⟩
      exact ⟨h, rfl⟩
  | loadHead =>
      constructor
      · intro hphase
        obtain ⟨hsize, hfree, -⟩ := inv_loadHead h hphase
        exact ⟨hsize, hfree⟩
      · intro c' hobserve
        simp only [consumerMonitor, observeConsumer] at hobserve
        split at hobserve
        · rename_i hphase
          cases hobserve
          exact ⟨(inv_loadHead h hphase).2.2, rfl⟩
        · cases hobserve
  | readSlot position =>
      refine ⟨trivial, fun c' hobserve => ?_⟩
      simp only [consumerMonitor, observeConsumer] at hobserve
      split at hobserve
      · rename_i hread
        cases hobserve
        obtain ⟨hphase, rfl, hfree⟩ := hread
        exact ⟨inv_readSlot h hphase hfree, rfl⟩
      · cases hobserve
  | storeTail index =>
      refine ⟨trivial, fun c' hobserve => ?_⟩
      simp only [consumerMonitor, observeConsumer] at hobserve
      split at hobserve
      · rename_i hstore
        cases hobserve
        obtain ⟨hphase, hcount⟩ := hstore
        refine ⟨?_, rfl⟩
        have hconsumer := h.consumer
        rw [ConsumerOk, hphase] at hconsumer
        have hpublished := hconsumer.published
        have hitems : ringItems capacity a.memory.slots a.memory.tail
            (index - a.memory.tail).toNat =
              (a.pushed.drop a.taken.length).take (index - c.index).toNat := by
          rw [h.oldest (by rw [← h.consumerIndex]; omega), h.consumerIndex]
        have hindex : index = c.index + UInt32.ofNat (index - c.index).toNat := by
          rw [UInt32.ofNat_toNat, UInt32.add_comm, UInt32.sub_add_cancel]
        rw [Audit.add]
        dsimp only
        rw [hitems]
        have hstored := inv_storeTail h hphase hcount
        rwa [← hindex] at hstored
      · cases hobserve
  | beginTake call =>
      refine ⟨trivial, fun c' hobserve => ?_⟩
      simp only [consumerMonitor, observeConsumer] at hobserve
      split at hobserve
      · rename_i hphase
        cases hobserve
        exact ⟨inv_beginTake h hphase, rfl⟩
      · cases hobserve
  | finishTake call items status =>
      refine ⟨trivial, fun c' hobserve => ?_⟩
      simp only [consumerMonitor, observeConsumer] at hobserve
      split at hobserve
      · rename_i htakes
        cases hobserve
        exact ⟨inv_finishTake h htakes, finishTake_memory call items status⟩
      · cases hobserve
  | _ => exact ⟨trivial, fun c' hobserve => nomatch hobserve⟩

end Invariant

section Contract

/-- What a push that returns may say. -/
def Audit.pushAnswer (refusals : Refusals α Detail) (a : Audit α) (detail : Detail)
    (items : List α) : RingStatus → Prop
  | .ok => a.inPush = some items
  | .full => a.inPush = none ∧ ∃ room, a.room = some room ∧ room < items.length
  | .argument => a.inPush = none ∧ refusals.push detail items
  | _ => False

/-- What a look, a drop or a take that returns may say. -/
def Audit.takeAnswer (refusals : Refusals α Detail) (a : Audit α) (call : TakeCall)
    (items : List α) : RingStatus → Prop
  | .ok =>
      match call.kind with
      | .look => a.inTake = none ∧ items.length = call.count ∧ a.taken ++ items <+: a.pushed
      | .drop => ∃ dropped, a.inTake = some dropped ∧ dropped.length = call.count
      | .take => a.inTake = some items ∧ items.length = call.count
  | .empty => a.inTake = none ∧ ∃ avail, a.avail = some avail ∧ avail < call.count
  | .argument => a.inTake = none ∧ refusals.take call
  | _ => False

/-- What a step may do to the slots, and what it may answer: no published item is overwritten
before it is given back. -/
def Audit.admits (capacity : Capacity) (refusals : Refusals α Detail) (a : Audit α) :
    Side × RingLabel α Call Ask Detail → Prop
  | (_, ⟨.writeSlot position _, _⟩) => position < capacity.size ∧
      ∀ number, a.taken.length ≤ number → number < a.pushed.length →
        number % capacity.size ≠ position
  | (_, ⟨.readSlot position, _⟩) => position < capacity.size
  | (_, ⟨.finishPush detail items status, _⟩) => a.pushAnswer refusals detail items status
  | (_, ⟨.finishTake call items status, _⟩) => a.takeAnswer refusals call items status
  | _ => True

/-- A ring that has started from `start` is a bounded queue after these labels. -/
structure RingContract (capacity : Capacity) (refusals : Refusals α Detail) (start : RingMemory α)
    (labels : List (Side × RingLabel α Call Ask Detail)) (memory : RingMemory α) : Prop where
  follows : (audit capacity start labels).memory = memory
  fifo : (audit capacity start labels).taken <+: (audit capacity start labels).pushed
  accepted : (audit capacity start labels).pushed =
    (audit capacity start labels).accepted ++ (audit capacity start labels).inPush.getD []
  returned : (audit capacity start labels).taken =
    (audit capacity start labels).returned ++ (audit capacity start labels).inTake.getD []
  occupancy : (memory.head - memory.tail).toNat =
    (audit capacity start labels).pushed.length - (audit capacity start labels).taken.length
  bound : (memory.head - memory.tail).toNat ≤ capacity.size
  admits : AtEach (fun earlier label =>
    (audit capacity start earlier).admits capacity refusals label) labels

variable {a : Audit α} {p c w : Watch α} {request : RingOp α Call Ask Detail}
  {reply : Result request}

theorem pushAnswer_of_pushes {detail : Detail} {items : List α} {status : RingStatus}
    (h : ProducerOk capacity a p) (hpushes : p.pushes refusals detail items status) :
    a.pushAnswer refusals detail items status := by
  cases status with
  | ok =>
      obtain ⟨hphase, rfl⟩ := hpushes
      rwa [ProducerOk, hphase] at h
  | full =>
      obtain ⟨hphase, -, room, hreach, hlt⟩ := hpushes
      rw [ProducerOk, hphase] at h
      exact ⟨h.none, room, h.room.trans hreach, hlt⟩
  | argument =>
      obtain ⟨hphase, -, hrefused⟩ := hpushes
      rw [ProducerOk, hphase] at h
      exact ⟨h.none, hrefused⟩
  | empty => exact hpushes.elim
  | invariant => exact hpushes.elim

theorem takeAnswer_of_takes {call : TakeCall} {items : List α} {status : RingStatus}
    (h : ConsumerOk a c) (htakes : c.takes refusals call items status) :
    a.takeAnswer refusals call items status := by
  cases status with
  | ok =>
      obtain ⟨rfl, hkind⟩ := htakes
      rw [Audit.takeAnswer]
      cases hcall : call.kind with
      | look =>
          simp only [hcall] at hkind
          rw [ConsumerOk, hkind.1] at h
          exact ⟨h.none, hkind.2, h.read⟩
      | drop =>
          simp only [hcall] at hkind
          rw [ConsumerOk, hkind] at h
          obtain ⟨items, hinTake, hlength, -⟩ := h
          exact ⟨items, hinTake, hlength⟩
      | take =>
          simp only [hcall] at hkind
          rw [ConsumerOk, hkind.1] at h
          obtain ⟨items, hinTake, hlength, hsame⟩ := h
          rw [← hsame hkind.2]
          exact ⟨hinTake, hlength⟩
  | empty =>
      obtain ⟨hphase, -, avail, hreach, hlt⟩ := htakes
      rw [ConsumerOk, hphase] at h
      exact ⟨h.none, avail, h.avail.trans hreach, hlt⟩
  | argument =>
      obtain ⟨hphase, -, hrefused⟩ := htakes
      rw [ConsumerOk, hphase] at h
      exact ⟨h.none, hrefused⟩
  | full => exact htakes.elim
  | invariant => exact htakes.elim

theorem admits_producer (h : Inv capacity a p c)
    (hobserve : (producerMonitor capacity refusals).observe p ⟨request, reply⟩ = some w) :
    a.admits capacity refusals (.producer, ⟨request, reply⟩) := by
  cases request with
  | writeSlot position item =>
      simp only [producerMonitor, observeProducer] at hobserve
      split at hobserve
      · rename_i hwrite
        obtain ⟨hphase, rfl, hfree⟩ := hwrite
        have hproducer := h.producer
        rw [ProducerOk, hphase] at hproducer
        refine ⟨Nat.mod_lt _ capacity.size_pos, fun number hlow hhigh => ?_⟩
        rw [Watch.position, h.producerIndex, h.head, slot_ofNat]
        exact hproducer.apart hfree hlow (Nat.lt_add_right _ hhigh)
      · cases hobserve
  | finishPush detail items status =>
      simp only [producerMonitor, observeProducer] at hobserve
      split at hobserve
      · rename_i hpushes
        exact pushAnswer_of_pushes h.producer hpushes
      · cases hobserve
  | readSlot position => cases hobserve
  | finishTake call items status => cases hobserve
  | _ => trivial

theorem admits_consumer (h : Inv capacity a p c)
    (hobserve : (consumerMonitor capacity refusals).observe c ⟨request, reply⟩ = some w) :
    a.admits capacity refusals (.consumer, ⟨request, reply⟩) := by
  cases request with
  | readSlot position =>
      simp only [consumerMonitor, observeConsumer] at hobserve
      split at hobserve
      · rename_i hread
        obtain ⟨-, rfl, -⟩ := hread
        exact Nat.mod_lt _ capacity.size_pos
      · cases hobserve
  | finishTake call items status =>
      simp only [consumerMonitor, observeConsumer] at hobserve
      split at hobserve
      · rename_i htakes
        exact takeAnswer_of_takes h.consumer htakes
      · cases hobserve
  | writeSlot position item => cases hobserve
  | finishPush detail items status => cases hobserve
  | _ => trivial

variable {Outcome : Side → Type} {start last : System Side (RingOp α Call Ask Detail) Result Outcome
  (RingMemory α)} {labels : List (Side × RingLabel α Call Ask Detail)} {slots : Nat → α}

/-- Two sides that keep to the monitors of a ring make it a bounded queue. -/
theorem ring_contract {post : (side : Side) → Watch α → Outcome side → Prop}
    (hrun : Run (Step Acts) start labels last)
    (hwatched : ∀ side, Watched (monitors capacity refusals side) (post side)
      (start.threads side) {})
    (hstart : start.state = ⟨0, 0, slots⟩) :
    RingContract capacity refusals start.state labels last.state := by
  obtain ⟨watches, ⟨hinv, hmemory, hadmits⟩, -⟩ := system_invariant
    (I := fun labels memory watches =>
      Inv capacity (audit capacity start.state labels) (watches .producer) (watches .consumer) ∧
      (audit capacity start.state labels).memory = memory ∧
      AtEach (fun earlier label => (audit capacity start.state earlier).admits capacity
        refusals label) labels)
    (run_stepIf hrun) hwatched
    ⟨by rw [hstart]; exact inv_initial slots, rfl, atEach_nil _⟩ (by
      rintro labels memory watches side request reply memory' ⟨hinv, rfl, hadmits⟩ - hacts
      cases side with
      | producer =>
          obtain ⟨hexpects, hnext⟩ := inv_producer hinv hacts
          refine ⟨hexpects, fun w hobserve => ?_⟩
          rw [audit_snoc, atEach_snoc_iff]
          obtain ⟨hinv', hmemory'⟩ := hnext w hobserve
          exact ⟨hinv', hmemory', hadmits, admits_producer hinv hobserve⟩
      | consumer =>
          obtain ⟨hexpects, hnext⟩ := inv_consumer hinv hacts
          refine ⟨hexpects, fun w hobserve => ?_⟩
          rw [audit_snoc, atEach_snoc_iff]
          obtain ⟨hinv', hmemory'⟩ := hnext w hobserve
          exact ⟨hinv', hmemory', hadmits, admits_consumer hinv hobserve⟩)
  have hdistance := hinv.distance
  rw [hmemory] at hdistance
  refine ⟨hmemory, hinv.fifo, hinv.accepted, hinv.returned, hdistance, ?_, hadmits⟩
  have hbound := hinv.bound
  rw [hdistance]
  omega

end Contract

end EspNp2.Library.SharedRing
