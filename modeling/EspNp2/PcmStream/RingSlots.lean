import Mathlib.Logic.Function.Basic
import EspNp2.Library.Overwriting
import EspNp2.LiveService.PcmOutput

/-!
The ring of eight slots that carries the rendered PCM to the output. A slot that is only partly
filled lies behind the published ones; the slots are used again and again.
-/

namespace EspNp2.PcmStream.RingSlots

open EspNp2.Library.Overwriting
open EspNp2.LiveService.ServiceMemory
open EspNp2.LiveService.PcmOutput

section Ring

def slotBytes : ℕ := quantumFrames * bytesPerFrame

def flagFinalPartial : UInt16 := 1

/-- The greatest size of an object in the memory of the target. -/
def sizeMax : ℕ := 2 ^ 32 - 1

structure Slot where
  frameOffset : UInt64 := 0
  sequence : UInt32 := 0
  validFrames : ℕ := 0
  flags : UInt16 := 0
  pcm : List UInt8 := List.replicate slotBytes 0
deriving DecidableEq, Repr

structure SlotRing where
  slots : Fin ringCapacity → Slot := fun _ => {}
  head : UInt32 := 0
  tail : UInt32 := 0
  nextFrameOffset : UInt64 := 0
  nextSequence : UInt32 := 0
  partialValidFrames : ℕ := 0
  finalized : Bool := false

/-- The slot of an index, which counts on through all rounds of the ring. -/
def slotIndex (index : UInt32) : Fin ringCapacity :=
  ⟨(index &&& 7).toNat, by
    rw [UInt32.toNat_and]
    exact Nat.lt_succ_of_le Nat.and_le_right⟩

def SlotRing.occupancy (ring : SlotRing) : UInt32 := ring.head - ring.tail

/-- The slot at the head, with more frames in it. -/
def SlotRing.copyFrames (ring : SlotRing) (pcm : List UInt8) (chunk : ℕ) : Slot :=
  let slot := ring.slots (slotIndex ring.head)
  let slot := if ring.partialValidFrames = 0 then
      { slot with
        frameOffset := ring.nextFrameOffset
        sequence := ring.nextSequence
        flags := 0 }
    else slot
  { slot with
    pcm := overwrite slot.pcm (ring.partialValidFrames * bytesPerFrame)
      (pcm.take (chunk * bytesPerFrame)) }

/-- A round of the loop of `np2opngen_pcm_ring_append`. -/
def SlotRing.appendChunk (ring : SlotRing) (pcm : List UInt8) (chunk : ℕ) : SlotRing :=
  let slot := ring.copyFrames pcm chunk
  let valid := ring.partialValidFrames + chunk
  let next := ring.nextFrameOffset + UInt64.ofNat chunk
  if valid = quantumFrames then
    { ring with
      slots := Function.update ring.slots (slotIndex ring.head)
        { slot with validFrames := quantumFrames, flags := 0 }
      head := ring.head + 1
      nextFrameOffset := next
      nextSequence := ring.nextSequence + 1
      partialValidFrames := 0 }
  else
    { ring with
      slots := Function.update ring.slots (slotIndex ring.head) slot
      nextFrameOffset := next
      partialValidFrames := valid }

/-- The loop of `np2opngen_pcm_ring_append`. A round takes a frame at least, so as many
rounds as frames are enough. -/
def SlotRing.appendLoop (pcm : List UInt8) (frameCount : ℕ) :
    ℕ → SlotRing → ℕ → RingStatus × ℕ × SlotRing
  | 0, ring, consumed => (.ok, consumed, ring)
  | rounds + 1, ring, consumed =>
      if frameCount ≤ consumed then (.ok, consumed, ring)
      else if ring.occupancy.toNat > ringCapacity then (.invariant, consumed, ring)
      else if ring.occupancy.toNat = ringCapacity then (.full, consumed, ring)
      else
        let available := quantumFrames - ring.partialValidFrames
        let chunk := min (frameCount - consumed) available
        appendLoop pcm frameCount rounds
          (ring.appendChunk (pcm.drop (consumed * bytesPerFrame)) chunk) (consumed + chunk)

def SlotRing.append (ring : SlotRing) (pcm : List UInt8) (frameCount : ℕ) (frameOffset : UInt64) :
    RingStatus × ℕ × SlotRing :=
  if frameCount > sizeMax / bytesPerFrame then (.argument, 0, ring)
  else if ring.finalized then (.finalized, 0, ring)
  else if frameOffset ≠ ring.nextFrameOffset then (.offset, 0, ring)
  else if UInt64.ofNat frameCount > (-1 : UInt64) - frameOffset then (.argument, 0, ring)
  else ring.appendLoop pcm frameCount frameCount 0

def SlotRing.tryPeek (ring : SlotRing) : RingStatus × Option Slot :=
  if ring.occupancy.toNat > ringCapacity then (.invariant, none)
  else if ring.head = ring.tail then (.empty, none)
  else (.ok, some (ring.slots (slotIndex ring.tail)))

def SlotRing.consume (ring : SlotRing) : RingStatus × SlotRing :=
  if ring.occupancy.toNat > ringCapacity then (.invariant, ring)
  else if ring.head = ring.tail then (.empty, ring)
  else (.ok, { ring with tail := ring.tail + 1 })

def SlotRing.finish (ring : SlotRing) (finalFrame : UInt64) : RingStatus × SlotRing :=
  if ring.finalized then (.finalized, ring)
  else if finalFrame ≠ ring.nextFrameOffset then (.offset, ring)
  else if ring.partialValidFrames = 0 then (.ok, { ring with finalized := true })
  else if ring.occupancy.toNat > ringCapacity then (.invariant, ring)
  else if ring.occupancy.toNat = ringCapacity then (.full, ring)
  else
    (.ok,
      { ring with
        slots := Function.update ring.slots (slotIndex ring.head)
          { ring.slots (slotIndex ring.head) with
            validFrames := ring.partialValidFrames
            flags := flagFinalPartial }
        head := ring.head + 1
        nextSequence := ring.nextSequence + 1
        partialValidFrames := 0
        finalized := true })

end Ring

section Queue

/-- What the sink is shown of a slot: its valid bytes. -/
def Slot.view (slot : Slot) : SinkView where
  pcm := slot.pcm.take (slot.validFrames * bytesPerFrame)
  frameOffset := slot.frameOffset
  sequence := slot.sequence
  validFrames := slot.validFrames
  finalPartial := slot.flags = flagFinalPartial

structure Slot.Sound (slot : Slot) : Prop where
  size : slot.pcm.length = slotBytes
  flags : slot.flags = 0 ∨ slot.flags = flagFinalPartial

/-- The ring of slots holds what a queue of views holds, and a partly filled slot behind it. -/
structure Shows (ring : SlotRing) (queue : PcmRing) : Prop where
  head : ring.head = ring.tail + UInt32.ofNat queue.slots.length
  room : queue.slots.length ≤ ringCapacity
  view : ∀ i (h : i < queue.slots.length),
    (ring.slots (slotIndex (ring.tail + UInt32.ofNat i))).view = queue.slots[i]
  sound : ∀ i, (ring.slots i).Sound
  nextFrameOffset : ring.nextFrameOffset = queue.nextFrameOffset
  nextSequence : ring.nextSequence = queue.nextSequence
  partialValidFrames : ring.partialValidFrames = queue.partialValidFrames
  finalized : ring.finalized = queue.finalized
  partialLt : queue.partialValidFrames < quantumFrames
  unfilled : queue.partialValidFrames = 0 → queue.partialPcm = []
  filling : queue.partialValidFrames ≠ 0 → queue.slots.length < ringCapacity ∧
    (ring.slots (slotIndex ring.head)).frameOffset = queue.partialOffset ∧
    (ring.slots (slotIndex ring.head)).sequence = queue.nextSequence ∧
    (ring.slots (slotIndex ring.head)).pcm.take (queue.partialValidFrames * bytesPerFrame) =
      queue.partialPcm

theorem shows_nil : Shows {} {} where
  head := rfl
  room := Nat.zero_le _
  view i h := absurd h (Nat.not_lt_zero i)
  sound _ := ⟨List.length_replicate, .inl rfl⟩
  nextFrameOffset := rfl
  nextSequence := rfl
  partialValidFrames := rfl
  finalized := rfl
  partialLt := by decide
  unfilled _ := rfl
  filling h := absurd rfl h

theorem slotIndex_val (index : UInt32) : (slotIndex index).val = index.toNat % 8 := by
  change (index &&& 7).toNat = _
  rw [UInt32.toNat_and]
  exact Nat.and_two_pow_sub_one_eq_mod index.toNat 3

/-- Less than a round apart, two indices have slots of their own. -/
theorem slotIndex_ne (start : UInt32) {i j : ℕ} (hij : i < j) (hj : j < 8) :
    slotIndex (start + UInt32.ofNat i) ≠ slotIndex (start + UInt32.ofNat j) := by
  intro h
  have hval := congrArg Fin.val h
  simp only [slotIndex_val, UInt32.toNat_add, UInt32.toNat_ofNat'] at hval
  omega

variable {ring : SlotRing} {queue : PcmRing} {pcm : List UInt8} {chunk : ℕ}

theorem Shows.occupancy (h : Shows ring queue) : ring.occupancy.toNat = queue.slots.length := by
  have hroom := h.room
  rw [ringCapacity] at hroom
  rw [SlotRing.occupancy, h.head, UInt32.add_comm, UInt32.add_sub_cancel, UInt32.toNat_ofNat']
  omega

theorem Shows.head_eq_tail_iff (h : Shows ring queue) :
    ring.head = ring.tail ↔ queue.slots = [] := by
  rw [← List.length_eq_zero_iff, ← h.occupancy, SlotRing.occupancy]
  constructor
  · intro heq
    rw [heq, UInt32.sub_self]
    rfl
  · intro hzero
    have hsub : ring.head - ring.tail = 0 := UInt32.toNat_inj.mp hzero
    rw [← UInt32.sub_add_cancel ring.head ring.tail, hsub, UInt32.zero_add]

/-- The slot at the head is none of those that are published. -/
theorem Shows.view_update (h : Shows ring queue) (hroom : queue.slots.length < ringCapacity)
    (slot : Slot) {i : ℕ} (hi : i < queue.slots.length) :
    (Function.update ring.slots (slotIndex ring.head) slot
      (slotIndex (ring.tail + UInt32.ofNat i))).view = queue.slots[i] := by
  rw [Function.update_of_ne, h.view i hi]
  rw [h.head]
  exact slotIndex_ne ring.tail hi hroom

/-- When the slot at the head is published, it is the last of the queue. -/
theorem Shows.view_publish (h : Shows ring queue) (hroom : queue.slots.length < ringCapacity)
    (slot : Slot) {view : SinkView} (hview : slot.view = view) {i : ℕ}
    (hi : i < (queue.slots ++ [view]).length) :
    (Function.update ring.slots (slotIndex ring.head) slot
      (slotIndex (ring.tail + UInt32.ofNat i))).view = (queue.slots ++ [view])[i] := by
  rw [List.length_append, List.length_singleton] at hi
  rcases Nat.lt_succ_iff_lt_or_eq.mp hi with hlt | heq
  · rw [h.view_update hroom slot hlt, List.getElem_append_left hlt]
  · subst heq
    rw [List.getElem_concat_length rfl, ← h.head, Function.update_self, hview]

theorem Shows.sound_update (h : Shows ring queue) {slot : Slot} (hslot : slot.Sound) (i) :
    (Function.update ring.slots (slotIndex ring.head) slot i).Sound := by
  rw [Function.update_apply]
  split
  · exact hslot
  · exact h.sound i

/-- The slot at the head holds the frames of the queue's last quantum, and the new ones. -/
theorem Shows.copyFrames (h : Shows ring queue)
    (hchunk : queue.partialValidFrames + chunk ≤ quantumFrames)
    (henough : chunk * bytesPerFrame ≤ pcm.length) :
    let slot := ring.copyFrames pcm chunk
    slot.Sound ∧
      slot.frameOffset = (if queue.partialValidFrames = 0 then queue.nextFrameOffset
        else queue.partialOffset) ∧
      slot.sequence = queue.nextSequence ∧
      slot.pcm.take ((queue.partialValidFrames + chunk) * bytesPerFrame) =
        queue.partialPcm ++ pcm.take (chunk * bytesPerFrame) := by
  obtain ⟨hsize, hflags⟩ := h.sound (slotIndex ring.head)
  have hlength : (pcm.take (chunk * bytesPerFrame)).length = chunk * bytesPerFrame := by
    rw [List.length_take, Nat.min_eq_left henough]
  have hfits : (queue.partialValidFrames + chunk) * bytesPerFrame ≤ slotBytes :=
    Nat.mul_le_mul_right _ hchunk
  rw [Nat.add_mul] at hfits
  have hbuffer : queue.partialValidFrames * bytesPerFrame +
      (pcm.take (chunk * bytesPerFrame)).length ≤
        (ring.slots (slotIndex ring.head)).pcm.length := by omega
  have htake := overwrite_take (pcm.take (chunk * bytesPerFrame))
    (Nat.le_trans (Nat.le_add_right _ _) hbuffer)
  have hover := overwrite_length hbuffer
  rw [hlength, ← Nat.add_mul] at htake
  simp only [SlotRing.copyFrames, h.partialValidFrames, h.nextFrameOffset, h.nextSequence]
  by_cases hzero : queue.partialValidFrames = 0
  · simp only [if_pos hzero]
    refine ⟨⟨hover.trans hsize, .inl rfl⟩, trivial, trivial, ?_⟩
    rw [htake, hzero, h.unfilled hzero, Nat.zero_mul, List.take_zero]
  · obtain ⟨_, hoffset, hsequence, hpcm⟩ := h.filling hzero
    simp only [if_neg hzero]
    refine ⟨⟨hover.trans hsize, hflags⟩, hoffset, hsequence, ?_⟩
    rw [htake, hpcm]

theorem Shows.appendChunk (h : Shows ring queue) (hroom : queue.slots.length < ringCapacity)
    (hchunk : queue.partialValidFrames + chunk ≤ quantumFrames) (hpositive : 0 < chunk)
    (henough : chunk * bytesPerFrame ≤ pcm.length) :
    Shows (ring.appendChunk pcm chunk) (queue.fill pcm chunk) := by
  obtain ⟨hsound, hoffset, hsequence, hpcm⟩ := h.copyFrames hchunk henough
  rw [SlotRing.appendChunk, PcmRing.fill, h.partialValidFrames, h.nextFrameOffset, h.nextSequence]
  split
  case isTrue hfull =>
    rw [hfull] at hpcm
    constructor
    case head =>
      change ring.head + 1 = ring.tail + UInt32.ofNat (queue.slots ++ [_]).length
      rw [List.length_append, h.head, UInt32.ofNat_add, UInt32.add_assoc]
      rfl
    case room =>
      change (queue.slots ++ [_]).length ≤ ringCapacity
      rw [List.length_append]
      exact hroom
    case view =>
      refine fun i hi => h.view_publish hroom _ ?_ hi
      simp only [Slot.view, hpcm, hoffset, hsequence]
      rfl
    case sound => exact h.sound_update ⟨hsound.size, .inl rfl⟩
    case finalized => exact h.finalized
    case partialLt => exact Nat.succ_pos _
    case filling => exact fun hzero => absurd rfl hzero
    all_goals intros; rfl
  case isFalse hshort =>
    constructor
    case head => exact h.head
    case room => exact h.room
    case view => exact fun i hi => h.view_update hroom _ hi
    case sound => exact h.sound_update hsound
    case finalized => exact h.finalized
    case partialLt => exact Nat.lt_of_le_of_ne hchunk hshort
    case unfilled => exact fun hzero => absurd hzero (by dsimp only; omega)
    case filling =>
      intro _
      simp only [Function.update_self]
      exact ⟨hroom, hoffset, hsequence, hpcm⟩
    all_goals rfl

theorem Shows.appendLoop {frameCount : ℕ} (henough : frameCount * bytesPerFrame ≤ pcm.length)
    (rounds : ℕ) {consumed : ℕ} (h : Shows ring queue) (hconsumed : consumed ≤ frameCount) :
    let result := ring.appendLoop pcm frameCount rounds consumed
    let expected := queue.appendRounds rounds (pcm.drop (consumed * bytesPerFrame))
      (frameCount - consumed)
    result.1 = expected.1 ∧ result.2.1 = consumed + expected.2.1 ∧
      Shows result.2.2 expected.2.2 := by
  induction rounds generalizing ring queue consumed with
  | zero => exact ⟨rfl, rfl, h⟩
  | succ rounds ih =>
      rw [SlotRing.appendLoop, PcmRing.appendRounds, h.occupancy, PcmRing.occupancy]
      by_cases hdone : frameCount ≤ consumed
      · rw [if_pos hdone, if_pos (Nat.sub_eq_zero_of_le hdone)]
        exact ⟨rfl, rfl, h⟩
      have hmore : frameCount - consumed ≠ 0 := Nat.sub_ne_zero_of_lt (Nat.lt_of_not_le hdone)
      rw [if_neg hdone, if_neg hmore, if_neg (Nat.not_lt_of_le h.room),
        if_neg (Nat.not_lt_of_le h.room)]
      by_cases hfull : queue.slots.length = ringCapacity
      · rw [if_pos hfull, if_pos hfull]
        exact ⟨rfl, rfl, h⟩
      rw [if_neg hfull, if_neg hfull, h.partialValidFrames]
      have hpartial := h.partialLt
      set chunk := min (frameCount - consumed) (quantumFrames - queue.partialValidFrames)
      have hbytes : (consumed + chunk) * bytesPerFrame ≤ pcm.length :=
        Nat.le_trans (Nat.mul_le_mul_right _ (by omega)) henough
      have hdrop : chunk * bytesPerFrame ≤ (pcm.drop (consumed * bytesPerFrame)).length := by
        rw [Nat.add_mul] at hbytes
        rw [List.length_drop]
        omega
      have hfits : queue.partialValidFrames + chunk ≤ quantumFrames := by omega
      have hnext : consumed + chunk ≤ frameCount := by omega
      have hchunk := h.appendChunk (Nat.lt_of_le_of_ne h.room hfull) hfits (by omega) hdrop
      obtain ⟨hstatus, hcount, hshows⟩ := ih hchunk hnext
      rw [Nat.sub_add_eq, Nat.add_mul, ← List.drop_drop] at hstatus hcount hshows
      exact ⟨hstatus, hcount.trans (Nat.add_assoc _ _ _), hshows⟩

theorem Shows.append (h : Shows ring queue) {frameCount : ℕ} (frameOffset : UInt64)
    (henough : frameCount * bytesPerFrame ≤ pcm.length) (hsize : pcm.length ≤ sizeMax) :
    let result := ring.append pcm frameCount frameOffset
    let expected := queue.append pcm frameCount frameOffset
    result.1 = expected.1 ∧ result.2.1 = expected.2.1 ∧ Shows result.2.2 expected.2.2 := by
  have hcount : ¬ frameCount > sizeMax / bytesPerFrame := by
    rw [Nat.not_lt, Nat.le_div_iff_mul_le (by decide)]
    exact Nat.le_trans henough hsize
  rw [SlotRing.append, PcmRing.append, if_neg hcount, h.finalized, h.nextFrameOffset]
  split
  case isTrue => exact ⟨rfl, rfl, h⟩
  split
  case isTrue => exact ⟨rfl, rfl, h⟩
  split
  case isTrue => exact ⟨rfl, rfl, h⟩
  case isFalse =>
    obtain ⟨hstatus, hconsumed, hshows⟩ := h.appendLoop henough frameCount (Nat.zero_le _)
    rw [Nat.zero_mul, List.drop_zero, Nat.sub_zero] at hstatus hconsumed hshows
    exact ⟨hstatus, hconsumed.trans (Nat.zero_add _), hshows⟩

theorem Shows.finish (h : Shows ring queue) (finalFrame : UInt64) :
    (ring.finish finalFrame).1 = (queue.finish finalFrame).1 ∧
      Shows (ring.finish finalFrame).2 (queue.finish finalFrame).2 := by
  rw [SlotRing.finish, PcmRing.finish, h.occupancy, PcmRing.occupancy, h.finalized,
    h.nextFrameOffset, h.partialValidFrames]
  split
  case isTrue => exact ⟨rfl, h⟩
  split
  case isTrue => exact ⟨rfl, h⟩
  split
  case isTrue =>
    exact ⟨rfl, { h with nextFrameOffset := rfl, partialValidFrames := rfl, finalized := rfl }⟩
  case isFalse hpositive =>
    split
    case isTrue => exact ⟨rfl, h⟩
    split
    case isTrue => exact ⟨rfl, h⟩
    case isFalse hfull =>
      obtain ⟨hroom, hoffset, hsequence, hpcm⟩ := h.filling hpositive
      refine ⟨rfl, ?_⟩
      constructor
      case head =>
        change ring.head + 1 = ring.tail + UInt32.ofNat (queue.slots ++ [_]).length
        rw [List.length_append, h.head, UInt32.ofNat_add, UInt32.add_assoc]
        rfl
      case room =>
        change (queue.slots ++ [_]).length ≤ ringCapacity
        rw [List.length_append]
        exact hroom
      case view =>
        refine fun i hi => h.view_publish hroom _ ?_ hi
        simp only [Slot.view, hpcm, hoffset, hsequence]
        rfl
      case sound => exact h.sound_update ⟨(h.sound _).size, .inr rfl⟩
      case nextSequence =>
        change ring.nextSequence + 1 = queue.nextSequence + 1
        rw [h.nextSequence]
      case partialLt => exact Nat.succ_pos _
      case filling => exact fun hzero => absurd rfl hzero
      all_goals intros; rfl

theorem Shows.tryPeek_nil (h : Shows ring queue) (hslots : queue.slots = []) :
    ring.tryPeek = (.empty, none) := by
  rw [SlotRing.tryPeek, h.occupancy, if_neg (Nat.not_lt_of_le h.room),
    if_pos (h.head_eq_tail_iff.mpr hslots)]

theorem Shows.tryPeek_cons (h : Shows ring queue) {view : SinkView} {views : List SinkView}
    (hslots : queue.slots = view :: views) :
    ∃ slot, ring.tryPeek = (.ok, some slot) ∧ slot.Sound ∧ slot.view = view := by
  have hne : ring.head ≠ ring.tail := by
    rw [Ne, h.head_eq_tail_iff, hslots]
    exact List.cons_ne_nil _ _
  refine ⟨ring.slots (slotIndex ring.tail), ?_, h.sound _, ?_⟩
  · rw [SlotRing.tryPeek, h.occupancy, if_neg (Nat.not_lt_of_le h.room), if_neg hne]
  · have hfirst := h.view 0 (by rw [hslots]; exact Nat.succ_pos _)
    simpa [hslots] using hfirst

theorem Shows.consume (h : Shows ring queue) {view : SinkView} {views : List SinkView}
    (hslots : queue.slots = view :: views) :
    ring.consume.1 = .ok ∧ Shows ring.consume.2 { queue with slots := views } := by
  have hne : ring.head ≠ ring.tail := by
    rw [Ne, h.head_eq_tail_iff, hslots]
    exact List.cons_ne_nil _ _
  have hroom := h.room
  rw [SlotRing.consume, h.occupancy, if_neg (Nat.not_lt_of_le h.room), if_neg hne]
  rw [hslots, List.length_cons] at hroom
  refine ⟨rfl, ?_⟩
  constructor
  case head =>
    change ring.head = ring.tail + 1 + UInt32.ofNat views.length
    rw [h.head, hslots, List.length_cons, Nat.add_comm, UInt32.ofNat_add, UInt32.add_assoc]
    rfl
  case room => exact Nat.le_of_succ_le hroom
  case view =>
    intro i hi
    have hindex : ring.tail + 1 + UInt32.ofNat i = ring.tail + UInt32.ofNat (i + 1) := by
      rw [Nat.add_comm, UInt32.ofNat_add, UInt32.add_assoc]
      rfl
    have hnext := h.view (i + 1) (by rw [hslots]; exact Nat.succ_lt_succ hi)
    change (ring.slots (slotIndex (ring.tail + 1 + UInt32.ofNat i))).view = views[i]
    rw [hindex, hnext]
    simp only [hslots, List.getElem_cons_succ]
  case filling =>
    intro hpositive
    obtain ⟨_, hfilling⟩ := h.filling hpositive
    exact ⟨hroom, hfilling⟩
  case sound => exact h.sound
  case nextFrameOffset => exact h.nextFrameOffset
  case nextSequence => exact h.nextSequence
  case partialValidFrames => exact h.partialValidFrames
  case finalized => exact h.finalized
  case partialLt => exact h.partialLt
  case unfilled => exact h.unfilled

end Queue

end EspNp2.PcmStream.RingSlots
