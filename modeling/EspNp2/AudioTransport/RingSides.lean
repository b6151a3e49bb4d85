import EspNp2.AudioTransport.TransportRings

/-!
The sides of the transport rings keep to the monitors of a shared ring.
-/

namespace EspNp2.AudioTransport.RingSides

open Library.Concurrent
open Library.SharedRing
open TransportRings
open LiveService.ServiceMemory (Event)

def eventRing : Capacity := ⟨7, by decide⟩

def byteRing : Capacity := ⟨16, by decide⟩

def spscRing : Capacity := ⟨3, by decide⟩

/-- A push of a reset barrier turns down an event that is none, and any behind the last ordinal. -/
def eventRefusals : Refusals Event (Option UInt32) where
  push detail events := ∃ ordinal event, detail = some ordinal ∧ events = [event] ∧
    (event.opcode ≠ eventResetBarrier ∨ ordinal = 0xffffffff)
  take _ := False

def byteRefusals : Refusals UInt8 Unit where
  push _ bytes := byteRing.size < bytes.length
  take call := byteRing.size < call.count

def spscRefusals {E : Type} : Refusals E Unit where
  push _ _ := False
  take _ := False

/-- The mask of a ring takes an index to its slot. -/
theorem and_mask {capacity : Capacity} {size : UInt32} (hsize : size.toNat = capacity.size)
    (index : UInt32) : (index &&& (size - 1)).toNat = index.toNat % capacity.size := by
  have hpos := capacity.size_pos
  have hle : (1 : UInt32) ≤ size := by
    rw [UInt32.le_iff_toNat_le, hsize]
    exact hpos
  rw [UInt32.toNat_and, UInt32.toNat_sub_of_le _ _ hle, hsize]
  exact Nat.and_two_pow_sub_one_eq_mod index.toNat capacity.bits

theorem distance_pos {head tail : UInt32} (hne : head ≠ tail) : 0 < (head - tail).toNat := by
  rw [Nat.pos_iff_ne_zero]
  intro hzero
  apply hne
  rw [← UInt32.sub_add_cancel head tail, UInt32.toNat_inj.mp
    (show _ = (0 : UInt32).toNat from hzero), UInt32.zero_add]

theorem eventCapacity_size : eventCapacity.toNat = eventRing.size := by decide

theorem byteCapacity_size : byteCapacity.toNat = byteRing.size := by decide

theorem spscCapacity_size : spscCapacity.toNat = spscRing.size := by decide

section EventRing

variable {w : Watch Event} {event : Event}

theorem watched_eventRingEnqueue (hphase : w.phase = .pushing) (hmoved : w.moved = []) :
    Watched (producerMonitor eventRing eventRefusals) (fun w status =>
        ∀ detail, w.pushes eventRefusals detail [event] status)
      (eventRingEnqueue event) w := by
  refine pushing_loadHead ?_
  refine pushing_loadTail hphase fun tail htail => ?_
  dsimp only [Thread.bind]
  split
  · rename_i hover
    rw [gt_iff_lt, UInt32.lt_iff_toNat_lt] at hover
    exact absurd htail (Nat.not_le.mpr hover)
  split
  · rename_i hfull
    refine watched_done_iff.mpr fun _ => ⟨hphase, hmoved, _, rfl, ?_⟩
    rw [hfull, eventCapacity_size, Nat.sub_self]
    exact Nat.one_pos
  · rename_i hroom
    have hlt : (w.index - tail).toNat < eventRing.size := by
      refine Nat.lt_of_le_of_ne htail fun heq => hroom ?_
      exact UInt32.toNat_inj.mp heq
    refine pushing_writeSlot hphase ?_ ?_ ?_
    · rw [and_mask eventCapacity_size]
      simp [Watch.position, hmoved]
    · change w.moved.length < eventRing.size - (w.index - tail).toNat
      rw [hmoved, List.length_nil]
      omega
    · refine pushing_storeHead hphase ?_ ?_
      · simp [hmoved]
      · exact watched_done_iff.mpr fun _ => ⟨rfl, by simp [hmoved]⟩

theorem watched_resetEventRingEnqueue (ordinal : UInt32) (hphase : w.phase = .pushing)
    (hmoved : w.moved = []) :
    Watched (producerMonitor eventRing eventRefusals) (fun w result =>
        w.pushes eventRefusals (some result.2.2) [result.2.1] result.1)
      (resetEventRingEnqueue event ordinal) w := by
  unfold resetEventRingEnqueue
  split
  · rename_i hrefused
    exact watched_done_iff.mpr ⟨hphase, hmoved, ordinal, event, rfl, rfl, hrefused⟩
  · refine Watched.bind ((watched_eventRingEnqueue hphase hmoved).mono ?_)
    intro w status hpushes
    exact watched_done_iff.mpr (hpushes _)

theorem watched_eventProducer (ordinal : UInt32) :
    Watched (producerMonitor eventRing eventRefusals) (fun _ _ => True)
      (eventProducer ordinal) {} := by
  refine watched_iterate (fun w _ => w.phase = .idle) rfl ?_
  intro w ordinal hidle
  refine watched_beginPush hidle fun call => ?_
  cases call with
  | enqueue event =>
      change Watched _ _ (Thread.bind (eventRingEnqueue event) _) _
      refine Watched.bind ((watched_eventRingEnqueue rfl rfl).mono ?_)
      intro w status hpushes
      exact watched_finishPush (hpushes none) (watched_done_iff.mpr rfl)
  | resetEnqueue event =>
      change Watched _ _ (Thread.bind (resetEventRingEnqueue event ordinal) _) _
      refine Watched.bind ((watched_resetEventRingEnqueue ordinal rfl rfl).mono ?_)
      rintro w ⟨status, published, ordinal'⟩ hpushes
      exact watched_finishPush hpushes (watched_done_iff.mpr rfl)

/-- What a peek leaves: a slot that may be read, or an answer. -/
def Peeked (w : Watch Event) (result : RingStatus × Option Nat) : Prop :=
  w.phase = .taking ∧ w.moved = [] ∧ match result with
    | (.ok, some position) => position = w.position eventRing ∧ 0 < w.free
    | (.empty, none) => w.reach = some 0
    | _ => False

theorem watched_eventRingPeek (hphase : w.phase = .taking) (hmoved : w.moved = []) :
    Watched (consumerMonitor eventRing eventRefusals) Peeked eventRingPeek w := by
  refine taking_loadTail ?_
  refine taking_loadHead hphase fun head hhead _ => ?_
  dsimp only [Thread.bind]
  split
  · rename_i hover
    rw [gt_iff_lt, UInt32.lt_iff_toNat_lt] at hover
    exact absurd hhead (Nat.not_le.mpr hover)
  split
  · rename_i hempty
    refine watched_done_iff.mpr ⟨hphase, hmoved, ?_⟩
    rw [hempty, UInt32.sub_self]
    rfl
  · rename_i hne
    refine watched_done_iff.mpr ⟨hphase, hmoved, ?_, ?_⟩
    · rw [and_mask eventCapacity_size]
      simp [Watch.position, hmoved]
    · exact distance_pos hne

/-- A consume takes the event that has been seen, and without one it may find none. -/
theorem watched_eventRingConsume (hphase : w.phase = .taking) :
    Watched (consumerMonitor eventRing eventRefusals) (fun w' status => w'.moved = w.moved ∧
        (status = .ok ∧ w'.phase = .taken 1 ∨
          status = .empty ∧ w.free = 0 ∧ w'.phase = .taking ∧ w'.reach = some 0))
      eventRingConsume w := by
  refine taking_loadTail ?_
  refine taking_loadHead hphase fun head hhead hfree => ?_
  dsimp only [Thread.bind]
  split
  · rename_i hover
    rw [gt_iff_lt, UInt32.lt_iff_toNat_lt] at hover
    exact absurd hhead (Nat.not_le.mpr hover)
  split
  · rename_i hempty
    rw [hempty, UInt32.sub_self] at hfree ⊢
    exact watched_done_iff.mpr ⟨rfl, .inr ⟨rfl, Nat.le_zero.mp hfree, hphase, rfl⟩⟩
  · rename_i hne
    refine taking_storeTail 1 hphase rfl ?_ (by decide) ?_
    · exact distance_pos hne
    · exact watched_done_iff.mpr ⟨rfl, .inl ⟨rfl, rfl⟩⟩

theorem watched_eventRingDequeue (hphase : w.phase = .taking) (hmoved : w.moved = []) :
    Watched (consumerMonitor eventRing eventRefusals) (fun w result => w.takes eventRefusals
      ⟨.take, 1⟩ result.2 result.1)
      eventRingDequeue w := by
  change Watched _ _ (Thread.bind eventRingPeek _) _
  refine Watched.bind ((watched_eventRingPeek hphase hmoved).mono ?_)
  rintro w ⟨status, slot⟩ ⟨hphase, hmoved, hpeeked⟩
  cases slot with
  | none =>
      cases status with
      | empty => exact watched_done_iff.mpr ⟨hphase, hmoved, 0, hpeeked, Nat.one_pos⟩
      | _ => exact hpeeked.elim
  | some position =>
      cases status with
      | ok =>
          obtain ⟨hposition, hfree⟩ := hpeeked
          refine taking_readSlot hphase hposition ?_ fun event => ?_
          · rwa [hmoved, List.length_nil]
          · change Watched _ _ (Thread.bind eventRingConsume _) _
            refine Watched.bind ((watched_eventRingConsume
              (w := { w with moved := w.moved ++ [event] }) hphase).mono ?_)
            rintro w' status ⟨hsame, ⟨rfl, htaken⟩ | ⟨-, hzero, -, -⟩⟩
            · refine watched_done_iff.mpr ⟨?_, htaken, ?_⟩
              · simp [hsame, hmoved]
              · simp [hsame, hmoved]
            · exact absurd hzero (Nat.ne_of_gt hfree)
      | _ => exact hpeeked.elim

theorem watched_eventConsumer :
    Watched (consumerMonitor eventRing eventRefusals) (fun _ _ => True) eventConsumer {} := by
  refine watched_iterate (fun w _ => w.phase = .idle) rfl ?_
  rintro w ⟨⟩ hidle
  refine watched_beginTake hidle fun ask => ?_
  cases ask with
  | peek =>
      change Watched _ _ (Thread.bind eventRingPeek _) _
      refine Watched.bind ((watched_eventRingPeek rfl rfl).mono ?_)
      rintro w ⟨status, slot⟩ ⟨hphase, hmoved, hpeeked⟩
      cases slot with
      | none =>
          cases status with
          | empty =>
              refine watched_finishTake ?_ (watched_done_iff.mpr rfl)
              exact ⟨hphase, hmoved, 0, hpeeked, Nat.one_pos⟩
          | _ => exact hpeeked.elim
      | some position =>
          cases status with
          | ok =>
              obtain ⟨hposition, hfree⟩ := hpeeked
              refine taking_readSlot hphase hposition ?_ fun event => ?_
              · rwa [hmoved, List.length_nil]
              · refine watched_finishTake ?_ (watched_done_iff.mpr rfl)
                exact ⟨by simp [hmoved], hphase, by simp [hmoved]⟩
          | _ => exact hpeeked.elim
  | consume =>
      change Watched _ _ (Thread.bind eventRingConsume _) _
      refine Watched.bind ((watched_eventRingConsume rfl).mono ?_)
      rintro w' status ⟨hsame, ⟨rfl, htaken⟩ | ⟨rfl, -, hphase, hreach⟩⟩
      · exact watched_finishTake ⟨hsame.symm, htaken⟩ (watched_done_iff.mpr rfl)
      · refine watched_finishTake ?_ (watched_done_iff.mpr rfl)
        exact ⟨hphase, hsame, 0, hreach, Nat.one_pos⟩
  | dequeue =>
      change Watched _ _ (Thread.bind eventRingDequeue _) _
      refine Watched.bind ((watched_eventRingDequeue rfl rfl).mono ?_)
      rintro w ⟨status, events⟩ htakes
      exact watched_finishTake htakes (watched_done_iff.mpr rfl)

end EventRing

section ByteRing

variable {w : Watch UInt8}

theorem bytePosition_eq (index : UInt32) : bytePosition index = index.toNat % byteRing.size :=
  and_mask byteCapacity_size index

/-- The slot behind one that is not the last. -/
theorem position_next {moved : List UInt8} {position : Nat} {index : UInt32} (byte : UInt8)
    (hposition : position = (index.toNat + moved.length) % byteRing.size)
    (hend : position + 1 < byteRing.size) :
    position + 1 = (index.toNat + (moved ++ [byte]).length) % byteRing.size := by
  have hmod := Nat.mod_eq_of_lt hend
  rw [List.length_append, List.length_singleton, ← Nat.add_assoc, ← hmod, hposition,
    Nat.mod_add_mod]

/-- A copy that does not wrap. -/
theorem watched_writeBytes {bytes : List UInt8} {position : Nat} (hphase : w.phase = .pushing)
    (hposition : bytes ≠ [] → position = w.position byteRing)
    (hend : position + bytes.length ≤ byteRing.size)
    (hfree : w.moved.length + bytes.length ≤ w.free) :
    Watched (producerMonitor byteRing byteRefusals)
      (fun w' _ => w' = { w with moved := w.moved ++ bytes })
      (writeBytes position bytes) w := by
  induction bytes generalizing w position with
  | nil => exact watched_done_iff.mpr (by simp)
  | cons byte bytes ih =>
      rw [List.length_cons] at hend hfree
      refine pushing_writeSlot hphase (hposition (List.cons_ne_nil _ _)) (by omega) ?_
      change Watched _ _ (writeBytes (position + 1) bytes) _
      refine Watched.mono (ih (w := { w with moved := w.moved ++ [byte] }) hphase ?_
        (by omega) ?_) ?_
      · intro hne
        have hlength := List.length_pos_iff.mpr hne
        exact position_next byte (hposition (List.cons_ne_nil _ _)) (by omega)
      · change (w.moved ++ [byte]).length + bytes.length ≤ w.free
        rw [List.length_append, List.length_singleton]
        omega
      · rintro w' ⟨⟩ rfl
        simp

theorem watched_readBytes {count position : Nat} (hphase : w.phase = .taking)
    (hposition : count ≠ 0 → position = w.position byteRing)
    (hend : position + count ≤ byteRing.size) (hfree : w.moved.length + count ≤ w.free) :
    Watched (consumerMonitor byteRing byteRefusals) (fun w' bytes => bytes.length = count ∧
        w' = { w with moved := w.moved ++ bytes })
      (readBytes position count) w := by
  induction count generalizing w position with
  | zero => exact watched_done_iff.mpr (by simp)
  | succ count ih =>
      refine taking_readSlot hphase (hposition (Nat.succ_ne_zero _)) (by omega) fun byte => ?_
      change Watched _ _ (Thread.bind (readBytes (position + 1) count) _) _
      refine Watched.bind (Watched.mono (ih (w := { w with moved := w.moved ++ [byte] })
        hphase ?_ (by omega) ?_) ?_)
      · intro hne
        exact position_next byte (hposition (Nat.succ_ne_zero _)) (by omega)
      · change (w.moved ++ [byte]).length + count ≤ w.free
        rw [List.length_append, List.length_singleton]
        omega
      · rintro w' bytes ⟨hlength, rfl⟩
        exact watched_done_iff.mpr ⟨by simp [hlength], by simp⟩

/-- A first part that is not the whole ends at the end of the buffer. -/
theorem firstPart_wraps {index : UInt32} {count : Nat} (hlt : firstPart index count < count) :
    (index.toNat + firstPart index count) % byteRing.size = 0 := by
  have hmod := Nat.mod_lt index.toNat byteRing.size_pos
  have hfirst : firstPart index count = byteRing.size - index.toNat % byteRing.size := by
    rw [firstPart, bytePosition_eq, byteCapacity_size] at hlt ⊢
    omega
  rw [hfirst, ← Nat.mod_add_mod, Nat.add_sub_of_le (Nat.le_of_lt hmod), Nat.mod_self]

theorem firstPart_le (index : UInt32) (count : Nat) : firstPart index count ≤ count :=
  Nat.min_le_right _ _

theorem position_firstPart (index : UInt32) (count : Nat) :
    bytePosition index + firstPart index count ≤ byteRing.size := by
  have hmod := Nat.mod_lt index.toNat byteRing.size_pos
  rw [firstPart, bytePosition_eq, byteCapacity_size]
  omega

theorem watched_byteRingPush {bytes : List UInt8} (hphase : w.phase = .pushing)
    (hmoved : w.moved = []) :
    Watched (producerMonitor byteRing byteRefusals) (fun w status => w.pushes byteRefusals
      () bytes status)
      (byteRingPush bytes) w := by
  unfold byteRingPush
  split
  · rename_i hlarge
    rw [byteCapacity_size] at hlarge
    exact watched_done_iff.mpr ⟨hphase, hmoved, hlarge⟩
  rename_i hfits
  refine pushing_loadHead ?_
  refine pushing_loadTail hphase fun tail htail => ?_
  dsimp only [Thread.bind]
  have hle : w.index - tail ≤ byteCapacity := by
    rw [UInt32.le_iff_toNat_le, byteCapacity_size]
    exact htail
  rw [if_neg (UInt32.not_lt.mpr hle), UInt32.toNat_sub_of_le _ _ hle, byteCapacity_size]
  split
  · rename_i hfull
    exact watched_done_iff.mpr ⟨hphase, hmoved, _, rfl, hfull⟩
  · rename_i hroom
    have hfirst := firstPart_le w.index bytes.length
    change Watched _ _ (Thread.bind (writeBytes (bytePosition w.index) _) _) _
    refine Watched.bind (Watched.mono (watched_writeBytes hphase ?_ ?_ ?_) ?_)
    · intro _
      simp [bytePosition_eq, Watch.position, hmoved]
    · rw [List.length_take, Nat.min_eq_left hfirst]
      exact position_firstPart w.index bytes.length
    · rw [List.length_take, Nat.min_eq_left hfirst, hmoved]
      change 0 + _ ≤ byteRing.size - (w.index - tail).toNat
      omega
    rintro w' ⟨⟩ rfl
    change Watched _ _ (Thread.bind (writeBytes 0 _) _) _
    refine Watched.bind (Watched.mono (watched_writeBytes hphase ?_ ?_ ?_) ?_)
    · intro hne
      have hlength := List.length_pos_iff.mpr hne
      rw [List.length_drop] at hlength
      simp only [Watch.position, hmoved, List.nil_append, List.length_take,
        Nat.min_eq_left hfirst]
      exact (firstPart_wraps (by omega)).symm
    · rw [List.length_drop]
      have hsize := byteCapacity_size
      omega
    · simp only [hmoved, List.nil_append, List.length_take, List.length_drop,
        Nat.min_eq_left hfirst]
      change _ ≤ byteRing.size - (w.index - tail).toNat
      omega
    rintro w' ⟨⟩ rfl
    refine pushing_storeHead hphase ?_ ?_
    · simp [hmoved]
    · exact watched_done_iff.mpr ⟨rfl, by simp [hmoved]⟩

theorem watched_byteProducer :
    Watched (producerMonitor byteRing byteRefusals) (fun _ _ => True) byteProducer {} := by
  refine watched_iterate (fun w _ => w.phase = .idle) rfl ?_
  rintro w ⟨⟩ hidle
  refine watched_beginPush hidle fun bytes => ?_
  change Watched _ _ (Thread.bind (byteRingPush bytes) _) _
  refine Watched.bind ((watched_byteRingPush rfl rfl).mono ?_)
  intro w status hpushes
  exact watched_finishPush hpushes (watched_done_iff.mpr rfl)

/-- What a copy leaves: the bytes that it has read, or an answer. -/
def Copied (count : Nat) (w : Watch UInt8) (result : RingStatus × List UInt8) : Prop :=
  w.phase = .taking ∧ match result.1 with
    | .ok => result.2 = w.moved ∧ w.moved.length = count ∧ count ≤ w.free ∧ count ≤ byteRing.size
    | .empty => w.moved = [] ∧ ∃ avail, w.reach = some avail ∧ avail < count
    | .argument => w.moved = [] ∧ byteRing.size < count
    | _ => False

theorem watched_byteRingCopy (count : Nat) (hphase : w.phase = .taking) (hmoved : w.moved = []) :
    Watched (consumerMonitor byteRing byteRefusals) (Copied count) (byteRingCopy count) w := by
  unfold byteRingCopy
  split
  · rename_i hlarge
    rw [byteCapacity_size] at hlarge
    exact watched_done_iff.mpr ⟨hphase, hmoved, hlarge⟩
  rename_i hfits
  refine taking_loadTail ?_
  refine taking_loadHead hphase fun head hhead _ => ?_
  dsimp only [Thread.bind]
  have hle : head - w.index ≤ byteCapacity := by
    rw [UInt32.le_iff_toNat_le, byteCapacity_size]
    exact hhead
  rw [if_neg (UInt32.not_lt.mpr hle)]
  split
  · rename_i hempty
    exact watched_done_iff.mpr ⟨hphase, hmoved, _, rfl, hempty⟩
  · rename_i havail
    have hfirst := firstPart_le w.index count
    change Watched _ _ (Thread.bind (readBytes (bytePosition w.index) _) _) _
    refine Watched.bind (Watched.mono (watched_readBytes hphase ?_ ?_ ?_) ?_)
    · intro _
      simp [bytePosition_eq, Watch.position, hmoved]
    · exact position_firstPart w.index count
    · rw [hmoved]
      change 0 + _ ≤ (head - w.index).toNat
      omega
    rintro w' front ⟨hfront, rfl⟩
    change Watched _ _ (Thread.bind (readBytes 0 _) _) _
    refine Watched.bind (Watched.mono (watched_readBytes hphase ?_ ?_ ?_) ?_)
    · intro hne
      simp only [Watch.position, hmoved, List.nil_append, hfront]
      exact (firstPart_wraps (by omega)).symm
    · have hsize := byteCapacity_size
      omega
    · simp only [hmoved, List.nil_append, hfront]
      change _ ≤ (head - w.index).toNat
      omega
    rintro w' back ⟨hback, rfl⟩
    refine watched_done_iff.mpr ⟨hphase, ?_, ?_, ?_, ?_⟩
    · simp [hmoved]
    · simp only [hmoved, List.nil_append, List.length_append, hfront, hback]
      omega
    · exact Nat.not_lt.mp havail
    · exact byteCapacity_size ▸ Nat.not_lt.mp hfits

/-- A consume takes the bytes that have been seen, and otherwise it may find too few. -/
theorem watched_byteRingConsume (count : Nat) (hphase : w.phase = .taking) :
    Watched (consumerMonitor byteRing byteRefusals) (fun w' status => w'.moved = w.moved ∧
      match status with
        | .ok => w'.phase = .taken count
        | .empty => w.free < count ∧ w'.phase = .taking ∧
            ∃ avail, w'.reach = some avail ∧ avail < count
        | .argument => byteRing.size < count ∧ w'.phase = .taking
        | _ => False)
      (byteRingConsume count) w := by
  unfold byteRingConsume
  split
  · rename_i hlarge
    rw [byteCapacity_size] at hlarge
    exact watched_done_iff.mpr ⟨rfl, hlarge, hphase⟩
  rename_i hfits
  refine taking_loadTail ?_
  refine taking_loadHead hphase fun head hhead hfree => ?_
  dsimp only [Thread.bind]
  have hle : head - w.index ≤ byteCapacity := by
    rw [UInt32.le_iff_toNat_le, byteCapacity_size]
    exact hhead
  rw [if_neg (UInt32.not_lt.mpr hle)]
  split
  · rename_i hempty
    exact watched_done_iff.mpr ⟨rfl, Nat.lt_of_le_of_lt hfree hempty, hphase, _, rfl, hempty⟩
  · rename_i havail
    have hsize := byteRing.size_lt
    rw [byteCapacity_size] at hfits
    refine taking_storeTail count hphase rfl (Nat.not_lt.mp havail) (by omega) ?_
    exact watched_done_iff.mpr ⟨rfl, rfl⟩

theorem watched_byteRingPop (count : Nat) (hphase : w.phase = .taking) (hmoved : w.moved = []) :
    Watched (consumerMonitor byteRing byteRefusals) (fun w result => w.takes byteRefusals
      ⟨.take, count⟩ result.2 result.1)
      (byteRingPop count) w := by
  change Watched _ _ (Thread.bind (byteRingCopy count) _) _
  refine Watched.bind ((watched_byteRingCopy count hphase hmoved).mono ?_)
  rintro w ⟨status, bytes⟩ ⟨hphase, hcopied⟩
  cases status with
  | ok =>
      obtain ⟨hbytes, hlength, hfree, hsize⟩ := hcopied
      change Watched _ _ (Thread.bind (byteRingConsume count) _) _
      refine Watched.bind ((watched_byteRingConsume count hphase).mono ?_)
      rintro w' status ⟨hsame, hstatus⟩
      cases status with
      | ok => exact watched_done_iff.mpr ⟨hbytes.trans hsame.symm, hstatus, hsame ▸ hlength⟩
      | empty => exact absurd hfree (Nat.not_le.mpr hstatus.1)
      | argument => exact absurd hsize (Nat.not_le.mpr hstatus.1)
      | full => exact hstatus.elim
      | invariant => exact hstatus.elim
  | empty => exact watched_done_iff.mpr ⟨hphase, hcopied.1, hcopied.2⟩
  | argument => exact watched_done_iff.mpr ⟨hphase, hcopied⟩
  | full => exact hcopied.elim
  | invariant => exact hcopied.elim

theorem watched_byteConsumer :
    Watched (consumerMonitor byteRing byteRefusals) (fun _ _ => True) byteConsumer {} := by
  refine watched_iterate (fun w _ => w.phase = .idle) rfl ?_
  rintro w ⟨⟩ hidle
  refine watched_beginTake hidle fun ask => ?_
  cases ask with
  | copy count =>
      change Watched _ _ (Thread.bind (byteRingCopy count) _) _
      refine Watched.bind ((watched_byteRingCopy count rfl rfl).mono ?_)
      rintro w ⟨status, bytes⟩ ⟨hphase, hcopied⟩
      refine watched_finishTake ?_ (watched_done_iff.mpr rfl)
      cases status with
      | ok => exact ⟨hcopied.1, hphase, hcopied.2.1⟩
      | empty => exact ⟨hphase, hcopied.1, hcopied.2⟩
      | argument => exact ⟨hphase, hcopied⟩
      | full => exact hcopied.elim
      | invariant => exact hcopied.elim
  | consume count =>
      change Watched _ _ (Thread.bind (byteRingConsume count) _) _
      refine Watched.bind ((watched_byteRingConsume count rfl).mono ?_)
      rintro w' status ⟨hsame, hstatus⟩
      refine watched_finishTake ?_ (watched_done_iff.mpr rfl)
      cases status with
      | ok => exact ⟨hsame.symm, hstatus⟩
      | empty => exact ⟨hstatus.2.1, hsame, hstatus.2.2⟩
      | argument => exact ⟨hstatus.2, hsame, hstatus.1⟩
      | full => exact hstatus.elim
      | invariant => exact hstatus.elim
  | pop count =>
      change Watched _ _ (Thread.bind (byteRingPop count) _) _
      refine Watched.bind ((watched_byteRingPop count rfl rfl).mono ?_)
      rintro w ⟨status, bytes⟩ htakes
      exact watched_finishTake htakes (watched_done_iff.mpr rfl)

end ByteRing

section SynthQueue

variable {E : Type} {w : Watch E} {event : E}

theorem watched_spscEnqueue (hphase : w.phase = .pushing) (hmoved : w.moved = []) :
    Watched (producerMonitor spscRing spscRefusals) (fun w status => w.pushes spscRefusals
      () [event] status)
      (spscEnqueue event) w := by
  refine pushing_loadHead ?_
  refine pushing_loadTail hphase fun tail htail => ?_
  dsimp only [Thread.bind]
  split
  · rename_i hfull
    refine watched_done_iff.mpr ⟨hphase, hmoved, _, rfl, ?_⟩
    rw [hfull, spscCapacity_size, Nat.sub_self]
    exact Nat.one_pos
  · rename_i hroom
    have hlt : (w.index - tail).toNat < spscRing.size := by
      refine Nat.lt_of_le_of_ne htail fun heq => hroom ?_
      exact UInt32.toNat_inj.mp heq
    refine pushing_writeSlot hphase ?_ ?_ ?_
    · rw [and_mask spscCapacity_size]
      simp [Watch.position, hmoved]
    · change w.moved.length < spscRing.size - (w.index - tail).toNat
      rw [hmoved, List.length_nil]
      omega
    · refine pushing_storeHead hphase ?_ ?_
      · simp [hmoved]
      · exact watched_done_iff.mpr ⟨rfl, by simp [hmoved]⟩

theorem watched_spscProducer :
    Watched (producerMonitor spscRing spscRefusals) (fun _ _ => True)
      (spscProducer (E := E)) {} := by
  refine watched_iterate (fun w _ => w.phase = .idle) rfl ?_
  rintro w ⟨⟩ hidle
  refine watched_beginPush hidle fun event => ?_
  change Watched _ _ (Thread.bind (spscEnqueue event) _) _
  refine Watched.bind ((watched_spscEnqueue rfl rfl).mono ?_)
  intro w status hpushes
  exact watched_finishPush hpushes (watched_done_iff.mpr rfl)

theorem watched_spscDequeue (hphase : w.phase = .taking) (hmoved : w.moved = []) :
    Watched (consumerMonitor spscRing spscRefusals) (fun w result => w.takes spscRefusals
      ⟨.take, 1⟩ result.2 result.1)
      spscDequeue w := by
  refine taking_loadTail ?_
  refine taking_loadHead hphase fun head hhead _ => ?_
  dsimp only [Thread.bind]
  split
  · rename_i hempty
    refine watched_done_iff.mpr ⟨hphase, hmoved, _, rfl, ?_⟩
    rw [hempty, UInt32.sub_self]
    exact Nat.one_pos
  · rename_i hne
    refine taking_readSlot hphase ?_ ?_ fun event => ?_
    · rw [and_mask spscCapacity_size]
      simp [Watch.position, hmoved]
    · rw [hmoved]
      exact distance_pos hne
    · refine taking_storeTail 1 hphase rfl (distance_pos hne) (by decide) ?_
      exact watched_done_iff.mpr ⟨by simp [hmoved], rfl, by simp [hmoved]⟩

theorem watched_spscConsumer :
    Watched (consumerMonitor spscRing spscRefusals) (fun _ _ => True)
      (spscConsumer (E := E)) {} := by
  refine watched_iterate (fun w _ => w.phase = .idle) rfl ?_
  rintro w ⟨⟩ hidle
  refine watched_beginTake hidle fun ask => ?_
  change Watched _ _ (Thread.bind spscDequeue _) _
  refine Watched.bind ((watched_spscDequeue rfl rfl).mono ?_)
  rintro w ⟨status, events⟩ htakes
  exact watched_finishTake htakes (watched_done_iff.mpr rfl)

end SynthQueue

end EspNp2.AudioTransport.RingSides
