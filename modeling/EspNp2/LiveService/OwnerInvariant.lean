import EspNp2.LiveService.OwnerSession
import EspNp2.LiveService.ForeignThreads
import EspNp2.LiveService.FailureCause

/-!
The memory and the session of the owner. As long as something is asked of the owner, the words
that it alone writes are as it has written them, and what it knows of the other words stays
true whatever the other threads do.
-/

namespace EspNp2.LiveService.OwnerInvariant

open EspNp2.Library.Concurrent
open EspNp2.LiveService.ForeignThreads
open EspNp2.LiveService.Lifecycle
open EspNp2.LiveService.LifecycleMonitor
open EspNp2.LiveService.LiveSystem
open EspNp2.LiveService.OwnerSession (Owned Session Story expectsLoad)
open EspNp2.LiveService.Quiescence
open EspNp2.LiveService.ServiceMemory
open EspNp2.LiveService.Transport

section Writes

variable {party : Party} {w w' : Watch} {memory memory' : Memory} {request : Op}
  {reply : Result request} {cell : Cell}

/-- A word that a thread may also exchange. -/
def Swapped (cell : Cell) : Bool :=
  cell ∈ [.state, .transactionGate, .firstErrorLatched, .firstError, .guestAttached]

/-- Any other word is only stored. -/
theorem stored_of_observe (h : observe party w ⟨request, reply⟩ = some w')
    (htarget : target request = some cell) (hcell : Swapped cell = false) :
    ∃ value, request = .store cell value := by
  rw [observe] at h
  split at h
  · cases h
  cases request with
  | store other value =>
      obtain rfl := Option.some.inj htarget
      exact ⟨value, rfl⟩
  | compareExchange other expected desired =>
      obtain rfl := Option.some.inj htarget
      cases other <;> first | exact absurd hcell (by decide) | cases h
  | compareExchangeWeak other expected desired =>
      obtain rfl := Option.some.inj htarget
      cases other <;> first | exact absurd hcell (by decide) | cases h
  | exchange other value =>
      obtain rfl := Option.some.inj htarget
      cases other <;> first | exact absurd hcell (by decide) | cases h
  | _ => cases htarget

/-- The state becomes `draining` only by the exchange that says so. -/
theorem drains_of_observe (h : observe party w ⟨request, reply⟩ = some w')
    (hacts : Acts memory request reply memory') (hbefore : memory .state ≠ .draining)
    (hafter : memory' .state = .draining) :
    (⟨request, reply⟩ : OpLabel) = ⟨.compareExchange .state .stopRequested .draining, true⟩ := by
  by_cases htarget : target request = some .state
  case neg => exact absurd ((acts_frame hacts htarget).symm.trans hafter) hbefore
  rw [observe] at h
  split at h
  · cases h
  cases request with
  | store other value =>
      obtain rfl := Option.some.inj htarget
      obtain rfl := hacts
      obtain rfl : value = .draining := hafter
      cases party <;> cases h
  | compareExchange other expected desired =>
      obtain rfl := Option.some.inj htarget
      rcases hacts with ⟨rfl, -, rfl⟩ | ⟨-, -, rfl⟩
      · obtain rfl : desired = .draining := hafter
        cases party <;> cases expected <;> first | rfl | cases h
      · exact absurd hafter hbefore
  | compareExchangeWeak other expected desired =>
      obtain rfl := Option.some.inj htarget
      rcases hacts with ⟨rfl, -, rfl⟩ | ⟨-, rfl⟩
      · obtain rfl : desired = .draining := hafter
        cases party <;> cases h
      · exact absurd hafter hbefore
  | exchange other value =>
      obtain rfl := Option.some.inj htarget
      cases h
  | _ => cases htarget

end Writes

section Past

/-- A state in which the service has ended or is about to. -/
def LiveState.past (state : LiveState) : Bool := LiveState.late state && state ≠ .stopRequested

variable {party : Party} {m : Mark} {l l' : Life} {w w' : Watch}

attribute [local grind =] LiveState.past

theorem Turn.past_state (h : Turn party w l m w' l') (hstate : LiveState.past l.state = true) :
    LiveState.past l'.state = true := by
  cases h <;> grind

/-- A state that the owner runs in is left only by the owner's own failure, by a stop, or by the
exchange after it. -/
theorem Turn.held_state (h : Turn party w l m w' l') (hmark : m ≠ .wins) (hknown : w.known = false)
    (hmissed : w.missed = false) (hquiescent : w.quiescent = false)
    (hstate : l.state = .running ∨ l.state = .stopRequested) :
    l'.state = .running ∨ l'.state = .stopRequested ∨ l'.state = .draining := by
  cases h <;> grind

end Past

section Rings

theorem occupancy_push {head tail : UInt32} (h : head - tail < eventCapacity) :
    head + 1 - tail ≤ eventCapacity ∧ head + 1 ≠ tail := by
  have heq : head + 1 - tail = head - tail + 1 := by grind
  generalize head - tail = occupied at h heq
  have hlt : occupied.toNat < 128 := h
  constructor
  · rw [heq, UInt32.le_iff_toNat_le, UInt32.toNat_add]
    change (occupied.toNat + 1) % 2 ^ 32 ≤ 128
    omega
  · rintro rfl
    rw [UInt32.sub_self] at heq
    have hzero := congrArg UInt32.toNat heq
    rw [UInt32.toNat_add] at hzero
    change 0 = (occupied.toNat + 1) % 2 ^ 32 at hzero
    omega

theorem occupancy_pop {head tail : UInt32} (h : head - tail ≤ eventCapacity) (hne : head ≠ tail) :
    head - (tail + 1) < eventCapacity := by
  have heq : head - (tail + 1) = head - tail - 1 := by grind
  have hoccupied : head - tail ≠ 0 := by grind
  generalize head - tail = occupied at h heq hoccupied
  have hle : occupied.toNat ≤ 128 := h
  have hpositive : occupied.toNat ≠ 0 := fun hzero => hoccupied (UInt32.toNat_inj.mp hzero)
  rw [heq, UInt32.lt_iff_toNat_lt, UInt32.toNat_sub]
  change (2 ^ 32 - 1 + occupied.toNat) % 2 ^ 32 < 128
  omega

end Rings

section Told

open EspNp2.LiveService.OwnerSession

variable {w : Session} {party : Party} {request : Op} {reply : Result request} {cell : Cell}

/-- An operation that neither loads nor stores teaches nothing about the words. -/
theorem tell_fields (hload : ∀ cell, request ≠ .load cell)
    (hstore : ∀ cell value, request ≠ .store cell value) :
    (tell w ⟨request, reply⟩).view = w.view ∧ (tell w ⟨request, reply⟩).stopSeen = w.stopSeen ∧
      (tell w ⟨request, reply⟩).room = w.room ∧ (tell w ⟨request, reply⟩).vacant = w.vacant ∧
      (tell w ⟨request, reply⟩).ran = w.ran := by
  unfold OwnerSession.tell advance
  dsimp only
  split
  case h_1 cell _ heq =>
    cases heq
    exact absurd rfl (hload cell)
  case h_2 cell value _ heq =>
    cases heq
    exact absurd rfl (hstore cell value)
  all_goals exact ⟨rfl, rfl, rfl, rfl, rfl⟩

theorem tell_view (h : target request ≠ some cell) :
    (tell w ⟨request, reply⟩).view cell = w.view cell := by
  cases request with
  | store other value =>
      change (write w other value).view cell = w.view cell
      rw [(write_fields w other value).2.2.2.2.1]
      exact Function.update_of_ne (fun heq => h (congrArg some heq.symm)) _ _
  | load other => exact congrFun (learn_fields w other reply).2.2.2.2 cell
  | _ => exact congrFun (tell_fields (fun _ => by simp) fun _ _ => by simp).1 cell

/-- Only a load of the state and the call of a checkpoint change what may be excused. -/
theorem excused_tell (hload : ∀ cell, request ≠ .load cell) (hnote : ∀ mark, request ≠ .note mark) :
    (tell w ⟨request, reply⟩).excused = w.excused := by
  unfold OwnerSession.tell advance
  dsimp only
  split
  case h_1 cell _ heq =>
    cases heq
    exact absurd rfl (hload cell)
  case h_2 cell value _ _ => exact (write_fields w cell value).2.2.2.2.2.2
  case h_6 heq =>
    cases heq
    exact absurd rfl (hnote _)
  all_goals rfl

/-- A checkpoint is excused by a load of the state while no run is open. -/
theorem excused_cases (w : Session) (label : OpLabel) (h : (tell w label).excused = true)
    (hcall : (tell w label).call.isSome = true) : (w.excused = true ∧ w.call.isSome = true) ∨
      label = ⟨.load .state, .running⟩ ∧ w.bytes = 0 := by
  obtain ⟨request, reply⟩ := label
  cases request with
  | load cell =>
      cases cell with
      | state =>
          have hcall' : w.call.isSome = true := by
            change (w.call.map _).isSome = true at hcall
            simpa using hcall
          refine (Bool.or_eq_true_iff.mp h).imp (⟨·, hcall'⟩) fun hnow => ?_
          simp only [Bool.and_eq_true, decide_eq_true_eq] at hnow
          rw [hnow.2]
          exact ⟨rfl, hnow.1.2⟩
      | _ => exact .inl ⟨h, hcall⟩
  | note mark =>
      cases mark with
      | checkpointCalled adapter => cases h
      | ownerCheckpoint result => cases hcall
      | _ => exact .inl ⟨h, hcall⟩
  | store cell value =>
      have hexcused : (tell w ⟨.store cell value, reply⟩).excused = w.excused :=
        excused_tell (fun _ => by simp) fun _ => by simp
      rw [hexcused] at h
      cases cell <;> exact .inl ⟨h, hcall⟩
  | _ =>
      rw [excused_tell (fun _ => by simp) fun _ => by simp] at h
      exact .inl ⟨h, hcall⟩

/-- What becomes of the checkpoint that goes on. -/
theorem call_tell (w : Session) (label : OpLabel) {c' : CheckpointCall}
    (h : (tell w label).call = some c') :
    (w.call = some c' ∧ (w.excused = true → (tell w label).excused = true)) ∨
      (∃ c state, label = ⟨.load .state, state⟩ ∧ w.call = some c ∧ c' = c.read state) ∨
      c'.first = none := by
  obtain ⟨request, reply⟩ := label
  cases request with
  | load cell =>
      cases cell with
      | state =>
          obtain ⟨c, hc, rfl⟩ := Option.map_eq_some_iff.mp h
          exact .inr (.inl ⟨c, reply, rfl, hc, rfl⟩)
      | _ => exact .inl ⟨h, id⟩
  | store cell value =>
      have hexcused : (tell w ⟨.store cell value, reply⟩).excused = w.excused :=
        excused_tell (fun _ => by simp) fun _ => by simp
      rw [hexcused]
      cases cell <;> exact .inl ⟨h, id⟩
  | note mark =>
      cases mark with
      | checkpointCalled adapter =>
          obtain rfl := Option.some.inj h
          exact .inr (.inr rfl)
      | ownerCheckpoint result => cases h
      | _ => exact .inl ⟨h, id⟩
  | _ =>
      rw [excused_tell (fun _ => by simp) fun _ => by simp]
      exact .inl ⟨h, id⟩

theorem running_tell (w : Session) (label : OpLabel) : (tell w label).running = true →
    w.running = true ∨ label = ⟨.compareExchange .state .startedUnattached .running, true⟩ := by
  intro h
  change (advance w label).running = true at h
  unfold advance at h
  split at h <;> first | exact .inr rfl | exact .inl h | skip
  · exact .inl ((learn_fields w _ _).1.symm.trans h)
  · exact .inl ((write_fields w _ _).1.symm.trans h)

theorem drained_tell (w : Session) (label : OpLabel) : (tell w label).drained = true →
    w.drained = true ∨ label = ⟨.compareExchange .state .stopRequested .draining, true⟩ := by
  intro h
  change (advance w label).drained = true at h
  unfold advance at h
  split at h <;> first | exact .inr rfl | exact .inl h | skip
  · exact .inl ((learn_fields w _ _).2.1.symm.trans h)
  · exact .inl ((write_fields w _ _).2.1.symm.trans h)

theorem lost_tell (w : Session) (label : OpLabel) : (tell w label).lost = true →
    w.lost = true ∨ mark .owner label = .wins := by
  intro h
  change (advance w label).lost = true at h
  unfold advance at h
  split at h <;> first | exact .inr rfl | exact .inl h | skip
  · exact .inl ((learn_fields w _ _).2.2.1.symm.trans h)
  · exact .inl ((write_fields w _ _).2.2.1.symm.trans h)

theorem wins_iff {label : OpLabel} : mark party label = .wins ↔
    ∃ expected, label = ⟨.compareExchangeWeak .state expected .failing, true⟩ := by
  constructor
  · intro h
    unfold mark at h
    split at h <;> first | exact ⟨_, rfl⟩ | cases h | skip
    split at h <;> cases h
  · rintro ⟨expected, rfl⟩
    rfl

theorem lost_of_wins (w : Session) {label : OpLabel} (h : mark party label = .wins) :
    (tell w label).lost = true := by
  obtain ⟨expected, rfl⟩ := wins_iff.mp h
  rfl

theorem past_of_wins {memory memory' : Memory} (hacts : Acts memory request reply memory')
    (h : mark party ⟨request, reply⟩ = .wins) : LiveState.past (memory' .state) = true := by
  obtain ⟨expected, heq⟩ := wins_iff.mp h
  cases heq
  rcases hacts with ⟨-, -, rfl⟩ | ⟨hdone, -⟩
  · rfl
  · cases hdone

/-- The owner learns of the stop only by reading of it. -/
theorem stopSeen_tell (w : Session) (label : OpLabel) : (tell w label).stopSeen = true →
    w.stopSeen = true ∨ (∃ state, label = ⟨.load .state, state⟩ ∧ LiveState.late state = true) ∨
      label = ⟨.load .stopIntent, true⟩ ∨ label = ⟨.load .producerClosing, true⟩ := by
  intro h
  obtain ⟨request, reply⟩ := label
  cases request with
  | load cell =>
      change (learn w cell reply).stopSeen = true at h
      cases cell with
      | state => exact (Bool.or_eq_true_iff.mp h).imp id fun hlate => .inl ⟨reply, rfl, hlate⟩
      | stopIntent =>
          refine (Bool.or_eq_true_iff.mp h).imp id fun hintent => .inr (.inl ?_)
          rw [hintent]
      | producerClosing =>
          refine (Bool.or_eq_true_iff.mp h).imp id fun hclosing => .inr (.inr ?_)
          rw [hclosing]
      | _ => exact .inl h
  | store cell value => exact .inl ((write_fields w cell value).2.2.2.2.2.1.symm.trans h)
  | _ => exact .inl ((tell_fields (fun _ => by simp) fun _ _ => by simp).2.1.symm.trans h)

theorem room_tell (w : Session) (label : OpLabel) : (tell w label).room = true →
    (∀ head, label ≠ ⟨.store .eventHead head, ()⟩) ∧ (w.room = true ∨ ∃ tail,
      label = ⟨.load .eventTail, tail⟩ ∧ w.view .eventHead - tail < eventCapacity) := by
  intro h
  obtain ⟨request, reply⟩ := label
  cases request with
  | load cell =>
      refine ⟨fun head => by simp, ?_⟩
      cases cell with
      | eventTail =>
          exact (Bool.or_eq_true_iff.mp h).imp id fun hroom => ⟨reply, rfl, by simpa using hroom⟩
      | _ => exact .inl h
  | store cell value => cases cell <;> first | exact ⟨fun head => by simp, .inl h⟩ | cases h
  | _ =>
      exact ⟨fun head => by simp,
        .inl ((tell_fields (fun _ => by simp) fun _ _ => by simp).2.2.1.symm.trans h)⟩

/-- Only a push and a publication change what has been written for the worker. -/
theorem events_tell (w : Session) (label : OpLabel)
    (hevent : ∀ head, label ≠ ⟨.store .eventHead head, ()⟩)
    (hbyte : ∀ head, label ≠ ⟨.store .byteHead head, ()⟩) :
    (tell w label).events = w.events ∧ (tell w label).bytes = w.bytes ∧
      ((tell w label).ran = true → w.ran = true ∨ label = ⟨.load .state, .running⟩) := by
  obtain ⟨request, reply⟩ := label
  cases request with
  | load cell =>
      cases cell with
      | state =>
          refine ⟨rfl, rfl, fun h => (Bool.or_eq_true_iff.mp h).imp id fun hrunning => ?_⟩
          rw [show reply = .running by simpa using hrunning]
      | _ => exact ⟨rfl, rfl, .inl⟩
  | store cell value =>
      cases cell with
      | eventHead => exact absurd rfl (hevent value)
      | byteHead => exact absurd rfl (hbyte value)
      | _ => exact ⟨rfl, rfl, .inl⟩
  | note mark =>
      rw [(tell_fields (fun _ => by simp) fun _ _ => by simp).2.2.2.2]
      cases mark <;> exact ⟨rfl, rfl, .inl⟩
  | _ =>
      rw [(tell_fields (fun _ => by simp) fun _ _ => by simp).2.2.2.2]
      exact ⟨rfl, rfl, .inl⟩

theorem vacant_tell (w : Session) (label : OpLabel) : (tell w label).vacant = true →
    (∀ state, label ≠ ⟨.store .horizonState state, ()⟩) ∧
      (w.vacant = true ∨ label = ⟨.load .horizonState, .empty⟩) := by
  intro h
  obtain ⟨request, reply⟩ := label
  cases request with
  | load cell =>
      refine ⟨fun state => by simp, ?_⟩
      cases cell with
      | horizonState =>
          refine (Bool.or_eq_true_iff.mp h).imp id fun hempty => ?_
          rw [show reply = .empty by simpa using hempty]
      | _ => exact .inl h
  | store cell value => cases cell <;> first | exact ⟨fun state => by simp, .inl h⟩ | cases h
  | _ =>
      exact ⟨fun state => by simp,
        .inl ((tell_fields (fun _ => by simp) fun _ _ => by simp).2.2.2.1.symm.trans h)⟩

end Told

section Invariant

/-- A word of the final horizon. -/
def Final (cell : Cell) : Bool :=
  cell ∈ [.finalHorizonSequence, .finalHorizonLow, .finalHorizonHigh]

/-- What the session of the owner and the other threads know of the state. -/
structure States (memory : Memory) (w : Session) (sides : Party → Side) : Prop where
  held : w.running = true → w.drained = false →
    memory .state = .running ∨ memory .state = .stopRequested
  seen : w.stopSeen = true ∨ memory .stopIntent = true ∨ memory .producerClosing = true →
    LiveState.late (memory .state) = true
  late : ∀ party, (sides party).late = true → LiveState.late (memory .state) = true
  unattached : ∀ party, (sides party).unattached = true →
    LiveState.late (memory .state) = true ∧ w.running = false
  drained : w.drained = true → w.running = true ∧ LiveState.past (memory .state) = true

/-- The words that the owner alone writes. -/
structure Words (memory : Memory) (w : Session) (sides : Party → Side) : Prop where
  owned : ∀ cell, Owned cell = true → Final cell = false → memory cell = w.view cell
  final : (∀ party, (sides party).unattached = false) → ∀ cell, Final cell = true →
    memory cell = w.view cell

/-- What is known of the event ring and of the mailbox of the horizon. -/
structure Rings (memory : Memory) (w : Session) (worker : Side) : Prop where
  bound : memory .eventHead - memory .eventTail ≤ eventCapacity
  room : w.room = true → memory .eventHead - memory .eventTail < eventCapacity
  tail : ∀ tail, worker.tail = some tail → memory .eventTail = tail
  ahead : worker.ahead = true → memory .eventHead ≠ memory .eventTail
  vacant : w.vacant = true → memory .horizonState = .empty

structure Mirrors (memory : Memory) (w : Session) (sides : Party → Side) : Prop where
  states : States memory w sides
  words : Words memory w sides
  rings : Rings memory w (sides .worker)
  unlatched : memory .firstErrorLatched = false
  excused : w.excused = true → w.call.isSome = true → w.bytes = 0

theorem mirrors_started : Mirrors startedMemory {} fun _ => {} := by
  refine ⟨⟨?_, ?_, ?_, ?_, ?_⟩, ⟨fun _ _ _ => rfl, fun _ _ _ => rfl⟩, ⟨?_, ?_, ?_, ?_, ?_⟩, rfl, ?_⟩
    <;>
    simp [startedMemory]

variable {memory : Memory} {w : Session} {sides : Party → Side}

/-- What the owner reckons with is so. -/
theorem Mirrors.expects (h : Mirrors memory w sides) {request : Op} {reply : Result request}
    {memory' : Memory} (hacts : Acts memory request reply memory') :
    OwnerSession.expects w ⟨request, reply⟩ := by
  intro hopen
  have hfinal : ∀ cell, Final cell = true → w.running = true → memory cell = w.view cell := by
    intro cell hcell hrunning
    refine h.words.final (fun party => ?_) cell hcell
    by_contra hunattached
    have hidle := (h.states.unattached party (by simpa using hunattached)).2
    rw [hrunning] at hidle
    cases hidle
  have hhead := h.words.owned .eventHead rfl rfl
  cases request with
  | load cell =>
      obtain ⟨rfl, rfl⟩ := hacts
      cases cell with
      | state =>
          intro hrunning hundrained
          have hheld := h.states.held hrunning hundrained
          refine ⟨hheld, fun hseen => hheld.resolve_left fun heq => ?_⟩
          have hlate := h.states.seen (.inl hseen)
          rw [heq] at hlate
          cases hlate
      | firstErrorLatched => exact h.unlatched
      | eventHead => exact fun _ => hhead
      | ownerValid => exact fun _ => h.words.owned .ownerValid rfl rfl
      | ownerFinalizing => exact fun _ => h.words.owned .ownerFinalizing rfl rfl
      | finalHorizonSequence => exact hfinal .finalHorizonSequence rfl
      | eventTail =>
          intro hroom
          rw [← hhead]
          exact h.rings.room hroom
      | horizonState => exact h.rings.vacant
      | _ => trivial
  | compareExchange cell expected desired =>
      cases cell with
      | state =>
          cases expected <;> try trivial
          cases desired <;> try trivial
          intro hrunning hseen hundrained
          rcases hacts with ⟨hdone, -, -⟩ | ⟨-, hne, -⟩
          · exact hdone
          · have hlate := h.states.seen (.inl hseen)
            rcases h.states.held hrunning hundrained with heq | heq
            · rw [heq] at hlate
              cases hlate
            · exact absurd heq hne
      | _ => trivial
  | _ => trivial

end Invariant

section OwnerStep

open EspNp2.LiveService.OwnerSession

variable {labels : List LiveLabel} {memory memory' : Memory} {watches : Party → Watch}
  {sides : Party → Side} {w : Session} {watch' : Watch} {party : Party} {request : Op}
  {reply : Result request}

/-- A step of a run in which no other thread has failed. -/
structure Undone (labels : List LiveLabel) (memory : Memory) (watches : Party → Watch) : Prop where
  sound : Sound labels memory watches
  caused : FailureCause.Caused (life memory) watches
  unwon : ¬ Won watches

theorem Undone.unlatched (h : Undone labels memory watches) :
    memory .firstErrorLatched = false := by
  by_contra hlatched
  exact h.unwon (won_of_latched (h.sound.latch.latched (by simpa [life] using hlatched)))

/-- The next state of a service that its owner runs in. -/
theorem Undone.held (h : Undone labels memory watches) {m : Mark}
    (hturn : Turn party (watches party) (life memory) m watch' (life memory')) (hmark : m ≠ .wins)
    (hstate : memory .state = .running ∨ memory .state = .stopRequested) :
    memory' .state = .running ∨ memory' .state = .stopRequested ∨ memory' .state = .draining := by
  refine Turn.held_state hturn hmark ?_ ?_ ?_ hstate
  · rw [Bool.eq_false_iff]
    exact fun hknown => h.unwon (h.sound.latch.known party hknown)
  · rw [Bool.eq_false_iff]
    exact fun hmissed => h.unwon (h.caused.missed party hmissed)
  · rw [Bool.eq_false_iff]
    intro hquiescent
    have hstates : LiveState.quiescent (memory .state) = true ∨ memory .state = .destroyed :=
      h.sound.course.quiescent party hquiescent
    rcases hstate with heq | heq <;> simp [heq, LiveState.quiescent] at hstates

theorem States.owner (h : States memory w sides) (hundone : Undone labels memory watches)
    (haccepts : accepts w ⟨request, reply⟩ = true) (hacts : Acts memory request reply memory')
    (hobserve : observe .owner (watches .owner) ⟨request, reply⟩ = some watch')
    (hturn : Turn .owner (watches .owner) (life memory) (mark .owner ⟨request, reply⟩) watch'
      (life memory')) (hmark : mark .owner ⟨request, reply⟩ ≠ .wins) :
    States memory' (tell w ⟨request, reply⟩) sides := by
  have hlate : LiveState.late (memory .state) = true → LiveState.late (memory' .state) = true :=
    hturn.late_state
  have hattach : ∀ heq : (⟨request, reply⟩ : OpLabel) =
      ⟨.compareExchange .state .startedUnattached .running, true⟩,
      memory .state = .startedUnattached ∧ memory' .state = .running := by
    intro heq
    cases heq
    rcases hacts with ⟨-, hbefore, rfl⟩ | ⟨hdone, -⟩
    · exact ⟨hbefore, rfl⟩
    · cases hdone
  constructor
  case held =>
    intro hrunning hundrained
    rcases running_tell w _ hrunning with hrunning | heq
    · have hbefore : w.drained = false := by
        cases hdrained : w.drained with
        | false => rfl
        | true => exact ((tell_keeps w _).2.1 hdrained).symm.trans hundrained
      have hstate := h.held hrunning hbefore
      rcases hundone.held hturn hmark hstate with hstate' | hstate' | hstate'
      · exact .inl hstate'
      · exact .inr hstate'
      · have hne : memory .state ≠ .draining := by
          rcases hstate with heq | heq <;> simp [heq]
        have heq := drains_of_observe hobserve hacts hne hstate'
        cases heq
        cases hundrained
    · exact .inl (hattach heq).2
  case seen =>
    intro hseen
    by_cases hknown : w.stopSeen = true ∨ memory .stopIntent = true ∨ memory .producerClosing = true
    · exact hlate (h.seen hknown)
    simp only [not_or, Bool.not_eq_true] at hknown
    obtain ⟨hunseen, hintent, hclosing⟩ := hknown
    rcases hseen with hseen | hseen | hseen
    · rcases stopSeen_tell w _ hseen with hseen | ⟨state, heq, hstate⟩ | heq | heq
      · exact absurd hseen (by simp [hunseen])
      · cases heq
        exact hlate (hacts.1 ▸ hstate)
      · cases heq
        exact absurd (hacts.1.trans hintent) (by simp)
      · cases heq
        exact absurd (hacts.1.trans hclosing) (by simp)
    · by_cases htarget : target request = some .stopIntent
      · obtain ⟨value, rfl⟩ := stored_of_observe hobserve htarget rfl
        cases haccepts
      · exact absurd ((acts_frame hacts htarget).symm.trans hseen) (by simp [hintent])
    · by_cases htarget : target request = some .producerClosing
      · obtain ⟨value, rfl⟩ := stored_of_observe hobserve htarget rfl
        exact absurd haccepts (by simp [accepts, hunseen])
      · exact absurd ((acts_frame hacts htarget).symm.trans hseen) (by simp [hclosing])
  case late => exact fun party hparty => hlate (h.late party hparty)
  case unattached =>
    intro party hparty
    obtain ⟨hstate, hidle⟩ := h.unattached party hparty
    refine ⟨hlate hstate, ?_⟩
    rw [Bool.eq_false_iff]
    intro hrunning
    rcases running_tell w _ hrunning with hrunning | heq
    · exact absurd (hidle.symm.trans hrunning) (by simp)
    · rw [(hattach heq).1] at hstate
      cases hstate
  case drained =>
    intro hdrained
    rcases drained_tell w _ hdrained with hdrained | heq
    · exact ⟨(tell_keeps w _).1 (h.drained hdrained).1, Turn.past_state hturn
        (h.drained hdrained).2⟩
    · cases heq
      refine ⟨haccepts, ?_⟩
      rcases hacts with ⟨-, -, rfl⟩ | ⟨hdone, -⟩
      · rfl
      · cases hdone

theorem Words.owner (h : Words memory w sides) (hacts : Acts memory request reply memory')
    (hobserve : observe .owner (watches .owner) ⟨request, reply⟩ = some watch') :
    Words memory' (tell w ⟨request, reply⟩) sides := by
  have hstep : ∀ cell, Owned cell = true → memory cell = w.view cell →
      memory' cell = (tell w ⟨request, reply⟩).view cell := by
    intro cell hcell hbefore
    by_cases htarget : target request = some cell
    · obtain ⟨value, rfl⟩ := stored_of_observe hobserve htarget
        (by cases cell <;> first | rfl | cases hcell)
      obtain rfl := hacts
      change _ = (write w cell value).view cell
      rw [(write_fields w cell value).2.2.2.2.1]
      simp
    · rw [acts_frame hacts htarget, tell_view htarget]
      exact hbefore
  refine ⟨fun cell hcell hfinal => hstep cell hcell (h.owned cell hcell hfinal),
    fun hnone cell hcell => ?_⟩
  refine hstep cell ?_ (h.final hnone cell hcell)
  cases cell <;> first | rfl | cases hcell

theorem Rings.owner (h : Rings memory w (sides .worker)) (hwords : Words memory w sides)
    (haccepts : accepts w ⟨request, reply⟩ = true) (hacts : Acts memory request reply memory')
    (hobserve : observe .owner (watches .owner) ⟨request, reply⟩ = some watch') :
    Rings memory' (tell w ⟨request, reply⟩) (sides .worker) := by
  have hview := hwords.owned .eventHead rfl rfl
  have htail : memory' .eventTail = memory .eventTail := by
    refine acts_frame hacts fun htarget => ?_
    obtain ⟨value, rfl⟩ := stored_of_observe hobserve htarget rfl
    cases haccepts
  have hhead : memory' .eventHead = memory .eventHead ∨
      (∃ head, (⟨request, reply⟩ : OpLabel) = ⟨.store .eventHead head, ()⟩) ∧ w.room = true ∧
        memory' .eventHead = memory .eventHead + 1 := by
    by_cases htarget : target request = some .eventHead
    · obtain ⟨value, rfl⟩ := stored_of_observe hobserve htarget rfl
      obtain rfl := hacts
      simp only [accepts, Bool.and_eq_true, decide_eq_true_eq] at haccepts
      obtain ⟨⟨⟨hroom, -⟩, hvalue⟩, -⟩ := haccepts
      exact .inr ⟨⟨value, rfl⟩, hroom, by rw [hview, ← hvalue]; simp⟩
    · exact .inl (acts_frame hacts htarget)
  constructor
  case bound =>
    rw [htail]
    rcases hhead with hsame | ⟨-, hroom, hpushed⟩
    · rw [hsame]
      exact h.bound
    · rw [hpushed]
      exact (occupancy_push (h.room hroom)).1
  case room =>
    intro hroom
    obtain ⟨hnone, hknown⟩ := room_tell w _ hroom
    have hsame := hhead.resolve_right fun hpushed => hpushed.1.elim hnone
    rw [htail, hsame]
    rcases hknown with hknown | ⟨tail, heq, hfree⟩
    · exact h.room hknown
    · cases heq
      rw [hview, ← hacts.1]
      exact hfree
  case tail => exact fun tail hknown => htail.trans (h.tail tail hknown)
  case ahead =>
    intro hahead
    rw [htail]
    rcases hhead with hsame | ⟨-, hroom, hpushed⟩
    · rw [hsame]
      exact h.ahead hahead
    · rw [hpushed]
      exact (occupancy_push (h.room hroom)).2
  case vacant =>
    intro hvacant
    obtain ⟨hnone, hknown⟩ := vacant_tell w _ hvacant
    have hsame : memory' .horizonState = memory .horizonState := by
      refine acts_frame hacts fun htarget => ?_
      obtain ⟨value, rfl⟩ := stored_of_observe hobserve htarget rfl
      exact hnone value rfl
    rw [hsame]
    rcases hknown with hknown | heq
    · exact h.vacant hknown
    · cases heq
      exact hacts.1.symm

theorem excused_owner {label : OpLabel}
    (h : w.excused = true → w.call.isSome = true → w.bytes = 0) (haccepts : accepts w label = true)
    (hexcused : (tell w label).excused = true) (hcall : (tell w label).call.isSome = true) :
    (tell w label).bytes = 0 := by
  by_cases hevent : ∃ head, label = ⟨.store .eventHead head, ()⟩
  · obtain ⟨head, rfl⟩ := hevent
    rfl
  by_cases hbyte : ∃ head, label = ⟨.store .byteHead head, ()⟩
  · obtain ⟨head, rfl⟩ := hbyte
    simp only [accepts, Bool.and_eq_true] at haccepts
    have hsome : w.call.isSome = true := hcall
    simp [Option.isNone_iff_eq_none.mp haccepts.2] at hsome
  rw [(events_tell w label (fun head heq => hevent ⟨head, heq⟩) fun head heq =>
    hbyte ⟨head, heq⟩).2.1]
  rcases excused_cases w label hexcused hcall with ⟨hbefore, hcalled⟩ | ⟨-, hbytes⟩
  · exact h hbefore hcalled
  · exact hbytes

end OwnerStep

section ForeignStep

variable {labels : List LiveLabel} {memory memory' : Memory} {watches : Party → Watch}
  {sides : Party → Side} {s : Side} {w : Session} {watch' : Watch} {party : Party} {request : Op}
  {reply : Result request}

theorem late_advance (s : Side) (label : OpLabel) : (s.advance label).late = true →
    s.late = true ∨ ∃ expected desired, LiveState.late desired = true ∧
      label = ⟨.compareExchangeWeak .state expected desired, true⟩ := by
  intro h
  unfold Side.advance at h
  split at h <;> first | exact .inl h | exact .inr ⟨_, _, rfl, rfl⟩

theorem unattached_advance (s : Side) (label : OpLabel) : (s.advance label).unattached = true →
    s.unattached = true ∨
      label = ⟨.compareExchangeWeak .state .startedUnattached .stopRequested, true⟩ := by
  intro h
  unfold Side.advance at h
  split at h <;> first | exact .inl h | skip
  refine (Bool.or_eq_true_iff.mp h).imp id fun hstate => ?_
  rw [of_decide_eq_true hstate]

theorem unattached_mono (s : Side) (label : OpLabel) (h : s.unattached = true) :
    (s.advance label).unattached = true := by
  unfold Side.advance
  split <;> simp [h]

theorem tail_advance (s : Side) (label : OpLabel) {tail : UInt32} :
    (s.advance label).tail = some tail → label = ⟨.load .eventTail, tail⟩ ∨
      s.tail = some tail ∧ ∀ tail, label ≠ ⟨.store .eventTail tail, ()⟩ := by
  intro h
  unfold Side.advance at h
  split at h
  · obtain rfl := Option.some.inj h
    exact .inl rfl
  · exact .inr ⟨h, by simp⟩
  · cases h
  · exact .inr ⟨h, by simp⟩
  · exact .inr ⟨h, by simp⟩
  · rename_i hstore _ _
    exact .inr ⟨h, fun tail heq => hstore tail () heq⟩

theorem ahead_advance (s : Side) (label : OpLabel) : (s.advance label).ahead = true →
    (∃ head tail, label = ⟨.load .eventHead, head⟩ ∧ s.tail = some tail ∧ head ≠ tail) ∨
      s.ahead = true ∧ ∀ tail, label ≠ ⟨.store .eventTail tail, ()⟩ := by
  intro h
  unfold Side.advance at h
  split at h
  · exact .inr ⟨h, by simp⟩
  · rename_i head
    obtain ⟨tail, htail, hne⟩ := Option.any_eq_true _ _ |>.mp h
    exact .inl ⟨head, tail, rfl, htail, by simpa using hne⟩
  · cases h
  · exact .inr ⟨h, by simp⟩
  · exact .inr ⟨h, by simp⟩
  · rename_i hstore _ _
    exact .inr ⟨h, fun tail heq => hstore tail () heq⟩

/-- The flags of one thread among those of all. -/
theorem side_cases (sides : Party → Side) (party : Party) (s : Side) (p : Party) :
    Function.update sides party s p = sides p ∨ p = party ∧
      Function.update sides party s p = s := by
  by_cases hparty : p = party
  · exact .inr ⟨hparty, by simp [hparty]⟩
  · exact .inl (by simp [hparty])

theorem States.foreign (h : States memory w sides) (hundone : Undone labels memory watches)
    (haccepts : (sides party).accepts party ⟨request, reply⟩ = true)
    (hacts : Acts memory request reply memory')
    (hobserve : observe party (watches party) ⟨request, reply⟩ = some watch')
    (hturn : Turn party (watches party) (life memory) (mark party ⟨request, reply⟩) watch'
      (life memory')) (hmark : mark party ⟨request, reply⟩ ≠ .wins) :
    States memory' w (Function.update sides party ((sides party).advance ⟨request, reply⟩)) := by
  have hlate : LiveState.late (memory .state) = true → LiveState.late (memory' .state) = true :=
    hturn.late_state
  have hstored : ∀ cell : Cell, (cell = .stopIntent ∨ cell = .producerClosing) →
      memory' cell ≠ memory cell → LiveState.late (memory' .state) = true := by
    intro cell hcell hne
    by_cases htarget : target request = some cell
    · obtain ⟨value, rfl⟩ := stored_of_observe hobserve htarget
        (by rcases hcell with rfl | rfl <;> rfl)
      rcases hcell with rfl | rfl <;> exact hlate (h.late party haccepts)
    · exact absurd (acts_frame hacts htarget) hne
  constructor
  case held =>
    intro hrunning hundrained
    have hstate := h.held hrunning hundrained
    rcases hundone.held hturn hmark hstate with hstate' | hstate' | hstate'
    · exact .inl hstate'
    · exact .inr hstate'
    · have hne : memory .state ≠ .draining := by
        rcases hstate with heq | heq <;> simp [heq]
      have heq := drains_of_observe hobserve hacts hne hstate'
      cases heq
      have hunattached : (sides party).unattached = true := by simpa [Side.accepts] using haccepts
      exact absurd ((h.unattached party hunattached).2.symm.trans hrunning) (by simp)
  case seen =>
    intro hseen
    by_cases hknown : w.stopSeen = true ∨ memory .stopIntent = true ∨ memory .producerClosing = true
    · exact hlate (h.seen hknown)
    simp only [not_or, Bool.not_eq_true] at hknown
    obtain ⟨hunseen, hintent, hclosing⟩ := hknown
    rcases hseen with hseen | hseen | hseen
    · exact absurd hseen (by simp [hunseen])
    · exact hstored .stopIntent (.inl rfl) (by simp [hseen, hintent])
    · exact hstored .producerClosing (.inr rfl) (by simp [hseen, hclosing])
  case late =>
    intro p hp
    rcases side_cases sides party ((sides party).advance ⟨request, reply⟩) p with heq | ⟨-, heq⟩ <;>
      rw [heq] at hp
    · exact hlate (h.late p hp)
    · rcases late_advance _ _ hp with hbefore | ⟨expected, desired, hdesired, hlabel⟩
      · exact hlate (h.late party hbefore)
      · cases hlabel
        rcases hacts with ⟨-, -, rfl⟩ | ⟨hdone, -⟩
        · simpa using hdesired
        · cases hdone
  case unattached =>
    intro p hp
    rcases side_cases sides party ((sides party).advance ⟨request, reply⟩) p with heq | ⟨-, heq⟩ <;>
      rw [heq] at hp
    · exact ⟨hlate (h.unattached p hp).1, (h.unattached p hp).2⟩
    · rcases unattached_advance _ _ hp with hbefore | hlabel
      · exact ⟨hlate (h.unattached party hbefore).1, (h.unattached party hbefore).2⟩
      · cases hlabel
        rcases hacts with ⟨-, hbefore, rfl⟩ | ⟨hdone, -⟩
        · refine ⟨by simp [LiveState.late], ?_⟩
          rw [Bool.eq_false_iff]
          intro hrunning
          cases hdrained : w.drained with
          | false => rcases h.held hrunning hdrained with heq | heq <;> simp [heq] at hbefore
          | true =>
              have hpast := (h.drained hdrained).2
              rw [hbefore] at hpast
              cases hpast
        · cases hdone
  case drained =>
    exact fun hdrained => ⟨(h.drained hdrained).1, Turn.past_state hturn (h.drained hdrained).2⟩

theorem Words.foreign (h : Words memory w sides)
    (haccepts : (sides party).accepts party ⟨request, reply⟩ = true)
    (hacts : Acts memory request reply memory')
    (hobserve : observe party (watches party) ⟨request, reply⟩ = some watch') :
    Words memory' w (Function.update sides party ((sides party).advance ⟨request, reply⟩)) := by
  constructor
  case owned =>
    intro cell hcell hfinal
    rw [← h.owned cell hcell hfinal]
    refine acts_frame hacts fun htarget => ?_
    obtain ⟨value, rfl⟩ := stored_of_observe hobserve htarget
      (by cases cell <;> first | rfl | cases hcell)
    cases cell <;> first
      | cases haccepts
        done
      | simp [Owned] at hcell
        done
      | simp [Final] at hfinal
  case final =>
    intro hnone cell hcell
    have hbefore : ∀ p, (sides p).unattached = false := by
      intro p
      rw [Bool.eq_false_iff]
      intro hp
      have hafter := hnone p
      rcases side_cases sides party ((sides party).advance ⟨request, reply⟩) p with heq |
        ⟨rfl, heq⟩ <;>
        rw [heq] at hafter
      · simp [hp] at hafter
      · simp [unattached_mono _ _ hp] at hafter
    rw [← h.final hbefore cell hcell]
    refine acts_frame hacts fun htarget => ?_
    obtain ⟨value, rfl⟩ := stored_of_observe hobserve htarget
      (by cases cell <;> first | rfl | cases hcell)
    have hunattached : (sides party).unattached = true := by
      cases cell <;> first | exact haccepts | simp [Final] at hcell
    simp [hbefore party] at hunattached

theorem Rings.foreign (h : Rings memory w (sides .worker))
    (haccepts : (sides party).accepts party ⟨request, reply⟩ = true)
    (hacts : Acts memory request reply memory')
    (hobserve : observe party (watches party) ⟨request, reply⟩ = some watch') :
    Rings memory' w
      (Function.update sides party ((sides party).advance ⟨request, reply⟩) .worker) := by
  have hhead : memory' .eventHead = memory .eventHead := by
    refine acts_frame hacts fun htarget => ?_
    obtain ⟨value, rfl⟩ := stored_of_observe hobserve htarget rfl
    cases haccepts
  have htail : memory' .eventTail = memory .eventTail ∨
      (∃ tail, (⟨request, reply⟩ : OpLabel) = ⟨.store .eventTail tail, ()⟩) ∧ party = .worker ∧
        (sides .worker).ahead = true ∧ memory' .eventTail = memory .eventTail + 1 := by
    by_cases htarget : target request = some .eventTail
    · obtain ⟨value, rfl⟩ := stored_of_observe hobserve htarget rfl
      obtain rfl := hacts
      simp only [Side.accepts, Side.stores, Bool.and_eq_true, decide_eq_true_eq,
        Option.any_eq_true] at haccepts
      obtain ⟨⟨rfl, hahead⟩, tail, hknown, hvalue⟩ := haccepts
      exact .inr ⟨⟨value, rfl⟩, rfl, hahead, by rw [h.tail tail hknown, ← hvalue]; simp⟩
    · exact .inl (acts_frame hacts htarget)
  have hworker := side_cases sides party ((sides party).advance ⟨request, reply⟩) .worker
  constructor
  case bound =>
    rw [hhead]
    rcases htail with hsame | ⟨-, rfl, hahead, htaken⟩
    · rw [hsame]
      exact h.bound
    · rw [htaken]
      exact UInt32.le_of_lt (occupancy_pop h.bound (h.ahead hahead))
  case room =>
    intro hroom
    rw [hhead]
    rcases htail with hsame | ⟨-, rfl, hahead, htaken⟩
    · rw [hsame]
      exact h.room hroom
    · rw [htaken]
      exact occupancy_pop h.bound (h.ahead hahead)
  case tail =>
    intro tail hknown
    rcases hworker with heq | ⟨rfl, heq⟩ <;> rw [heq] at hknown
    · rcases htail with hsame | ⟨⟨tail', hlabel⟩, rfl, -, -⟩
      · exact hsame.trans (h.tail tail hknown)
      · simp only [Function.update_self] at heq
        rw [← heq] at hknown
        rcases tail_advance _ _ hknown with hload | ⟨-, hnone⟩
        · cases hload.symm.trans hlabel
        · exact absurd hlabel (hnone tail')
    · rcases tail_advance _ _ hknown with hload | ⟨hbefore, hnone⟩
      · cases hload
        exact (congrFun hacts.2 _).trans hacts.1.symm
      · have hsame := htail.resolve_right fun htaken => htaken.1.elim hnone
        exact hsame.trans (h.tail tail hbefore)
  case ahead =>
    intro hahead
    rw [hhead]
    rcases hworker with heq | ⟨rfl, heq⟩ <;> rw [heq] at hahead
    · rcases htail with hsame | ⟨⟨tail', hlabel⟩, rfl, -, -⟩
      · rw [hsame]
        exact h.ahead hahead
      · simp only [Function.update_self] at heq
        rw [← heq] at hahead
        rcases ahead_advance _ _ hahead with ⟨head, tail, hload, -⟩ | ⟨-, hnone⟩
        · cases hload.symm.trans hlabel
        · exact absurd hlabel (hnone tail')
    · rcases ahead_advance _ _ hahead with ⟨head, tail, hload, htail', hne⟩ | ⟨hbefore, hnone⟩
      · cases hload
        rw [congrFun hacts.2 .eventTail, h.tail tail htail', ← hacts.1]
        exact hne
      · have hsame := htail.resolve_right fun htaken => htaken.1.elim hnone
        rw [hsame]
        exact h.ahead hbefore
  case vacant =>
    intro hvacant
    by_cases htarget : target request = some .horizonState
    · obtain ⟨value, rfl⟩ := stored_of_observe hobserve htarget rfl
      obtain rfl := hacts
      obtain rfl : value = .empty := of_decide_eq_true haccepts
      simp
    · exact (acts_frame hacts htarget).trans (h.vacant hvacant)

end ForeignStep

end EspNp2.LiveService.OwnerInvariant
