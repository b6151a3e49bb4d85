import EspNp2.LiveService.LifecycleMonitor

/-!
The life of the service as a protocol of its own: the words that decide it and the turns
that a party can take with them. Every step of the threads is such a turn, so the invariants
are proved over the turns.
-/

namespace EspNp2.LiveService.Lifecycle

open EspNp2.Library.Concurrent
open EspNp2.Library.LabelledRun
open EspNp2.LiveService.LifecycleMonitor
open EspNp2.LiveService.LiveSystem
open EspNp2.LiveService.ServiceMemory
open EspNp2.LiveService.Transport

section Turns

/-- The words of the memory that decide the life of the service. -/
structure Life where
  state : LiveState
  latched : Bool
  category : FailureCategory
  attached : Bool
  reachable : Bool
  safe : Bool
  producerDone : Bool
deriving DecidableEq, Repr

def life (memory : Memory) : Life where
  state := memory .state
  latched := memory .firstErrorLatched
  category := memory .failureCategory
  attached := memory .guestAttached
  reachable := memory .sinkReachable
  safe := memory .workerSafe
  producerDone := memory .producerDone

/-- What a quiescent service must not show. -/
def Disturbs (l : Life) (disturbance : Bool) : Prop :=
  disturbance = true → l.attached = true ∨ l.safe = false ∨ l.reachable = true

/-- What the trace shows of a turn. -/
inductive Mark where
  | silent
  | wins
  | returns (won : Bool)
  | misses
  | detaches
  | attaches
  | binds
deriving DecidableEq, Repr

def mark (party : Party) : OpLabel → Mark
  | ⟨.compareExchangeWeak .state _ .failing, true⟩ => .wins
  | ⟨.note (.firstFatal won), _⟩ => .returns won
  | ⟨.compareExchange .state .draining .stoppedQuiescent, false⟩ => .misses
  | ⟨.load .guestAttached, false⟩ => if party = .worker then .detaches else .silent
  | ⟨.compareExchange .state .startedUnattached .running, true⟩ => .attaches
  | ⟨.store .guestAttached true, _⟩ | ⟨.exchange .guestAttached true, _⟩ => .binds
  | _ => .silent

/-- The turns of a party that has not ended. -/
inductive Turn (party : Party) (w : Watch) (l : Life) : Mark → Watch → Life → Prop
  | idle : Turn party w l .silent w l
  | seeState : Turn party w l .silent { w with
      late := w.late || LiveState.late l.state
      known := w.known || l.state = .failing
      quiescent := w.quiescent || LiveState.quiescent l.state } l
  | seeLatched : Turn party w l .silent { w with
      late := w.late || l.latched
      known := w.known || l.latched } l
  | seeDone : Turn party w l .silent { w with done := w.done || l.producerDone } l
  | seeDetached (hparty : party = .worker) (hattached : l.attached = false)
      (hcause : w.known = true ∨ w.missed = true) :
      Turn party w l .detaches { w with detached := true } l
  | seeDisturbed (disturbance : Bool) (h : Disturbs l disturbance) :
      Turn party w l .silent { w with disturbed := w.disturbed || w.quiescent && disturbance } l
  | claim (hstate : LiveState.closed l.state = false) (hfatal : w.fatal = .clear) :
      Turn party w l .wins { w with fatal := .won, late := true, known := true }
        { l with state := .failing }
  | describe {category : FailureCategory} (hcategory : category ≠ .none) (hfatal : w.fatal = .won) :
      Turn party w l .silent { w with fatal := .described } { l with category := category }
  | latch (hfatal : w.fatal = .described) :
      Turn party w l .silent { w with fatal := .latched } { l with latched := true }
  | report (hfatal : w.fatal = .latched) :
      Turn party w l (.returns true) { w with fatal := .reported } l
  | unreported (hfatal : w.fatal = .clear ∨ w.fatal = .reported) :
      Turn party w l (.returns false) w l
  | boot (hstate : l.state = .starting) :
      Turn party w l .silent w { l with state := .startedUnattached }
  | attach (hparty : party = .owner) (hstate : l.state = .startedUnattached) :
      Turn party w l .attaches { w with attaching := true } { l with state := .running }
  | bind (hparty : party = .owner) (hattaching : w.attaching = true) :
      Turn party w l .binds { w with attaching := false, offline := false }
        { l with attached := true }
  | detach (hparty : party = .owner) (hattaching : w.attaching = false) :
      Turn party w l .silent { w with attaching := false, offline := true }
        { l with attached := false }
  | complete (h : (w.offline = true ∧ w.late = true ∧ w.attaching = false) ∨ w.unattached = true) :
      Turn party w l .silent w { l with producerDone := true }
  | stop (hstate : l.state = .startedUnattached ∨ l.state = .running) :
      Turn party w l .silent { w with
        late := true
        unattached := w.unattached || l.state = .startedUnattached }
        { l with state := .stopRequested }
  | drain (hstate : l.state = .stopRequested) :
      Turn party w l .silent w { l with state := .draining }
  | stopClean (hparty : party = .worker) (hdone : w.done = true) (hreleased : w.released = true)
      (hsafe : w.safe = true) (hstate : l.state = .draining) :
      Turn party w l .silent { w with ended := true } { l with state := .stoppedQuiescent }
  | miss (hparty : party = .worker) (hdone : w.done = true) (hstate : l.state ≠ .draining) :
      Turn party w l .misses { w with missed := true } l
  | release (hparty : party = .worker) :
      Turn party w l .silent { w with released := true } { l with reachable := false }
  | giveBack : Turn party w l .silent w { l with reachable := false }
  | vouch (hparty : party = .worker) (safe : Bool) :
      Turn party w l .silent { w with safe := safe } { l with safe := safe }
  | failQuiescent (hparty : party = .worker) (hreleased : w.released = true)
      (hdetached : w.detached = true) (hsafe : w.safe = true)
      (hcause : w.known = true ∨ w.missed = true) :
      Turn party w l .silent { w with ended := true } { l with state := .failedQuiescent }
  | failNotQuiescent (hparty : party = .worker) (hknown : w.known = true) :
      Turn party w l .silent { w with ended := true } { l with state := .failedNotQuiescent }
  | destroy (hquiescent : w.quiescent = true) :
      Turn party w l .silent w { l with state := .destroyed }

end Turns

section Refinement

variable {party : Party} {w w' : Watch} {memory memory' : Memory} {cell : Cell}

theorem turn_of_load {value : cell.Value} (h : observeLoad party w cell value = some w')
    (hvalue : value = memory cell) :
    Turn party w (life memory) (mark party ⟨.load cell, value⟩) w' (life memory) := by
  cases cell with
  | state =>
      subst hvalue
      obtain rfl := Option.some.inj h
      exact .seeState
  | firstErrorLatched =>
      subst hvalue
      obtain rfl := Option.some.inj h
      exact .seeLatched
  | producerDone =>
      subst hvalue
      obtain rfl := Option.some.inj h
      exact .seeDone
  | guestAttached =>
      simp only [observeLoad] at h
      split at h
      · rename_i hparty
        split at h
        · rename_i hattached
          obtain rfl := Option.some.inj h
          rw [hattached]
          exact .idle
        rename_i hattached
        rw [Bool.not_eq_true] at hattached
        split at h
        · rename_i hcause
          obtain rfl := Option.some.inj h
          rw [hattached] at hvalue ⊢
          simp only [mark, if_pos hparty]
          exact .seeDetached hparty hvalue.symm (by simpa using hcause)
        · cases h
      · rename_i hparty
        obtain rfl := Option.some.inj h
        have hmark : mark party ⟨.load .guestAttached, value⟩ = .silent := by
          cases value with
          | true => rfl
          | false => simp only [mark, if_neg hparty]
        rw [hmark]
        exact .seeDisturbed _ fun hattached => .inl (hvalue.symm.trans hattached)
  | workerSafe =>
      obtain rfl := Option.some.inj h
      refine .seeDisturbed _ fun hsafe => .inr (.inl (hvalue.symm.trans ?_))
      simpa using hsafe
  | sinkReachable =>
      obtain rfl := Option.some.inj h
      exact .seeDisturbed _ fun hreachable => .inr (.inr (hvalue.symm.trans hreachable))
  | _ =>
      obtain rfl := Option.some.inj h
      exact .idle

/-- Whether a word belongs to the life of the service. -/
def Vital (cell : Cell) : Bool :=
  cell ∈ [.state, .firstErrorLatched, .failureCategory, .guestAttached, .sinkReachable, .workerSafe,
    .producerDone]

theorem life_update_other {value : cell.Value} (h : Vital cell = false) :
    life (Function.update memory cell value) = life memory := by
  have hne : ∀ other, Vital other = true → Function.update memory cell value other =
    memory other := by
    rintro other hother
    refine Function.update_of_ne ?_ _ _
    rintro rfl
    simp [h] at hother
  simp only [life, hne .state rfl, hne .firstErrorLatched rfl, hne .failureCategory rfl,
    hne .guestAttached rfl, hne .sinkReachable rfl, hne .workerSafe rfl, hne .producerDone rfl]

theorem turn_of_terminal {state : LiveState} (h : observeTerminal party w state = some w') :
    Turn party w (life memory) .silent w' (life (Function.update memory .state state)) := by
  change Turn party w (life memory) .silent w' { life memory with state := state }
  unfold observeTerminal at h
  split at h
  · split at h
    · rename_i hcond
      obtain rfl := Option.some.inj h
      simp only [Bool.and_eq_true, Bool.or_eq_true] at hcond
      exact .failQuiescent rfl hcond.1.1.1 hcond.1.1.2 hcond.1.2 hcond.2
    · cases h
  · split at h
    · rename_i hcond
      obtain rfl := Option.some.inj h
      simp only [Bool.and_eq_true] at hcond
      exact .failNotQuiescent rfl hcond.1
    · cases h
  · split at h
    · obtain rfl := Option.some.inj h
      exact .destroy ‹_›
    · cases h
  · cases h

theorem turn_of_attached {m : Memory} {attached : Bool}
    (h : observeAttached party w attached = some w') :
    Turn party w (life m) (if attached then .binds else .silent) w'
      (life (Function.update m .guestAttached attached)) := by
  change Turn party w (life m) (if attached then .binds else .silent) w'
    { life m with attached := attached }
  rw [observeAttached] at h
  split at h
  · rename_i hcond
    obtain rfl := Option.some.inj h
    cases attached with
    | true => exact .bind hcond.1 hcond.2
    | false => exact .detach hcond.1 hcond.2
  · cases h

theorem turn_of_store {value : cell.Value} (h : observeStore party w cell value = some w') :
    Turn party w (life memory) (mark party ⟨.store cell value, ()⟩) w'
      (life (Function.update memory cell value)) := by
  cases cell with
  | state => exact turn_of_terminal h
  | guestAttached =>
      have hturn := turn_of_attached (m := memory) h
      cases value with
      | true => exact hturn
      | false => exact hturn
  | workerSafe =>
      change Turn party w (life memory) .silent w' { life memory with safe := value }
      rw [observeStore] at h
      split at h
      · obtain rfl := Option.some.inj h
        exact .vouch ‹_› value
      · cases h
  | sinkReachable =>
      change Turn party w (life memory) .silent w' { life memory with reachable := value }
      simp only [observeStore, observeRelease] at h
      split at h
      · obtain rfl := Option.some.inj h
        exact .release rfl
      · split at h
        · obtain rfl := Option.some.inj h
          exact .giveBack
        · cases h
      · cases h
  | producerDone =>
      change Turn party w (life memory) .silent w' { life memory with producerDone := value }
      rw [observeStore] at h
      split at h
      · rename_i hcond
        obtain rfl := Option.some.inj h
        simp only [Bool.and_eq_true, Bool.or_eq_true, Bool.not_eq_true'] at hcond
        obtain ⟨rfl, hcond⟩ := hcond
        exact .complete (hcond.imp (fun h => ⟨h.1.1, h.1.2, h.2⟩) id)
      · cases h
  | failureCategory =>
      change Turn party w (life memory) .silent w' { life memory with category := value }
      rw [observeStore] at h
      split at h
      · rename_i hcond
        obtain rfl := Option.some.inj h
        exact .describe hcond.2 hcond.1
      · cases h
  | failureOrigin | failureSubcode | firstErrorSequence =>
      rw [life_update_other rfl]
      simp only [observeStore] at h
      split at h
      · obtain rfl := Option.some.inj h
        exact .idle
      · cases h
  | firstErrorLatched | firstError => cases h
  | _ =>
      rw [life_update_other rfl]
      obtain rfl := Option.some.inj h
      exact .idle

/-- What an exchange did to the memory. -/
def Exchanged (memory : Memory) (cell : Cell) (expected desired : cell.Value) (done : Bool)
    (memory' : Memory) : Prop :=
  (done = true ∧ memory cell = expected ∧ memory' = Function.update memory cell desired) ∨
    (done = false ∧ memory cell ≠ expected ∧ memory' = memory)

theorem turn_of_exchange {expected desired : LiveState} {done : Bool}
    (h : observeExchange party w expected desired done = some w')
    (hdone : Exchanged memory .state expected desired done memory') :
    Turn party w (life memory) (mark party ⟨.compareExchange .state expected desired, done⟩) w'
      (life memory') := by
  have hfalse : done = false → memory' = memory := by
    rintro rfl
    rcases hdone with ⟨hdone, -⟩ | ⟨-, -, rfl⟩
    · cases hdone
    · rfl
  have htrue : done = true → (life memory).state = expected ∧
      life memory' = { life memory with state := desired } := by
    rintro rfl
    rcases hdone with ⟨-, hexpected, rfl⟩ | ⟨hdone, -⟩
    · exact ⟨hexpected, rfl⟩
    · cases hdone
  have hmissed : done = false → (life memory).state ≠ expected := by
    rintro rfl
    rcases hdone with ⟨hdone, -⟩ | ⟨-, hexpected, -⟩
    · cases hdone
    · exact hexpected
  clear hdone
  unfold observeExchange at h
  split at h
  · obtain rfl := Option.some.inj h
    cases done with
    | true =>
        rw [(htrue rfl).2]
        exact .boot (htrue rfl).1
    | false =>
        rw [hfalse rfl]
        exact .idle
  · split at h
    · cases h
    rename_i hattaching
    obtain rfl := Option.some.inj h
    cases done with
    | true =>
        rw [(htrue rfl).2]
        exact .attach rfl (htrue rfl).1
    | false =>
        rw [hfalse rfl]
        have hsame : { w with attaching := false } = w := by
          simp only [Bool.not_eq_true] at hattaching
          rw [← hattaching]
        rw [hsame]
        exact .idle
  · split at h
    · rename_i hcond
      obtain rfl := Option.some.inj h
      simp only [Bool.and_eq_true] at hcond
      cases done with
      | true =>
          rw [(htrue rfl).2]
          exact .stopClean rfl hcond.1.1 hcond.1.2 hcond.2 (htrue rfl).1
      | false =>
          rw [hfalse rfl]
          exact .miss rfl hcond.1.1 (hmissed rfl)
    · cases h
  · obtain rfl := Option.some.inj h
    cases done with
    | true =>
        rw [(htrue rfl).2]
        exact .drain (htrue rfl).1
    | false =>
        rw [hfalse rfl]
        exact .idle
  · obtain rfl := Option.some.inj h
    cases done with
    | true =>
        rw [(htrue rfl).2]
        exact .drain (htrue rfl).1
    | false =>
        rw [hfalse rfl]
        exact .idle
  · cases h

theorem turn_of_claim {expected desired : LiveState} {done : Bool}
    (h : observeClaim party w expected desired done = some w')
    (hdone : (done = true ∧ memory .state = expected ∧
      memory' = Function.update memory .state desired) ∨ (done = false ∧ memory' = memory)) :
    Turn party w (life memory) (mark party ⟨.compareExchangeWeak .state expected desired, done⟩) w'
      (life memory') := by
  unfold observeClaim at h
  split at h
  · split at h
    · cases h
    rename_i hcond
    obtain rfl := Option.some.inj h
    simp only [not_or, Bool.not_eq_true, ne_eq, not_not] at hcond
    rcases hdone with ⟨rfl, rfl, rfl⟩ | ⟨rfl, rfl⟩
    · exact .claim hcond.1 hcond.2
    · exact .idle
  · split at h
    · rename_i hcond
      obtain rfl := Option.some.inj h
      rcases hdone with ⟨rfl, rfl, rfl⟩ | ⟨rfl, rfl⟩
      · exact .stop hcond
      · exact .idle
    · cases h
  · cases h

theorem turn_of_compareExchange {expected desired : cell.Value} {done : Bool}
    (h : observeCompareExchange party w cell expected desired done = some w')
    (hdone : Exchanged memory cell expected desired done memory') :
    Turn party w (life memory) (mark party ⟨.compareExchange cell expected desired, done⟩) w'
      (life memory') := by
  cases cell with
  | state => exact turn_of_exchange h hdone
  | firstErrorLatched =>
      simp only [observeCompareExchange] at h
      split at h
      · rename_i hcond
        obtain rfl := Option.some.inj h
        obtain ⟨hfatal, rfl, rfl, rfl⟩ := hcond
        rcases hdone with ⟨-, -, rfl⟩ | ⟨hdone, -⟩
        · exact .latch hfatal
        · cases hdone
      · cases h
  | firstError =>
      simp only [observeCompareExchange] at h
      split at h
      · obtain rfl := Option.some.inj h
        rcases hdone with ⟨-, -, rfl⟩ | ⟨-, -, rfl⟩
        · rw [life_update_other rfl]
          exact .idle
        · exact .idle
      · cases h
  | transactionGate =>
      obtain rfl := Option.some.inj h
      rcases hdone with ⟨-, -, rfl⟩ | ⟨-, -, rfl⟩
      · rw [life_update_other rfl]
        exact .idle
      · exact .idle
  | _ => cases h

theorem turn_of_note {remark : Note} (h : observeNote w remark = some w') :
    Turn party w (life memory) (mark party ⟨.note remark, ()⟩) w' (life memory) := by
  cases remark with
  | firstFatal won =>
      simp only [observeNote] at h
      split at h
      · rename_i hwon
        split at h
        · obtain rfl := Option.some.inj h
          rw [hwon]
          exact .report ‹_›
        · cases h
      · rename_i hwon
        split at h
        · obtain rfl := Option.some.inj h
          rw [Bool.not_eq_true] at hwon
          rw [hwon]
          exact .unreported ‹_›
        · cases h
  | destroy result =>
      simp only [observeNote] at h
      split at h
      · cases h
      · obtain rfl := Option.some.inj h
        exact .idle
  | _ =>
      obtain rfl := Option.some.inj h
      exact .idle

/-- Every step of a watched party is a turn. -/
theorem turn_of_observe {request : Op} {reply : Result request}
    (h : observe party w ⟨request, reply⟩ = some w') (hacts : Acts memory request reply memory') :
    w.ended = false ∧
      Turn party w (life memory) (mark party ⟨request, reply⟩) w' (life memory') := by
  rw [observe] at h
  split at h
  · cases h
  rename_i hended
  refine ⟨by simpa using hended, ?_⟩
  cases request with
  | load cell =>
      obtain ⟨hvalue, rfl⟩ := hacts
      exact turn_of_load h hvalue
  | store cell value =>
      obtain rfl := hacts
      exact turn_of_store h
  | compareExchange cell expected desired => exact turn_of_compareExchange h hacts
  | compareExchangeWeak cell expected desired =>
      cases cell with
      | state => exact turn_of_claim h hacts
      | _ => cases h
  | exchange cell value =>
      obtain ⟨-, rfl⟩ := hacts
      cases cell with
      | guestAttached =>
          have hturn := turn_of_attached (m := memory) h
          cases value with
          | true => exact hturn
          | false => exact hturn
      | _ => cases h
  | note mark =>
      obtain rfl := hacts
      exact turn_of_note h
  | _ =>
      obtain rfl := hacts
      obtain rfl := Option.some.inj h
      exact .idle

end Refinement

section Latch

variable {party : Party} {m : Mark} {l l' : Life} {w w' : Watch} {watches : Party → Watch}

/-- A state that a service never leaves but for a further one of its kind. -/
def LiveState.broken (state : LiveState) : Bool :=
  state = .failing || state = .failedQuiescent || state = .failedNotQuiescent || state = .destroyed

def FatalPhase.isDescribed (phase : FatalPhase) : Bool :=
  phase = .described || phase = .latched || phase = .reported

def FatalPhase.isLatched (phase : FatalPhase) : Bool := phase = .latched || phase = .reported

attribute [grind =] LiveState.broken FatalPhase.isDescribed FatalPhase.isLatched LiveState.closed
  LiveState.terminal LiveState.late LiveState.quiescent

/-- Some call of `first_fatal` has won the state. -/
def Won (watches : Party → Watch) : Prop := ∃ party, (watches party).fatal ≠ .clear

theorem Turn.fatal_ne (h : Turn party w l m w' l') (hfatal : w.fatal ≠ .clear) :
    w'.fatal ≠ .clear := by
  cases h <;> grind

theorem Turn.fatal_latched (h : Turn party w l m w' l')
    (hfatal : FatalPhase.isLatched w.fatal = true) : FatalPhase.isLatched w'.fatal = true := by
  cases h <;> grind

theorem exists_update {P : Watch → Prop} (h : ∃ p, P (watches p)) (hw : P (watches party) → P w') :
    ∃ p, P (Function.update watches party w' p) := by
  obtain ⟨p, hp⟩ := h
  refine ⟨p, ?_⟩
  by_cases hparty : p = party
  · subst hparty
    simpa using hw hp
  · simpa [hparty] using hp

theorem exists_updated {P : Watch → Prop} (hw : P w') :
    ∃ p, P (Function.update watches party w' p) :=
  ⟨party, by simpa using hw⟩

theorem Won.turn (h : Won watches) (hturn : Turn party (watches party) l m w' l') :
    Won (Function.update watches party w') :=
  exists_update (P := fun w => w.fatal ≠ .clear) h hturn.fatal_ne

/-- The latch of the first error agrees with the calls of `first_fatal`. -/
structure Latch (l : Life) (watches : Party → Watch) : Prop where
  single : ∀ p q, (watches p).fatal ≠ .clear → (watches q).fatal ≠ .clear → p = q
  broken : ∀ p, (watches p).fatal ≠ .clear → LiveState.broken l.state = true
  failing : l.state = .failing → Won watches
  latched : l.latched = true → ∃ p, FatalPhase.isLatched (watches p).fatal = true
  kept : ∀ p, FatalPhase.isLatched (watches p).fatal = true → l.latched = true
  category : ∀ p, FatalPhase.isDescribed (watches p).fatal = true → l.category ≠ .none
  known : ∀ p, (watches p).known = true → Won watches

theorem won_of_latched (h : ∃ p, FatalPhase.isLatched (watches p).fatal = true) : Won watches := by
  obtain ⟨p, hp⟩ := h
  refine ⟨p, ?_⟩
  intro hclear
  rw [hclear] at hp
  cases hp

/-- The latch is free for the party that describes the error. -/
theorem Latch.unlatched (h : Latch l watches) (hfatal : (watches party).fatal = .described) :
    l.latched = false := by
  by_contra hlatched
  obtain ⟨p, hp⟩ := h.latched (by simpa using hlatched)
  have hne : (watches p).fatal ≠ .clear := by
    intro hclear
    simp [hclear, FatalPhase.isLatched] at hp
  obtain rfl := h.single p party hne (by simp [hfatal])
  simp [hfatal, FatalPhase.isLatched] at hp

theorem Turn.failing_cases (h : Turn party w l m w' l') (hstate : l'.state = .failing) :
    l.state = .failing ∨ w'.fatal ≠ .clear := by
  cases h <;> grind

theorem Turn.latched_cases (h : Turn party w l m w' l') (hlatched : l'.latched = true) :
    l.latched = true ∨ FatalPhase.isLatched w'.fatal = true := by
  cases h <;> grind

theorem Turn.known_cases (h : Turn party w l m w' l') (hknown : w'.known = true) :
    w.known = true ∨ l.state = .failing ∨ l.latched = true ∨ w'.fatal ≠ .clear := by
  cases h <;> grind

theorem update_cases (watches : Party → Watch) (party : Party) (w' : Watch) (p : Party) :
    p ≠ party ∧ Function.update watches party w' p = watches p ∨
      p = party ∧ Function.update watches party w' p = w' := by
  by_cases hparty : p = party
  · exact .inr ⟨hparty, by simp [hparty]⟩
  · exact .inl ⟨hparty, by simp [hparty]⟩

theorem Turn.claims (h : Turn party w l m w' l') (hw : w.fatal = .clear) (hw' : w'.fatal ≠ .clear) :
    LiveState.closed l.state = false := by
  cases h <;> grind

theorem Turn.broken_state (h : Turn party w l m w' l') (hstate : LiveState.broken l.state = true) :
    LiveState.broken l'.state = true := by
  cases h <;> grind

theorem Turn.broken_cases (h : Turn party w l m w' l') (hw' : w'.fatal ≠ .clear) :
    w.fatal ≠ .clear ∨ LiveState.broken l'.state = true := by
  cases h <;> grind

theorem Turn.latched_stays (h : Turn party w l m w' l') (hlatched : l.latched = true) :
    l'.latched = true := by
  cases h <;> grind

theorem Turn.kept_cases (h : Turn party w l m w' l') (hw' : FatalPhase.isLatched w'.fatal = true) :
    FatalPhase.isLatched w.fatal = true ∨ l'.latched = true := by
  cases h <;> grind

theorem Turn.category_stays (h : Turn party w l m w' l') (hcategory : l.category ≠ .none) :
    l'.category ≠ .none := by
  cases h <;> grind

theorem Turn.category_cases (h : Turn party w l m w' l')
    (hw' : FatalPhase.isDescribed w'.fatal = true) :
    FatalPhase.isDescribed w.fatal = true ∨ l'.category ≠ .none := by
  cases h <;> grind

/-- Nobody has won while the state is open. -/
theorem Latch.clear (h : Latch l watches) (hstate : LiveState.closed l.state = false) (p : Party) :
    (watches p).fatal = .clear := by
  by_contra hfatal
  have hbroken := h.broken p hfatal
  grind

theorem Latch.turn (h : Latch l watches) (hturn : Turn party (watches party) l m w' l') :
    Latch l' (Function.update watches party w') := by
  have hwon := fun h : Won watches => h.turn hturn
  have hnew : ∀ p, p ≠ party → (watches p).fatal ≠ .clear → w'.fatal = .clear := by
    intro p hp hfatal
    by_contra hw'
    by_cases hw : (watches party).fatal = .clear
    · exact hfatal (h.clear (hturn.claims hw hw') p)
    · exact hp (h.single p party hfatal hw)
  constructor
  case single =>
    intro p q hp hq
    rcases update_cases watches party w' p with ⟨hpne, hpeq⟩ | ⟨hpself, hpeq⟩ <;>
      rcases update_cases watches party w' q with ⟨hqne, hqeq⟩ | ⟨hqself, hqeq⟩ <;>
      rw [hpeq] at hp <;> rw [hqeq] at hq
    · exact h.single p q hp hq
    · exact absurd (hnew p hpne hp) hq
    · exact absurd (hnew q hqne hq) hp
    · exact hpself.trans hqself.symm
  case broken =>
    intro p hp
    rcases update_cases watches party w' p with ⟨-, heq⟩ | ⟨-, heq⟩ <;> rw [heq] at hp
    · exact hturn.broken_state (h.broken p hp)
    · rcases hturn.broken_cases hp with hfatal | hbroken
      · exact hturn.broken_state (h.broken party hfatal)
      · exact hbroken
  case failing =>
    intro hstate
    rcases hturn.failing_cases hstate with hfailing | hfatal
    · exact hwon (h.failing hfailing)
    · exact exists_updated (P := fun w => w.fatal ≠ .clear) hfatal
  case latched =>
    intro hlatched
    rcases hturn.latched_cases hlatched with hbefore | hfatal
    · exact exists_update (P := fun w => FatalPhase.isLatched w.fatal = true) (h.latched hbefore)
        hturn.fatal_latched
    · exact exists_updated (P := fun w => FatalPhase.isLatched w.fatal = true) hfatal
  case kept =>
    intro p hp
    rcases update_cases watches party w' p with ⟨-, heq⟩ | ⟨-, heq⟩ <;> rw [heq] at hp
    · exact hturn.latched_stays (h.kept p hp)
    · rcases hturn.kept_cases hp with hw | hlatched
      · exact hturn.latched_stays (h.kept party hw)
      · exact hlatched
  case category =>
    intro p hp
    rcases update_cases watches party w' p with ⟨-, heq⟩ | ⟨-, heq⟩ <;> rw [heq] at hp
    · exact hturn.category_stays (h.category p hp)
    · rcases hturn.category_cases hp with hw | hcategory
      · exact hturn.category_stays (h.category party hw)
      · exact hcategory
  case known =>
    intro p hp
    rcases update_cases watches party w' p with ⟨-, heq⟩ | ⟨-, heq⟩ <;> rw [heq] at hp
    · exact hwon (h.known p hp)
    · rcases hturn.known_cases hp with hknown | hfailing | hlatched | hfatal
      · exact hwon (h.known party hknown)
      · exact hwon (h.failing hfailing)
      · exact hwon (won_of_latched (h.latched hlatched))
      · exact exists_updated (P := fun w => w.fatal ≠ .clear) hfatal

end Latch

section Stages

variable {party : Party} {m : Mark} {l l' : Life} {watches : Party → Watch} {w w' : Watch}

theorem Turn.late_state (h : Turn party w l m w' l') (hstate : LiveState.late l.state = true) :
    LiveState.late l'.state = true := by
  cases h <;> grind

/-- What the parties know of the state. -/
structure Course (l : Life) (watches : Party → Watch) : Prop where
  started : l.state ≠ .uninitialized ∧ l.state ≠ .ready
  late : ∀ p, (watches p).late = true → LiveState.late l.state = true
  quiescent : ∀ p, (watches p).quiescent = true →
    LiveState.quiescent l.state = true ∨ l.state = .destroyed
  alive : (watches .worker).ended = false →
    LiveState.terminal l.state = false ∧ l.state ≠ .destroyed
  ended : (watches .worker).ended = true →
    LiveState.terminal l.state = true ∨ l.state = .destroyed

theorem Latch.late (h : Latch l watches) (hwon : Won watches) : LiveState.late l.state = true := by
  obtain ⟨p, hp⟩ := hwon
  have hbroken := h.broken p hp
  grind

theorem Turn.late_cases (h : Turn party w l m w' l') (hlate : w'.late = true) :
    w.late = true ∨ l.latched = true ∨ LiveState.late l'.state = true := by
  cases h <;> grind

theorem Turn.quiescent_cases (h : Turn party w l m w' l') (hquiescent : w'.quiescent = true) :
    w.quiescent = true ∨ LiveState.quiescent l'.state = true := by
  cases h <;> grind

/-- A quiescent state stays but for the destruction, once the worker has ended. -/
theorem Turn.quiescent_state (h : Turn party w l m w' l') (hworker : party ≠ .worker)
    (hstate : LiveState.quiescent l.state = true ∨ l.state = .destroyed) :
    LiveState.quiescent l'.state = true ∨ l'.state = .destroyed := by
  cases h <;> grind

theorem Turn.alive_state (h : Turn party w l m w' l') (hw' : w'.ended = false)
    (hquiescent : w.quiescent = false)
    (hstate : LiveState.terminal l.state = false ∧ l.state ≠ .destroyed) :
    LiveState.terminal l'.state = false ∧ l'.state ≠ .destroyed := by
  cases h <;> grind

theorem Turn.other_state (h : Turn party w l m w' l') (hworker : party ≠ .worker)
    (hquiescent : w.quiescent = false)
    (hstate : LiveState.terminal l.state = false ∧ l.state ≠ .destroyed) :
    LiveState.terminal l'.state = false ∧ l'.state ≠ .destroyed := by
  cases h <;> grind

theorem Turn.over_state (h : Turn party w l m w' l') (hworker : party ≠ .worker)
    (hstate : LiveState.terminal l.state = true ∨ l.state = .destroyed) :
    LiveState.terminal l'.state = true ∨ l'.state = .destroyed := by
  cases h <;> grind

theorem Turn.ends (h : Turn party w l m w' l') (hw : w.ended = false) (hw' : w'.ended = true) :
    party = .worker ∧ LiveState.terminal l'.state = true := by
  cases h <;> grind

theorem Turn.started_state (h : Turn party w l m w' l')
    (hstate : l.state ≠ .uninitialized ∧ l.state ≠ .ready) :
    l'.state ≠ .uninitialized ∧ l'.state ≠ .ready := by
  cases h <;> grind

/-- The worker's flag, as one of the watches. -/
theorem worker_update {P : Watch → Prop} (hother : party ≠ .worker → P (watches .worker))
    (hself : party = .worker → P w') : P (Function.update watches party w' .worker) := by
  by_cases hparty : party = .worker
  · subst hparty
    simpa using hself rfl
  · simpa [Ne.symm hparty] using hother hparty

/-- A state that nobody can take for quiescent before the worker has ended. -/
theorem Course.unseen (h : Course l watches) (hended : (watches .worker).ended = false)
    (p : Party) : (watches p).quiescent = false := by
  rw [Bool.eq_false_iff]
  intro hquiescent
  have hstate := h.quiescent p hquiescent
  have halive := h.alive hended
  grind

theorem Course.turn (h : Course l watches) (hlatch : Latch l watches)
    (hended : (watches party).ended = false) (hturn : Turn party (watches party) l m w' l') :
    Course l' (Function.update watches party w') := by
  constructor
  case started => exact hturn.started_state h.started
  case late =>
    intro p hp
    rcases update_cases watches party w' p with ⟨-, heq⟩ | ⟨-, heq⟩ <;> rw [heq] at hp
    · exact hturn.late_state (h.late p hp)
    · rcases hturn.late_cases hp with hlate | hlatched | hstate
      · exact hturn.late_state (h.late party hlate)
      · exact hturn.late_state (hlatch.late (won_of_latched (hlatch.latched hlatched)))
      · exact hstate
  case quiescent =>
    have hstays : ∀ p, (watches p).quiescent = true →
        LiveState.quiescent l'.state = true ∨ l'.state = .destroyed := by
      intro p hp
      refine hturn.quiescent_state ?_ (h.quiescent p hp)
      rintro rfl
      simp [h.unseen hended p] at hp
    intro p hp
    rcases update_cases watches party w' p with ⟨-, heq⟩ | ⟨-, heq⟩ <;> rw [heq] at hp
    · exact hstays p hp
    · rcases hturn.quiescent_cases hp with hquiescent | hstate
      · exact hstays party hquiescent
      · exact .inl hstate
  case alive =>
    refine worker_update (P := fun w => w.ended = false →
      LiveState.terminal l'.state = false ∧ l'.state ≠ .destroyed) ?_ ?_
    · exact fun hparty hw => hturn.other_state hparty (h.unseen hw party) (h.alive hw)
    · rintro rfl hw'
      exact hturn.alive_state hw' (h.unseen hended .worker) (h.alive hended)
  case ended =>
    refine worker_update (P := fun w => w.ended = true →
      LiveState.terminal l'.state = true ∨ l'.state = .destroyed) ?_ ?_
    · exact fun hparty hw => hturn.over_state hparty (h.ended hw)
    · rintro rfl hw'
      exact .inl (hturn.ends hended hw').2

/-- No guest is bound, and none is about to be. -/
def Unbound (l : Life) (watches : Party → Watch) : Prop :=
  l.attached = false ∧ (watches .owner).attaching = false

attribute [grind =] Unbound

/-- When the guest is off. -/
structure Binding (l : Life) (watches : Party → Watch) : Prop where
  early : l.state = .starting ∨ l.state = .startedUnattached → Unbound l watches
  offline : ∀ p, (watches p).offline = true → p = .owner ∧ l.attached = false
  unattached : ∀ p, (watches p).unattached = true → LiveState.late l.state = true ∧
    Unbound l watches
  complete : l.producerDone = true → LiveState.late l.state = true ∧ Unbound l watches
  done : ∀ p, (watches p).done = true → l.producerDone = true
  missed : ∀ p, (watches p).missed = true → LiveState.late l.state = true

theorem owner_update {P : Watch → Prop} (hother : party ≠ .owner → P (watches .owner))
    (hself : party = .owner → P w') : P (Function.update watches party w' .owner) := by
  by_cases hparty : party = .owner
  · subst hparty
    simpa using hself rfl
  · simpa [Ne.symm hparty] using hother hparty

theorem Turn.attached_stays (h : Turn party w l m w' l') (hattached : l.attached = false)
    (hattaching : party = .owner → w.attaching = false) : l'.attached = false := by
  cases h <;> grind

theorem Turn.attaching_stays (h : Turn party w l m w' l') (hattaching : w.attaching = false)
    (hstate : l.state ≠ .startedUnattached) : w'.attaching = false := by
  cases h <;> grind

/-- A service without a guest gets one only from `startedUnattached`. -/
theorem Unbound.turn (h : Unbound l watches) (hturn : Turn party (watches party) l m w' l')
    (hstate : l.state ≠ .startedUnattached) : Unbound l' (Function.update watches party w') := by
  refine ⟨hturn.attached_stays h.1 ?_, owner_update (P := fun w => w.attaching = false) ?_ ?_⟩
  · rintro rfl
    exact h.2
  · exact fun _ => h.2
  · rintro rfl
    exact hturn.attaching_stays h.2 hstate

/-- In a late state it gets none. -/
theorem Unbound.late_turn (h : Unbound l watches) (hturn : Turn party (watches party) l m w' l')
    (hlate : LiveState.late l.state = true) :
    LiveState.late l'.state = true ∧ Unbound l' (Function.update watches party w') := by
  refine ⟨hturn.late_state hlate, h.turn hturn ?_⟩
  intro heq
  rw [heq] at hlate
  cases hlate

theorem Turn.early_cases (h : Turn party w l m w' l')
    (hstate : l'.state = .starting ∨ l'.state = .startedUnattached) :
    (l.state = .starting ∨ l.state = .startedUnattached) ∧
      (w.attaching = false → w'.attaching = false) := by
  cases h <;> grind

theorem Turn.offline_cases (h : Turn party w l m w' l') (hoffline : w'.offline = true) :
    (w.offline = true ∧ l'.attached = l.attached) ∨ (party = .owner ∧ l'.attached = false) := by
  cases h <;> grind

theorem Turn.attached_cases (h : Turn party w l m w' l') :
    l'.attached = l.attached ∨ party = .owner := by
  cases h <;> grind

theorem Turn.unattached_cases (h : Turn party w l m w' l') (hunattached : w'.unattached = true) :
    w.unattached = true ∨ l.state = .startedUnattached ∧ LiveState.late l'.state = true ∧
      w'.attaching = w.attaching ∧ l'.attached = l.attached := by
  cases h <;> grind

theorem Turn.complete_cases (h : Turn party w l m w' l') (hdone : l'.producerDone = true) :
    l.producerDone = true ∨ w' = w ∧ l'.state = l.state ∧ l'.attached = l.attached ∧
      ((w.offline = true ∧ w.late = true ∧ w.attaching = false) ∨ w.unattached = true) := by
  cases h <;> grind

theorem Turn.done_cases (h : Turn party w l m w' l') (hdone : w'.done = true) :
    w.done = true ∨ l.producerDone = true := by
  cases h <;> grind

theorem Turn.producerDone_stays (h : Turn party w l m w' l') (hdone : l.producerDone = true) :
    l'.producerDone = true := by
  cases h <;> grind

theorem Turn.missed_done (h : Turn party w l m w' l') (hmissed : w'.missed = true) :
    w.missed = true ∨ w.done = true := by
  cases h <;> grind

theorem Binding.turn (h : Binding l watches) (hcourse : Course l watches)
    (hturn : Turn party (watches party) l m w' l') :
    Binding l' (Function.update watches party w') := by
  have hstays := fun h : LiveState.late l.state = true ∧ Unbound l watches =>
    h.2.late_turn hturn h.1
  constructor
  case early =>
    intro hstate
    obtain ⟨hearly, hattaching⟩ := hturn.early_cases hstate
    obtain ⟨hoff, hidle⟩ := h.early hearly
    refine ⟨hturn.attached_stays hoff ?_, owner_update (P := fun w => w.attaching = false) ?_ ?_⟩
    · rintro rfl
      exact hidle
    · exact fun _ => hidle
    · rintro rfl
      exact hattaching hidle
  case offline =>
    intro p hp
    rcases update_cases watches party w' p with ⟨hne, heq⟩ | ⟨rfl, heq⟩ <;> rw [heq] at hp
    · obtain ⟨rfl, hattached⟩ := h.offline p hp
      rcases hturn.attached_cases with hsame | hparty
      · exact ⟨rfl, hsame.trans hattached⟩
      · exact absurd hparty.symm hne
    · rcases hturn.offline_cases hp with ⟨hoffline, hsame⟩ | hnow
      · obtain ⟨hparty, hattached⟩ := h.offline p hoffline
        exact ⟨hparty, hsame.trans hattached⟩
      · exact hnow
  case unattached =>
    intro p hp
    rcases update_cases watches party w' p with ⟨-, heq⟩ | ⟨rfl, heq⟩ <;> rw [heq] at hp
    · exact hstays (h.unattached p hp)
    · rcases hturn.unattached_cases hp with hbefore | ⟨hstate, hlate, hattaching, hattached⟩
      · exact hstays (h.unattached p hbefore)
      · obtain ⟨hoff, hidle⟩ := h.early (.inr hstate)
        refine ⟨hlate, hattached.trans hoff, owner_update (P := fun w => w.attaching = false) ?_ ?_⟩
        · exact fun _ => hidle
        · rintro rfl
          exact hattaching.trans hidle
  case complete =>
    intro hdone
    rcases hturn.complete_cases hdone with hbefore | ⟨rfl, hstate, hattached, hcause⟩
    · exact hstays (h.complete hbefore)
    · rcases hcause with ⟨hoffline, hlate, hidle⟩ | hunattached
      · obtain ⟨rfl, hoff⟩ := h.offline party hoffline
        exact hstays ⟨hcourse.late _ hlate, hoff, hidle⟩
      · exact hstays (h.unattached party hunattached)
  case done =>
    intro p hp
    rcases update_cases watches party w' p with ⟨-, heq⟩ | ⟨rfl, heq⟩ <;> rw [heq] at hp
    · exact hturn.producerDone_stays (h.done p hp)
    · rcases hturn.done_cases hp with hbefore | hdone
      · exact hturn.producerDone_stays (h.done p hbefore)
      · exact hturn.producerDone_stays hdone
  case missed =>
    intro p hp
    rcases update_cases watches party w' p with ⟨-, heq⟩ | ⟨rfl, heq⟩ <;> rw [heq] at hp
    · exact hturn.late_state (h.missed p hp)
    · rcases hturn.missed_done hp with hbefore | hdone
      · exact hturn.late_state (h.missed p hbefore)
      · exact hturn.late_state (h.complete (h.done p hdone)).1

/-- What the worker has given back. -/
structure Handback (l : Life) (watches : Party → Watch) : Prop where
  released : ∀ p, (watches p).released = true → l.reachable = false
  safe : l.safe = (watches .worker).safe
  barred : (watches .worker).ended = true → l.state ≠ .failedNotQuiescent →
    (watches .worker).released = true ∧ (watches .worker).safe = true

theorem Turn.released_cases (h : Turn party w l m w' l') (hreleased : w'.released = true) :
    w.released = true ∨ l'.reachable = false := by
  cases h <;> grind

theorem Turn.reachable_stays (h : Turn party w l m w' l') (hreachable : l.reachable = false) :
    l'.reachable = false := by
  cases h <;> grind

theorem Turn.safe_other (h : Turn party w l m w' l') (hparty : party ≠ .worker) :
    l'.safe = l.safe := by
  cases h <;> grind

theorem Turn.safe_worker (h : Turn party w l m w' l') (hsafe : l.safe = w.safe) :
    l'.safe = w'.safe := by
  cases h <;> grind

theorem Turn.barred (h : Turn party w l m w' l') (hw : w.ended = false) (hw' : w'.ended = true)
    (hstate : l'.state ≠ .failedNotQuiescent) : w'.released = true ∧ w'.safe = true := by
  cases h <;> grind

theorem Turn.failedNotQuiescent_stays (h : Turn party w l m w' l') (hparty : party ≠ .worker)
    (hquiescent : w.quiescent = false) (hstate : l.state = .failedNotQuiescent) :
    l'.state = .failedNotQuiescent := by
  cases h <;> grind

theorem Course.unquiescent (h : Course l watches) (hstate : l.state = .failedNotQuiescent)
    (p : Party) : (watches p).quiescent = false := by
  rw [Bool.eq_false_iff]
  intro hquiescent
  have hseen := h.quiescent p hquiescent
  grind

theorem Handback.turn (h : Handback l watches) (hcourse : Course l watches)
    (hended : (watches party).ended = false) (hturn : Turn party (watches party) l m w' l') :
    Handback l' (Function.update watches party w') := by
  constructor
  case released =>
    intro p hp
    rcases update_cases watches party w' p with ⟨-, heq⟩ | ⟨rfl, heq⟩ <;> rw [heq] at hp
    · exact hturn.reachable_stays (h.released p hp)
    · rcases hturn.released_cases hp with hbefore | hnow
      · exact hturn.reachable_stays (h.released p hbefore)
      · exact hnow
  case safe =>
    refine worker_update (P := fun w => l'.safe = w.safe) ?_ ?_
    · exact fun hparty => (hturn.safe_other hparty).trans h.safe
    · rintro rfl
      exact hturn.safe_worker h.safe
  case barred =>
    refine worker_update (P := fun w => w.ended = true → l'.state ≠ .failedNotQuiescent →
      w.released = true ∧ w.safe = true) ?_ ?_
    · intro hparty hw hstate
      refine h.barred hw fun heq => hstate ?_
      exact hturn.failedNotQuiescent_stays hparty (hcourse.unquiescent heq party) heq
    · rintro rfl hw' hstate
      exact hturn.barred hended hw' hstate

end Stages

section History

variable {party : Party} {m : Mark} {l l' : Life} {watches : Party → Watch} {w w' : Watch}
  {trace : List (Party × Mark)}

/-- The marks that a run leaves. -/
def marks (labels : List LiveLabel) : List (Party × Mark) :=
  labels.map fun label => (label.1, mark label.1 label.2)

/-- Whether the owner is between its exchange of `state` and its store of `guest_attached`. -/
def attaching (trace : List (Party × Mark)) : Bool :=
  trace.foldl (fun before entry =>
    if entry = (.owner, .attaches) then true
    else if entry = (.owner, .binds) then false
    else before) false

/-- The phases of the parties agree with the marks of the run. -/
structure History (trace : List (Party × Mark)) (watches : Party → Watch) : Prop where
  won : ∀ p, (watches p).fatal ≠ .clear ↔ (p, .wins) ∈ trace
  reported : ∀ p, (p, .returns true) ∈ trace → (watches p).fatal = .reported
  once : trace.countP (fun entry => entry.2 = .returns true) ≤ 1
  answered : ∀ before p after result, trace = before ++ (p, .wins) :: after →
    (p, .returns result) ∈ after → (watches p).fatal = .reported
  attaching : (watches .owner).attaching = Lifecycle.attaching trace

theorem Turn.fatal_iff (h : Turn party w l m w' l') :
    w'.fatal ≠ .clear ↔ w.fatal ≠ .clear ∨ m = .wins := by
  cases h <;> grind

theorem Turn.reported (h : Turn party w l m w' l') (hfatal : w.fatal = .reported) :
    w'.fatal = .reported := by
  cases h <;> grind

theorem Turn.returns_true (h : Turn party w l (.returns true) w' l') :
    w.fatal = .latched ∧ w'.fatal = .reported := by
  cases h
  exact ⟨‹_›, rfl⟩

theorem Turn.returns {won : Bool} (h : Turn party w l (.returns won) w' l')
    (hfatal : w.fatal ≠ .clear) : w'.fatal = .reported := by
  cases h with
  | report => rfl
  | unreported hphase => exact hphase.resolve_left hfatal

theorem Turn.attaching_eq (h : Turn party w l m w' l') (hparty : party = .owner) :
    w'.attaching = if m = .attaches then true else if m = .binds then false else w.attaching := by
  cases h <;> simp_all

theorem History.turn (h : History trace watches) (hlatch : Latch l watches)
    (hturn : Turn party (watches party) l m w' l') :
    History (trace ++ [(party, m)]) (Function.update watches party w') := by
  have hstays : ∀ p, (watches p).fatal = .reported →
      (Function.update watches party w' p).fatal = .reported := by
    intro p hp
    by_cases hparty : p = party
    · subst hparty
      simpa using hturn.reported hp
    · simpa [hparty] using hp
  constructor
  case won =>
    intro p
    by_cases hparty : p = party
    · subst hparty
      rw [Function.update_self, hturn.fatal_iff, h.won p]
      simp [eq_comm]
    · simp [hparty, h.won p]
  case reported =>
    intro p hp
    rcases List.mem_append.mp hp with hbefore | hlast
    · exact hstays p (h.reported p hbefore)
    · obtain ⟨rfl, rfl⟩ : p = party ∧ Mark.returns true = m := by simpa using hlast
      simpa using hturn.returns_true.2
  case once =>
    rw [List.countP_append, List.countP_singleton]
    split
    · rename_i hlast
      obtain rfl : m = .returns true := by simpa using hlast
      have hnone : trace.countP (fun entry => entry.2 = .returns true) = 0 := by
        rw [List.countP_eq_zero]
        rintro ⟨q, mark⟩ hmem hmark
        obtain rfl : mark = .returns true := by simpa using hmark
        have hreported := h.reported q hmem
        have hlatched := hturn.returns_true.1
        obtain rfl := hlatch.single q party (by simp [hreported]) (by simp [hlatched])
        simp [hreported] at hlatched
      omega
    · exact h.once
  case answered =>
    intro before p after result hsplit hmem
    rcases List.eq_nil_or_concat after with rfl | ⟨after, last, rfl⟩
    · simp at hmem
    rw [List.concat_eq_append, ← List.cons_append, ← List.append_assoc] at hsplit
    obtain ⟨rfl, hlast⟩ := List.append_inj' hsplit rfl
    obtain rfl : (party, m) = last := by simpa using hlast
    rw [List.concat_eq_append] at hmem
    rcases List.mem_append.mp hmem with hbefore | hend
    · exact hstays p (h.answered _ p _ result rfl hbefore)
    · obtain ⟨rfl, rfl⟩ : p = party ∧ Mark.returns result = m := by simpa using hend
      have hwon : (watches p).fatal ≠ .clear := (h.won p).mpr (by simp)
      simpa using hturn.returns hwon
  case attaching =>
    rw [Lifecycle.attaching, List.foldl_append]
    change _ = if (party, m) = (.owner, .attaches) then true
      else if (party, m) = (.owner, .binds) then false else Lifecycle.attaching trace
    rw [← h.attaching]
    by_cases hparty : party = .owner
    · subst hparty
      simpa using hturn.attaching_eq rfl
    · simp [hparty, Ne.symm hparty]

end History

section System

variable {labels : List LiveLabel} {memory memory' : Memory} {watches : Party → Watch}
  {party : Party} {request : Op} {reply : Result request} {w' : Watch}

/-- What holds in every reachable state of the service. -/
structure Sound (labels : List LiveLabel) (memory : Memory) (watches : Party → Watch) : Prop where
  latch : Latch (life memory) watches
  course : Course (life memory) watches
  binding : Binding (life memory) watches
  handback : Handback (life memory) watches
  history : History (marks labels) watches

theorem sound_started : Sound [] startedMemory fun _ => {} where
  latch := by
    constructor <;> simp [life, startedMemory, FatalPhase.isLatched, FatalPhase.isDescribed]
  course := by constructor <;> simp [life, startedMemory, LiveState.terminal]
  binding := by constructor <;> simp [life, startedMemory, Unbound]
  handback := by constructor <;> simp [life, startedMemory]
  history := by constructor <;> simp [marks, attaching]

theorem Sound.expects (h : Sound labels memory watches)
    (hacts : Acts memory request reply memory') :
    LifecycleMonitor.expects party (watches party) ⟨request, reply⟩ := by
  cases request with
  | load cell =>
      obtain ⟨rfl, -⟩ := hacts
      cases cell with
      | state =>
          refine ⟨h.course.started.1, h.course.started.2, ?_, ?_⟩
          · intro hfatal
            have hbroken := h.latch.broken party hfatal
            change LiveState.broken (memory .state) = true at hbroken
            grind
          · rintro rfl hended
            exact h.course.alive hended
      | _ => trivial
  | compareExchange cell expected desired =>
      cases cell with
      | firstErrorLatched =>
          cases expected with
          | true => trivial
          | false =>
              intro hfatal
              rcases hacts with ⟨hdone, -, -⟩ | ⟨-, hlatched, -⟩
              · exact hdone
              · exact absurd (h.latch.unlatched hfatal) hlatched
      | _ => trivial
  | _ => trivial

theorem Sound.step (h : Sound labels memory watches) (hacts : Acts memory request reply memory')
    (hobserve : observe party (watches party) ⟨request, reply⟩ = some w') :
    Sound (labels ++ [(party, ⟨request, reply⟩)]) memory' (Function.update watches party w') := by
  obtain ⟨hended, hturn⟩ := turn_of_observe hobserve hacts
  refine ⟨h.latch.turn hturn, h.course.turn h.latch hended hturn, h.binding.turn h.course hturn,
    h.handback.turn h.course hended hturn, ?_⟩
  simpa [marks] using h.history.turn h.latch hturn

end System

end EspNp2.LiveService.Lifecycle
