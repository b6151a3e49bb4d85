import EspNp2.LiveService.Lifecycle

/-!
The latch of the first error and the quiescence of an ended service. One call of `first_fatal`
at most returns true, and what it has latched stays. A service that is published as quiescent
is safe to destroy, unless the worker has read `guest_attached` while the owner was attaching
its guest.
-/

namespace EspNp2.LiveService.Quiescence

open EspNp2.Library.Concurrent
open EspNp2.Library.LabelledRun
open EspNp2.LiveService.Lifecycle
open EspNp2.LiveService.LifecycleMonitor
open EspNp2.LiveService.LiveSystem
open EspNp2.LiveService.ServiceMemory
open EspNp2.LiveService.Transport
open EspNp2.LiveService.WorkerThread

section Frozen

variable {party : Party} {w w' : Watch} {memory memory' : Memory} {request : Op}
  {reply : Result request} {cell : Cell}

/-- The words that describe the first error. -/
def description : List Cell := [.failureCategory, .failureOrigin, .failureSubcode, .firstError]

/-- The word that an operation may write. -/
def target : Op → Option Cell
  | .store cell _ | .compareExchange cell _ _ | .compareExchangeWeak cell _ _
  | .exchange cell _ => some cell
  | _ => none

theorem acts_frame (hacts : Acts memory request reply memory') (h : target request ≠ some cell) :
    memory' cell = memory cell := by
  have hne : ∀ {other : Cell} {value : other.Value}, some other ≠ some cell →
      Function.update memory other value cell = memory cell :=
    fun h => Function.update_of_ne (fun heq => h (congrArg some heq.symm)) _ _
  cases request with
  | load other =>
      obtain ⟨-, rfl⟩ := hacts
      rfl
  | store other value =>
      obtain rfl := hacts
      exact hne h
  | compareExchange other expected desired =>
      rcases hacts with ⟨-, -, rfl⟩ | ⟨-, -, rfl⟩
      · exact hne h
      · rfl
  | compareExchangeWeak other expected desired =>
      rcases hacts with ⟨-, -, rfl⟩ | ⟨-, rfl⟩
      · exact hne h
      · rfl
  | exchange other value =>
      obtain ⟨-, rfl⟩ := hacts
      exact hne h
  | _ =>
      obtain rfl := hacts
      rfl

/-- A party writes the description only while its own call of `first_fatal` goes on. -/
theorem describing_of_observe (h : observe party w ⟨request, reply⟩ = some w')
    (hcell : cell ∈ description) (htarget : target request = some cell) :
    w.fatal ≠ .clear ∧ w.fatal ≠ .reported := by
  rw [observe] at h
  split at h
  · cases h
  simp only [description, List.mem_cons, List.not_mem_nil, or_false] at hcell
  rcases hcell with rfl | rfl | rfl | rfl <;> cases request <;> cases htarget
  all_goals
    simp only [observeAlive, observeStore, observeCompareExchange, observeCompareExchangeWeak,
      observeSwap, reduceCtorEq] at h
  all_goals
    split at h
    · rename_i hcond
      first | simp [hcond.1] | simp [hcond]
    · cases h

end Frozen

section Statement

/-- What the state may become once it is `failing`. -/
def AfterFailing : LiveState → LiveState → Prop
  | .failing, next => next = .failing ∨ next = .failedQuiescent ∨ next = .failedNotQuiescent
  | .failedQuiescent, next => next = .failedQuiescent ∨ next = .destroyed
  | .failedNotQuiescent, next => next = .failedNotQuiescent ∨ next = .destroyed
  | .destroyed, next => next = .destroyed
  | _, _ => True

/-- A quiescent service has given everything back, and its worker does nothing any more. -/
structure Quiescent (service : Service) : Prop where
  workerSafe : service.state .workerSafe = true
  guestDetached : service.state .guestAttached = false
  sinkReleased : service.state .sinkReachable = false
  destroyed : (∃ memory, Alone Acts destroy service.state .ok memory) ∧
    ∀ result memory, Alone Acts destroy service.state result memory →
      result = .ok ∧ memory .state = .destroyed
  workerGone : ∀ more later, Run LiveStep service more later → ∀ label ∈ more, label.1 ≠ .worker

/-- The latch and the quiescence of a service that a run has led to. -/
structure Truthful (labels : List LiveLabel) (service : Service) : Prop where
  once : (marks labels).countP (fun entry => entry.2 = .returns true) ≤ 1
  frozen : ∀ party, (party, .returns true) ∈ marks labels → ∀ more later,
    Run LiveStep service more later → ∀ cell ∈ description, later.state cell = service.state cell
  failing : ∀ label later, LiveStep service label later →
    AfterFailing (service.state .state) (later.state .state)
  unlatched : service.state .state = .stoppedQuiescent → service.state .firstErrorLatched = false
  quiescent : LiveState.quiescent (service.state .state) = true → Quiescent service
  undisturbed : ∀ party, (party, ⟨.note (.destroy .notQuiescent), ()⟩) ∉ labels

/-- The worker does not find the guest detached while the owner is attaching it. -/
def AwaitsAttach (before : List LiveLabel) (label : LiveLabel) : Prop :=
  label.1 = .worker → mark label.1 label.2 = .detaches → attaching (marks before) = false

end Statement

section Invariant

variable {party : Party} {m : Mark} {l l' : Life} {watches : Party → Watch} {w w' : Watch}

/-- The worker has found the guest detached for good. -/
structure Calmed (l : Life) (watches : Party → Watch) : Prop where
  detached : ∀ p, (watches p).detached = true → LiveState.late l.state = true ∧ Unbound l watches
  ended : (watches .worker).ended = true → l.state ≠ .failedNotQuiescent → Unbound l watches
  undisturbed : ∀ p, (watches p).disturbed = false

theorem Turn.detached_cases (h : Turn party w l m w' l') (hdetached : w'.detached = true) :
    w.detached = true ∨ m = .detaches ∧ party = .worker ∧ l.attached = false ∧
      (w.known = true ∨ w.missed = true) := by
  cases h <;> grind

theorem Turn.worker_of_detaches (h : Turn party w l .detaches w' l') : party = .worker := by
  cases h
  assumption

theorem Turn.ended_cases (h : Turn party w l m w' l') (hended : w.ended = false)
    (hw' : w'.ended = true) : party = .worker ∧
      (w.done = true ∨ w.detached = true ∨ l'.state = .failedNotQuiescent) := by
  cases h <;> grind

theorem Turn.disturbed_cases (h : Turn party w l m w' l') (hdisturbed : w'.disturbed = true) :
    w.disturbed = true ∨ w.quiescent = true ∧
      (l.attached = true ∨ l.safe = false ∨ l.reachable = true) := by
  cases h <;> grind [Disturbs]

/-- What the words of a service show whose end is not the one without quiescence. -/
theorem Calmed.settled (h : Calmed l watches) (hcourse : Course l watches)
    (hhandback : Handback l watches)
    (hstate : LiveState.quiescent l.state = true ∨ l.state = .destroyed) :
    (watches .worker).ended = true ∧ l.attached = false ∧ l.safe = true ∧ l.reachable = false := by
  have hended : (watches .worker).ended = true := by
    by_contra halive
    have hopen := hcourse.alive (by simpa using halive)
    grind
  have hne : l.state ≠ .failedNotQuiescent := by
    rintro heq
    rw [heq] at hstate
    rcases hstate with hstate | hstate <;> cases hstate
  obtain ⟨hreleased, hsafe⟩ := hhandback.barred hended hne
  exact ⟨hended, (h.ended hended hne).1, hhandback.safe.trans hsafe,
    hhandback.released .worker hreleased⟩

theorem Calmed.turn (h : Calmed l watches) (hlatch : Latch l watches) (hcourse : Course l watches)
    (hbinding : Binding l watches) (hhandback : Handback l watches)
    (hended : (watches party).ended = false) (hturn : Turn party (watches party) l m w' l')
    (hattaching : m = .detaches → (watches .owner).attaching = false) :
    Calmed l' (Function.update watches party w') := by
  have hstays := fun h : LiveState.late l.state = true ∧ Unbound l watches =>
    h.2.late_turn hturn h.1
  constructor
  case detached =>
    intro p hp
    by_cases hparty : p = party
    · subst hparty
      rw [Function.update_self] at hp
      rcases Turn.detached_cases hturn hp with hbefore | ⟨hmark, rfl, hattached, hcause⟩
      · exact hstays (h.detached p hbefore)
      · refine hstays ⟨?_, hattached, hattaching hmark⟩
        rcases hcause with hknown | hmissed
        · exact hlatch.late (hlatch.known .worker hknown)
        · exact hbinding.missed .worker hmissed
    · exact hstays (h.detached p (by simpa [hparty] using hp))
  case ended =>
    intro hw' hstate
    by_cases hbefore : (watches .worker).ended = true
    · have hparty : party ≠ .worker := by
        rintro rfl
        simp [hbefore] at hended
      have hne : l.state ≠ .failedNotQuiescent := fun heq =>
        hstate (hturn.failedNotQuiescent_stays hparty (hcourse.unquiescent heq party) heq)
      have hlate : LiveState.late l.state = true := by
        have hover := hcourse.ended hbefore
        grind
      exact (hstays ⟨hlate, h.ended hbefore hne⟩).2
    · have hparty : party = .worker := by
        by_contra hother
        rw [Function.update_of_ne (Ne.symm hother)] at hw'
        exact hbefore hw'
      subst hparty
      rw [Function.update_self] at hw'
      rcases (Turn.ended_cases hturn hended hw').2 with hdone | hdetached | hfailed
      · exact (hstays (hbinding.complete (hbinding.done .worker hdone))).2
      · exact (hstays (h.detached .worker hdetached)).2
      · exact absurd hfailed hstate
  case undisturbed =>
    intro p
    by_cases hparty : p = party
    · subst hparty
      rw [Function.update_self, Bool.eq_false_iff]
      intro hdisturbed
      rcases Turn.disturbed_cases hturn hdisturbed with hbefore | ⟨hquiescent, hwords⟩
      · simp [h.undisturbed p] at hbefore
      · obtain ⟨-, hattached, hsafe, hreachable⟩ :=
          h.settled hcourse hhandback (hcourse.quiescent p hquiescent)
        simp [hattached, hsafe, hreachable] at hwords
    · simpa [hparty] using h.undisturbed p

end Invariant

section Runs

variable {labels : List LiveLabel} {service later : Service} {watches : Party → Watch}

/-- The monitors follow a service. -/
def Followed (labels : List LiveLabel) (service : Service) (watches : Party → Watch) : Prop :=
  Sound labels service.state watches ∧
    ∀ party, Watched (monitor party) (Finishes party) (service.threads party) (watches party)

theorem followed_started (calls : Calls) : Followed [] (started calls) fun _ => {} :=
  ⟨sound_started, watched_started calls⟩

theorem Followed.step (h : Followed labels service watches) {label : LiveLabel}
    (hstep : LiveStep service label later) :
    ∃ w', observe label.1 (watches label.1) label.2 = some w' ∧
      Followed (labels ++ [label]) later (Function.update watches label.1 w') ∧
      (watches label.1).ended = false ∧
      Turn label.1 (watches label.1) (life service.state) (mark label.1 label.2) w'
        (life later.state) := by
  cases hstep with
  | @op party request rest reply memory' hnext hacts =>
      obtain ⟨w', hobserve, hrest⟩ := (h.2 party).next hnext reply (h.1.expects hacts)
      refine ⟨w', hobserve, ⟨h.1.step hacts hobserve, fun other => ?_⟩,
        turn_of_observe hobserve hacts⟩
      by_cases hother : other = party
      · subst hother
        simpa using hrest
      · simpa [hother] using h.2 other

theorem followed_run (calls : Calls) (hrun : Run LiveStep (started calls) labels service) :
    ∃ watches, Followed labels service watches := by
  induction hrun with
  | nil => exact ⟨_, followed_started calls⟩
  | snoc _ hstep ih =>
      obtain ⟨watches, hfollowed⟩ := ih
      obtain ⟨w', -, hnext, -⟩ := hfollowed.step hstep
      exact ⟨_, hnext⟩

/-- The description of an error that has been reported stays. -/
theorem Followed.frozen (h : Followed labels service watches) {p : Party}
    (hreported : (watches p).fatal = .reported) {more : List LiveLabel}
    (hrun : Run LiveStep service more later) :
    ∃ watches', Followed (labels ++ more) later watches' ∧ (watches' p).fatal = .reported ∧
      ∀ cell ∈ description, later.state cell = service.state cell := by
  induction hrun with
  | nil => exact ⟨watches, by simpa using h, hreported, fun _ _ => rfl⟩
  | @snoc middle last more label hrun hstep ih =>
      obtain ⟨watches', hfollowed, hbefore, hsame⟩ := ih
      obtain ⟨w', hobserve, hnext, -, hturn⟩ := hfollowed.step hstep
      refine ⟨_, by simpa using hnext, ?_, fun cell hcell => ?_⟩
      · by_cases hparty : p = label.1
        · subst hparty
          simpa using hturn.reported hbefore
        · simpa [hparty] using hbefore
      · rw [← hsame cell hcell]
        cases hstep with
        | @op party request rest reply memory' hop hacts =>
            refine acts_frame hacts fun htarget => ?_
            obtain ⟨hclear, hopen⟩ := describing_of_observe hobserve hcell htarget
            obtain rfl := hfollowed.1.latch.single p party (by simp [hbefore]) hclear
            exact hopen hbefore

/-- A worker that has ended takes no step. -/
theorem Followed.workerGone (h : Followed labels service watches)
    (hended : (watches .worker).ended = true) {more : List LiveLabel}
    (hrun : Run LiveStep service more later) :
    ∃ watches', Followed (labels ++ more) later watches' ∧ (watches' .worker).ended = true ∧
      ∀ label ∈ more, label.1 ≠ .worker := by
  induction hrun with
  | nil => exact ⟨watches, by simpa using h, hended, by simp⟩
  | @snoc middle last more label hrun hstep ih =>
      obtain ⟨watches', hfollowed, hbefore, hnone⟩ := ih
      obtain ⟨w', -, hnext, hopen, -⟩ := hfollowed.step hstep
      have hparty : label.1 ≠ .worker := by
        intro hworker
        rw [hworker, hbefore] at hopen
        cases hopen
      refine ⟨_, by simpa using hnext, ?_, ?_⟩
      · simpa [Ne.symm hparty] using hbefore
      · intro other hmem
        rcases List.mem_append.mp hmem with hmem | hmem
        · exact hnone other hmem
        · obtain rfl : other = label := by simpa using hmem
          exact hparty

theorem afterFailing_refl (state : LiveState) : AfterFailing state state := by
  cases state <;> simp [AfterFailing]

theorem afterFailing_of_before {state next : LiveState}
    (hterminal : LiveState.terminal state = false) (hfailing : state ≠ .failing)
    (hdestroyed : state ≠ .destroyed) : AfterFailing state next := by
  cases state <;> simp_all [AfterFailing, LiveState.terminal]

theorem turn_state_cases {party : Party} {m : Mark} {w w' : Watch} {l l' : Life}
    (hturn : Turn party w l m w' l') :
    l'.state = l.state ∨ l.state = .starting ∨ l.state = .startedUnattached ∨
      l.state = .running ∨ l.state = .stopRequested ∨ l.state = .draining ∨
      LiveState.closed l.state = false ∨
      (l'.state = .failedQuiescent ∧ w'.ended = true ∧ party = .worker) ∨
      (l'.state = .failedNotQuiescent ∧ w'.ended = true ∧ party = .worker) ∨
      (l'.state = .destroyed ∧ w.quiescent = true) := by
  cases hturn <;> grind

theorem afterFailing_of_turn {party : Party} {m : Mark} {l l' : Life} {w' : Watch}
    (hcourse : Course l watches) (hended : (watches party).ended = false)
    (hturn : Turn party (watches party) l m w' l') : AfterFailing l.state l'.state := by
  have hquiescent := hcourse.quiescent party
  have halive := hcourse.alive
  rcases turn_state_cases hturn with h | h | h | h | h | h | h | ⟨h, -, rfl⟩ | ⟨h, -, rfl⟩ | ⟨h, hw⟩
  · rw [h]
    exact afterFailing_refl _
  iterate 5
    · rw [h]
      trivial
  · refine afterFailing_of_before ?_ ?_ ?_ <;> grind [LiveState.closed]
  iterate 2
    · obtain ⟨hterminal, hdestroyed⟩ := halive hended
      rw [h]
      by_cases hfailing : l.state = .failing
      · simp [hfailing, AfterFailing]
      · exact afterFailing_of_before hterminal hfailing hdestroyed
  · rw [h]
    rcases hquiescent hw with hstate | hstate
    · cases hl : l.state <;> simp_all [AfterFailing, LiveState.quiescent]
    · simp [hstate, AfterFailing]

theorem alone_load_iff {α : Type} {memory memory' : Memory} {cell : Cell}
    {next : cell.Value → Code α} {value : α} :
    Alone Acts (.op (.load cell) next) memory value memory' ↔
      Alone Acts (next (memory cell)) memory value memory' := by
  refine alone_op_iff.trans ⟨?_, fun h => ⟨_, _, ⟨rfl, rfl⟩, h⟩⟩
  rintro ⟨reply, middle, ⟨hreply, hmiddle⟩, hrest⟩
  rwa [hreply, hmiddle] at hrest

theorem alone_store_iff {α : Type} {memory memory' : Memory} {cell : Cell} {written : cell.Value}
    {next : Unit → Code α} {value : α} :
    Alone Acts (.op (.store cell written) next) memory value memory' ↔
      Alone Acts (next ()) (Function.update memory cell written) value memory' := by
  refine alone_op_iff.trans ⟨?_, fun h => ⟨_, _, rfl, h⟩⟩
  rintro ⟨_, _, rfl, hrest⟩
  exact hrest

/-- Nothing in the words of a quiescent service stops `destroy`. -/
theorem destroy_alone_iff {memory memory' : Memory} {result : LiveResult}
    (hstate : LiveState.quiescent (memory .state) = true) (hsafe : memory .workerSafe = true)
    (hattached : memory .guestAttached = false) (hreachable : memory .sinkReachable = false) :
    Alone Acts destroy memory result memory' ↔ result = .ok ∧
      memory' = Function.update (Function.update memory .sinkReachable false) .state
        .destroyed := by
  have hnext : Alone Acts (Thread.bind (do
      if (← load .workerSafe) = false then return .notQuiescent
      else if ← load .guestAttached then return .notQuiescent
      else if ← load .sinkReachable then return .notQuiescent
      else return .ok : Code LiveResult) fun check => do
        if check = .ok then
          releaseBorrow
          store .state .destroyed
          return .ok
        else return check) memory result memory' ↔ result = .ok ∧
      memory' = Function.update (Function.update memory .sinkReachable false) .state
        .destroyed := by
    refine alone_load_iff.trans ?_
    rw [hsafe]
    refine alone_load_iff.trans ?_
    rw [hattached]
    refine alone_load_iff.trans ?_
    rw [hreachable]
    refine (alone_store_iff.trans alone_store_iff).trans (alone_done_iff.trans ?_)
    exact and_congr eq_comm eq_comm
  refine alone_load_iff.trans ?_
  simp only [LiveState.quiescent, Bool.or_eq_true, decide_eq_true_eq] at hstate
  rcases hstate with hstate | hstate
  · rw [hstate]
    exact hnext
  · rw [hstate]
    exact hnext

/-- The clauses of a run that meets the condition. -/
theorem Followed.truthful (h : Followed labels service watches)
    (hcalmed : Calmed (life service.state) watches)
    (hundisturbed : ∀ party, (party, ⟨.note (.destroy .notQuiescent), ()⟩) ∉ labels) :
    Truthful labels service where
  once := h.1.history.once
  frozen := by
    intro party hreturns more later hrun
    obtain ⟨-, -, -, hfrozen⟩ := h.frozen (h.1.history.reported party hreturns) hrun
    exact hfrozen
  failing := by
    intro label later hstep
    obtain ⟨w', -, -, hended, hturn⟩ := h.step hstep
    exact afterFailing_of_turn h.1.course hended hturn
  unlatched := by
    intro hstate
    rw [Bool.eq_false_iff]
    intro hlatched
    obtain ⟨p, hp⟩ := won_of_latched (h.1.latch.latched hlatched)
    have hbroken := h.1.latch.broken p hp
    rw [show (life service.state).state = .stoppedQuiescent from hstate] at hbroken
    cases hbroken
  quiescent := by
    intro hstate
    obtain ⟨hended, hattached, hsafe, hreachable⟩ :=
      hcalmed.settled h.1.course h.1.handback (.inl hstate)
    have halone : ∀ {result memory}, Alone Acts destroy service.state result memory ↔ _ :=
      destroy_alone_iff hstate hsafe hattached hreachable
    refine ⟨hsafe, hattached, hreachable, ⟨⟨_, halone.mpr ⟨rfl, rfl⟩⟩, ?_⟩,
      fun more later hrun => ?_⟩
    · rintro result memory h
      obtain ⟨rfl, rfl⟩ := halone.mp h
      exact ⟨rfl, Function.update_self ..⟩
    · obtain ⟨-, -, -, hgone⟩ := h.workerGone hended hrun
      exact hgone
  undisturbed := hundisturbed

/-- In every run in which the worker does not read `guest_attached` while the owner attaches its
guest, the latch and the quiescence are truthful. -/
theorem latch_and_quiescence_truthful (calls : Calls) {labels : List LiveLabel} {service : Service}
    (hrun : Run LiveStep (started calls) labels service) (hawaits : AtEach AwaitsAttach labels) :
    Truthful labels service := by
  have hfollowed : ∃ watches, Followed labels service watches ∧
      (AtEach AwaitsAttach labels → Calmed (life service.state) watches ∧
        ∀ party, (party, ⟨.note (.destroy .notQuiescent), ()⟩) ∉ labels) := by
    induction hrun with
    | nil =>
        refine ⟨fun _ => {}, followed_started calls, fun _ => ⟨?_, by simp⟩⟩
        constructor <;> simp
    | @snoc middle last labels label hrun hstep ih =>
        obtain ⟨watches, hbefore, hcalmed⟩ := ih (atEach_snoc_iff.mp hawaits).1
        obtain ⟨w', hobserve, hnext, hended, hturn⟩ := hbefore.step hstep
        refine ⟨_, hnext, fun hawaits => ?_⟩
        obtain ⟨hall, hlast⟩ := atEach_snoc_iff.mp hawaits
        obtain ⟨hcalmed, hundisturbed⟩ := hcalmed hall
        refine ⟨hcalmed.turn hbefore.1.latch hbefore.1.course hbefore.1.binding hbefore.1.handback
          hended hturn fun hmark => ?_, ?_⟩
        · rw [hbefore.1.history.attaching]
          exact hlast (Turn.worker_of_detaches (hmark ▸ hturn)) hmark
        · intro party hmem
          rcases List.mem_append.mp hmem with hmem | hmem
          · exact hundisturbed party hmem
          · obtain rfl : (party, _) = label := by simpa using hmem
            simp [observe, observeAlive, observeNote, hended, hcalmed.undisturbed party] at hobserve
  obtain ⟨watches, hfollowed, hcalmed⟩ := hfollowed
  exact hfollowed.truthful (hcalmed hawaits).1 (hcalmed hawaits).2

/-- A service that fails while its guest is being attached. -/
def failingAttach : Calls :=
  ⟨{}, [.attachGuest], fun _ => [.testFail .producer .checkpoint subcodeGuestContract]⟩

/-- The owner stores `guest_attached` after the worker has found it clear. -/
def lateAttachSchedule : List Party :=
  turns .worker 3 ++ turns .owner 3 ++ turns (.control 0) 14 ++ turns .worker 7 ++ turns .owner 1

theorem lateAttachSchedule_attached :
    (execute serve (fun _ _ => true) lateAttachSchedule (started failingAttach)).any (fun result =>
      result.2.state .state = .failedQuiescent && result.2.state .guestAttached) = true := by
  decide +kernel

/-- A service that fails while its guest is being attached is published as quiescent, and then
has a guest. -/
theorem late_attach_not_truthful : ∃ labels service,
    Run LiveStep (started failingAttach) labels service ∧
      service.state .state = .failedQuiescent ∧ service.state .guestAttached = true ∧
      ¬ Truthful labels service := by
  have hattached := lateAttachSchedule_attached
  rw [Option.any_eq_true] at hattached
  obtain ⟨⟨labels, service⟩, hexecute, hresult⟩ := hattached
  simp only [Bool.and_eq_true, decide_eq_true_eq] at hresult
  refine ⟨labels, service, run_of_stepIf (execute_run acts_serve hexecute), hresult.1,
    hresult.2, ?_⟩
  intro htruthful
  have hquiescent := htruthful.quiescent (by simp [LiveState.quiescent, hresult.1])
  rw [hquiescent.guestDetached] at hresult
  cases hresult.2

theorem attaching_eq_false {trace : List (Party × Mark)} (h : (.owner, .attaches) ∉ trace) :
    attaching trace = false := by
  induction trace using List.reverseRecOn with
  | nil => rfl
  | append_singleton trace entry ih =>
      rw [List.mem_append, not_or] at h
      have hentry : entry ≠ (.owner, .attaches) := fun heq => h.2 (by simp [heq])
      rw [attaching, List.foldl_append]
      change (if entry = (.owner, .attaches) then true
        else if entry = (.owner, .binds) then false else attaching trace) = false
      rw [if_neg hentry, ih h.1]
      simp

/-- The same failure before the owner attaches its guest. -/
def earlyFailureSchedule : List Party := turns .worker 3 ++ turns (.control 0) 14 ++ turns .worker 7

theorem earlyFailureSchedule_detached :
    (execute serve (fun _ _ => true) earlyFailureSchedule (started failingAttach)).any
      (fun result =>
      result.2.state .state = .failedQuiescent &&
        (marks result.1).all fun entry => entry.2 ≠ .attaches) = true := by
  decide +kernel

theorem latch_and_quiescence_truthful_early : ∃ labels service,
    Run LiveStep (started failingAttach) labels service ∧ AtEach AwaitsAttach labels ∧
      service.state .state = .failedQuiescent ∧ Truthful labels service := by
  have hdetached := earlyFailureSchedule_detached
  rw [Option.any_eq_true] at hdetached
  obtain ⟨⟨labels, service⟩, hexecute, hresult⟩ := hdetached
  simp only [Bool.and_eq_true, decide_eq_true_eq, List.all_eq_true] at hresult
  have hrun := run_of_stepIf (execute_run acts_serve hexecute)
  have hawaits : AtEach AwaitsAttach labels := by
    intro before label after hsplit _ _
    refine attaching_eq_false fun hmem => hresult.2 (.owner, .attaches) ?_ rfl
    rw [hsplit, marks, List.map_append]
    exact List.mem_append_left _ hmem
  exact ⟨labels, service, hrun, hawaits, hresult.1,
    latch_and_quiescence_truthful failingAttach hrun hawaits⟩

end Runs

end EspNp2.LiveService.Quiescence
