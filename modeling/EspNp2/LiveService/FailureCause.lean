import EspNp2.LiveService.Lifecycle

/-!
The cause of a failed run. A run fails because some call of `first_fatal` has won the state,
unless the worker tries its clean end between the end of the production and the exchange that
makes the state `draining`.
-/

namespace EspNp2.LiveService.FailureCause

open EspNp2.Library.Concurrent
open EspNp2.Library.LabelledRun
open EspNp2.LiveService.Lifecycle
open EspNp2.LiveService.LifecycleMonitor
open EspNp2.LiveService.LiveSystem
open EspNp2.LiveService.ServiceMemory
open EspNp2.LiveService.Transport

section Statement

def LiveState.failed (state : LiveState) : Bool :=
  state = .failing || state = .failedQuiescent || state = .failedNotQuiescent

/-- A failure has a call of `first_fatal` as its cause, which describes it before it returns. -/
structure HasCause (labels : List LiveLabel) (memory : Memory) : Prop where
  won : LiveState.failed (memory .state) = true → ∃ party, (party, .wins) ∈ marks labels
  described : ∀ before party after result, marks labels = before ++ (party, .wins) :: after →
    (party, .returns result) ∈ after →
      memory .firstErrorLatched = true ∧ memory .failureCategory ≠ .none
  clean : (∀ party, (party, .wins) ∉ marks labels) → LiveState.terminal (memory .state) = true →
    memory .state = .stoppedQuiescent

/-- The worker does not try its clean end while the state still is `stopRequested`. -/
def AwaitsDraining (memory : Memory) : LiveLabel → Bool
  | (.worker, ⟨.compareExchange .state .draining .stoppedQuiescent, _⟩) =>
      memory .state ≠ .stopRequested
  | _ => true

end Statement

section Invariant

variable {party : Party} {m : Mark} {l l' : Life} {watches : Party → Watch} {w w' : Watch}

attribute [local grind =] LiveState.failed

/-- A failure that the worker has seen has been won. -/
structure Caused (l : Life) (watches : Party → Watch) : Prop where
  missed : ∀ p, (watches p).missed = true → Won watches
  failed : LiveState.failed l.state = true → Won watches

theorem Turn.missed_cases (h : Turn party w l m w' l') (hmissed : w'.missed = true) :
    w.missed = true ∨ m = .misses ∧ party = .worker ∧ w.done = true ∧ l.state ≠ .draining := by
  cases h <;> grind

theorem Turn.failed_cases (h : Turn party w l m w' l')
    (hstate : LiveState.failed l'.state = true) :
    LiveState.failed l.state = true ∨ w'.fatal ≠ .clear ∨ w.known = true ∨ w.missed = true := by
  cases h <;> grind

/-- The clean end is missed only by a failure, if the state is past `stopRequested`. -/
theorem failing_of_missed (hcourse : Course l watches) (hbinding : Binding l watches)
    (hended : (watches .worker).ended = false) (hdone : (watches .worker).done = true)
    (hdraining : l.state ≠ .draining) (hstop : l.state ≠ .stopRequested) : l.state = .failing := by
  have hlate := (hbinding.complete (hbinding.done .worker hdone)).1
  have halive := hcourse.alive hended
  have hstarted := hcourse.started
  generalize l.state = state at *
  cases state <;> simp_all [LiveState.late, LiveState.terminal]

theorem Caused.turn (h : Caused l watches) (hlatch : Latch l watches) (hcourse : Course l watches)
    (hbinding : Binding l watches) (hended : (watches party).ended = false)
    (hturn : Turn party (watches party) l m w' l') (hstop : m = .misses →
      l.state ≠ .stopRequested) :
    Caused l' (Function.update watches party w') := by
  have hwon := fun h : Won watches => h.turn hturn
  constructor
  case missed =>
    intro p hp
    by_cases hparty : p = party
    · subst hparty
      rw [Function.update_self] at hp
      rcases Turn.missed_cases hturn hp with hbefore | ⟨hmark, rfl, hdone, hdraining⟩
      · exact hwon (h.missed p hbefore)
      · have hfailing := failing_of_missed hcourse hbinding hended hdone hdraining (hstop hmark)
        exact hwon (hlatch.failing hfailing)
    · exact hwon (h.missed p (by simpa [hparty] using hp))
  case failed =>
    intro hstate
    rcases Turn.failed_cases hturn hstate with hbefore | hfatal | hknown | hmissed
    · exact hwon (h.failed hbefore)
    · exact exists_updated (P := fun w => w.fatal ≠ .clear) hfatal
    · exact hwon (hlatch.known party hknown)
    · exact hwon (h.missed party hmissed)

end Invariant

section Runs

variable {labels : List LiveLabel} {memory : Memory} {watches : Party → Watch}

theorem hasCause_of_sound (h : Sound labels memory watches)
    (hcaused : Caused (life memory) watches) : HasCause labels memory := by
  have hwon : Won watches → ∃ party, (party, .wins) ∈ marks labels := by
    rintro ⟨party, hfatal⟩
    exact ⟨party, (h.history.won party).mp hfatal⟩
  constructor
  case won => exact fun hstate => hwon (hcaused.failed hstate)
  case described =>
    intro before party after result hsplit hmem
    have hreported := h.history.answered before party after result hsplit hmem
    refine ⟨h.latch.kept party ?_, h.latch.category party ?_⟩
    · simp [hreported, FatalPhase.isLatched]
    · simp [hreported, FatalPhase.isDescribed]
  case clean =>
    intro hnone hterminal
    by_contra hstate
    have hfailed : LiveState.failed (life memory).state = true := by
      change LiveState.failed (memory .state) = true
      simp only [LiveState.terminal, Bool.or_eq_true, decide_eq_true_eq] at hterminal
      rcases hterminal with (hstopped | hquiescent) | hnotQuiescent
      · exact absurd hstopped hstate
      · simp [LiveState.failed, hquiescent]
      · simp [LiveState.failed, hnotQuiescent]
    obtain ⟨party, hwins⟩ := hwon (hcaused.failed hfailed)
    exact hnone party hwins

/-- A mark `misses` of the worker is the attempt that `AwaitsDraining` is about. -/
theorem awaits_of_misses {label : LiveLabel} (hallowed : AwaitsDraining memory label = true)
    (hparty : label.1 = .worker) (hmark : mark label.1 label.2 = .misses) :
    memory .state ≠ .stopRequested := by
  obtain ⟨party, label⟩ := label
  obtain rfl : party = .worker := hparty
  change mark .worker label = .misses at hmark
  unfold mark at hmark
  split at hmark
  case h_3 => simpa [AwaitsDraining] using hallowed
  case h_4 =>
    split at hmark
    · cases hmark
    · cases hmark
  all_goals cases hmark

theorem Turn.worker_of_misses {party : Party} {w w' : Watch} {l l' : Life}
    (h : Turn party w l .misses w' l') : party = .worker := by
  cases h
  assumption

/-- In every run in which the worker awaits `draining` before it tries its clean end, a failure
has a cause. -/
theorem failed_run_has_cause (calls : Calls) {labels : List LiveLabel} {service : Service}
    (hrun : Run (StepIf Acts fun memory label => AwaitsDraining memory label = true)
      (started calls) labels service) : HasCause labels service.state := by
  have hstart : Caused (life startedMemory) fun _ => {} := by
    constructor <;> simp [life, startedMemory, LiveState.failed]
  obtain ⟨watches, ⟨hsound, hcaused⟩, -⟩ := system_invariant
    (I := fun labels memory watches => Sound labels memory watches ∧ Caused (life memory) watches)
    hrun (watched_started calls) ⟨sound_started, hstart⟩ (by
      rintro labels memory watches party request reply memory' ⟨hsound, hcaused⟩ hallowed hacts
      refine ⟨hsound.expects hacts, fun w' hobserve => ?_⟩
      obtain ⟨hended, hturn⟩ := turn_of_observe hobserve hacts
      refine ⟨hsound.step hacts hobserve, hcaused.turn hsound.latch hsound.course hsound.binding
        hended hturn fun hmark => ?_⟩
      have hworker : party = .worker := Turn.worker_of_misses (hmark ▸ hturn)
      exact awaits_of_misses hallowed hworker hmark)
  exact hasCause_of_sound hsound hcaused

/-- A service that is stopped before a guest is attached. -/
def unattachedStop : Calls := ⟨{}, [], fun _ => [.requestStop]⟩

/-- The worker takes its last turns before the state is `draining`. -/
def hurriedSchedule : List Party :=
  turns .worker 3 ++ turns (.control 0) 12 ++ turns .worker 28

theorem hurriedSchedule_fails :
    (execute serve (fun _ _ => true) hurriedSchedule (started unattachedStop)).any (fun result =>
      result.2.state .state = .failedQuiescent &&
        (marks result.1).all fun entry => entry.2 ≠ .wins) = true := by
  decide +kernel

/-- The worker meets a stop without a guest too early, and the run fails without a cause. -/
theorem unattached_stop_fails_without_cause : ∃ labels service,
    Run LiveStep (started unattachedStop) labels service ∧
      service.state .state = .failedQuiescent ∧ ¬ HasCause labels service.state := by
  have hfails := hurriedSchedule_fails
  rw [Option.any_eq_true] at hfails
  obtain ⟨⟨labels, service⟩, hexecute, hresult⟩ := hfails
  simp only [Bool.and_eq_true, decide_eq_true_eq, List.all_eq_true] at hresult
  refine ⟨labels, service, run_of_stepIf (execute_run acts_serve hexecute), hresult.1, ?_⟩
  intro hcause
  obtain ⟨party, hwins⟩ := hcause.won (by simp [LiveState.failed, hresult.1])
  exact hresult.2 _ hwins rfl

/-- The same calls, with the stop completed before the worker ends. -/
def patientSchedule : List Party :=
  turns .worker 3 ++ turns (.control 0) 15 ++ turns .worker 23

theorem patientSchedule_stops :
    (execute serve AwaitsDraining patientSchedule (started unattachedStop)).any (fun result =>
      result.2.state .state = .stoppedQuiescent) = true := by
  decide +kernel

theorem failed_run_has_cause_patient : ∃ labels service,
    Run (StepIf Acts fun memory label => AwaitsDraining memory label = true)
      (started unattachedStop) labels service ∧
      service.state .state = .stoppedQuiescent ∧ HasCause labels service.state := by
  have hstops := patientSchedule_stops
  rw [Option.any_eq_true] at hstops
  obtain ⟨⟨labels, service⟩, hexecute, hresult⟩ := hstops
  have hrun := execute_run acts_serve hexecute
  exact ⟨labels, service, hrun, by simpa using hresult, failed_run_has_cause unattachedStop hrun⟩

end Runs

end EspNp2.LiveService.FailureCause
