import EspNp2.LiveService.Quiescence
import Mathlib.Data.List.TakeWhile

/-!
A stop while a run of data bytes is open. `owner_finalize_clean` looks for an active transaction
before it lets the adapter flush its run, so a checkpoint that finds the stop and an open run
fails instead of committing it.
-/

namespace EspNp2.LiveService.OpenRunStop

open EspNp2.Library.Concurrent
open EspNp2.Library.LabelledRun
open EspNp2.LiveService.Lifecycle
open EspNp2.LiveService.LifecycleMonitor
open EspNp2.LiveService.LiveSystem
open EspNp2.LiveService.OwnerThread
open EspNp2.LiveService.Quiescence
open EspNp2.LiveService.ServiceMemory
open EspNp2.LiveService.Transport

section Guard

variable {α β σ : Type}

/-- A monitor of one checkpoint after a stop: it commits no event and does not return `ok`. What
the owner does after it is left alone. -/
def guard : Monitor Bool Op Result where
  expects returned label :=
    match label with
    | ⟨.load .state, state⟩ => returned = false → state ≠ .running
    | _ => True
  observe returned label :=
    if returned then some true
    else
      match label with
      | ⟨.store .eventHead _, _⟩ => none
      | ⟨.note (.ownerCheckpoint result), _⟩ => if result = .ok then none else some true
      | _ => some false

/-- An operation that the guard does not look at. -/
def Plain : Op → Bool
  | .store .eventHead _ => false
  | .note (.ownerCheckpoint _) => false
  | _ => true

theorem observe_plain {request : Op} (h : Plain request = true) (reply : Result request) :
    guard.observe false ⟨request, reply⟩ = some false := by
  cases request with
  | store cell value => cases cell <;> first | rfl | cases h
  | note mark => cases mark <;> first | rfl | cases h
  | _ => rfl

/-- The guard follows a program without looking. -/
def Passes (program : Code α) : Prop :=
  Watched guard (fun returned _ => returned = false) program false

theorem passes_pure (value : α) : Passes (pure value : Code α) := watched_done_iff.mpr rfl

theorem passes_op {request : Op} (h : Plain request = true) : Passes (operate request) :=
  watched_op_iff.mpr fun reply _ => ⟨false, observe_plain h reply, watched_done_iff.mpr rfl⟩

theorem Passes.bind {first : Code α} {rest : α → Code β} (h : Passes first)
    (hrest : ∀ value, Passes (rest value)) : Passes (first >>= rest) := by
  refine Watched.bind (h.mono ?_)
  rintro _ value rfl
  exact hrest value

theorem passes_ite {c : Prop} [Decidable c] {first second : Code α} (hfirst : Passes first)
    (hsecond : Passes second) : Passes (if c then first else second) := by
  split
  · exact hfirst
  · exact hsecond

theorem passes_iterate {body : σ → Code (σ ⊕ β)} {start : σ} (h : ∀ value, Passes (body value)) :
    Passes (iterate body start) := by
  refine watched_iterate (fun returned _ => returned = false) rfl ?_
  rintro _ value rfl
  refine (h value).mono ?_
  rintro _ result rfl
  cases result <;> rfl

theorem passes_firstFatal (category : FailureCategory) (origin : FailureOrigin) (subcode : UInt32) :
    Passes (firstFatal category origin subcode) := by
  refine Passes.bind ?_ fun latched => (passes_op rfl).bind fun _ => passes_pure _
  refine passes_ite (passes_pure _) ?_
  refine Passes.bind (passes_iterate fun _ => ?_) fun won => passes_ite ?_ (passes_pure _)
  · refine (passes_op rfl).bind fun state => passes_ite (passes_pure _) ?_
    exact (passes_op rfl).bind fun won => passes_ite (passes_pure _) (passes_pure _)
  · refine (passes_op rfl).bind fun _ => (passes_op rfl).bind fun _ =>
      (passes_op rfl).bind fun _ => ?_
    refine (passes_op rfl).bind fun _ => (passes_op rfl).bind fun latched => ?_
    refine passes_ite ?_ (passes_pure _)
    refine (passes_op rfl).bind fun _ => (passes_op rfl).bind fun _ =>
      (passes_op rfl).bind fun _ => ?_
    refine Passes.bind ((passes_op rfl).bind fun _ => passes_pure _) fun _ => ?_
    exact (passes_op rfl).bind fun _ => (passes_op rfl).bind fun _ => passes_pure _

/-- After the checkpoint the guard accepts everything. -/
theorem watched_returned (program : Code α) : Watched guard (fun _ _ => True) program true := by
  refine ⟨fun _ returned => returned = true, ?_, rfl⟩
  rintro program _ rfl
  cases program with
  | done value => trivial
  | op request next => exact fun reply _ => ⟨true, rfl, rfl⟩
  | loop body start next => rfl

end Guard

section Checkpoint

variable {α : Type}

theorem Passes.ensures {program : Code α} (h : Passes program) : Ensures (L := Owner) guard
    (fun returned => returned = false) (liftM program) fun returned _ => returned = false := by
  refine ensures_lift ?_
  rintro _ rfl
  exact h

/-- A checkpoint that does not return `ok`, seen by the guard. -/
def Declined (returned : Bool) (result : LiveResult) : Prop := returned = false ∧ result ≠ .ok

theorem ensures_ownerDetachFailure : Ensures guard (fun returned => returned = false)
    ownerDetachFailure Declined := by
  refine Ensures.bind (passes_op rfl).ensures fun attached => ?_
  refine Ensures.bind (Q := fun returned _ => returned = false) ?_ fun _ => ?_
  · exact ensures_ite (fun _ => ensures_modify fun _ h => h) fun _ => ensures_pure fun _ h => h
  refine Ensures.bind (passes_op rfl).ensures fun _ => ?_
  exact Ensures.bind (passes_op rfl).ensures fun _ => ensures_pure fun _ h => ⟨h, by simp⟩

theorem ensures_finalizeFailure (category : FailureCategory) (subcode : UInt32) :
    Ensures guard (fun returned => returned = false) (finalizeFailure category subcode)
      Declined := by
  have hfatal : Ensures guard (fun returned => returned = false)
      (discard (liftM (firstFatal category .checkpoint subcode) : OwnerCode Bool))
      fun returned _ => returned = false :=
    fun returned o h => Watched.bind (((passes_firstFatal _ _ _).ensures returned o h).mono
      fun _ _ h => watched_done_iff.mpr h)
  refine Ensures.bind hfatal fun _ => ?_
  exact Ensures.bind (passes_op rfl).ensures fun _ => ensures_ownerDetachFailure

/-- The finalization finds the transaction of the open run and fails. -/
theorem watched_ownerFinalizeClean {o : Owner} (hactive : o.transaction.active = true) :
    Watched guard (fun returned result => Declined returned result.1)
      (ownerFinalizeClean o) false := by
  refine watched_op_iff.mpr fun _ _ => ⟨false, rfl, ?_⟩
  refine watched_op_iff.mpr fun _ _ => ⟨false, rfl, ?_⟩
  change Watched _ _ ((if o.transaction.active then finalizeFailure .transport subcodeGuestContract
    else finalizeFlushed : OwnerCode LiveResult) o) _
  rw [if_pos hactive]
  exact ensures_finalizeFailure _ _ false o rfl

theorem watched_checkpointRound {o : Owner} (hactive : o.transaction.active = true) :
    Watched guard (fun returned result => ∃ value, result.1 = .inr value ∧ Declined returned value)
      (checkpointRound o) false := by
  refine watched_op_iff.mpr fun state hstate => ⟨false, rfl, ?_⟩
  have hrunning : state ≠ .running := hstate rfl
  change Watched _ _ ((if state = .failing then do return .inr (← ownerDetachFailure)
    else if state = .stopRequested then do return .inr (← ownerFinalizeClean)
    else if state ≠ .running then
      return .inr (if LiveState.terminal state then .failed else .stateError)
    else do checkpointStatus (← guest GuestAdapter.AdapterOperations.progressCheckpoint) :
      OwnerCode (Unit ⊕ LiveResult)) o) _
  split
  · refine Watched.bind ((ensures_ownerDetachFailure false o rfl).mono ?_)
    exact fun _ _ h => watched_done_iff.mpr ⟨_, rfl, h⟩
  split
  · refine Watched.bind ((watched_ownerFinalizeClean hactive).mono ?_)
    exact fun _ _ h => watched_done_iff.mpr ⟨_, rfl, h⟩
  refine watched_done_iff.mpr ⟨_, rfl, rfl, ?_⟩
  split <;> simp

/-- After a stop a checkpoint with an open transaction does not return `ok`. -/
theorem watched_ownerCheckpoint {o : Owner} (hactive : o.transaction.active = true)
    (rest : List OwnerAction) : Watched guard (fun _ _ => True)
      (ownerRun (.ownerCheckpoint :: rest) o) false := by
  refine Watched.bind (Watched.mono (Q := fun returned _ => returned = true) ?_ ?_)
  · refine watched_op_iff.mpr fun _ _ => ⟨false, rfl, ?_⟩
    change Watched guard _
      ((do note (.ownerCheckpoint (← ownerCheckpoint)) : OwnerCode Unit) o) false
    refine Watched.bind
      (Watched.mono (Q := fun returned result => Declined returned result.1) ?_ ?_)
    · refine watched_op_iff.mpr fun valid _ => ⟨false, rfl, ?_⟩
      cases valid with
      | false => exact watched_done_iff.mpr ⟨rfl, by simp⟩
      | true =>
          refine watched_iterate (fun returned round => returned = false ∧
            round.2.transaction.active = true) ⟨rfl, hactive⟩ ?_
          rintro _ ⟨_, o⟩ ⟨rfl, hactive⟩
          refine Watched.bind ((watched_checkpointRound hactive).mono ?_)
          rintro returned ⟨_, o'⟩ ⟨value, rfl, hdeclined⟩
          exact watched_done_iff.mpr hdeclined
    · rintro _ ⟨result, o'⟩ ⟨rfl, hresult⟩
      refine watched_op_iff.mpr fun _ _ => ⟨true, ?_, watched_done_iff.mpr rfl⟩
      exact if_neg hresult
  · rintro _ result rfl
    exact watched_returned _

end Checkpoint

section Runs

variable {labels more : List LiveLabel} {service later : Service} {returned : Bool}

/-- The adapter holds a run that the service has authorised and that is not committed. -/
def HoldsRun (o : Owner) : Prop :=
  o.adapter.runPending = true ∧ tokenMatches o.transaction o.adapter.runTransaction .dataRun = true

/-- The result of a checkpoint that the owner returns from. -/
def checkpointResult : LiveLabel → Option LiveResult
  | (.owner, ⟨.note (.ownerCheckpoint result), _⟩) => some result
  | _ => none

/-- The owner publishes an event. -/
def commitsEvent : LiveLabel → Bool
  | (.owner, ⟨.store .eventHead _, _⟩) => true
  | _ => false

/-- The steps of a run until the next checkpoint returns. -/
def checkpointSteps (labels : List LiveLabel) : List LiveLabel :=
  labels.takeWhile fun label => checkpointResult label = none

/-- What the guard has seen of a run. -/
structure Guarded (more : List LiveLabel) (returned : Bool) : Prop where
  opened : returned = false → ∀ label ∈ more, checkpointResult label = none
  closed : returned = true → ∃ result, more.findSome? checkpointResult = some result ∧ result ≠ .ok
  uncommitted : ∀ label ∈ checkpointSteps more, commitsEvent label = false

theorem checkpointSteps_opened (h : ∀ label ∈ more, checkpointResult label = none) :
    checkpointSteps more = more :=
  List.takeWhile_eq_self_iff.mpr fun label hmem => by simpa using h label hmem

theorem checkpointSteps_closed {result : LiveResult} {label : LiveLabel}
    (h : more.findSome? checkpointResult = some result) :
    checkpointSteps (more ++ [label]) = checkpointSteps more := by
  rw [checkpointSteps, checkpointSteps, List.takeWhile_append, if_neg]
  intro hlength
  have hall := List.takeWhile_eq_self_iff.mp (List.takeWhile_prefix _ |>.eq_of_length hlength)
  obtain ⟨label, hmem, hresult⟩ := List.exists_of_findSome?_eq_some h
  have hnone := hall label hmem
  simp [hresult] at hnone

theorem Guarded.silent (h : Guarded more returned) {label : LiveLabel}
    (hresult : checkpointResult label = none) (hcommits : returned = false →
      commitsEvent label = false) :
    Guarded (more ++ [label]) returned := by
  cases returned with
  | false =>
      have hopened : ∀ other ∈ more ++ [label], checkpointResult other = none := by
        intro other hmem
        rcases List.mem_append.mp hmem with hmem | hmem
        · exact h.opened rfl other hmem
        · obtain rfl : other = label := by simpa using hmem
          exact hresult
      refine ⟨fun _ => hopened, by simp, ?_⟩
      rw [checkpointSteps_opened hopened]
      intro other hmem
      rcases List.mem_append.mp hmem with hmem | hmem
      · exact h.uncommitted other (by rwa [checkpointSteps_opened (h.opened rfl)])
      · obtain rfl : other = label := by simpa using hmem
        exact hcommits rfl
  | true =>
      obtain ⟨result, hfirst, hne⟩ := h.closed rfl
      refine ⟨by simp, fun _ => ⟨result, ?_, hne⟩, ?_⟩
      · rw [List.findSome?_append, hfirst]
        rfl
      · rw [checkpointSteps_closed hfirst]
        exact h.uncommitted

theorem Guarded.owner (h : Guarded more returned) {label : OpLabel} {returned' : Bool}
    (hobserve : guard.observe returned label = some returned') :
    Guarded (more ++ [(.owner, label)]) returned' := by
  cases returned with
  | true =>
      obtain rfl : true = returned' := Option.some.inj hobserve
      obtain ⟨result, hfirst, hne⟩ := h.closed rfl
      refine ⟨by simp, fun _ => ⟨result, ?_, hne⟩, ?_⟩
      · rw [List.findSome?_append, hfirst]
        rfl
      · rw [checkpointSteps_closed hfirst]
        exact h.uncommitted
  | false =>
      simp only [guard, Bool.false_eq_true, if_false] at hobserve
      split at hobserve
      · cases hobserve
      · rename_i result _
        split at hobserve
        · cases hobserve
        obtain rfl := Option.some.inj hobserve
        have hnone : more.findSome? checkpointResult = none :=
          List.findSome?_eq_none_iff.mpr (h.opened rfl)
        refine ⟨by simp, fun _ => ⟨result, ?_, ‹_›⟩, ?_⟩
        · rw [List.findSome?_append, hnone]
          rfl
        · have hsteps :
            checkpointSteps (more ++ [(.owner, ⟨.note (.ownerCheckpoint result), ()⟩)]) =
              more := by
            have hall : ∀ label ∈ more, decide (checkpointResult label = none) = true :=
              fun label hmem => by simpa using h.opened rfl label hmem
            rw [checkpointSteps, List.takeWhile_append_of_pos hall]
            simp [checkpointResult]
          have hsame := checkpointSteps_opened (h.opened rfl)
          intro other hmem
          refine h.uncommitted other ?_
          rw [hsame]
          rwa [hsteps] at hmem
      · rename_i hstore hnote
        obtain rfl := Option.some.inj hobserve
        refine h.silent ?_ fun _ => ?_
        · obtain ⟨request, reply⟩ := label
          cases request with
          | note mark =>
              cases mark with
              | ownerCheckpoint result => exact absurd rfl (hnote result reply)
              | _ => rfl
          | _ => rfl
        · obtain ⟨request, reply⟩ := label
          cases request with
          | store cell value =>
              cases cell with
              | eventHead => exact absurd rfl (hstore value reply)
              | _ => rfl
          | _ => rfl

/-- After a stop the next checkpoint of an owner that holds a run does not commit it and does not
return `ok`. -/
theorem open_run_checkpoint_fails (calls : Calls)
    (hrun : Run LiveStep (started calls) labels service) (o : Owner) (rest : List OwnerAction)
    (howner : service.threads .owner = ownerRun (.ownerCheckpoint :: rest) o) (hholds : HoldsRun o)
    (hstop : service.state .state = .stopRequested) (hmore : Run LiveStep service more later) :
    more.findSome? checkpointResult ≠ some .ok ∧
      ∀ label ∈ checkpointSteps more, commitsEvent label = false := by
  have hactive : o.transaction.active = true := by
    have hmatches := hholds.2
    simp only [tokenMatches, Bool.and_eq_true] at hmatches
    exact hmatches.1.1
  obtain ⟨watches, hfollowed⟩ := followed_run calls hrun
  have hinvariant : ∃ watches returned, Followed (labels ++ more) later watches ∧
      LiveState.late (later.state .state) = true ∧
      Watched guard (fun _ _ => True) (later.threads .owner) returned ∧ Guarded more returned := by
    induction hmore with
    | nil =>
        refine ⟨watches, false, by simpa using hfollowed, ?_, ?_, ?_⟩
        · rw [hstop]
          rfl
        · rw [howner]
          exact watched_ownerCheckpoint hactive rest
        · exact ⟨by simp, by simp, by simp [checkpointSteps]⟩
    | @snoc middle last more label hmore hstep ih =>
        obtain ⟨watches, returned, hbefore, hlate, hguard, hguarded⟩ := ih
        obtain ⟨w', -, hnext, -, hturn⟩ := hbefore.step hstep
        cases hstep with
        | @op party request rest reply memory' hop hacts =>
            have hexpects : guard.expects returned ⟨request, reply⟩ := by
              cases request with
              | load cell =>
                  cases cell with
                  | state =>
                      intro _ hrunning
                      rw [← hacts.1, hrunning] at hlate
                      cases hlate
                  | _ => trivial
              | _ => trivial
            by_cases hparty : party = .owner
            · subst hparty
              obtain ⟨returned', hobserve, hrest⟩ := hguard.next hop reply hexpects
              refine ⟨_, returned', by simpa using hnext, hturn.late_state hlate, ?_,
                hguarded.owner hobserve⟩
              simpa using hrest
            · refine ⟨_, returned, by simpa using hnext, hturn.late_state hlate, ?_, ?_⟩
              · simpa [Ne.symm hparty] using hguard
              · cases party with
                | owner => exact absurd rfl hparty
                | worker => exact hguarded.silent rfl fun _ => rfl
                | control index => exact hguarded.silent rfl fun _ => rfl
  obtain ⟨-, returned, -, -, -, hguarded⟩ := hinvariant
  refine ⟨?_, hguarded.uncommitted⟩
  cases returned with
  | false =>
      rw [List.findSome?_eq_none_iff.mpr (hguarded.opened rfl)]
      simp
  | true =>
      obtain ⟨result, hfirst, hne⟩ := hguarded.closed rfl
      rw [hfirst]
      simpa using hne

/-- An owner that attaches its guest, whose guest writes a byte, and that then comes to a
checkpoint. -/
def openRunCalls : Calls where
  adapter := { guest := { bound := true } }
  owner := [.attachGuest, .operation (.pcm86WriteData 7), .ownerCheckpoint]
  control _ := [.requestStop]

/-- The worker starts, the owner opens a run, and the stop is accepted. -/
def openedRun : Option (Owner × Memory) := do
  let (_, _, booted) ← executeAlone serve 20 (WorkerThread.workerStart {}) startedMemory
  let (_, (_, attached), bound) ← executeAlone serve 20
    (OwnerAction.code .attachGuest ⟨openRunCalls.adapter, {}⟩) booted
  let (_, (_, o), opened) ← executeAlone serve 100
    (OwnerAction.code (.operation (.pcm86WriteData 7)) attached) bound
  let (_, _, stopped) ← executeAlone serve 100 (controlRun [.requestStop]) opened
  return (o, stopped)

theorem extend_run {calls : Calls} (hrun : Run LiveStep (started calls) labels service)
    (party : Party) {α : Type} {program : Code α} (rest : α → Code (Outcome party)) {steps : Nat}
    {labels' : List OpLabel} {value : α} {memory' : Memory}
    (h : executeAlone serve steps program service.state = some (labels', value, memory'))
    (hthread : service.threads party = program.bind rest) :
    ∃ labels service', Run LiveStep (started calls) labels service' ∧ service'.state = memory' ∧
      service'.threads party = rest value ∧
      ∀ other, other ≠ party → service'.threads other = service.threads other := by
  refine ⟨_, _, run_append_iff.mpr
    ⟨_, hrun, executeAlone_run acts_serve service party rest h hthread⟩,
    rfl, Function.update_self .., fun other hother => Function.update_of_ne hother ..⟩

theorem openedRun_run {o : Owner} {memory : Memory} (h : openedRun = some (o, memory)) :
    ∃ labels service, Run LiveStep (started openRunCalls) labels service ∧
      service.threads .owner = ownerRun [.ownerCheckpoint] o ∧ service.state = memory := by
  simp only [openedRun, Option.bind_eq_bind, Option.bind_eq_some_iff, Prod.exists] at h
  obtain ⟨_, ⟨⟩, worker, booted, hbooted, h⟩ := h
  obtain ⟨_, ⟨⟩, attached, bound, hbound, h⟩ := h
  obtain ⟨_, ⟨⟩, o', opened, hopened, h⟩ := h
  obtain ⟨_, ⟨⟩, stopped, hstopped, h⟩ := h
  obtain ⟨rfl, rfl⟩ : o' = o ∧ stopped = memory := by simpa using h
  obtain ⟨_, service₁, hrun₁, rfl, -, hothers₁⟩ := extend_run (.nil (started openRunCalls)) .worker
    (fun result => (do WorkerThread.workerEnd (← iterating WorkerThread.mainRound 0) :
      PcmOutput.WorkerCode Unit) result.2) hbooted rfl
  obtain ⟨_, service₂, hrun₂, rfl, howner₂, hothers₂⟩ := extend_run hrun₁ .owner
    (fun result : Unit × Owner => ownerRun [.operation (.pcm86WriteData 7), .ownerCheckpoint]
      result.2) hbound
    ((hothers₁ .owner (by simp)).trans rfl)
  obtain ⟨_, service₃, hrun₃, rfl, howner₃, hothers₃⟩ := extend_run hrun₂ .owner
    (fun result : Unit × Owner => ownerRun [.ownerCheckpoint] result.2) hopened (howner₂.trans rfl)
  have hcontrol : service₃.threads (.control 0) = controlRun [.requestStop] := by
    rw [hothers₃ _ (by simp), hothers₂ _ (by simp), hothers₁ _ (by simp)]
    rfl
  obtain ⟨_, service₄, hrun₄, hstate₄, -, hothers₄⟩ := extend_run hrun₃ (.control 0) .done hstopped
    (by rw [hcontrol]; rfl)
  exact ⟨_, service₄, hrun₄, (hothers₄ .owner (by simp)).trans howner₃, hstate₄⟩

instance (o : Owner) : Decidable (HoldsRun o) := inferInstanceAs (Decidable (_ ∧ _))

theorem openedRun_holds :
    openedRun.any (fun result => HoldsRun result.1 && result.2 .state = .stopRequested) = true := by
  decide +kernel

/-- The service when the stop is accepted while a run is open. -/
theorem exists_openedRun : ∃ labels service o, Run LiveStep (started openRunCalls) labels service ∧
    service.threads .owner = ownerRun [.ownerCheckpoint] o ∧ HoldsRun o ∧
    service.state .state = .stopRequested ∧ openedRun = some (o, service.state) := by
  have hholds := openedRun_holds
  rw [Option.any_eq_true] at hholds
  obtain ⟨⟨o, memory⟩, hopened, hresult⟩ := hholds
  simp only [Bool.and_eq_true, decide_eq_true_eq] at hresult
  obtain ⟨labels, service, hrun, howner, rfl⟩ := openedRun_run hopened
  exact ⟨labels, service, o, hrun, howner, hresult.1, hresult.2, hopened⟩

/-- The checkpoint of the owner that has opened a run. -/
def failedCheckpoint : Option (List OpLabel × Memory) := do
  let (o, stopped) ← openedRun
  let (labels, _, memory) ← executeAlone serve 100 (ownerRun [.ownerCheckpoint] o) stopped
  return (labels, memory)

/-- The owner has failed and has committed nothing. -/
def Failed (labels : List LiveLabel) (memory : Memory) : Bool :=
  labels.findSome? checkpointResult = some .failed && (marks labels).contains (.owner, .wins) &&
    memory .state = .failing && memory .eventHead = 0

theorem failedCheckpoint_fails : failedCheckpoint.any (fun result =>
    Failed (result.1.map fun label => (.owner, label)) result.2) = true := by
  decide +kernel

theorem failed_checkpoint {service : Service} {o : Owner}
    (hopened : openedRun = some (o, service.state))
    (howner : service.threads .owner = ownerRun [.ownerCheckpoint] o) :
    ∃ more later, Run LiveStep service more later ∧ Failed more later.state = true := by
  have hfails := failedCheckpoint_fails
  rw [Option.any_eq_true] at hfails
  obtain ⟨⟨labels, memory⟩, hcheckpoint, hresult⟩ := hfails
  simp only [failedCheckpoint, hopened, Option.bind_eq_bind, Option.bind_some,
    Option.bind_eq_some_iff, Prod.exists] at hcheckpoint
  obtain ⟨labels', value, o', last, hexecute, h⟩ := hcheckpoint
  obtain ⟨rfl, rfl⟩ : labels' = labels ∧ last = memory := by simpa using h
  exact ⟨_, _, executeAlone_run acts_serve service .owner .done hexecute (howner.trans
    (Thread.bind_done _).symm), hresult⟩

/-- A stop is accepted while a run is open, and the next checkpoint fails: a call of `first_fatal`
succeeds and the run is not committed. -/
theorem open_run_stop_fails : ∃ labels service o more later,
    Run LiveStep (started openRunCalls) labels service ∧
      service.threads .owner = ownerRun [.ownerCheckpoint] o ∧ HoldsRun o ∧
      service.state .state = .stopRequested ∧ Run LiveStep service more later ∧
      more.findSome? checkpointResult = some .failed ∧ (.owner, .wins) ∈ marks more ∧
      later.state .state = .failing ∧ later.state .eventHead = 0 := by
  obtain ⟨labels, service, o, hrun, howner, hholds, hstop, hopened⟩ := exists_openedRun
  obtain ⟨more, later, hmore, hfailed⟩ := failed_checkpoint hopened howner
  simp only [Failed, Bool.and_eq_true, decide_eq_true_eq, List.contains_iff_mem] at hfailed
  obtain ⟨⟨⟨hresult, hwins⟩, hfailing⟩, hhead⟩ := hfailed
  exact ⟨labels, service, o, more, later, hrun, howner, hholds, hstop, hmore, hresult, hwins,
    hfailing, hhead⟩

theorem open_run_checkpoint_fails_one_byte : ∃ labels service o more later,
    Run LiveStep (started openRunCalls) labels service ∧
      service.threads .owner = ownerRun [.ownerCheckpoint] o ∧ HoldsRun o ∧
      service.state .state = .stopRequested ∧ Run LiveStep service more later ∧
      more.findSome? checkpointResult ≠ some .ok ∧
      ∀ label ∈ checkpointSteps more, commitsEvent label = false := by
  obtain ⟨labels, service, o, hrun, howner, hholds, hstop, hopened⟩ := exists_openedRun
  obtain ⟨more, later, hmore, -⟩ := failed_checkpoint hopened howner
  exact ⟨labels, service, o, more, later, hrun, howner, hholds, hstop, hmore,
    open_run_checkpoint_fails openRunCalls hrun o [] howner hholds hstop hmore⟩

end Runs

end EspNp2.LiveService.OpenRunStop
