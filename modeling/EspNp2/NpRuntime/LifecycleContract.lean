import EspNp2.NpRuntime.LifecycleCalls
import Mathlib.Data.List.Count

/-!
The contract of the life cycle: what every run of one owner and any number of helpers keeps
to, in every interleaving of their loads and exchanges.
-/

namespace EspNp2.NpRuntime.LifecycleContract

open Library.Concurrent
open Library.LabelledRun
open Lifecycle
open LifecycleMonitor
open LifecycleInvariant
open LifecycleCalls

section Threads

variable {party : Party} {w w' : Watch}

theorem idle_of_frame (hframe : frame w' = frame w) (hidle : Idle w) : Idle w' := by
  have hpublished : w'.published = w.published := congrArg (·.published) hframe
  have hfinal : w'.final = w.final := congrArg (·.final) hframe
  have hended : w'.ended = w.ended := congrArg (·.ended) hframe
  exact ⟨hpublished.trans hidle.published, fun h => hended.trans (hidle.final (hfinal ▸ h))⟩

theorem watched_helperCall (call : HelperCall) :
    Watched (monitor party) (fun w' result => frame w' = frame w ∧
      w'.answer (.helper call) result = some w') call.code w := by
  cases call with
  | requestStop =>
      refine watched_requestStop.mono ?_
      rintro w' result ⟨hframe, hstop⟩
      cases result with
      | false => exact ⟨hframe, rfl⟩
      | true => exact ⟨hframe, if_pos (hstop rfl)⟩
  | markFailure =>
      refine watched_markFailure.mono ?_
      rintro w' result ⟨hframe, hresult⟩
      cases result with
      | false => exact ⟨hframe, if_pos hresult⟩
      | true => exact ⟨hframe, if_pos hresult⟩

/-- A call of an idle owner gives an answer that the monitor accepts, and leaves it idle. -/
theorem watched_lifecycleCall (call : LifecycleCall) (hidle : Idle w) :
    Watched (monitor .owner) (fun w' result => ∃ w'', w'.answer call result = some w'' ∧
      w''.core = w'.core ∧ Idle w'') call.code w := by
  have hadvance : ∀ {expected desired : State} {w' : Watch} {result : Bool},
      (if result = true then w.reached = State.rank expected ∧ w.ended = false ∧
        frame w' = frame { w with reached := State.rank desired }
      else frame w' = frame w) → Idle w' := by
    intro expected desired w' result h
    cases result with
    | false => exact idle_of_frame h hidle
    | true => exact idle_of_frame h.2.2 { hidle with }
  cases call with
  | beginInitialization =>
      refine (watched_advance .created .initializing nofun rfl (by decide)).mono
        fun w' result h => ?_
      exact ⟨w', rfl, rfl, hadvance h⟩
  | completeInitialization =>
      refine (watched_advance .initializing .ready nofun rfl (by decide)).mono
        fun w' result h => ?_
      exact ⟨w', rfl, rfl, hadvance h⟩
  | beginRunning =>
      refine watched_beginRunning.mono fun w' result h => ⟨w', rfl, rfl, ?_⟩
      cases result with
      | false => exact idle_of_frame h hidle
      | true => exact idle_of_frame h.2.2.2 { hidle with }
  | beginStopping =>
      refine watched_beginStopping.mono fun w' result h => ⟨w', rfl, rfl, ?_⟩
      cases result with
      | false => exact idle_of_frame h.1 hidle
      | true => exact idle_of_frame h { hidle with }
  | finishCleanup =>
      refine (watched_finishCleanup hidle.final).mono fun w' result h => ?_
      cases result with
      | false =>
          have hidle' := idle_of_frame h.2 hidle
          exact ⟨w', if_neg (by simp [hidle'.published]), rfl, hidle'⟩
      | true =>
          obtain ⟨-, hpublished, -, hended, -⟩ := h
          exact ⟨{ w' with published := false }, if_pos hpublished, rfl, rfl, fun _ => hended⟩
  | helper call =>
      refine (watched_helperCall call).mono fun w' result h => ?_
      exact ⟨w', h.2, rfl, idle_of_frame h.1 hidle⟩

theorem watched_lifecycleOwner (hidle : Idle w) :
    Watched (monitor .owner) (fun _ _ => True) lifecycleOwner w := by
  refine watched_iterate (fun w _ => Idle w) hidle fun w _ hidle => ?_
  refine watched_op_iff.mpr fun call _ => ⟨w, rfl, ?_⟩
  change Watched _ _ (Thread.bind (LifecycleCall.code call) _) _
  refine Watched.bind ((watched_lifecycleCall call hidle).mono ?_)
  rintro w' result ⟨w'', hanswer, hcore, hidle⟩
  refine watched_op_iff.mpr fun reply _ => ⟨w'', ?_, watched_done_iff.mpr hidle⟩
  change (do
    let w₁ ← w'.answer call result
    return { w₁ with core := w'.core }) = some w''
  rw [hanswer, ← hcore]
  rfl

theorem watched_lifecycleHelper (number : Nat) :
    Watched (monitor (.helper number)) (fun _ _ => True) lifecycleHelper w := by
  refine watched_iterate (fun _ _ => True) trivial fun w _ _ => ?_
  refine watched_op_iff.mpr fun call _ => ⟨w, rfl, ?_⟩
  change Watched _ _ (Thread.bind (HelperCall.code call) _) _
  refine Watched.bind ((watched_helperCall call).mono ?_)
  rintro w' result ⟨-, hanswer⟩
  exact watched_op_iff.mpr fun reply _ => ⟨w', hanswer, watched_done_iff.mpr trivial⟩

end Threads

section Contract

/-- A call has returned with this answer. -/
def Returned (labels : List Label) (call : LifecycleCall) (result : Bool) : Prop :=
  ∃ party, (party, ⟨.finishCall call result, ()⟩) ∈ labels

/-- An exchange that moves the state to its end. -/
def isPublish : Label → Bool
  | (_, ⟨.casState _ _ desired, (exchanged, _)⟩) =>
      exchanged ∧ (desired = .stopped ∨ desired = .failed)
  | _ => false

/-- The return of a `finish_cleanup` that answers true. -/
def isCleaned : Label → Bool
  | (.owner, ⟨.finishCall .finishCleanup result, _⟩) => result
  | _ => false

/-- What an answer promises, as a watch. -/
def promise : OpLabel Op Result → Watch
  | ⟨.finishCall (.helper .markFailure) true, _⟩ => { fatal := true }
  | ⟨.finishCall (.helper .markFailure) false, _⟩ => { closed := true }
  | ⟨.finishCall (.helper .requestStop) true, _⟩ => { stop := true }
  | _ => {}

/-- The counts of the exchanges to a terminal state and of the cleanups that have answered
true. -/
structure Counted (labels : List Label) (w : Watch) : Prop where
  publishes : labels.countP isPublish = if w.ended then 1 else 0
  cleaned : labels.countP isPublish = labels.countP isCleaned + if w.published then 1 else 0
  returned : ∀ before result,
    labels = before ++ [(.owner, ⟨.finishCall .finishCleanup result, ()⟩)] → w.published = false

structure History (labels : List Label) (memory : Memory) (watches : Party → Watch) : Prop where
  agreed : Agreed memory watches
  promised : ∀ label ∈ labels, Knows (promise label.2) memory
  counted : Counted labels (watches .owner)

theorem knows_promise {party : Party} {w w' : Watch} {label : OpLabel Op Result}
    {memory : Memory} (hknows : Knows w memory) (haccess : w.access party label = some w') :
    Knows (promise label) memory := by
  fun_cases promise label
  · have hfatal := (Option.ite_none_right_eq_some.mp haccess).1
    exact ⟨nofun, fun _ => hknows.fatal hfatal, nofun, nofun⟩
  · have hclosed := (Option.ite_none_right_eq_some.mp haccess).1
    exact ⟨nofun, nofun, fun _ => hknows.closed hclosed, nofun⟩
  · have hstop := (Option.ite_none_right_eq_some.mp haccess).1
    exact ⟨nofun, nofun, nofun, fun _ => hknows.stop hstop⟩
  · exact ⟨nofun, nofun, nofun, nofun⟩

theorem ended_access {w w' : Watch} {label : OpLabel Op Result}
    (h : w.access .owner label = some w') :
    w'.ended = (w.ended || isPublish (.owner, label)) ∧
      w'.published = (isPublish (.owner, label) || w.published && !isCleaned (.owner, label)) ∧
      (isCleaned (.owner, label) = true → w.published = true) := by
  obtain ⟨request, reply⟩ := label
  cases request with
  | casState weak expected desired =>
      obtain ⟨exchanged, found⟩ := reply
      cases exchanged with
      | false =>
          obtain rfl := Option.some.inj h
          simp [isPublish, isCleaned, Watch.seeState]
      | true =>
          cases desired with
          | created => cases h
          | _ =>
              obtain ⟨-, ⟨⟩⟩ := Option.ite_none_right_eq_some.mp h
              simp [isPublish, isCleaned]
  | casOutcome expected desired =>
      obtain ⟨exchanged, found⟩ := reply
      cases exchanged with
      | false =>
          obtain rfl := Option.some.inj h
          simp [isPublish, isCleaned, Watch.seeOutcome]
      | true =>
          cases desired with
          | openNone => cases h
          | _ =>
              obtain ⟨-, ⟨⟩⟩ := Option.ite_none_right_eq_some.mp h
              simp [isPublish, isCleaned, Watch.seeOutcome]
  | finishCall call result =>
      change w.answer call result = some w' at h
      revert h
      fun_cases Watch.answer w call result <;> intro h <;> simp_all [isPublish, isCleaned]
      subst h
      exact ⟨rfl, rfl⟩
  | finishRuntimeCall call result =>
      obtain ⟨-, ⟨⟩⟩ := Option.ite_none_right_eq_some.mp h
      simp [isPublish, isCleaned]
  | loadState =>
      obtain rfl := Option.some.inj h
      simp [isPublish, isCleaned, Watch.seeState]
  | loadOutcome =>
      obtain rfl := Option.some.inj h
      simp [isPublish, isCleaned, Watch.seeOutcome]
  | _ =>
      obtain rfl := Option.some.inj h
      simp [isPublish, isCleaned]

theorem counted_access {labels : List Label} {w w' : Watch} {label : OpLabel Op Result}
    (haccess : w.access .owner label = some w')
    (hended : isPublish (.owner, label) = true → w.ended = false) (hcounted : Counted labels w) :
    Counted (labels ++ [(.owner, label)]) w' := by
  obtain ⟨hended', hpublished', hcleaned⟩ := ended_access haccess
  obtain ⟨hpublishes, hreturns, -⟩ := hcounted
  refine ⟨?_, ?_, ?_⟩
  · rw [List.countP_append, hended', hpublishes]
    cases hpublish : isPublish (.owner, label) <;> simp_all
  · rw [List.countP_append, List.countP_append, hpublished']
    cases hpublish : isPublish (.owner, label) <;> cases hclean : isCleaned (.owner, label) <;>
      simp_all
  · intro before result hlabels
    obtain ⟨-, hlabel⟩ := List.append_inj' hlabels rfl
    obtain rfl : label = ⟨.finishCall .finishCleanup result, ()⟩ := by simpa using hlabel
    cases result with
    | false =>
        obtain ⟨hnot, ⟨⟩⟩ := Option.ite_none_left_eq_some.mp haccess
        simpa using hnot
    | true =>
        obtain ⟨-, ⟨⟩⟩ := Option.ite_none_right_eq_some.mp haccess
        rfl

theorem moveState_terminal {party : Party} {w w' : Watch} {expected desired : State}
    (hdesired : desired = .stopped ∨ desired = .failed)
    (h : w.moveState party expected desired = some w') :
    party = .owner ∧ expected = .stopping := by
  rcases hdesired with rfl | rfl
  · obtain ⟨⟨hparty, hexpected, -⟩, -⟩ := Option.ite_none_right_eq_some.mp h
    exact ⟨hparty, hexpected⟩
  · obtain ⟨⟨hparty, hexpected, -⟩, -⟩ := Option.ite_none_right_eq_some.mp h
    exact ⟨hparty, hexpected⟩

theorem isPublish_helper {number : Nat} {w w' : Watch} {label : OpLabel Op Result}
    (h : w.access (.helper number) label = some w') :
    isPublish (.helper number, label) = false := by
  obtain ⟨request, reply⟩ := label
  cases request with
  | casState weak expected desired =>
      obtain ⟨exchanged, found⟩ := reply
      cases exchanged with
      | false => simp [isPublish]
      | true =>
          have hmove : w.moveState (.helper number) expected desired = some w' := h
          cases desired with
          | stopped => cases (moveState_terminal (.inl rfl) hmove).1
          | failed => cases (moveState_terminal (.inr rfl) hmove).1
          | _ => simp [isPublish]
  | _ => rfl

theorem ended_of_isPublish {w : Watch} {memory memory' : Memory} {request : Op}
    {reply : Result request} {w' : Watch} (howner : OwnerKnows w memory)
    (hacts : Acts memory request reply memory')
    (haccess : w.access .owner ⟨request, reply⟩ = some w')
    (hpublish : isPublish (.owner, ⟨request, reply⟩) = true) : w.ended = false := by
  cases hacts with
  | casState weak desired =>
      have hstate : memory.state = .stopping := by
        cases desired with
        | stopped => exact (moveState_terminal (.inl rfl) haccess).2
        | failed => exact (moveState_terminal (.inr rfl) haccess).2
        | _ => simp [isPublish] at hpublish
      rw [Bool.eq_false_iff, Ne, howner.ended, hstate]
      rintro (h | h) <;> cases h
  | _ => simp [isPublish] at hpublish

theorem access_of_observe {party : Party} {w w' : Watch} {label : OpLabel Op Result}
    (h : observe party w label = some w') : ∃ w₁ core, w.access party label = some w₁ ∧
      w' = { w₁ with core := core } := by
  cases party with
  | helper number => exact ⟨w', w'.core, h, rfl⟩
  | owner =>
      obtain ⟨core, -, h⟩ := Option.bind_eq_some_iff.mp h
      obtain ⟨w₁, haccess, ⟨⟩⟩ := Option.bind_eq_some_iff.mp h
      exact ⟨w₁, core, haccess, rfl⟩

theorem history_step {labels : List Label} {memory memory' : Memory} {watches : Party → Watch}
    {party : Party} {request : Op} {reply : Result request} {w : Watch}
    (h : History labels memory watches) (hacts : Acts memory request reply memory')
    (hobserve : observe party (watches party) ⟨request, reply⟩ = some w) :
    History (labels ++ [(party, ⟨request, reply⟩)]) memory' (Function.update watches party w) := by
  obtain ⟨hstep, hagreed⟩ := agreed_step h.agreed hacts hobserve
  obtain ⟨w₁, core, haccess, rfl⟩ := access_of_observe hobserve
  refine ⟨hagreed, ?_, ?_⟩
  · intro label hlabel
    rcases List.mem_append.mp hlabel with hlabel | hlabel
    · exact hstep.knows (h.promised label hlabel)
    · obtain rfl : label = (party, ⟨request, reply⟩) := by simpa using hlabel
      exact hstep.knows (knows_promise (h.agreed.knows party) haccess)
  · cases party with
    | owner =>
        have hcounted := counted_access haccess
          (ended_of_isPublish h.agreed.owner hacts haccess) h.counted
        simpa using { hcounted with : Counted _ { w₁ with core := core } }
    | helper number =>
        have hpublish := isPublish_helper haccess
        have hclean : isCleaned (.helper number, ⟨request, reply⟩) = false := rfl
        refine ⟨?_, ?_, ?_⟩
        · simpa [List.countP_append, hpublish] using h.counted.publishes
        · simpa [List.countP_append, hpublish, hclean] using h.counted.cleaned
        · intro before result hlabels
          have hlast := (List.append_inj' hlabels rfl).2
          simp at hlast

theorem history_initial : History [] {} fun _ => {} :=
  ⟨agreed_initial, List.forall_mem_nil _, rfl, rfl, by simp⟩

/-- Along a run every step is a `MemoryStep`, and the history stays true. -/
theorem history_run {before labels : List Label} {start last : LifecycleSystem}
    {watches : Party → Watch} (hrun : Run (Step Acts) start labels last)
    (hwatched : ∀ party, Watched (monitor party) (fun _ _ => True) (start.threads party)
      (watches party)) (hhistory : History before start.state watches) :
    ∃ watches, (History (before ++ labels) last.state watches ∧
      (last.state.state = start.state.state ∨
        State.rank start.state.state < State.rank last.state.state)) ∧
      ∀ party, Watched (monitor party) (fun _ _ => True) (last.threads party) (watches party) := by
  refine system_invariant (run_stepIf hrun) hwatched (I := fun labels memory watches =>
    History (before ++ labels) memory watches ∧ (memory.state = start.state.state ∨
      State.rank start.state.state < State.rank memory.state)) ?_ ?_
  · exact ⟨by simpa using hhistory, .inl rfl⟩
  · rintro labels memory watches party request reply memory' ⟨h, hforward⟩ - hacts
    refine ⟨⟨memory, memory', ⟨h.agreed.knows party, ?_⟩, hacts⟩, fun w hobserve => ?_⟩
    · rintro rfl
      exact h.agreed.owner
    · have hstep := (agreed_step h.agreed hacts hobserve).1
      refine ⟨by simpa using history_step h hacts hobserve, ?_⟩
      rcases hstep.forward with heq | hlt
      · rwa [heq]
      · rcases hforward with heq' | hlt'
        · exact .inr (heq' ▸ hlt)
        · exact .inr (Nat.lt_trans hlt' hlt)

theorem watched_initial (party : Party) :
    Watched (monitor party) (fun _ _ => True) (LifecycleSystem.initial.threads party) {} := by
  cases party with
  | owner => exact watched_lifecycleOwner ⟨rfl, fun h => absurd rfl h⟩
  | helper number => exact watched_lifecycleHelper number

/-- In every run of the life cycle, cut in two anywhere: the state has moved forward; a
terminal state goes with its outcome; the answers of the first part bind the second; and
`finish_cleanup` answers true exactly when it has moved the state to its end, which happens
once at most. -/
theorem lifecycle_protocol {first second : List Label} {middle last : LifecycleSystem}
    (hfirst : Run (Step Acts) LifecycleSystem.initial first middle)
    (hsecond : Run (Step Acts) middle second last) :
    (last.state.state = middle.state.state ∨
        State.rank middle.state.state < State.rank last.state.state) ∧
      (last.state.state = .stopped → last.state.outcome = .finalizedStoppedNone ∨
        last.state.outcome = .finalizedStoppedExternal) ∧
      (last.state.state = .failed → last.state.outcome = .finalizedFailed) ∧
      (Returned first (.helper .markFailure) true → last.state.state ≠ .stopped) ∧
      (Returned first (.helper .markFailure) false →
        TerminalOutcome.finalState middle.state.outcome ≠ none) ∧
      (Returned first (.helper .requestStop) true →
        last.state.state ≠ .ready ∧ last.state.state ≠ .running ∧
        (TerminalOutcome.finalState last.state.outcome ≠ none →
          last.state.outcome.stopReason = .external ∨ last.state.outcome.stopReason = .fatal)) ∧
      first.countP isPublish ≤ 1 ∧
      (first.countP isPublish = 1 ↔
        middle.state.state = .stopped ∨ middle.state.state = .failed) ∧
      (∀ before result, first = before ++ [(.owner, ⟨.finishCall .finishCleanup result, ()⟩)] →
        first.countP isCleaned = first.countP isPublish) := by
  obtain ⟨watches₁, ⟨hhistory₁, -⟩, hwatched⟩ := history_run hfirst watched_initial history_initial
  obtain ⟨watches₂, ⟨hhistory₂, hforward⟩, -⟩ := history_run hsecond hwatched hhistory₁
  have hsound := hhistory₂.agreed.sound
  have hpromised : ∀ {call result}, Returned first call result →
      Knows (promise ⟨.finishCall call result, ()⟩) last.state := by
    rintro call result ⟨party, hmem⟩
    exact hhistory₂.promised (party, ⟨.finishCall call result, ()⟩) (by simp [hmem])
  have hcounted := hhistory₁.counted
  have howner := hhistory₁.agreed.owner
  refine ⟨hforward, ?_, ?_, ?_, ?_, ?_, ?_, ?_, ?_⟩
  · intro hstate
    have hfinal := hsound.terminal (.inl hstate)
    cases houtcome : last.state.outcome <;> simp_all [TerminalOutcome.finalState]
  · intro hstate
    have hfinal := hsound.terminal (.inr hstate)
    cases houtcome : last.state.outcome <;> simp_all [TerminalOutcome.finalState]
  · intro hreturned hstate
    have hfailure := (hpromised hreturned).fatal rfl
    have hfinal := hsound.terminal (.inl hstate)
    cases houtcome : last.state.outcome <;>
      simp_all [TerminalOutcome.finalState, TerminalOutcome.failure]
  · rintro ⟨party, hmem⟩
    exact (hhistory₁.promised (party, _) (by simpa using hmem)).closed rfl
  · intro hreturned
    obtain ⟨hstate, hnone, hstopped⟩ := (hpromised hreturned).stop rfl
    refine ⟨?_, ?_, fun hfinal => ?_⟩
    · intro h
      simp [h, stopRequested] at hstate
    · intro h
      simp [h, stopRequested] at hstate
    · cases houtcome : last.state.outcome <;>
        simp_all [TerminalOutcome.finalState, TerminalOutcome.stopReason]
  · have hpublishes := hcounted.publishes
    rw [List.nil_append] at hpublishes
    rw [hpublishes]
    split <;> decide
  · rw [← howner.ended]
    have hpublishes := hcounted.publishes
    rw [List.nil_append] at hpublishes
    rw [hpublishes]
    simp
  · intro before result hlabels
    have hcleaned := hcounted.cleaned
    rw [hcounted.returned before result (by simpa using hlabels)] at hcleaned
    simpa using hcleaned.symm

/-- An environment in which the owner makes the calls that the state is ready for, and the
helpers mark failures. -/
def serve (memory : Memory) : (request : Op) → Result request × Memory
  | .loadState => (memory.state, memory)
  | .loadOutcome => (memory.outcome, memory)
  | .casState _ expected desired =>
      if memory.state = expected then ((true, memory.state), { memory with state := desired })
      else ((false, memory.state), memory)
  | .casOutcome expected desired =>
      if memory.outcome = expected then
        ((true, memory.outcome), { memory with outcome := desired })
      else ((false, memory.outcome), memory)
  | .observe _ => (false, memory)
  | .scrnmngHaserror => (false, memory)
  | .exitRequested => (false, memory)
  | .beginCall =>
      (match memory.state with
        | .created => .beginInitialization
        | .stopping => .finishCleanup
        | _ => .beginStopping, memory)
  | .beginHelperCall => (.markFailure, memory)
  | .beginRuntimeCall => (.destroy, memory)
  | .pccoreInit => ((), memory)
  | .pccoreReset => ((), memory)
  | .pccoreExec => ((), memory)
  | .pccoreTerm => ((), memory)
  | .finishCall _ _ => ((), memory)
  | .finishRuntimeCall _ _ => ((), memory)

theorem acts_serve (memory : Memory) (request : Op) :
    Acts memory request (serve memory request).1 (serve memory request).2 := by
  cases request with
  | casState weak expected desired =>
      rw [serve]
      split
      · rename_i hstate
        subst hstate
        exact .casState weak desired
      · rename_i hstate
        exact .casStateFails weak expected desired (.inr hstate)
  | casOutcome expected desired =>
      rw [serve]
      split
      · rename_i houtcome
        subst houtcome
        exact .casOutcome desired
      · exact .casOutcomeFails expected desired
  | _ => constructor

/-- A helper marks a failure while the owner initializes. -/
def failureSchedule : List Party :=
  List.replicate 3 .owner ++ List.replicate 6 (.helper 0)

/-- The owner stops and cleans up. -/
def cleanupSchedule : List Party := List.replicate 10 .owner

theorem failureSchedule_fails :
    (execute serve (fun _ _ => true) failureSchedule LifecycleSystem.initial).any (fun first =>
      first.1.any (fun label => match label with
        | (_, ⟨.finishCall (.helper .markFailure) true, _⟩) => true
        | _ => false) &&
      (execute serve (fun _ _ => true) cleanupSchedule first.2).any fun second =>
        second.2.state.state = .failed) = true := by
  decide +kernel

theorem lifecycle_protocol_failure : ∃ first second middle last,
    Run (Step Acts) LifecycleSystem.initial first middle ∧ Run (Step Acts) middle second last ∧
      Returned first (.helper .markFailure) true ∧ last.state.state = .failed ∧
      last.state.outcome = .finalizedFailed := by
  have hfails := failureSchedule_fails
  rw [Option.any_eq_true] at hfails
  obtain ⟨⟨first, middle⟩, hfirst, hresult⟩ := hfails
  rw [Bool.and_eq_true, Option.any_eq_true, List.any_eq_true] at hresult
  obtain ⟨⟨⟨party, label⟩, hlabel, hmatch⟩, ⟨second, last⟩, hsecond, hstate⟩ := hresult
  have hrun₁ := run_of_stepIf (execute_run acts_serve hfirst)
  have hrun₂ := run_of_stepIf (execute_run acts_serve hsecond)
  have hfailed : last.state.state = .failed := of_decide_eq_true hstate
  refine ⟨first, second, middle, last, hrun₁, hrun₂, ⟨party, ?_⟩, hfailed,
    (lifecycle_protocol hrun₁ hrun₂).2.2.1 hfailed⟩
  split at hmatch
  · rename_i heq
    cases heq
    exact hlabel
  · cases hmatch

end Contract

end EspNp2.NpRuntime.LifecycleContract
