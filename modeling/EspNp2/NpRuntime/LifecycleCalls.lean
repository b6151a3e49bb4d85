import EspNp2.NpRuntime.LifecycleInvariant

/-!
The functions of the life cycle under the monitor: which exchanges they make, and what their
answers say.
-/

namespace EspNp2.NpRuntime.LifecycleCalls

open Library.Concurrent
open Lifecycle
open LifecycleMonitor
open LifecycleInvariant

section Accesses

variable {α : Type} {party : Party} {w : Watch} {post : Watch → α → Prop}

/-- The part of a watch that only the owner's own moves change. -/
def frame (w : Watch) : Watch :=
  { w with claimed := false, fatal := false, closed := false, stop := false }

theorem observe_owner (w : Watch) (label : OpLabel Op Result) (w' : Watch)
    (hcore : w.core.observe label = some w'.core) (haccess : w.access party label = some w') :
    observe party w label = some w' := by
  cases party with
  | helper number => exact haccess
  | owner => simp [observe, hcore, haccess]

theorem watched_loadState {next : State → Code α}
    (h : ∀ memory, Fits party w memory →
      Watched (monitor party) post (next memory.state) (w.seeState memory.state)) :
    Watched (monitor party) post (.op .loadState next) w := by
  refine watched_op_iff.mpr ?_
  rintro reply ⟨memory, memory', hfits, hacts⟩
  cases hacts with
  | loadState => exact ⟨w.seeState memory.state, observe_owner w _ _ rfl rfl, h memory hfits⟩

theorem watched_loadOutcome {next : TerminalOutcome → Code α}
    (h : ∀ memory, Fits party w memory →
      Watched (monitor party) post (next memory.outcome) (w.seeOutcome memory.outcome)) :
    Watched (monitor party) post (.op .loadOutcome next) w := by
  refine watched_op_iff.mpr ?_
  rintro reply ⟨memory, memory', hfits, hacts⟩
  cases hacts with
  | loadOutcome => exact ⟨w.seeOutcome memory.outcome, observe_owner w _ _ rfl rfl, h memory hfits⟩

theorem core_moveState {w' : Watch} {expected desired : State}
    (h : w.moveState party expected desired = some w') : w'.core = w.core := by
  cases desired with
  | created => cases h
  | _ =>
      obtain ⟨-, ⟨⟩⟩ := Option.ite_none_right_eq_some.mp h
      rfl

theorem core_moveOutcome {w' : Watch} {expected desired : TerminalOutcome}
    (h : w.moveOutcome party expected desired = some w') : w'.core = w.core := by
  cases desired with
  | openNone => cases h
  | _ =>
      obtain ⟨-, ⟨⟩⟩ := Option.ite_none_right_eq_some.mp h
      rfl

theorem watched_exchangeState {weak : Bool} {expected desired : State}
    {next : Bool × State → Code α}
    (htrue : ∀ memory, Fits party w memory → memory.state = expected →
      ∃ w', observe party w ⟨.casState weak expected desired, (true, memory.state)⟩ = some w' ∧
        Watched (monitor party) post (next (true, memory.state)) w')
    (hfalse : ∀ memory, Fits party w memory → weak = true ∨ memory.state ≠ expected →
      Watched (monitor party) post (next (false, memory.state)) (w.seeState memory.state)) :
    Watched (monitor party) post (.op (.casState weak expected desired) next) w := by
  refine watched_op_iff.mpr ?_
  rintro reply ⟨memory, memory', hfits, hacts⟩
  cases hacts with
  | casState => exact htrue memory hfits rfl
  | casStateFails _ _ _ hfails =>
      refine ⟨_, observe_owner w _ _ ?_ rfl, hfalse memory hfits hfails⟩
      exact CoreWatch.observe_casState_fails _ _ _ _ _

theorem watched_casState {weak : Bool} {expected desired : State} {next : Bool × State → Code α}
    (hdesired : desired ≠ .running)
    (htrue : ∀ memory, Fits party w memory → memory.state = expected →
      ∃ w', w.moveState party expected desired = some w' ∧
        Watched (monitor party) post (next (true, memory.state)) w')
    (hfalse : ∀ memory, Fits party w memory → weak = true ∨ memory.state ≠ expected →
      Watched (monitor party) post (next (false, memory.state)) (w.seeState memory.state)) :
    Watched (monitor party) post (.op (.casState weak expected desired) next) w := by
  refine watched_exchangeState (fun memory hfits hstate => ?_) hfalse
  obtain ⟨w', hmove, hnext⟩ := htrue memory hfits hstate
  refine ⟨w', observe_owner w _ _ ?_ hmove, hnext⟩
  rw [core_moveState hmove]
  cases desired with
  | running => exact absurd rfl hdesired
  | _ => rfl

theorem watched_casOutcome {expected desired : TerminalOutcome}
    {next : Bool × TerminalOutcome → Code α}
    (htrue : ∀ memory, Fits party w memory → memory.outcome = expected →
      ∃ w', w.moveOutcome party expected desired = some w' ∧
        Watched (monitor party) post (next (true, memory.outcome)) w')
    (hfalse : ∀ memory, Fits party w memory →
      Watched (monitor party) post (next (false, memory.outcome)) (w.seeOutcome memory.outcome)) :
    Watched (monitor party) post (.op (.casOutcome expected desired) next) w := by
  refine watched_op_iff.mpr ?_
  rintro reply ⟨memory, memory', hfits, hacts⟩
  cases hacts with
  | casOutcome =>
      obtain ⟨w', hmove, hnext⟩ := htrue memory hfits rfl
      refine ⟨w', observe_owner w _ _ ?_ hmove, hnext⟩
      rw [core_moveOutcome hmove]
      rfl
  | casOutcomeFails =>
      exact ⟨w.seeOutcome memory.outcome, observe_owner w _ _ rfl rfl, hfalse memory hfits⟩

end Accesses

section Claims

variable {party : Party} {w : Watch}

/-- What a thread has seen of an outcome. -/
structure Saw (w : Watch) (outcome : TerminalOutcome) : Prop where
  claimed : outcome ≠ .openNone → w.claimed = true
  fatal : outcome.failure = true → w.fatal = true
  closed : TerminalOutcome.finalState outcome ≠ none → w.closed = true

theorem saw_seeOutcome (w : Watch) (outcome : TerminalOutcome) :
    Saw (w.seeOutcome outcome) outcome := by
  refine ⟨fun h => ?_, fun h => ?_, fun h => ?_⟩
  · simp [Watch.seeOutcome, h]
  · simp [Watch.seeOutcome, h]
  · simp [Watch.seeOutcome, Option.isSome_iff_ne_none.mpr h]

theorem watched_claimExternalStop :
    Watched (monitor party) (fun w' _ => frame w' = frame w ∧ w'.claimed = true)
      claimExternalStop w := by
  refine watched_iterate (fun w' outcome => frame w' = frame w ∧ Saw w' outcome)
    ⟨rfl, ⟨fun h => absurd rfl h, nofun, fun h => absurd rfl h⟩⟩ ?_
  rintro w' current ⟨hframe, hsaw⟩
  split
  · rename_i hcurrent
    exact watched_done_iff.mpr ⟨hframe, hsaw.claimed (by rw [hcurrent]; nofun)⟩
  split
  · rename_i hcurrent
    exact watched_done_iff.mpr ⟨hframe, hsaw.claimed hcurrent⟩
  rename_i hcurrent
  obtain rfl : current = .openNone := by simpa using hcurrent
  refine watched_casOutcome (fun memory _ _ => ⟨_, rfl, ?_⟩) fun memory _ => ?_
  · exact watched_done_iff.mpr ⟨hframe, (saw_seeOutcome w' .openExternal).claimed nofun⟩
  · exact watched_done_iff.mpr ⟨hframe, saw_seeOutcome w' memory.outcome⟩

theorem watched_claimFatal :
    Watched (monitor party) (fun w' claimed => frame w' = frame w ∧
      if claimed then w'.fatal = true ∧ w'.claimed = true else w'.closed = true)
      claimFatal w := by
  refine watched_loadOutcome fun memory _ => ?_
  refine watched_iterate (fun w' outcome => frame w' = frame w ∧ Saw w' outcome)
    ⟨rfl, saw_seeOutcome w memory.outcome⟩ ?_
  rintro w' current ⟨hframe, hsaw⟩
  split
  · rename_i hcurrent
    subst hcurrent
    exact watched_done_iff.mpr ⟨hframe, hsaw.fatal rfl, hsaw.claimed nofun⟩
  rename_i hpending
  split
  · rename_i hcurrent
    refine watched_done_iff.mpr ⟨hframe, hsaw.closed ?_⟩
    cases current <;> simp_all [TerminalOutcome.finalState]
  rename_i hcurrent
  have hopen : current = .openNone ∨ current = .openExternal := by
    by_contra h
    exact hcurrent ⟨fun h' => h (.inl h'), fun h' => h (.inr h')⟩
  refine watched_casOutcome (fun memory _ _ => ⟨_, if_pos hopen, ?_⟩) fun memory _ => ?_
  · have hsaw := saw_seeOutcome w' .fatalPending
    exact watched_done_iff.mpr ⟨hframe, hsaw.fatal rfl, hsaw.claimed nofun⟩
  · exact watched_done_iff.mpr ⟨hframe, saw_seeOutcome w' memory.outcome⟩

theorem watched_requestStop :
    Watched (monitor party) (fun w' result => frame w' = frame w ∧ (result = true → w'.stop = true))
      requestStop w := by
  refine watched_loadState fun memory _ => ?_
  refine watched_iterate (fun w' current => frame w' = frame w ∧
    (current = .stopRequested → w'.stop = true)) ⟨rfl, fun h => by simp [Watch.seeState, h]⟩ ?_
  rintro w' current ⟨hframe, hstop⟩
  split
  · exact watched_done_iff.mpr ⟨hframe, (by rintro ⟨⟩)⟩
  split
  · rename_i hcurrent
    exact watched_done_iff.mpr ⟨hframe, fun _ => hstop hcurrent⟩
  rename_i hrequested
  split
  · exact watched_done_iff.mpr ⟨hframe, (by rintro ⟨⟩)⟩
  rename_i hterminal hactive
  have hrank : State.rank current < 4 := by
    cases current <;> simp_all [State.rank]
  refine Watched.bind (watched_claimExternalStop.mono ?_)
  rintro w₁ claimed ⟨hframe₁, hclaimed⟩
  refine watched_casState (by rintro ⟨⟩) (fun memory _ _ => ⟨_, if_pos ⟨hrank, hclaimed⟩, ?_⟩)
    fun memory _ _ => ?_
  · exact watched_done_iff.mpr ⟨hframe₁.trans hframe, fun _ => rfl⟩
  · refine watched_done_iff.mpr ⟨hframe₁.trans hframe, fun h => ?_⟩
    simp [Watch.seeState, h]

theorem watched_markFailure :
    Watched (monitor party) (fun w' result => frame w' = frame w ∧
      if result then w'.fatal = true else w'.closed = true) markFailure w := by
  refine Watched.bind (watched_claimFatal.mono ?_)
  rintro w' claimed ⟨hframe, hclaim⟩
  cases claimed with
  | false => exact watched_done_iff.mpr ⟨hframe, hclaim⟩
  | true =>
      refine watched_loadState fun memory _ => ?_
      refine watched_iterate (fun w' _ => frame w' = frame w ∧ w'.fatal = true ∧ w'.claimed = true)
        ⟨hframe, hclaim⟩ ?_
      rintro w' current ⟨hframe, hfatal, hclaimed⟩
      split
      · exact watched_done_iff.mpr ⟨hframe, hfatal⟩
      split
      · exact watched_done_iff.mpr ⟨hframe, hfatal⟩
      rename_i hterminal hstopping
      split
      · rename_i hactive
        exfalso
        cases current <;> simp_all [State.active]
      have hrank : State.rank current < 4 := by
        cases current <;> simp_all [State.rank]
      refine watched_casState (by rintro ⟨⟩) (fun memory _ _ => ⟨_, if_pos ⟨hrank, hclaimed⟩, ?_⟩)
        fun memory _ _ => ?_
      · exact watched_done_iff.mpr ⟨hframe, hfatal⟩
      · exact watched_done_iff.mpr ⟨hframe, hfatal, hclaimed⟩

end Claims

section Owner

variable {w : Watch}

theorem watched_advance (expected desired : State) (hdesired : desired ≠ .running)
    (hrank : State.rank desired = State.rank expected + 1) (hbefore : State.rank desired < 4) :
    Watched (monitor .owner) (fun w' result =>
      if result then w.reached = State.rank expected ∧ w.ended = false ∧
        frame w' = frame { w with reached := State.rank desired }
      else frame w' = frame w) (advance expected desired) w := by
  refine watched_casState hdesired (fun memory hfits hstate => ?_) fun memory _ _ => ?_
  · have howner := hfits.owner rfl
    refine ⟨{ w with reached := State.rank desired }, ?_, watched_done_iff.mpr ⟨?_, ?_, rfl⟩⟩
    · cases desired with
      | initializing => exact if_pos ⟨rfl, hrank⟩
      | ready => exact if_pos ⟨rfl, hrank⟩
      | running => exact absurd rfl hdesired
      | created => exact absurd hrank (Nat.succ_ne_zero _).symm
      | _ => exact absurd hbefore (by decide)
    · have hreached := howner.reached
      rw [hstate] at hreached
      exact hreached (by omega)
    · rw [Bool.eq_false_iff, Ne, howner.ended, hstate]
      rintro (rfl | rfl) <;> exact absurd hbefore (by rw [hrank]; decide)
  · exact watched_done_iff.mpr rfl

theorem watched_beginRunning :
    Watched (monitor .owner) (fun w' result =>
      if result then w.reached = 2 ∧ w.stopping = false ∧ w.ended = false ∧
        frame w' = frame { w with
          reached := 3
          core := { w.core with running := true, due := w.core.observer, observed := false } }
      else frame w' = frame w) beginRunning w := by
  refine watched_exchangeState (fun memory hfits hstate => ?_) fun memory _ _ => ?_
  · have howner := hfits.owner rfl
    have hreached : w.reached = 2 := by
      have := howner.reached
      rw [hstate] at this
      exact this (by decide)
    have hrunning : ¬ w.core.running = true := by
      rw [howner.running, hreached]
      decide
    have hstopping : w.stopping = false := by
      rw [Bool.eq_false_iff, Ne, howner.stopping, hstate]
      nofun
    have hended : w.ended = false := by
      rw [Bool.eq_false_iff, Ne, howner.ended, hstate]
      rintro (h | h) <;> cases h
    refine ⟨{ w with
      reached := 3
      core := { w.core with running := true, due := w.core.observer, observed := false } }, ?_,
      watched_done_iff.mpr ⟨hreached, hstopping, hended, rfl⟩⟩
    simp [observe, CoreWatch.observe, hrunning, Watch.access, Watch.moveState, State.rank]
  · exact watched_done_iff.mpr rfl

/-- Behind a successful `begin_stopping` the state is `stopping`, else it is terminal. -/
theorem watched_beginStopping :
    Watched (monitor .owner) (fun w' result =>
      if result then frame w' = frame { w with stopping := true }
      else frame w' = frame w ∧ w.ended = true) beginStopping w := by
  have hfields : ∀ w', frame w' = frame w → w'.stopping = w.stopping ∧ w'.ended = w.ended := by
    intro w' hframe
    exact ⟨congrArg (·.stopping) hframe, congrArg (·.ended) hframe⟩
  refine watched_loadState fun memory hfits => ?_
  have hsaw : ∀ w' memory, frame w' = frame w → Fits .owner w' memory →
      (memory.state = .stopping → w.stopping = true) ∧
      (memory.state = .stopped ∨ memory.state = .failed → w.ended = true) := by
    intro w' memory hframe hfits
    obtain ⟨hstopping, hended⟩ := hfields w' hframe
    have howner := hfits.owner rfl
    rw [← hstopping, ← hended]
    exact ⟨howner.stopping.mpr, howner.ended.mpr⟩
  refine watched_iterate (fun w' current => frame w' = frame w ∧
    (current = .stopping → w.stopping = true) ∧
    (current = .stopped ∨ current = .failed → w.ended = true)) ⟨rfl, hsaw w memory rfl hfits⟩ ?_
  rintro w' current ⟨hframe, hstopping, hended⟩
  split
  · rename_i hcurrent
    refine watched_done_iff.mpr ?_
    change frame w' = frame { w with stopping := true }
    rw [hframe, ← hstopping hcurrent]
  rename_i hcurrent
  split
  · rename_i hterminal
    refine watched_done_iff.mpr ⟨hframe, hended ?_⟩
    cases current <;> simp_all [State.active]
  rename_i hactive
  have hrank : current.active = true := by
    cases current <;> simp_all [State.active]
  refine watched_casState nofun (fun memory _ _ => ⟨_, if_pos ⟨rfl, hrank⟩, ?_⟩)
    fun memory hfits _ => ?_
  · refine watched_done_iff.mpr ?_
    change frame { w' with stopping := true } = frame { w with stopping := true }
    have := congrArg (fun v : Watch => { v with stopping := true }) hframe
    exact this
  · exact watched_done_iff.mpr ⟨hframe, hsaw w' memory hframe hfits⟩

theorem moveOutcome_finalize {current desired : TerminalOutcome} {finalState : State}
    (hstopping : w.stopping = true) (h : finalize current = some (desired, finalState)) :
    w.moveOutcome .owner current desired =
      some { w.seeOutcome desired with final := some desired } := by
  cases current <;> simp_all [finalize] <;> obtain ⟨rfl, -⟩ := h <;>
    simp [Watch.moveOutcome, hstopping, finalize]

theorem moveState_publish {outcome : TerminalOutcome} {finalState : State}
    (h : TerminalOutcome.finalState outcome = some finalState) :
    { w with final := some outcome }.moveState .owner .stopping finalState =
      some { w with
        final := some outcome, stopping := false, ended := true, published := true } := by
  rcases finalState_terminal h with rfl | rfl <;> exact if_pos ⟨rfl, rfl, h⟩

/-- Between the owner's calls an outcome is final only if the state is terminal. -/
structure Idle (w : Watch) : Prop where
  published : w.published = false
  final : w.final ≠ none → w.ended = true

/-- `finish_cleanup` answers true when it has brought the state to its end, and it does so
whenever the state is `stopping`. -/
theorem watched_finishCleanup (hbehind : w.final ≠ none → w.ended = true) :
    Watched (monitor .owner) (fun w' result =>
      if result then w.stopping = true ∧ w'.published = true ∧ w'.stopping = false ∧
        w'.ended = true ∧ w'.core = w.core ∧ w'.reached = w.reached
      else w.stopping = false ∧ frame w' = frame w) finishCleanup w := by
  refine watched_loadState fun memory hfits => ?_
  have howner := hfits.owner rfl
  change Watched _ _ (if memory.state ≠ .stopping then _ else _) _
  split
  · rename_i hstate
    refine watched_done_iff.mpr ⟨?_, rfl⟩
    rw [Bool.eq_false_iff]
    exact fun h => hstate (howner.stopping.mp h)
  rename_i hstate
  have hstopping : w.stopping = true := howner.stopping.mpr (by simpa using hstate)
  have hended : w.ended = false := by
    rw [Bool.eq_false_iff]
    intro h
    rcases howner.ended.mp h with h | h <;> simp [h] at hstate
  have hfinal : w.final = none := by
    by_contra h
    simp [hbehind h] at hended
  have hopen : ∀ w' memory, frame w' = frame w → Fits .owner w' memory →
      TerminalOutcome.finalState memory.outcome = none := by
    intro w' memory hframe hfits
    by_contra h
    have h' := ((hfits.owner rfl).final memory.outcome).mpr ⟨rfl, h⟩
    rw [show w'.final = w.final from congrArg (·.final) hframe, hfinal] at h'
    cases h'
  refine watched_loadOutcome fun memory hfits => ?_
  refine watched_iterate (fun w' current => frame w' = frame w ∧
    TerminalOutcome.finalState current = none) ⟨rfl, hopen (w.seeState _) memory rfl hfits⟩ ?_
  rintro w' current ⟨hframe, hcurrent⟩
  obtain ⟨desired, finalState, hfinalize, hfinalState⟩ : ∃ desired finalState,
      finalize current = some (desired, finalState) ∧
      TerminalOutcome.finalState desired = some finalState := by
    cases current <;> simp_all [finalize, TerminalOutcome.finalState]
  have hstopping' : w'.stopping = true := (congrArg (·.stopping) hframe).trans hstopping
  simp only [hfinalize]
  refine watched_casOutcome (fun memory _ _ => ?_) fun memory hfits => ?_
  · refine ⟨_, moveOutcome_finalize hstopping' hfinalize, ?_⟩
    change Watched _ _ (Thread.op _ _) _
    refine watched_casState ?_ (fun memory _ _ => ?_) fun memory hfits hfails => ?_
    · rcases finalState_terminal hfinalState with rfl | rfl <;> rintro ⟨⟩
    · refine ⟨_, moveState_publish hfinalState, watched_done_iff.mpr ?_⟩
      exact ⟨hstopping, rfl, rfl, rfl, congrArg (·.core) hframe, congrArg (·.reached) hframe⟩
    · have hstate := (hfits.owner rfl).stopping.mp hstopping'
      simp [hstate] at hfails
  · exact watched_done_iff.mpr ⟨hframe, hopen w' memory hframe hfits⟩

end Owner

end EspNp2.NpRuntime.LifecycleCalls
