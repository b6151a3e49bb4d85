import EspNp2.NpRuntime.LifecycleMonitor

/-!
What holds of the two words in every interleaving.  `MemoryStep` says what a step can do to
them; what the threads know is kept by it.
-/

namespace EspNp2.NpRuntime.LifecycleInvariant

open Library.Concurrent
open Lifecycle
open LifecycleMonitor

section Steps

/-- What a step of a thread does to the two words. -/
inductive MemoryStep (memory : Memory) : Party → Memory → Prop
  | keep (party : Party) : MemoryStep memory party memory
  | advance {state : State} (hstate : State.rank state = State.rank memory.state + 1)
      (hbefore : State.rank state < 4) : MemoryStep memory .owner { memory with state := state }
  | request (party : Party) (hstate : State.rank memory.state < 4)
      (houtcome : memory.outcome = .openExternal ∨ memory.outcome = .fatalPending) :
      MemoryStep memory party { memory with state := .stopRequested }
  | stop (hstate : State.rank memory.state < 5) :
      MemoryStep memory .owner { memory with state := .stopping }
  | external (party : Party) (houtcome : memory.outcome = .openNone) :
      MemoryStep memory party { memory with outcome := .openExternal }
  | fatal (party : Party) (houtcome : memory.outcome = .openNone ∨ memory.outcome = .openExternal) :
      MemoryStep memory party { memory with outcome := .fatalPending }
  | finalize {outcome : TerminalOutcome} (hstate : memory.state = .stopping)
      (houtcome : (finalize memory.outcome).map Prod.fst = some outcome) :
      MemoryStep memory .owner { memory with outcome := outcome }
  | publish {state : State} (hstate : memory.state = .stopping)
      (houtcome : TerminalOutcome.finalState memory.outcome = some state) :
      MemoryStep memory .owner { memory with state := state }

variable {memory memory' : Memory} {party : Party} {w w' : Watch}

theorem finalState_finalize {outcome outcome' : TerminalOutcome}
    (h : (finalize outcome).map Prod.fst = some outcome') :
    TerminalOutcome.finalState outcome = none ∧ TerminalOutcome.finalState outcome' ≠ none ∧
      outcome'.failure = outcome.failure ∧ outcome' ≠ .openNone ∧
      (outcome' = .finalizedStoppedNone → outcome = .openNone) := by
  cases outcome <;> simp_all [finalize, TerminalOutcome.finalState, TerminalOutcome.failure] <;>
    subst h <;> simp

theorem finalState_terminal {outcome : TerminalOutcome} {state : State}
    (h : TerminalOutcome.finalState outcome = some state) :
    state = .stopped ∨ state = .failed := by
  cases outcome <;> simp_all [TerminalOutcome.finalState]

theorem stopRequested_iff {state : State} : stopRequested state = true ↔ 4 ≤ State.rank state := by
  cases state <;> decide

theorem active_iff {state : State} : state.active = true ↔ State.rank state < 5 := by
  cases state <;> decide

theorem rank_finalState {outcome : TerminalOutcome} {state : State}
    (h : TerminalOutcome.finalState outcome = some state) : State.rank state = 6 := by
  rcases finalState_terminal h with rfl | rfl <;> rfl

/-- The state only moves forward, and the terminal states are not left. -/
theorem MemoryStep.forward (h : MemoryStep memory party memory') :
    memory'.state = memory.state ∨ State.rank memory.state < State.rank memory'.state := by
  cases h with
  | keep => exact .inl rfl
  | external => exact .inl rfl
  | fatal => exact .inl rfl
  | finalize => exact .inl rfl
  | advance hstate => exact .inr (by simp only [hstate]; omega)
  | request _ hstate _ => exact .inr hstate
  | stop hstate => exact .inr hstate
  | publish hstate houtcome =>
      right
      simp only [rank_finalState houtcome, hstate]
      decide

theorem MemoryStep.rank_le (h : MemoryStep memory party memory') :
    State.rank memory.state ≤ State.rank memory'.state := by
  rcases h.forward with heq | hlt
  · exact Nat.le_of_eq (by rw [heq])
  · exact Nat.le_of_lt hlt

theorem MemoryStep.stopSettled (h : MemoryStep memory party memory') (hstop : StopSettled memory) :
    StopSettled memory' := by
  obtain ⟨hstate, hnone, hfinal⟩ := hstop
  have hstate' : stopRequested memory'.state = true :=
    stopRequested_iff.mpr (Nat.le_trans (stopRequested_iff.mp hstate) h.rank_le)
  refine ⟨hstate', ?_⟩
  cases h with
  | external _ h => exact absurd h hnone
  | fatal => exact ⟨nofun, nofun⟩
  | finalize h houtcome =>
      obtain ⟨-, -, -, hopen, hstopped⟩ := finalState_finalize houtcome
      exact ⟨hopen, fun heq => hnone (hstopped heq)⟩
  | _ => exact ⟨hnone, hfinal⟩

/-- What a thread knows stays true. -/
theorem MemoryStep.knows (h : MemoryStep memory party memory') (hknows : Knows w memory) :
    Knows w memory' := by
  refine ⟨fun hclaimed => ?_, fun hfatal => ?_, fun hclosed => ?_,
    fun hstop => h.stopSettled (hknows.stop hstop)⟩
  · have hnone := hknows.claimed hclaimed
    cases h with
    | external => exact nofun
    | fatal => exact nofun
    | finalize _ houtcome => exact (finalState_finalize houtcome).2.2.2.1
    | _ => exact hnone
  · have hfailure := hknows.fatal hfatal
    cases h with
    | external _ houtcome => simp [houtcome, TerminalOutcome.failure] at hfailure
    | fatal => rfl
    | finalize _ houtcome => exact (finalState_finalize houtcome).2.2.1.trans hfailure
    | _ => exact hfailure
  · have hfinal := hknows.closed hclosed
    cases h with
    | external _ houtcome => simp [houtcome, TerminalOutcome.finalState] at hfinal
    | fatal _ houtcome =>
        rcases houtcome with houtcome | houtcome <;>
          simp [houtcome, TerminalOutcome.finalState] at hfinal
    | finalize _ houtcome => exact (finalState_finalize houtcome).2.1
    | _ => exact hfinal

end Steps

section Sound

/-- How the two words fit together. -/
structure Sound (memory : Memory) : Prop where
  requested : memory.state = .stopRequested →
    memory.outcome = .openExternal ∨ memory.outcome = .fatalPending
  finalized : TerminalOutcome.finalState memory.outcome ≠ none → 5 ≤ State.rank memory.state
  terminal : memory.state = .stopped ∨ memory.state = .failed →
    TerminalOutcome.finalState memory.outcome = some memory.state

variable {memory memory' : Memory} {party : Party} {w w' : Watch}

theorem MemoryStep.sound (h : MemoryStep memory party memory') (hsound : Sound memory) :
    Sound memory' := by
  cases h with
  | keep => exact hsound
  | @advance state hstate hbefore =>
      refine ⟨?_, ?_, ?_⟩
      · rintro (rfl : state = .stopRequested)
        exact absurd hbefore (by decide)
      · intro hfinal
        have := hsound.finalized hfinal
        exact absurd hbefore (by omega)
      · rintro ((rfl : state = .stopped) | (rfl : state = .failed)) <;>
          exact absurd hbefore (by decide)
  | request _ hstate houtcome =>
      refine ⟨fun _ => houtcome, ?_, nofun⟩
      rcases houtcome with houtcome | houtcome <;>
        simp [houtcome, TerminalOutcome.finalState]
  | stop hstate => exact ⟨nofun, fun _ => Nat.le_refl 5, nofun⟩
  | external _ houtcome =>
      refine ⟨fun _ => .inl rfl, fun h => absurd rfl h, fun hterminal => ?_⟩
      have := hsound.terminal hterminal
      simp [houtcome, TerminalOutcome.finalState] at this
  | fatal _ houtcome =>
      refine ⟨fun _ => .inr rfl, fun h => absurd rfl h, fun hterminal => ?_⟩
      have := hsound.terminal hterminal
      rcases houtcome with houtcome | houtcome <;>
        simp [houtcome, TerminalOutcome.finalState] at this
  | finalize hstate houtcome =>
      refine ⟨?_, fun _ => ?_, ?_⟩
      · intro h
        simp [hstate] at h
      · simp [hstate, State.rank]
      · intro h
        simp [hstate] at h
  | publish hstate houtcome =>
      have hterminal := finalState_terminal houtcome
      refine ⟨?_, fun _ => ?_, fun _ => houtcome⟩
      · intro h
        simp_all
      · simp only [rank_finalState houtcome]
        decide

theorem ownerSees_request (hstate : State.rank memory.state < 4) (howner : OwnerSees w memory) :
    OwnerSees w { memory with state := .stopRequested } := by
  have hstopping : w.stopping = true ↔ State.stopRequested = .stopping := by
    rw [howner.stopping]
    constructor
    · intro h
      simp [h, State.rank] at hstate
    · nofun
  have hended : w.ended = true ↔ State.stopRequested = .stopped ∨ State.stopRequested =
    .failed := by
    rw [howner.ended]
    constructor
    · rintro (h | h) <;> simp [h, State.rank] at hstate
    · rintro (h | h) <;> cases h
  refine ⟨?_, nofun, hstopping, hended, howner.final, ?_, howner.behind⟩
  · exact Nat.le_trans howner.reached_le (Nat.le_of_lt hstate)
  · intro h
    simp [hended] at h

theorem ownerSees_claim {outcome : TerminalOutcome}
    (hbefore : TerminalOutcome.finalState memory.outcome = none)
    (hafter : TerminalOutcome.finalState outcome = none) (howner : OwnerSees w memory) :
    OwnerSees w { memory with outcome := outcome } := by
  refine { howner with final := fun final => ?_, terminal := howner.terminal }
  rw [howner.final]
  constructor
  · rintro ⟨rfl, h⟩
    exact absurd hbefore h
  · rintro ⟨rfl, h⟩
    exact absurd hafter h

/-- The owner's knowledge survives the steps of the others. -/
theorem MemoryStep.ownerSees {number : Nat} (h : MemoryStep memory (.helper number) memory')
    (howner : OwnerSees w memory) : OwnerSees w memory' := by
  generalize hparty : Party.helper number = party at h
  cases h with
  | keep => exact howner
  | request _ hstate _ => exact ownerSees_request hstate howner
  | external _ houtcome =>
      exact ownerSees_claim (by rw [houtcome]; rfl) rfl howner
  | fatal _ houtcome =>
      refine ownerSees_claim ?_ rfl howner
      rcases houtcome with houtcome | houtcome <;> rw [houtcome] <;> rfl
  | advance => cases hparty
  | stop => cases hparty
  | finalize => cases hparty
  | publish => cases hparty

end Sound

section Accesses

variable {memory memory' : Memory} {party : Party} {w w' : Watch}

/-- What an access keeps, seen from the thread that makes it. -/
structure Follows (memory : Memory) (party : Party) (w : Watch) (memory' : Memory) : Prop where
  step : MemoryStep memory party memory'
  knows : Knows w memory'
  owner : party = .owner → OwnerSees w memory'

theorem follows_keep (hknows : Knows w memory) (howner : party = .owner → OwnerSees w memory) :
    Follows memory party w memory :=
  ⟨.keep party, hknows, howner⟩

theorem follows_seeState (hsound : Sound memory) (hknows : Knows w memory)
    (howner : party = .owner → OwnerSees w memory) :
    Follows memory party (w.seeState memory.state) memory := by
  refine follows_keep { hknows with stop := fun hstop => ?_ } fun h => { howner h with }
  simp only [Watch.seeState, Bool.or_eq_true, decide_eq_true_eq] at hstop
  rcases hstop with hstop | hstop
  · exact hknows.stop hstop
  · refine ⟨by simp [hstop, stopRequested], ?_⟩
    rcases hsound.requested hstop with houtcome | houtcome <;> simp [houtcome]

theorem knows_seeOutcome (hknows : Knows w memory) :
    Knows (w.seeOutcome memory.outcome) memory := by
  refine { hknows with claimed := ?_, fatal := ?_, closed := ?_ }
  · intro h
    simp only [Watch.seeOutcome, Bool.or_eq_true, decide_eq_true_eq] at h
    exact h.elim hknows.claimed id
  · intro h
    simp only [Watch.seeOutcome, Bool.or_eq_true] at h
    exact h.elim hknows.fatal id
  · intro h
    simp only [Watch.seeOutcome, Bool.or_eq_true, Option.isSome_iff_ne_none] at h
    exact h.elim hknows.closed id

theorem follows_advance {desired : State} (hrank : State.rank desired = State.rank memory.state + 1)
    (hdesired : State.rank desired < 4) (hknows : Knows w memory) (howner : OwnerSees w memory) :
    Follows memory .owner { w with reached := State.rank desired }
      { memory with state := desired } := by
  have hstep : MemoryStep memory .owner { memory with state := desired } := .advance hrank hdesired
  have hbefore : State.rank memory.state < 4 := by omega
  have hstate : desired ≠ .stopping ∧ desired ≠ .stopped ∧ desired ≠ .failed := by
    refine ⟨?_, ?_, ?_⟩ <;> rintro rfl <;> exact absurd hdesired (by decide)
  have hended : w.ended = false := by
    rw [Bool.eq_false_iff]
    intro h
    rcases howner.ended.mp h with h | h <;> simp [h, State.rank] at hbefore
  refine ⟨hstep, { hstep.knows hknows with }, fun _ => ?_⟩
  refine { howner with
    reached_le := Nat.le_refl _
    reached := fun _ => rfl
    stopping := ?_
    ended := ?_
    terminal := ?_ }
  · rw [howner.stopping]
    refine ⟨fun h => ?_, fun h => absurd h hstate.1⟩
    simp [h, State.rank] at hbefore
  · simp [hended, hstate]
  · intro h
    rw [hended] at h
    cases h

theorem follows_request (hstate : State.rank memory.state < 4) (hclaimed : w.claimed = true)
    (hsound : Sound memory) (hknows : Knows w memory)
    (howner : party = .owner → OwnerSees w memory) :
    Follows memory party { w with stop := true } { memory with state := .stopRequested } := by
  have houtcome : memory.outcome = .openExternal ∨ memory.outcome = .fatalPending := by
    have hnone := hknows.claimed hclaimed
    have hfinal : TerminalOutcome.finalState memory.outcome = none := by
      by_contra h
      have := hsound.finalized h
      omega
    cases h : memory.outcome <;> simp_all [TerminalOutcome.finalState]
  have hstep : MemoryStep memory party { memory with state := .stopRequested } :=
    .request party hstate houtcome
  refine ⟨hstep, { hstep.knows hknows with stop := fun _ => ⟨rfl, ?_⟩ }, fun h => ?_⟩
  · rcases houtcome with h | h <;> simp [h]
  · exact { ownerSees_request hstate (howner h) with }

theorem follows_stop (hstate : State.rank memory.state < 5) (hknows : Knows w memory)
    (howner : OwnerSees w memory) :
    Follows memory .owner { w with stopping := true } { memory with state := .stopping } := by
  have hstep : MemoryStep memory .owner { memory with state := .stopping } := .stop hstate
  have hended : w.ended = false := by
    rw [Bool.eq_false_iff]
    intro h
    rcases howner.ended.mp h with h | h <;> simp [h, State.rank] at hstate
  refine ⟨hstep, { hstep.knows hknows with }, fun _ => ?_⟩
  exact { howner with
    reached_le := Nat.le_trans howner.reached_le (Nat.le_of_lt hstate)
    reached := nofun
    stopping := ⟨fun _ => rfl, fun _ => rfl⟩
    ended := by simp [hended]
    terminal := by simp [hended]
    behind := fun _ => .inl rfl }

theorem follows_publish {desired : State} (hstate : memory.state = .stopping)
    (hfinal : w.final.bind TerminalOutcome.finalState = some desired) (hknows : Knows w memory)
    (howner : OwnerSees w memory) :
    Follows memory .owner { w with stopping := false, ended := true, published := true }
      { memory with state := desired } := by
  obtain ⟨outcome, houtcome, hdesired⟩ := Option.bind_eq_some_iff.mp hfinal
  obtain ⟨rfl, -⟩ := (howner.final outcome).mp houtcome
  have hstep : MemoryStep memory .owner { memory with state := desired } :=
    .publish hstate hdesired
  have hrank := rank_finalState hdesired
  have hterminal := finalState_terminal hdesired
  have hreached := howner.reached_le
  rw [hstate] at hreached
  refine ⟨hstep, { hstep.knows hknows with }, fun _ => ?_⟩
  exact { howner with
    reached_le := by
      change w.reached ≤ State.rank desired
      rw [hrank]
      exact Nat.le_succ_of_le hreached
    reached := by
      intro h
      change State.rank desired < 4 at h
      omega
    stopping := by
      constructor
      · nofun
      · rintro (rfl : desired = .stopping)
        simp at hterminal
    ended := ⟨fun _ => hterminal, fun _ => rfl⟩
    terminal := fun _ => hfinal
    behind := fun _ => .inr rfl }

theorem follows_moveState {desired : State} (hsound : Sound memory) (hknows : Knows w memory)
    (howner : party = .owner → OwnerSees w memory)
    (hmove : w.moveState party memory.state desired = some w') :
    Follows memory party w' { memory with state := desired } := by
  cases desired with
  | created => cases hmove
  | stopRequested =>
      obtain ⟨⟨hstate, hclaimed⟩, ⟨⟩⟩ := Option.ite_none_right_eq_some.mp hmove
      exact follows_request hstate hclaimed hsound hknows howner
  | stopping =>
      obtain ⟨⟨rfl, hactive⟩, ⟨⟩⟩ := Option.ite_none_right_eq_some.mp hmove
      exact follows_stop (active_iff.mp hactive) hknows (howner rfl)
  | stopped =>
      obtain ⟨⟨rfl, hstate, hfinal⟩, ⟨⟩⟩ := Option.ite_none_right_eq_some.mp hmove
      exact follows_publish hstate hfinal hknows (howner rfl)
  | failed =>
      obtain ⟨⟨rfl, hstate, hfinal⟩, ⟨⟩⟩ := Option.ite_none_right_eq_some.mp hmove
      exact follows_publish hstate hfinal hknows (howner rfl)
  | _ =>
      obtain ⟨⟨rfl, hrank⟩, ⟨⟩⟩ := Option.ite_none_right_eq_some.mp hmove
      exact follows_advance hrank (by decide) hknows (howner rfl)

theorem follows_claim {outcome : TerminalOutcome}
    (hstep : MemoryStep memory party { memory with outcome := outcome })
    (hbefore : TerminalOutcome.finalState memory.outcome = none)
    (hafter : TerminalOutcome.finalState outcome = none) (hknows : Knows w memory)
    (howner : party = .owner → OwnerSees w memory) :
    Follows memory party (w.seeOutcome outcome) { memory with outcome := outcome } := by
  refine ⟨hstep, knows_seeOutcome (hstep.knows hknows), fun h => ?_⟩
  exact { ownerSees_claim hbefore hafter (howner h) with }

theorem follows_finalize {outcome : TerminalOutcome} (hstopping : w.stopping = true)
    (houtcome : (finalize memory.outcome).map Prod.fst = some outcome) (hknows : Knows w memory)
    (howner : OwnerSees w memory) :
    Follows memory .owner { w.seeOutcome outcome with final := some outcome }
      { memory with outcome := outcome } := by
  have hstate := howner.stopping.mp hstopping
  have hstep : MemoryStep memory .owner { memory with outcome := outcome } :=
    .finalize hstate houtcome
  have hended : w.ended = false := by
    rw [Bool.eq_false_iff]
    intro h
    rcases howner.ended.mp h with h | h <;> simp [h] at hstate
  refine ⟨hstep, { knows_seeOutcome (hstep.knows hknows) with }, fun _ => ?_⟩
  exact { howner with
    final := by
      intro final
      constructor
      · rintro ⟨⟩
        exact ⟨rfl, (finalState_finalize houtcome).2.1⟩
      · rintro ⟨rfl, -⟩
        rfl
    terminal := by simp [Watch.seeOutcome, hended]
    behind := fun _ => .inl hstopping }

theorem follows_moveOutcome {desired : TerminalOutcome} (hknows : Knows w memory)
    (howner : party = .owner → OwnerSees w memory)
    (hmove : w.moveOutcome party memory.outcome desired = some w') :
    Follows memory party w' { memory with outcome := desired } := by
  cases desired with
  | openNone => cases hmove
  | openExternal =>
      obtain ⟨houtcome, ⟨⟩⟩ := Option.ite_none_right_eq_some.mp hmove
      exact follows_claim (.external party houtcome) (by rw [houtcome]; rfl) rfl hknows howner
  | fatalPending =>
      obtain ⟨houtcome, ⟨⟩⟩ := Option.ite_none_right_eq_some.mp hmove
      refine follows_claim (.fatal party houtcome) ?_ rfl hknows howner
      rcases houtcome with h | h <;> rw [h] <;> rfl
  | _ =>
      obtain ⟨⟨rfl, hstopping, houtcome⟩, ⟨⟩⟩ := Option.ite_none_right_eq_some.mp hmove
      exact follows_finalize hstopping houtcome hknows (howner rfl)

theorem follows_answer {call : LifecycleCall} {result : Bool} (hknows : Knows w memory)
    (howner : party = .owner → OwnerSees w memory) (hanswer : w.answer call result = some w') :
    Follows memory party w' memory := by
  have hsame : w' = w ∨ w' = { w with published := false } := by
    revert hanswer
    fun_cases Watch.answer w call result <;> intro h <;> simp_all
  rcases hsame with rfl | rfl
  · exact follows_keep hknows howner
  · exact follows_keep { hknows with } fun h => { howner h with }

/-- The one lemma about a step: what it does to the words, and what its thread then knows. -/
theorem follows_access {request : Op} {reply : Result request} (hsound : Sound memory)
    (hknows : Knows w memory) (howner : party = .owner → OwnerSees w memory)
    (hacts : Acts memory request reply memory')
    (haccess : w.access party ⟨request, reply⟩ = some w') : Follows memory party w' memory' := by
  cases hacts with
  | loadState =>
      obtain rfl := Option.some.inj haccess
      exact follows_seeState hsound hknows howner
  | loadOutcome =>
      obtain rfl := Option.some.inj haccess
      exact follows_keep (knows_seeOutcome hknows) fun h => { howner h with }
  | casState weak desired => exact follows_moveState hsound hknows howner haccess
  | casStateFails weak expected desired hfails =>
      obtain rfl := Option.some.inj haccess
      exact follows_seeState hsound hknows howner
  | casOutcome desired => exact follows_moveOutcome hknows howner haccess
  | casOutcomeFails expected desired =>
      obtain rfl := Option.some.inj haccess
      exact follows_keep (knows_seeOutcome hknows) fun h => { howner h with }
  | finishCall call result => exact follows_answer hknows howner haccess
  | finishRuntimeCall call result =>
      obtain ⟨-, ⟨⟩⟩ := Option.ite_none_right_eq_some.mp haccess
      exact follows_keep hknows howner
  | _ =>
      obtain rfl := Option.some.inj haccess
      exact follows_keep hknows howner

end Accesses

section Agreement

variable {memory memory' : Memory} {watches : Party → Watch}

/-- The words are sound, and what the threads know is true of them. -/
structure Agreed (memory : Memory) (watches : Party → Watch) : Prop where
  sound : Sound memory
  knows : ∀ party, Knows (watches party) memory
  owner : OwnerKnows (watches .owner) memory

theorem agreed_initial : Agreed {} fun _ => {} := by
  refine ⟨⟨nofun, fun h => absurd rfl h, ?_⟩, fun _ => ⟨nofun, nofun, nofun, nofun⟩, ?_⟩
  · rintro (h | h) <;> cases h
  · refine ⟨⟨Nat.le_refl _, fun _ => rfl, ?_, ?_, ?_, nofun, fun h => absurd rfl h⟩, ?_⟩
    · constructor <;> nofun
    · constructor
      · nofun
      · rintro (h | h) <;> cases h
    · intro outcome
      constructor
      · nofun
      · rintro ⟨rfl, h⟩
        exact absurd rfl h
    · constructor
      · nofun
      · intro h
        exact absurd h (by decide)

theorem reached_moveState {w w' : Watch} {party : Party} {expected desired : State}
    (h : w.moveState party expected desired = some w') :
    State.rank desired < 4 ∧ State.rank desired = State.rank expected + 1 ∧
        w'.reached = State.rank desired ∨
      desired ≠ .running ∧ w'.reached = w.reached := by
  cases desired with
  | created => cases h
  | stopRequested =>
      obtain ⟨-, ⟨⟩⟩ := Option.ite_none_right_eq_some.mp h
      exact .inr ⟨nofun, rfl⟩
  | stopping =>
      obtain ⟨-, ⟨⟩⟩ := Option.ite_none_right_eq_some.mp h
      exact .inr ⟨nofun, rfl⟩
  | stopped =>
      obtain ⟨-, ⟨⟩⟩ := Option.ite_none_right_eq_some.mp h
      exact .inr ⟨nofun, rfl⟩
  | failed =>
      obtain ⟨-, ⟨⟩⟩ := Option.ite_none_right_eq_some.mp h
      exact .inr ⟨nofun, rfl⟩
  | _ =>
      obtain ⟨⟨-, hrank⟩, ⟨⟩⟩ := Option.ite_none_right_eq_some.mp h
      exact .inl ⟨by decide, hrank, rfl⟩

theorem reached_moveOutcome {w w' : Watch} {party : Party} {expected desired : TerminalOutcome}
    (h : w.moveOutcome party expected desired = some w') : w'.reached = w.reached := by
  cases desired with
  | openNone => cases h
  | _ =>
      obtain ⟨-, ⟨⟩⟩ := Option.ite_none_right_eq_some.mp h
      rfl

theorem running_casState {w : CoreWatch} {core : CoreWatch} {weak : Bool} {expected desired : State}
    {found : State} (h : w.observe ⟨.casState weak expected desired, (true, found)⟩ = some core) :
    desired = .running ∧ core.running = true ∨ desired ≠ .running ∧ core = w := by
  cases desired with
  | running =>
      obtain ⟨-, ⟨⟩⟩ := Option.ite_none_left_eq_some.mp h
      exact .inl ⟨rfl, rfl⟩
  | _ => exact .inr ⟨nofun, (Option.some.inj h).symm⟩

/-- The owner reaches `running` in the step in which the core is told so. -/
theorem running_access {w w' : Watch} {core : CoreWatch} {request : Op} {reply : Result request}
    (howner : OwnerKnows w memory) (hacts : Acts memory request reply memory')
    (hcore : w.core.observe ⟨request, reply⟩ = some core)
    (haccess : w.access .owner ⟨request, reply⟩ = some w') :
    core.running = true ↔ 3 ≤ w'.reached := by
  have hrunning := howner.running
  cases hacts with
  | casState weak desired =>
      have hmove : w.moveState .owner memory.state desired = some w' := haccess
      rcases running_casState hcore with ⟨rfl, htrue⟩ | ⟨hdesired, rfl⟩
      · rcases reached_moveState hmove with ⟨-, -, hreached⟩ | ⟨h, -⟩
        · simp [htrue, hreached, State.rank]
        · exact absurd rfl h
      · rcases reached_moveState hmove with ⟨hlt, hrank, hreached⟩ | ⟨-, hreached⟩
        · have hw := howner.reached (by omega)
          have : State.rank desired ≠ 3 := by
            intro h
            cases desired <;> simp_all [State.rank]
          rw [hrunning]
          omega
        · rw [hrunning, hreached]
  | casStateFails weak expected desired hfails =>
      obtain rfl := Option.some.inj haccess
      rw [CoreWatch.observe_casState_fails] at hcore
      obtain rfl := Option.some.inj hcore
      exact hrunning
  | casOutcome desired =>
      obtain rfl := Option.some.inj hcore
      rw [hrunning, reached_moveOutcome haccess]
  | finishCall call result =>
      obtain rfl := Option.some.inj hcore
      have hanswer : w.answer call result = some w' := haccess
      rw [hrunning]
      revert hanswer
      fun_cases Watch.answer w call result <;> intro h <;> simp_all
      rw [← h]
  | beginRuntimeCall call =>
      obtain rfl := Option.some.inj haccess
      cases call with
      | run observer =>
          obtain rfl := Option.some.inj hcore
          exact hrunning
      | _ =>
          obtain rfl := Option.some.inj hcore
          exact hrunning
  | finishRuntimeCall call result =>
      obtain ⟨-, ⟨⟩⟩ := Option.ite_none_right_eq_some.mp haccess
      cases call with
      | destroy =>
          obtain ⟨-, ⟨⟩⟩ := Option.ite_none_right_eq_some.mp hcore
          exact hrunning
      | _ =>
          obtain rfl := Option.some.inj hcore
          exact hrunning
  | pccoreInit =>
      obtain rfl := Option.some.inj haccess
      obtain ⟨-, ⟨⟩⟩ := Option.ite_none_right_eq_some.mp hcore
      exact hrunning
  | pccoreReset =>
      obtain rfl := Option.some.inj haccess
      obtain ⟨-, ⟨⟩⟩ := Option.ite_none_right_eq_some.mp hcore
      exact hrunning
  | pccoreExec =>
      obtain rfl := Option.some.inj haccess
      obtain ⟨-, ⟨⟩⟩ := Option.ite_none_right_eq_some.mp hcore
      exact hrunning
  | pccoreTerm =>
      obtain rfl := Option.some.inj haccess
      obtain ⟨-, ⟨⟩⟩ := Option.ite_none_right_eq_some.mp hcore
      exact hrunning
  | _ =>
      obtain rfl := Option.some.inj haccess
      obtain rfl := Option.some.inj hcore
      exact hrunning

theorem agreed_step {party : Party} {request : Op} {reply : Result request} {w : Watch}
    (h : Agreed memory watches) (hacts : Acts memory request reply memory')
    (hobserve : observe party (watches party) ⟨request, reply⟩ = some w) :
    MemoryStep memory party memory' ∧ Agreed memory' (Function.update watches party w) := by
  have hfollows : Follows memory party w memory' ∧
      (party = .owner → OwnerKnows w memory') := by
    cases party with
    | helper number =>
        exact ⟨follows_access h.sound (h.knows _) nofun hacts hobserve, nofun⟩
    | owner =>
        obtain ⟨core, hcore, hobserve⟩ := Option.bind_eq_some_iff.mp hobserve
        obtain ⟨w, haccess, ⟨⟩⟩ := Option.bind_eq_some_iff.mp hobserve
        have hfollows := follows_access h.sound (h.knows .owner) (fun _ => h.owner.toOwnerSees)
          hacts haccess
        have hsees := hfollows.owner rfl
        refine ⟨⟨hfollows.step, { hfollows.knows with }, fun _ => { hsees with }⟩, fun _ => ?_⟩
        have hrunning := running_access h.owner hacts hcore haccess
        exact { hsees with running := hrunning }
  obtain ⟨⟨hstep, hknows, -⟩, howner⟩ := hfollows
  refine ⟨hstep, hstep.sound h.sound, fun other => ?_, ?_⟩
  · by_cases hother : other = party
    · subst hother
      simpa using hknows
    · simpa [hother] using hstep.knows (h.knows other)
  · cases party with
    | owner => simpa using howner rfl
    | helper number =>
        have hsees := hstep.ownerSees h.owner.toOwnerSees
        simpa using { hsees with running := h.owner.running : OwnerKnows _ _ }

end Agreement


end EspNp2.NpRuntime.LifecycleInvariant
