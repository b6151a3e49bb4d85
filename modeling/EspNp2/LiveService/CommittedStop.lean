import EspNp2.LiveService.CheckpointSession
import EspNp2.LiveService.OwnerInvariant
import EspNp2.LiveService.OpenRunStop

/-!
A stop that does not break an open run. If the checkpoint comes to its finalization with no run
open, the run of the guest is committed with all its bytes, the last frame is published as the
final horizon, and nothing fails.
-/

namespace EspNp2.LiveService.CommittedStop

open EspNp2.GuestAdapter.AdapterOperations
open EspNp2.GuestAdapter.SinkBinding (healthy)
open EspNp2.Library.Concurrent
open EspNp2.Library.LabelledRun
open EspNp2.LiveService.CheckpointSession
open EspNp2.LiveService.FailureCause
open EspNp2.LiveService.ForeignThreads
open EspNp2.LiveService.Lifecycle
open EspNp2.LiveService.LifecycleMonitor (LiveState.late Watch)
open EspNp2.LiveService.LiveSystem
open EspNp2.LiveService.OwnerInvariant
open EspNp2.LiveService.OwnerSession
open EspNp2.LiveService.OwnerThread
open EspNp2.LiveService.Quiescence
open EspNp2.LiveService.ServiceMemory
open EspNp2.LiveService.Transport

section Statement

/-- No thread but the owner reports a failure, and the worker awaits `draining` before it tries its
clean end. -/
def Undisturbed (memory : Memory) (label : LiveLabel) : Bool :=
  AwaitsDraining memory label && (mark label.1 label.2 ≠ .wins || label.1 = .owner)

/-- A stop that is accepted. -/
def accepted (index : Nat) (state : LiveState) : LiveLabel :=
  (.control index, ⟨.compareExchangeWeak .state state .stopRequested, true⟩)

/-- The open run of the story before is committed in the story after, as the only event, and the
run is finalized. -/
structure Committed (before after : Story) (labels : List LiveLabel) (memory : Memory) : Prop where
  event : ∃ event count, after.events = before.events ++ [(event, count)] ∧ event.opcode = 3 ∧
    event.payload.toNat = count ∧ before.bytes ≤ count ∧
      event.frameTimestamp ≤ memory .horizonFrame
  sequence : memory .finalHorizonSequence = 2
  low : memory .finalHorizonLow = (memory .horizonFrame).toUInt32
  high : memory .finalHorizonHigh = (memory .horizonFrame >>> 32).toUInt32
  state : memory .state = .draining ∨ memory .state = .stoppedQuiescent ∨ memory .state = .destroyed
  unfailed : ∀ party, (party, .wins) ∉ marks labels

end Statement

section Account

variable {labels : List LiveLabel} {memory memory' : Memory} {watches : Party → Watch}
  {sides : Party → Side} {w : Session} {watch' : Watch} {party : Party} {request : Op}
  {reply : Result request} {service later : Service}

/-- What the session has to do with the run, whatever has become of the owner. -/
structure Account (labels : List LiveLabel) (memory : Memory) (w : Session) : Prop where
  story : w.toStory = story labels
  wins : ∀ party, (party, .wins) ∈ marks labels → party = .owner ∧ w.lost = true
  past : w.lost = true ∨ w.drained = true ∨ w.completed = true →
    LiveState.past (memory .state) = true
  completed : w.completed = true → ∀ c state, w.call = some c → c.first = some state →
    LiveState.past state = true
  lost : w.refused = false → w.lost = true → ∀ c, w.call = some c → c.spared = true →
    w.excused = true ∨ healthy c.adapter = false

theorem account_started : Account [] startedMemory {} := by
  constructor <;> simp [story, marks]

theorem story_snoc (labels : List LiveLabel) (label : LiveLabel) : story (labels ++ [label]) =
    if label.1 = .owner then (story labels).tell label.2 else story labels := by
  rw [story, List.foldl_append]
  rfl

theorem marks_snoc (labels : List LiveLabel) (label : LiveLabel) :
    marks (labels ++ [label]) = marks labels ++ [(label.1, mark label.1 label.2)] := by
  simp [marks]

theorem Account.foreign (h : Account labels memory w) (hparty : party ≠ .owner)
    (hmark : mark party ⟨request, reply⟩ ≠ .wins)
    (hturn : Turn party (watches party) (life memory) (mark party ⟨request, reply⟩) watch'
      (life memory')) : Account (labels ++ [(party, ⟨request, reply⟩)]) memory' w where
  story := by
    rw [story_snoc, if_neg hparty]
    exact h.story
  wins p hp := by
    rw [marks_snoc] at hp
    rcases List.mem_append.mp hp with hbefore | hlast
    · exact h.wins p hbefore
    · obtain ⟨-, hwins⟩ : p = party ∧ Mark.wins = mark party ⟨request, reply⟩ := by
        simpa using hlast
      exact absurd hwins.symm hmark
  past hpast := Turn.past_state hturn (h.past hpast)
  completed := h.completed
  lost := h.lost

theorem spared_not_past {c : CheckpointCall} (h : c.spared = true) :
    ∃ state, c.first = some state ∧ LiveState.past state = false := by
  obtain ⟨state, hstate, hcond⟩ := Option.any_eq_true _ _ |>.mp h
  refine ⟨state, hstate, ?_⟩
  simp only [Bool.or_eq_true, Bool.and_eq_true, decide_eq_true_eq] at hcond
  rcases hcond with rfl | ⟨rfl, -⟩ <;> rfl

theorem completed_tell (w : Session) (label : OpLabel) (h : (tell w label).completed = true) :
    w.completed = true ∨ w.drained = true ∧ (tell w label).call = none := by
  change (advance w label).completed = true at h
  unfold advance at h
  split at h <;> first | exact .inl h | skip
  · exact .inl ((learn_fields w _ _).2.2.2.1.symm.trans h)
  · exact .inl ((write_fields w _ _).2.2.2.1.symm.trans h)
  · exact (Bool.or_eq_true_iff.mp h).imp id fun hdrained => ⟨hdrained, rfl⟩

/-- The owner's step, which is accepted as long as something is asked of the owner. -/
theorem Account.owner (h : Account labels memory w)
    (haccepts : w.gone = true ∨ accepts w ⟨request, reply⟩ = true)
    (hacts : Acts memory request reply memory')
    (hturn : Turn .owner (watches .owner) (life memory) (mark .owner ⟨request, reply⟩) watch'
      (life memory')) :
    Account (labels ++ [(.owner, ⟨request, reply⟩)]) memory' (tell w ⟨request, reply⟩) where
  story := by
    rw [story_snoc, if_pos rfl, ← h.story]
    rfl
  wins p hp := by
    rw [marks_snoc] at hp
    rcases List.mem_append.mp hp with hbefore | hlast
    · obtain ⟨rfl, hlost⟩ := h.wins p hbefore
      exact ⟨rfl, (tell_keeps w _).2.2.1 hlost⟩
    · obtain ⟨rfl, hwins⟩ : p = .owner ∧ Mark.wins = mark .owner ⟨request, reply⟩ := by
        simpa using hlast
      exact ⟨rfl, lost_of_wins w hwins.symm⟩
  past := by
    have hbefore : w.lost = true ∨ w.drained = true ∨ w.completed = true →
        LiveState.past (memory' .state) = true := fun hpast => Turn.past_state hturn (h.past hpast)
    rintro (hlost | hdrained | hcompleted)
    · rcases lost_tell w _ hlost with hlost | hwins
      · exact hbefore (.inl hlost)
      · exact past_of_wins hacts hwins
    · rcases drained_tell w _ hdrained with hdrained | heq
      · exact hbefore (.inr (.inl hdrained))
      · cases heq
        rcases hacts with ⟨-, -, rfl⟩ | ⟨hdone, -⟩
        · rfl
        · cases hdone
    · rcases completed_tell w _ hcompleted with hcompleted | ⟨hdrained, -⟩
      · exact hbefore (.inr (.inr hcompleted))
      · exact hbefore (.inr (.inl hdrained))
  completed := by
    intro hcompleted c' state hc' hfirst
    rcases completed_tell w _ hcompleted with hcompleted | ⟨-, hnone⟩
    · rcases call_tell w _ hc' with ⟨hc, -⟩ | ⟨c, value, heq, hc, rfl⟩ | hnone
      · exact h.completed hcompleted c' state hc hfirst
      · cases heq
        cases hread : c.first with
        | none =>
            obtain rfl : value = state := by simpa [CheckpointCall.read, hread] using hfirst
            rw [hacts.1]
            exact h.past (.inr (.inr hcompleted))
        | some first =>
            obtain rfl : first = state := by simpa [CheckpointCall.read, hread] using hfirst
            exact h.completed hcompleted c first hc hread
      · rw [hnone] at hfirst
        cases hfirst
    · rw [hnone] at hc'
      cases hc'
  lost := by
    intro hrefused hlost c' hc' hspared
    have hrefused' : w.refused = false := by
      rw [Bool.eq_false_iff]
      exact fun h => absurd (hrefused.symm.trans (refused_tell h _)) (by simp)
    obtain ⟨state, hstate, hpast⟩ := spared_not_past hspared
    by_cases hbefore : w.lost = true
    · rcases call_tell w _ hc' with ⟨hc, hkeeps⟩ | ⟨c, value, heq, hc, rfl⟩ | hnone
      · exact (h.lost hrefused' hbefore c' hc hspared).imp hkeeps id
      · cases heq
        cases hread : c.first with
        | none =>
            obtain rfl : value = state := by simpa [CheckpointCall.read, hread] using hstate
            rw [hacts.1, h.past (.inl hbefore)] at hpast
            cases hpast
        | some first =>
            have hsame : c.read value = c := by
              cases c
              cases hread
              rfl
            rw [hsame] at hspared ⊢
            exact (h.lost hrefused' hbefore c hc hspared).imp (grows_load w .state value).excused id
      · rw [hnone] at hstate
        cases hstate
    · obtain ⟨expected, heq⟩ := wins_iff.mp ((lost_tell w _ hlost).resolve_left hbefore)
      cases heq
      rcases haccepts with hgone | hexcusable
      · simp only [Session.gone, Bool.or_eq_true, hrefused', Bool.false_eq_true, or_false] at hgone
        have hcompleted := hgone.resolve_left hbefore
        rw [h.completed hcompleted c' state hc' hstate] at hpast
        cases hpast
      · have hcause : w.excusable = true := hexcusable
        rw [Session.excusable, show w.call = some c' from hc'] at hcause
        have hexcused : w.excused = true ∨ healthy c'.adapter = false := by
          simpa [hspared] using hcause
        exact hexcused.imp (excused_tell (fun _ => by simp) fun _ => by simp).trans id

end Account

section Runs

variable {labels : List LiveLabel} {memory memory' : Memory} {watches : Party → Watch}
  {sides : Party → Side} {w : Session} {watch' : Watch} {party : Party} {request : Op}
  {reply : Result request} {service later : Service} {label : LiveLabel}

/-- Everything that is known of a service in a run. -/
structure Tracked (labels : List LiveLabel) (service : Service) (watches : Party → Watch)
    (sides : Party → Side) (w : Session) : Prop where
  followed : Followed labels service watches
  caused : Caused (life service.state) watches
  owner : Watched session (fun _ _ => True) (service.threads .owner) w
  foreign : ∀ party, party ≠ .owner →
    Watched (foreign party) (fun _ _ => True) (service.threads party) (sides party)
  account : Account labels service.state w
  mirrors : w.gone = false → Mirrors service.state w sides

theorem tracked_started (calls : Calls) {actions : List OwnerAction}
    (hactions : calls.owner = .attachGuest :: actions) (hfresh : Fresh calls.adapter) :
    Tracked [] (started calls) (fun _ => {}) (fun _ => {}) {} where
  followed := followed_started calls
  caused := by
    constructor <;> simp [life, started, startedMemory, LiveState.failed]
  owner := by
    change Watched session _ (ownerRun calls.owner ⟨calls.adapter, {}⟩) {}
    rw [hactions]
    exact watched_ownerRun hfresh
  foreign party hparty := watched_foreign calls party hparty
  account := account_started
  mirrors _ := mirrors_started

/-- What the owner's session makes of a step. -/
def Heard (w w' : Session) (label : LiveLabel) : Prop :=
  (label.1 = .owner → w' = tell w label.2 ∧ (w.gone = true ∨ accepts w label.2 = true)) ∧
    (label.1 ≠ .owner → w' = w)

theorem Account.unwon (h : Account labels memory w) (hsound : Sound labels memory watches)
    (hopen : w.gone = false) : ¬ Won watches := by
  rintro ⟨party, hfatal⟩
  obtain ⟨-, hlost⟩ := h.wins party ((hsound.history.won party).mp hfatal)
  simp [Session.gone, hlost] at hopen

theorem Tracked.undone (h : Tracked labels service watches sides w) (hopen : w.gone = false) :
    Undone labels service.state watches :=
  ⟨h.followed.1, h.caused, h.account.unwon h.followed.1 hopen⟩

theorem not_gone {label : OpLabel} (h : (tell w label).gone = false) : w.gone = false := by
  rw [Bool.eq_false_iff]
  intro hgone
  simp [gone_tell hgone label] at h

theorem Tracked.step (h : Tracked labels service watches sides w)
    (hstep : StepIf Acts (fun memory label => Undisturbed memory label = true) service
      label later) :
    ∃ watches' sides' w', Tracked (labels ++ [label]) later watches' sides' w' ∧ Heard w w' label ∧
      (LiveState.late (service.state .state) = true →
        LiveState.late (later.state .state) = true) := by
  obtain ⟨hallowed, hlive⟩ := hstep
  obtain ⟨hawaits, hwins⟩ := Bool.and_eq_true_iff.mp hallowed
  obtain ⟨watch', hobserve, hfollowed, hended, hturn⟩ := h.followed.step hlive
  have hcaused :=
    h.caused.turn h.followed.1.latch h.followed.1.course h.followed.1.binding hended hturn
    fun hmark => awaits_of_misses hawaits (Turn.worker_of_misses (hmark ▸ hturn)) hmark
  cases hlive with
  | @op party request rest reply memory' hnext hacts =>
      have hmark : party ≠ .owner → mark party ⟨request, reply⟩ ≠ .wins := by
        intro hparty hmark
        simp [hmark, hparty] at hwins
      by_cases hparty : party = .owner
      · subst hparty
        have hexpects : expects w ⟨request, reply⟩ := by
          intro hopen
          exact (h.mirrors hopen).expects hacts hopen
        obtain ⟨w', hw', hrest⟩ := h.owner.next hnext reply hexpects
        obtain ⟨haccepts, rfl⟩ : (w.gone = true ∨ accepts w ⟨request, reply⟩ = true) ∧
            tell w ⟨request, reply⟩ = w' := by
          simpa [session, OwnerSession.observe] using hw'
        refine ⟨_, sides, _, ⟨hfollowed, hcaused, ?_, ?_, h.account.owner haccepts hacts hturn, ?_⟩,
          ⟨fun _ => ⟨rfl, haccepts⟩, fun hne => absurd rfl hne⟩, hturn.late_state⟩
        · simpa using hrest
        · intro other hother
          simpa [hother] using h.foreign other hother
        · intro hopen
          have hbefore := not_gone hopen
          have hunlost : mark .owner ⟨request, reply⟩ ≠ .wins := by
            intro hwon
            simp [Session.gone, lost_of_wins w hwon] at hopen
          have haccepted := haccepts.resolve_left (by simp [hbefore])
          obtain ⟨hstates, hwords, hrings, -, hexcused⟩ := h.mirrors hbefore
          have hundone := (Account.owner h.account haccepts hacts hturn).unwon hfollowed.1 hopen
          refine ⟨hstates.owner (h.undone hbefore) haccepted hacts hobserve hturn hunlost,
            hwords.owner hacts hobserve, hrings.owner hwords haccepted hacts hobserve,
            Undone.unlatched ⟨hfollowed.1, hcaused, hundone⟩, excused_owner hexcused haccepted⟩
      · obtain ⟨s', hs', hrest⟩ := (h.foreign party hparty).next hnext reply trivial
        obtain ⟨haccepts, rfl⟩ : (sides party).accepts party ⟨request, reply⟩ = true ∧
            (sides party).advance ⟨request, reply⟩ = s' := by
          simpa [ForeignThreads.foreign] using hs'
        refine ⟨_, Function.update sides party ((sides party).advance ⟨request, reply⟩), w,
          ⟨hfollowed, hcaused, ?_, ?_, h.account.foreign hparty (hmark hparty) hturn, ?_⟩,
          ⟨fun heq => absurd heq hparty, fun _ => rfl⟩, hturn.late_state⟩
        · simpa [Ne.symm hparty] using h.owner
        · intro other hother
          by_cases hsame : other = party
          · subst hsame
            simpa using hrest
          · simpa [hsame] using h.foreign other hother
        · intro hopen
          obtain ⟨hstates, hwords, hrings, -, hexcused⟩ := h.mirrors hopen
          have hundone := (h.account.foreign hparty (hmark hparty) hturn).unwon hfollowed.1 hopen
          exact ⟨hstates.foreign (h.undone hopen) haccepts hacts hobserve hturn (hmark hparty),
            hwords.foreign haccepts hacts hobserve, hrings.foreign haccepts hacts hobserve,
            Undone.unlatched ⟨hfollowed.1, hcaused, hundone⟩, hexcused⟩

end Runs

section Stop

variable {before : Story} {memory memory' : Memory} {w w' : Session} {label : OpLabel}

/-- After a stop that found the run of a guest open no checkpoint is excused any more. The run is
still open, or is the one event that has been committed, and nothing else can be opened. -/
structure Stopped (before : Story) (memory : Memory) (w : Session) : Prop where
  late : LiveState.late (memory .state) = true
  unexcused : w.call.isSome = true → w.excused = false
  events : w.gone = false → (w.events = before.events ∧ before.bytes ≤ w.bytes) ∨
    (w.ran = false ∧ w.bytes = 0 ∧ ∃ event count, w.events = before.events ++ [(event, count)] ∧
      event.opcode = 3 ∧ event.payload.toNat = count ∧ before.bytes ≤ count)

theorem Stopped.owner (h : Stopped before memory w) (hopened : 0 < before.bytes)
    (haccepts : w.gone = true ∨ accepts w label = true)
    (hacts : Acts memory label.1 label.2 memory')
    (hlate : LiveState.late (memory' .state) = true) : Stopped before memory' (tell w label) := by
  have hrunning : label ≠ ⟨.load .state, .running⟩ := by
    rintro rfl
    have hstate := h.late
    rw [← hacts.1] at hstate
    cases hstate
  constructor
  case late => exact hlate
  case unexcused =>
    intro hcall
    rw [Bool.eq_false_iff]
    intro hexcused
    rcases excused_cases w label hexcused hcall with ⟨hbefore, hcalled⟩ | ⟨heq, -⟩
    · exact absurd ((h.unexcused hcalled).symm.trans hbefore) (by simp)
    · exact hrunning heq
  case events =>
    intro hopen
    have hbefore := not_gone hopen
    replace haccepts := haccepts.resolve_left (by simp [hbefore])
    by_cases hevent : ∃ head, label = ⟨.store .eventHead head, ()⟩
    · obtain ⟨head, rfl⟩ := hevent
      simp only [accepts, Bool.and_eq_true, Bool.or_eq_true, decide_eq_true_eq] at haccepts
      obtain ⟨⟨⟨-, hran⟩, -⟩, hslot⟩ := haccepts
      rcases h.events hbefore with ⟨hsame, hbytes⟩ | ⟨hidle, -⟩
      · obtain ⟨hopcode, hpayload⟩ := hslot.resolve_left (by omega)
        refine .inr ⟨rfl, rfl, w.slot, w.bytes, ?_, hopcode, hpayload, hbytes⟩
        rw [← hsame]
        rfl
      · exact absurd (hidle.symm.trans hran) (by simp)
    by_cases hbyte : ∃ head, label = ⟨.store .byteHead head, ()⟩
    · obtain ⟨head, rfl⟩ := hbyte
      rcases h.events hbefore with ⟨hsame, hbytes⟩ | ⟨hidle, -⟩
      · exact .inl ⟨hsame, Nat.le_succ_of_le hbytes⟩
      · simp only [accepts, Bool.and_eq_true] at haccepts
        exact absurd (hidle.symm.trans haccepts.1) (by simp)
    · obtain ⟨hevents, hbytes, hran⟩ := events_tell w label (fun head heq => hevent ⟨head, heq⟩)
        fun head heq => hbyte ⟨head, heq⟩
      rw [hevents, hbytes]
      refine (h.events hbefore).imp id fun hcommitted => ⟨?_, hcommitted.2⟩
      rw [Bool.eq_false_iff]
      intro hnow
      rcases hran hnow with hbefore | heq
      · exact absurd (hcommitted.1.symm.trans hbefore) (by simp)
      · exact hrunning heq

variable {labels more : List LiveLabel} {service later : Service} {watches : Party → Watch}
  {sides : Party → Side}

theorem Stopped.step (h : Stopped before service.state w) (hopened : 0 < before.bytes)
    {label : LiveLabel} (hstep : LiveStep service label later) (hheard : Heard w w' label)
    (hlate : LiveState.late (service.state .state) = true →
      LiveState.late (later.state .state) = true) :
    Stopped before later.state w' := by
  by_cases hparty : label.1 = .owner
  · obtain ⟨rfl, haccepts⟩ := hheard.1 hparty
    cases hstep with
    | op hnext hacts => exact h.owner hopened haccepts hacts (hlate h.late)
  · obtain rfl := hheard.2 hparty
    exact ⟨hlate h.late, h.unexcused, h.events⟩

theorem tracked_run (h : Tracked labels service watches sides w)
    (hrun : Run (StepIf Acts fun memory label => Undisturbed memory label = true) service
      more later) :
    ∃ watches sides w', Tracked (labels ++ more) later watches sides w' ∧
      ∀ before : Story, 0 < before.bytes → Stopped before service.state w →
        Stopped before later.state w' := by
  induction hrun with
  | nil => exact ⟨watches, sides, w, by simpa using h, fun _ _ => id⟩
  | @snoc middle last more label hrun hstep ih =>
      obtain ⟨watches₁, sides₁, w₁, h₁, hstopped⟩ := ih
      obtain ⟨watches₂, sides₂, w₂, h₂, hheard, hlate⟩ := h₁.step hstep
      exact ⟨watches₂, sides₂, w₂, by simpa using h₂, fun before hopened hbefore =>
        (hstopped before hopened hbefore).step hopened hstep.2 hheard hlate⟩

theorem attached_story (h : (story labels).attached = some .ok) :
    (story (labels ++ more)).attached = some .ok := by
  induction more using List.reverseRecOn with
  | nil => simpa using h
  | append_singleton more label ih =>
      rw [← List.append_assoc, story_snoc]
      split
      · exact attached_tell ih label.2
      · exact ih

/-- The owner has not failed, and its run is not over, when a spared checkpoint returns. -/
theorem Tracked.opened (h : Tracked labels service watches sides w)
    (hattached : (story labels).attached = some .ok) {c : CheckpointCall}
    (hcall : (story labels).call = some c) (hhealthy : healthy c.adapter = true)
    (hspared : c.spared = true) (hstopped : Stopped before service.state w) : w.gone = false := by
  rw [← h.account.story] at hattached hcall
  have hrefused : w.refused = false := by
    rw [Session.refused, hattached]
    rfl
  obtain ⟨state, hstate, hpast⟩ := spared_not_past hspared
  have hcompleted : w.completed = false := by
    rw [Bool.eq_false_iff]
    intro hcompleted
    rw [h.account.completed hcompleted c state hcall hstate] at hpast
    cases hpast
  have hlost : w.lost = false := by
    rw [Bool.eq_false_iff]
    intro hlost
    rcases h.account.lost hrefused hlost c hcall hspared with hexcused | hunhealthy
    · exact absurd ((hstopped.unexcused (by simp [hcall])).symm.trans hexcused) (by simp)
    · exact absurd (hunhealthy.symm.trans hhealthy) (by simp)
  simp [Session.gone, hlost, hcompleted, hrefused]

/-- The stop finds an owner that nothing has happened to. -/
theorem Tracked.stopped (h : Tracked labels service watches sides w)
    (hattached : (story labels).attached = some .ok) (hopened : 0 < (story labels).bytes)
    {index : Nat} {state : LiveState} (hstep : LiveStep service (accepted index state) later) :
    Stopped (story labels) later.state w := by
  obtain ⟨watch', hobserve, -, hended, -⟩ := h.followed.step hstep
  have hstory := h.account.story
  have hacts : Acts service.state (.compareExchangeWeak .state state .stopRequested) true
    later.state := by
    generalize hlabel : accepted index state = label at hstep
    cases hstep with
    | op hnext hacts =>
        cases hlabel
        exact hacts
  have hstates : state = .startedUnattached ∨ state = .running := by
    change LifecycleMonitor.observe _ _ _ = _ at hobserve
    rw [LifecycleMonitor.observe, if_neg (by simp [hended])] at hobserve
    by_contra hneither
    change (if state = .startedUnattached ∨ state = .running then _ else none) =
      some watch' at hobserve
    rw [if_neg hneither] at hobserve
    cases hobserve
  rcases hacts with ⟨-, hbefore, hafter⟩ | ⟨hdone, -⟩
  case inr => cases hdone
  have hpast : LiveState.past (service.state .state) = false := by
    rw [hbefore]
    rcases hstates with rfl | rfl <;> rfl
  have hnone : ∀ b : Bool, (b = true → w.lost = true ∨ w.drained = true ∨ w.completed = true) →
    b = false := by
    intro b hb
    rw [Bool.eq_false_iff]
    intro hnow
    exact absurd (hpast.symm.trans (h.account.past (hb hnow))) (by simp)
  have hopen : w.gone = false := by
    rw [Session.gone, Session.refused, hnone w.lost .inl, hnone w.completed (.inr ∘ .inr)]
    rw [← hstory] at hattached
    rw [hattached]
    rfl
  constructor
  case late =>
    rw [hafter]
    rfl
  case unexcused =>
    intro hcall
    rw [Bool.eq_false_iff]
    intro hexcused
    have hzero := (h.mirrors hopen).excused hexcused hcall
    rw [← hstory] at hopened
    omega
  case events =>
    intro _
    rw [← hstory]
    exact .inl ⟨rfl, Nat.le_refl _⟩

/-- What a run that is finalized after the stop has committed. -/
theorem Tracked.committed (h : Tracked labels service watches sides w) (hopen : w.gone = false)
    (hopened : 0 < before.bytes) (hstopped : Stopped before service.state w)
    (hfinalized : w.finalized = true) : Committed before (story labels) labels service.state := by
  obtain ⟨hstates, hwords, -, -, -⟩ := h.mirrors hopen
  simp only [Session.finalized, Bool.and_eq_true, decide_eq_true_eq, List.all_eq_true] at hfinalized
  obtain ⟨⟨⟨⟨⟨hdrained, hbytes⟩, hsequence⟩, hlow⟩, hhigh⟩, hframes⟩ := hfinalized
  have hundone := h.undone hopen
  have hframe := hwords.owned .horizonFrame rfl rfl
  have hfinal : ∀ cell, Final cell = true → service.state cell = w.view cell := by
    refine hwords.final fun party => ?_
    rw [Bool.eq_false_iff]
    intro hunattached
    exact absurd ((hstates.unattached party hunattached).2.symm.trans (hstates.drained hdrained).1)
      (by simp)
  constructor
  case event =>
    rcases hstopped.events hopen with ⟨-, hmore⟩ | ⟨-, -, event, count, hevents, hopcode,
      hcount, hall⟩
    · omega
    · refine ⟨event, count, ?_, hopcode, hcount, hall, ?_⟩
      · rw [← h.account.story]
        exact hevents
      · rw [hframe]
        exact hframes (event, count) (by simp [hevents])
  case sequence => exact (hfinal _ rfl).trans hsequence
  case low =>
    rw [hframe]
    exact (hfinal _ rfl).trans hlow
  case high =>
    rw [hframe]
    exact (hfinal _ rfl).trans hhigh
  case state =>
    have hpast := (hstates.drained hdrained).2
    have hstarted := h.followed.1.course.started
    have hunfailed : LiveState.failed (service.state .state) = false := by
      rw [Bool.eq_false_iff]
      exact fun hfailed => hundone.unwon (h.caused.failed hfailed)
    change service.state .state ≠ .uninitialized ∧ service.state .state ≠ .ready at hstarted
    generalize service.state .state = state at hpast hstarted hunfailed
    cases state <;> simp_all [LiveState.past, LiveState.late, LiveState.failed]
  case unfailed =>
    intro party hwins
    obtain ⟨-, hlost⟩ := h.account.wins party hwins
    simp [Session.gone, hlost] at hopen

/-- The exact condition under which a stop does not break an open run: if no thread but the owner
fails, the worker awaits `draining`, and the checkpoint is not brought to its finalization with
the run open, it commits the run with all its bytes and finalizes. -/
theorem stop_commits_open_run (calls : Calls) {actions : List OwnerAction}
    (hactions : calls.owner = .attachGuest :: actions) (hfresh : Fresh calls.adapter)
    {earlier more : List LiveLabel} {index : Nat} {state : LiveState} {result : LiveResult}
    (hrun : Run (StepIf Acts fun memory label => Undisturbed memory label = true) (started calls)
      (earlier ++ accepted index state :: more ++ [(.owner, ⟨.note (.ownerCheckpoint result), ()⟩)])
      service)
    (hattached : (story earlier).attached = some .ok) (hopened : 0 < (story earlier).bytes)
    {c : CheckpointCall} (hcall : (story (earlier ++ accepted index state :: more)).call = some c)
    (hhealthy : healthy c.adapter = true) (hspared : c.spared = true) :
    result = .ok ∧ Committed (story earlier) (story (earlier ++ accepted index state :: more))
      (earlier ++ accepted index state :: more) service.state := by
  obtain ⟨last, hbefore, hlast⟩ := run_snoc_iff.mp hrun
  obtain ⟨middle, hearlier, hmore⟩ := run_append_iff.mp hbefore
  obtain ⟨stopped, hstop, hrest⟩ := run_cons_iff.mp hmore
  obtain ⟨watches₁, sides₁, w₁, h₁, -⟩ :=
    tracked_run (tracked_started calls hactions hfresh) hearlier
  rw [List.nil_append] at h₁
  have hstopped₁ := h₁.stopped hattached hopened hstop.2
  obtain ⟨watches₂, sides₂, w₂, h₂, hheard₂, -⟩ := h₁.step hstop
  obtain rfl : w₂ = w₁ := hheard₂.2 (by simp [accepted])
  obtain ⟨watches₃, sides₃, w₃, h₃, hstopped⟩ := tracked_run h₂ hrest
  have hstopped₃ := hstopped (story earlier) hopened hstopped₁
  rw [List.append_assoc, List.singleton_append] at h₃
  have hopen := h₃.opened (attached_story hattached) hcall hhealthy hspared hstopped₃
  obtain ⟨watches₄, sides₄, w₄, h₄, hheard₄, -⟩ := h₃.step hlast
  have haccepts := (hheard₄.1 rfl).2.resolve_left (by simp [hopen])
  have hsame : service.state = last.state := by
    generalize hlabel : ((.owner, ⟨.note (.ownerCheckpoint result), ()⟩) : LiveLabel) =
      label at hlast
    cases hlast.2 with
    | op hnext hacts =>
        cases hlabel
        exact hacts
  have hanswers : w₃.answers result = true := haccepts
  have hsome : w₃.call = some c := by
    rw [← hcall, ← h₃.account.story]
  rw [Session.answers, hsome] at hanswers
  have hunexcused := hstopped₃.unexcused (by simp [hsome])
  simp only [hunexcused, hhealthy, hspared, Bool.not_true, Bool.false_or, Bool.and_eq_true,
    decide_eq_true_eq] at hanswers
  rw [hsame]
  exact ⟨hanswers.1, h₃.committed hopen hopened hstopped₃ hanswers.2⟩

end Stop

section Witness

/-- An owner that attaches its guest, whose guest writes two bytes, and that then comes to a
checkpoint. -/
def twoBytes : Calls where
  adapter := { guest := { bound := true } }
  owner := [.attachGuest, .operation (.pcm86WriteData 7), .operation (.pcm86WriteData 9),
    .ownerCheckpoint]
  control _ := [.requestStop]

/-- The labels before the stop, the stop, the labels up to the answer of the checkpoint, and that
answer. -/
structure SparedRun where
  earlier : List LiveLabel
  stop : List LiveLabel
  more : List LiveLabel
  answer : List LiveLabel

/-- The stop is accepted after the checkpoint has read the state as `running`; the worker takes the
horizon of the run before the owner finalizes. -/
def sparedRun : Option (SparedRun × Service) := do
  let (earlier, opened) ← execute serve Undisturbed
    (turns .worker 3 ++ turns .owner 32 ++ turns (.control 0) 1) (started twoBytes)
  let (stop, stopped) ← execute serve Undisturbed (turns (.control 0) 1) opened
  let (more, finalized) ← execute serve Undisturbed
    (turns .owner 9 ++ turns .worker 4 ++ turns .owner 28) stopped
  let (answer, answered) ← execute serve Undisturbed (turns .owner 1) finalized
  return (⟨earlier, stop, more, answer⟩, answered)

def IsStop : LiveLabel → Bool
  | (.control 0, ⟨.compareExchangeWeak .state .running .stopRequested, true⟩) => true
  | _ => false

def IsAnswer : LiveLabel → Bool
  | (.owner, ⟨.note (.ownerCheckpoint .ok), _⟩) => true
  | _ => false

/-- The hypotheses of the theorem above, of the four parts of a run. -/
def SparedRun.Spares (run : SparedRun) : Bool :=
  run.stop.map IsStop = [true] && run.answer.map IsAnswer = [true] &&
    (story run.earlier).attached = some .ok && (story run.earlier).bytes = 2 &&
    (story (run.earlier ++ run.stop ++ run.more)).call.any fun c => healthy c.adapter && c.spared

theorem sparedRun_spares : sparedRun.any (fun result => result.1.Spares) = true := by
  decide +kernel

theorem eq_accepted {label : LiveLabel} (h : IsStop label = true) :
    label = accepted 0 .running := by
  unfold IsStop at h
  split at h
  · rfl
  · cases h

theorem eq_answer {label : LiveLabel} (h : IsAnswer label = true) :
    label = (.owner, ⟨.note (.ownerCheckpoint .ok), ()⟩) := by
  unfold IsAnswer at h
  split at h
  · rfl
  · cases h

theorem eq_of_map {p : LiveLabel → Bool} {labels : List LiveLabel} {label : LiveLabel}
    (hp : ∀ {other}, p other = true → other = label) (h : labels.map p = [true]) :
    labels = [label] := by
  obtain ⟨head, rfl⟩ : ∃ head, labels = [head] := by
    rw [← List.length_eq_one_iff]
    simpa using congrArg List.length h
  simpa using hp (by simpa using h)

theorem sparedRun_run {run : SparedRun} {service : Service} (h : sparedRun = some (run, service)) :
    Run (StepIf Acts fun memory label => Undisturbed memory label = true) (started twoBytes)
      (run.earlier ++ run.stop ++ run.more ++ run.answer) service := by
  simp only [sparedRun, Option.bind_eq_bind, Option.bind_eq_some_iff, Prod.exists] at h
  obtain ⟨earlier, opened, hearlier, stop, stopped, hstop, more, finalized, hmore, answer, answered,
    hanswer, h⟩ := h
  obtain ⟨rfl, rfl⟩ : ⟨earlier, stop, more, answer⟩ = run ∧ answered = service := by simpa using h
  exact run_append_iff.mpr ⟨_, run_append_iff.mpr ⟨_, run_append_iff.mpr ⟨_,
    execute_run acts_serve hearlier, execute_run acts_serve hstop⟩, execute_run acts_serve hmore⟩,
    execute_run acts_serve hanswer⟩

theorem stop_commits_open_run_twoBytes : ∃ earlier more service,
    Run (StepIf Acts fun memory label => Undisturbed memory label = true) (started twoBytes)
      (earlier ++ accepted 0 .running :: more ++ [(.owner, ⟨.note (.ownerCheckpoint .ok), ()⟩)])
      service ∧
    (story earlier).bytes = 2 ∧
    Committed (story earlier) (story (earlier ++ accepted 0 .running :: more))
      (earlier ++ accepted 0 .running :: more) service.state := by
  obtain ⟨⟨run, service⟩, hsome, hspares⟩ := (Option.any_eq_true _ _).mp sparedRun_spares
  have hrun := sparedRun_run hsome
  simp only [SparedRun.Spares, Bool.and_eq_true, decide_eq_true_eq] at hspares
  obtain ⟨⟨⟨⟨hstop, hanswer⟩, hattached⟩, hbytes⟩, hcall⟩ := hspares
  rw [eq_of_map eq_accepted hstop] at hrun hcall
  rw [eq_of_map eq_answer hanswer] at hrun
  rw [List.append_assoc run.earlier, List.singleton_append] at hrun hcall
  obtain ⟨c, hc, hspared⟩ := (Option.any_eq_true _ _).mp hcall
  rw [Bool.and_eq_true] at hspared
  refine ⟨run.earlier, run.more, service, hrun, hbytes, ?_⟩
  exact (stop_commits_open_run twoBytes rfl ⟨rfl, rfl, rfl⟩ hrun hattached (by omega) hc hspared.1
    hspared.2).2

end Witness

end EspNp2.LiveService.CommittedStop
