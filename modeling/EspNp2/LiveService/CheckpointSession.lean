import EspNp2.LiveService.SinkSession

/-!
The calls of the owner. Between two of them the adapter, the transaction and the session agree,
unless the owner has failed; and a checkpoint that is spared an open run at its finalization
does not fail.
-/

namespace EspNp2.LiveService.CheckpointSession

open EspNp2.GuestAdapter.AdapterFrame
open EspNp2.GuestAdapter.AdapterOperations
open EspNp2.GuestAdapter.AdapterState
open EspNp2.GuestAdapter.CommitStream
open EspNp2.GuestAdapter.SinkBinding
open EspNp2.Library.CallProgram
open EspNp2.Library.Concurrent
open EspNp2.LiveService.LifecycleMonitor (LiveState.late)
open EspNp2.LiveService.OwnerSession
open EspNp2.LiveService.OwnerThread
open EspNp2.LiveService.ServiceMemory
open EspNp2.LiveService.SinkSession
open EspNp2.LiveService.Transport

section Coherence

/-- The adapter, the transaction and the session agree between two programs of the guest. -/
structure Coherent (w : Session) (o : Owner) : Prop where
  sink : o.adapter.sink = some ⟨true⟩
  serves : ∃ m, Linked m o.adapter ∧ Serves m o.transaction w

variable {w w' : Session} {o o' : Owner} {α : Type}

theorem Coherent.carried (h : Coherent w o) (hcarries : Carries w w') : Coherent w' o := by
  obtain ⟨m, hlinked, hserves⟩ := h.serves
  exact ⟨h.sink, m, hlinked, hserves.carried hcarries⟩

theorem Coherent.runs (h : Coherent w o) : Runs w := by
  obtain ⟨m, -, hserves⟩ := h.serves
  exact hserves.toRuns

theorem Coherent.grows (h : Coherent w o) (hgrows : Grows w w') : Coherent w' o :=
  h.carried (h.runs.carries hgrows)

/-- Two facts about the results of a program whose calls are a stream. -/
theorem watched_and {p : Program Call Reply α} {m : Stream} {P : Stream → α → Prop}
    {Q : α → Prop} {calls : CallLabel → Prop}
    (h : Library.CallMonitor.Watched GuestAdapter.CommitStream.observe P p m)
    (hmakes : Library.CallMonitor.Makes calls Q p) :
    Library.CallMonitor.Watched GuestAdapter.CommitStream.observe
      (fun m' value => P m' value ∧ Q value)
      p m := by
  induction p generalizing m with
  | done value => exact ⟨h, hmakes⟩
  | call request next ih =>
      intro reply
      obtain ⟨m', hm', hnext⟩ := h reply
      exact ⟨m', hm', ih reply hnext (hmakes reply).2⟩

/-- A program of the guest ends in agreement again, or the owner has failed. -/
theorem watched_guest {program : Guest α} (hbound : Bound program) (h : Coherent w o)
    (hcalls : w.call = none ∨ Library.CallMonitor.Makes (fun label => Finishing label.1 = true)
      (fun _ => True) (program o.adapter))
    (hkeeps : ∀ m, Linked m o.adapter → Keeps m (program o.adapter)) :
    Watched session (fun w' result => w'.gone = true ∨ Follows w w' ∧ Coherent w' result.2)
      (guest program o) w := by
  obtain ⟨m, hlinked, hserves⟩ := h.serves
  refine Watched.bind ((watched_serve hserves hcalls
    (watched_and (hkeeps m hlinked) (hbound o.adapter))).mono ?_)
  rintro w₁ ⟨⟨value, adapter⟩, t⟩ (hgone | ⟨hfollows, m', ⟨hlinked', hsink⟩, hserves'⟩)
  · exact watched_done_iff.mpr (.inl hgone)
  · exact watched_done_iff.mpr (.inr ⟨hfollows, hsink.trans h.sink, m', hlinked', hserves'⟩)

end Coherence

section Progress

variable {w w' : Session} {o : Owner}

/-- After the run of a checkpoint is committed, the adapter waits for its finalization. -/
structure Idle (w : Session) (o : Owner) : Prop extends Coherent w o where
  idle : o.adapter.runPending = false
  timely : timely o.adapter = true
  unfailed : o.adapter.failed = false

theorem linked_left {m : Stream} {s : Adapter} (h : Linked m s) :
    Linked m { s with semanticCallActive := false } :=
  h.advances (advances_of_eq rfl rfl)

/-- The end of a checkpoint: either the stop has been seen, or the state was still `running` when
no run was open. -/
theorem watched_publishing {m : Stream} {s : Adapter} {t : Transaction}
    (hsink : s.sink = some ⟨true⟩) (hlinked : Linked m s) (hserves : Serves m t w)
    (hidle : s.runPending = false) (htimely : timely s = true) (hunfailed : s.failed = false)
    (hcall : w.call.isSome = true) :
    Watched session (fun w' result => Follows w w' ∧
      ((result.1.1 = .terminated ∧ w'.stopSeen = true ∧ Idle w' ⟨result.1.2, result.2⟩) ∨
        ((result.1.1 = .ok ∨ result.1.1 = .retry) ∧ w'.excused = true ∧
          Coherent w' ⟨result.1.2, result.2⟩)))
      (serve (publishing s) t) w := by
  obtain ⟨hphase, hnext⟩ := hlinked.idle hidle
  have hpublish : ∀ plan : SyncPlan, publishProgress plan.frameTimestamp s =
      .call (.publishProgressChecked plan.frameTimestamp) fun reply => .done (reply, s) := by
    intro plan
    rw [publishProgress, get_bind_run, hsink]
    rfl
  change Watched session _ (serve (Program.bind (Program.bind (syncPlanCompute s) _) _) t) w
  rw [serve_bind]
  refine Watched.bind ?_
  rw [serve_bind]
  refine Watched.bind ((watched_hooks ((makes_syncPlanCompute_ok (s := s)
    htimely).weaken fun _ => ReadsClock.isHook)).mono ?_)
  rintro w₁ ⟨⟨_, s₁⟩, t₁⟩ ⟨rfl, rfl, plan, rfl, hahead, rfl⟩
  change Watched session _ (serve (Program.bind (publishProgress plan.frameTimestamp _) _) t₁) w₁
  rw [hpublish plan]
  have hbefore : m.horizon ≤ plan.frameTimestamp := UInt64.le_trans hlinked.horizon hahead
  refine Watched.bind ((watched_publishProgress hserves hphase hbefore).mono ?_)
  rintro w₂ ⟨check, t₂⟩ ⟨⟨hfollows, m₂, hm₂, hserves₂⟩, hprogressed⟩
  obtain rfl := Option.some.inj (hm₂.symm.trans (if_pos ⟨hphase, hbefore⟩))
  rcases hprogressed with ⟨rfl, hseen⟩ | ⟨rfl | rfl, hexcused⟩
  all_goals
    refine watched_done_iff.mpr (watched_done_iff.mpr ⟨hfollows, ?_⟩)
  · exact .inl ⟨rfl, hseen, ⟨hsink, m, linked_left hlinked, hserves₂⟩, hidle, htimely, hunfailed⟩
  · refine .inr ⟨.inl rfl, hexcused hcall, hsink, { m with horizon := plan.frameTimestamp }, ?_,
      hserves₂⟩
    refine ⟨hlinked.sink, hlinked.bound, UInt64.le_refl _, fun _ => ⟨hphase, hnext⟩, ?_⟩
    intro hpending
    cases hidle.symm.trans hpending
  · exact .inr ⟨.inr rfl, hexcused hcall, hsink, m, linked_left hlinked, hserves₂⟩

/-- A healthy adapter commits its open run; then either the stop has been seen, or the state was
still `running` when no run was open. -/
theorem watched_progressHeld (h : Coherent w o) (hhealthy : healthy o.adapter = true)
    (hpending : o.adapter.runPending = true) (hcall : w.call.isSome = true) :
    Watched session (fun w' result => Follows w w' ∧
      ((result.1 = .terminated ∧ w'.stopSeen = true ∧ Idle w' result.2) ∨
        ((result.1 = .ok ∨ result.1 = .retry) ∧ w'.excused = true ∧ Coherent w' result.2)))
      (guest progressCheckpoint o) w := by
  obtain ⟨m, hlinked, hserves⟩ := h.serves
  obtain ⟨hphase, htoken, hactive, hsequence, hnext, hlow, hhigh, hhorizon, hclock⟩ :=
    hlinked.pending hpending
  have hcount := toNat_runCount hhigh
  obtain ⟨hunfailed, htimely⟩ := unfailed_of_healthy hhealthy
  refine Watched.bind ?_
  rw [progressCheckpoint_eq hhealthy hpending hlinked.sink hactive hlow hhigh]
  rw [← htoken]
  have hobserve : ∀ reply, GuestAdapter.CommitStream.observe m
      ⟨.commitDataRun m.token (pendingRun o.adapter), reply⟩ = some { m with
        phase := .committed o.adapter.runTimestamp, sequence := m.sequence + 1, token :=
          reply } := by
    intro reply
    simp only [GuestAdapter.CommitStream.observe, observeRun, hphase]
    exact if_pos ⟨trivial, rfl, hsequence.symm, rfl, hcount, hlow, hhigh⟩
  have hcommit : Watched session (Served m w (.commitDataRun m.token (pendingRun o.adapter)))
      (guestCommitDataRun m.token (pendingRun o.adapter) o.transaction) w :=
    watched_commitDataRun hserves hphase hcount hlow hobserve
  refine Watched.bind (hcommit.mono ?_)
  rintro w₁ ⟨token₁, t₁⟩ ⟨hfollows₁, m₁, hm₁, hserves₁⟩
  rw [hobserve token₁] at hm₁
  obtain rfl := Option.some.inj hm₁
  refine Watched.bind ((watched_commitHorizon hserves₁ rfl).mono ?_)
  rintro w₂ ⟨token₂, t₂⟩ ⟨hfollows₂, m₂, hm₂, hserves₂⟩
  have hm₂' : m₂ = { m with
      phase := .idle, sequence := m.sequence + 1, token := token₁
      horizon := o.adapter.runTimestamp } := by
    have heq := Option.some.inj (hm₂.symm.trans (if_pos ⟨rfl, rfl⟩))
    exact heq
  subst hm₂'
  have hfollows := hfollows₁.trans hfollows₂
  have hlinked₂ : Linked { m with
      phase := .idle, sequence := m.sequence + 1, token := token₁
      horizon := o.adapter.runTimestamp } (flushed o.adapter token₂) :=
    ⟨hlinked.sink, hlinked.bound, hclock, fun _ => ⟨rfl, hnext⟩, by simp [flushed, closeRun]⟩
  refine (watched_publishing (s := flushed o.adapter token₂) h.sink hlinked₂ hserves₂ rfl htimely
    hunfailed (hfollows.isSome hcall)).mono ?_
  rintro w₃ ⟨⟨check, adapter⟩, t₃⟩ ⟨hfollows₃, hrest⟩
  exact watched_done_iff.mpr ⟨hfollows.trans hfollows₃, hrest⟩

end Progress

section Finalization

variable {w w' : Session} {o : Owner} {t : Transaction} {α : Type}

/-- An owner that reports a failure is asked for nothing more. -/
theorem watched_fatal (h : Runs w) (hexcusable : w.excusable = true) {category : FailureCategory}
    (hcategory : category ≠ .none) (origin : FailureOrigin) (subcode : UInt32)
    (rest : PUnit → OwnerCode α) : Watched session (fun w' _ => w'.gone = true)
      (((discard (liftM (firstFatal category origin subcode) : OwnerCode Bool) :
        OwnerCode PUnit) >>= rest) o) w := by
  refine Watched.bind (Watched.mono (Q := fun w' _ => w'.gone = true) ?_ fun w' _ hgone =>
    watched_gone _ hgone)
  refine Watched.bind (Watched.mono (Q := fun w' _ => w'.gone = true) ?_ fun w' _ hgone =>
    watched_done_iff.mpr hgone)
  exact Watched.bind ((watched_firstFatal h hexcusable hcategory origin subcode).mono
    fun w' _ hgone => watched_done_iff.mpr hgone)

/-- The owner finalizes the run; the frame that it has published last bounds its events. -/
structure Closing (w : Session) (t : Transaction) : Prop extends Runs w where
  seen : w.stopSeen = true
  bytes : w.bytes = 0
  unpublished : w.view .finalHorizonSequence = 0
  frame : w.view .horizonFrame = t.committedFrame
  events : ∀ entry ∈ w.events, entry.1.frameTimestamp ≤ t.committedFrame

/-- The owner has failed, or has finalized the run. -/
def Concluded (w : Session) (result : LiveResult) : Prop :=
  w.gone = true ∨ result = .ok ∧ w.finalized = true

theorem Closing.grows (h : Closing w t) (hgrows : Grows w w') : Closing w' t where
  toRuns := h.toRuns.grows hgrows
  seen := hgrows.stopSeen h.seen
  bytes := hgrows.bytes.trans h.bytes
  unpublished := (hgrows.view .finalHorizonSequence rfl).trans h.unpublished
  frame := (hgrows.view .horizonFrame rfl).trans h.frame
  events := hgrows.events ▸ h.events

theorem Closing.published (h : Closing w t) {frame : UInt64} (hframe : t.committedFrame ≤ frame)
    (hpublished : Published frame w w') : Closing w' { t with committedFrame := frame } where
  toRuns := hpublished.toRuns
  seen := hpublished.stopSeen h.seen
  bytes := hpublished.bytes.trans h.bytes
  unpublished := (hpublished.view .finalHorizonSequence rfl (by simp)).trans h.unpublished
  frame := hpublished.frame
  events entry hentry := by
    rw [hpublished.events] at hentry
    exact UInt64.le_trans (h.events entry hentry) hframe

/-- The last frame is published as soon as the mailbox is empty. -/
theorem watched_finalizeLoop (h : Closing w o.transaction) {frame : UInt64}
    (hframe : o.transaction.committedFrame ≤ frame) :
    Watched session (fun w' result => result.1 = none ∧
      Closing w' { o.transaction with committedFrame := frame })
      (iterating (fun _ => finalizeRound frame) () o) w := by
  refine watched_iterating (fun w' _ o' => Closing w' o.transaction ∧ o' = o) ⟨h, rfl⟩ ?_
  rintro w₁ ⟨⟩ o ⟨h₁, rfl⟩
  refine watched_lift (watched_load h₁.opened fun latched hlatched => watched_done_iff.mpr ?_)
  obtain rfl : latched = false := hlatched
  change Watched session _ ((if false = true then _ else _ : OwnerCode _) o) w₁
  rw [if_neg Bool.false_ne_true]
  refine Watched.bind (Watched.bind ((watched_producerPublish h₁.toRuns hframe).mono ?_))
  rintro w₂ ⟨status, t₂⟩ (⟨rfl, hpublished, rfl⟩ | ⟨rfl, -, hgrows, rfl⟩)
  · exact watched_done_iff.mpr (watched_done_iff.mpr ⟨rfl, h₁.published hframe hpublished⟩)
  · refine watched_done_iff.mpr (watched_plain rfl fun _ => watched_plain rfl fun _ => ?_)
    exact watched_done_iff.mpr ⟨h₁.grows hgrows, rfl⟩

/-- The final horizon holds the frame. -/
structure Sealed (frame : UInt64) (w w' : Session) : Prop extends Follows w w', Runs w' where
  bytes : w'.bytes = w.bytes
  events : w'.events = w.events
  horizon : w'.view .horizonFrame = w.view .horizonFrame
  sequence : w'.view .finalHorizonSequence = 2
  low : w'.view .finalHorizonLow = frame.toUInt32
  high : w'.view .finalHorizonHigh = (frame >>> 32).toUInt32

theorem watched_finalHorizonPublish (h : Runs w) (hunpublished : w.view .finalHorizonSequence = 0)
    (frame : UInt64) : Watched session (fun w' _ => Sealed frame w w')
    (finalHorizonPublish frame) w := by
  refine watched_load h.opened fun sequence hsequence => ?_
  obtain rfl : sequence = 0 := (hsequence h.bound).trans hunpublished
  refine watched_store (w := w) rfl (watched_store rfl (watched_store rfl (watched_store rfl ?_)))
  refine watched_done_iff.mpr ⟨?_, ⟨h.opened, h.bound, h.undrained⟩, rfl, rfl, rfl, rfl, rfl, rfl⟩
  exact (follows_store _ _ _).trans ((follows_store _ _ _).trans ((follows_store _ _ _).trans
    (follows_store _ _ _)))

theorem Sealed.grows {frame : UInt64} {w'' : Session} (h : Sealed frame w w')
    (hgrows : Grows w' w'') : Sealed frame w w'' where
  toFollows := h.toFollows.trans hgrows.toFollows
  toRuns := h.toRuns.grows hgrows
  bytes := hgrows.bytes.trans h.bytes
  events := hgrows.events.trans h.events
  horizon := (hgrows.view .horizonFrame rfl).trans h.horizon
  sequence := (hgrows.view .finalHorizonSequence rfl).trans h.sequence
  low := (hgrows.view .finalHorizonLow rfl).trans h.low
  high := (hgrows.view .finalHorizonHigh rfl).trans h.high

theorem Sealed.finalized {frame : UInt64} (h : Sealed frame w w') (hbytes : w.bytes = 0)
    (hframe : w.view .horizonFrame = frame) (hevents : ∀ entry ∈ w.events,
      entry.1.frameTimestamp ≤ frame) :
    Session.finalized { w' with drained := true } = true := by
  simp only [Session.finalized, Bool.and_eq_true, decide_eq_true_eq, h.bytes, h.events, h.horizon,
    h.sequence, h.low, h.high, hbytes, hframe, List.all_eq_true, and_self, true_and]
  exact hevents

/-- The exchange of the state succeeds, since the stop has been seen. -/
theorem watched_finalizePublished {frame : UInt64} (h : Closing w t)
    (hframe : t.committedFrame = frame) :
    Watched session (fun w' result => Concluded w' result.1) (finalizePublished frame o) w := by
  refine watched_lift ((watched_finalHorizonPublish h.toRuns h.unpublished frame).mono ?_)
  rintro w₁ ⟨⟩ h₁
  refine watched_modify ?_
  obtain ⟨hgrows₂, haccepts₂⟩ := grows_store .guestAttached rfl w₁ false
  refine watched_store haccepts₂ ?_
  have h₂ := h₁.grows hgrows₂
  generalize tell w₁ ⟨.store .guestAttached false, ()⟩ = w₂ at h₂ ⊢
  obtain ⟨hgrows₃, haccepts₃⟩ := grows_store .producerDone rfl w₂ true
  refine watched_store haccepts₃ ?_
  have h₃ := h₂.grows hgrows₃
  generalize tell w₂ ⟨.store .producerDone true, ()⟩ = w₃ at h₃ ⊢
  refine watched_store rfl ?_
  have h₄ : Sealed frame w (tell w₃ ⟨.store .ownerFinalizing false, ()⟩) :=
    ⟨h₃.toFollows.trans (follows_store _ _ _), ⟨h₃.opened, h₃.bound, h₃.undrained⟩,
      h₃.bytes, h₃.events, h₃.horizon, h₃.sequence, h₃.low, h₃.high⟩
  generalize tell w₃ ⟨.store .ownerFinalizing false, ()⟩ = w₄ at h₄ ⊢
  refine watched_tell fun done hdone => ?_
  obtain rfl : done = true := hdone h₄.opened h₄.bound (h₄.stopSeen h.seen) h₄.undrained
  refine ⟨h₄.bound, watched_plain rfl fun _ => watched_done_iff.mpr (.inr ⟨rfl, ?_⟩)⟩
  exact h₄.finalized h.bytes (h.frame.trans hframe) (hframe ▸ h.events)

/-- The owner has closed the production and has nothing open. -/
structure Ready (w : Session) (o : Owner) : Prop extends Closing w o.transaction where
  idle : o.adapter.runPending = false
  clock : o.transaction.committedFrame ≤ o.adapter.guest.frameTimestamp
  cause : w.excusable = true ∨ timely o.adapter = true ∧ o.adapter.failed = false

theorem Ready.watched_audioSync (h : Ready w o) : Watched session (fun w' result => w' = w ∧
    result.2.transaction = o.transaction ∧ result.2.adapter.runPending = false ∧
    o.transaction.committedFrame ≤ result.2.adapter.guest.frameTimestamp ∧
    (w.excusable = true ∨ result.2.adapter.failed = false)) (guest audioSync o) w := by
  have hmakes : Library.CallMonitor.Makes IsHook (fun result => Advances o.adapter result.2 ∧
      (w.excusable = true ∨ result.2.failed = false)) (audioSync o.adapter) := by
    rcases h.cause with hexcusable | ⟨htimely, hfailed⟩
    · exact (effect_audioSync o.adapter).mono fun result hadvances => ⟨hadvances, .inl hexcusable⟩
    · exact (makes_audioSync_ok htimely).mono fun result hresult =>
        ⟨hresult.1, .inr (hresult.2.trans hfailed)⟩
  refine Watched.bind ((watched_hooks hmakes).mono ?_)
  rintro w₁ ⟨⟨_, s⟩, t⟩ ⟨rfl, rfl, ⟨hcore, hframe⟩, hcause⟩
  exact watched_done_iff.mpr ⟨rfl, rfl, (congrArg Core.runPending hcore).trans h.idle,
    UInt64.le_trans h.clock hframe, hcause⟩

theorem guest_flush_idle (hidle : o.adapter.runPending = false) :
    guest (discard flushPendingRun) o = .done ((), o) := by
  change (serve ((flushPendingRun o.adapter).bind _) o.transaction).bind _ = _
  rw [flushPendingRun_eq, if_pos hidle]
  rfl

theorem watched_finalizeFlushed (h : Ready w o) :
    Watched session (fun w' result => Concluded w' result.1) (finalizeFlushed o) w := by
  refine Watched.bind (h.watched_audioSync.mono ?_)
  rintro w₁ ⟨_, o₁⟩ ⟨rfl, htransaction, hidle, hclock, hcause⟩
  change Watched session _ ((guest (discard flushPendingRun) o₁).bind _) w₁
  rw [guest_flush_idle hidle]
  change Watched session _ ((if o₁.adapter.failed = true then _ else _ : OwnerCode LiveResult) o₁)
    w₁
  split
  · rename_i hfailed
    have hexcusable := hcause.resolve_right (by simp [hfailed])
    exact (watched_fatal h.toRuns hexcusable (by simp) _ _ _).mono fun w' _ hgone => .inl hgone
  · rw [← htransaction] at hclock
    refine watched_get ?_
    refine Watched.bind ((watched_finalizeLoop (htransaction ▸ h.toClosing) hclock).mono ?_)
    rintro w₂ ⟨_, o₂⟩ ⟨rfl, hclosing⟩
    exact watched_finalizePublished hclosing rfl

/-- The finalization of an owner that has no open run, or that may fail. -/
theorem watched_ownerFinalizeClean (h : Coherent w o) (hseen : w.stopSeen = true)
    (hcause : w.excusable = true ∨ o.adapter.runPending = false ∧ timely o.adapter = true ∧
      o.adapter.failed = false) :
    Watched session (fun w' result => Concluded w' result.1) (ownerFinalizeClean o) w := by
  obtain ⟨m, hlinked, hserves⟩ := h.serves
  refine watched_store hseen ?_
  refine watched_store rfl ?_
  have hruns : Runs (tell (tell w ⟨.store .producerClosing true, ()⟩)
      ⟨.store .ownerFinalizing true, ()⟩) := ⟨hserves.opened, hserves.bound, hserves.undrained⟩
  refine watched_get ?_
  split
  · rename_i hactive
    have hexcusable : w.excusable = true := by
      refine hcause.resolve_right fun hidle => ?_
      have hagrees := hserves.agrees
      simp only [Agrees, (hlinked.idle hidle.1).1] at hagrees
      exact absurd (hactive.symm.trans hagrees.1) (by simp)
    exact (watched_fatal hruns hexcusable (by simp) _ _ _).mono fun w' _ hgone => .inl hgone
  · rename_i hactive
    have hphase : o.adapter.runPending = false ∧ m.phase = .idle := by
      cases hpending : o.adapter.runPending with
      | false => exact ⟨rfl, (hlinked.idle hpending).1⟩
      | true =>
          have hagrees := hserves.agrees
          simp only [Agrees, (hlinked.pending hpending).1] at hagrees
          exact absurd hagrees.1.active hactive
    have hagrees := hserves.agrees
    have hevents := hserves.events
    simp only [Agrees, hphase.2] at hagrees
    simp only [limit, hphase.2, hserves.horizon] at hevents
    refine watched_finalizeFlushed
      ⟨⟨hruns, hseen, hagrees.2.2.2, hserves.unpublished, hserves.frame,
      hevents⟩, hphase.1, hserves.horizon ▸ hlinked.horizon, hcause.imp id And.right⟩

end Finalization

section Calls

variable {w w' : Session} {o : Owner} {α : Type}

/-- A checkpoint that goes on has just begun, or may fail, or waits for the stop that it has
seen. -/
structure Going (w : Session) (o : Owner) : Prop extends Coherent w o where
  called : w.call.isSome = true
  stage : w.excusable = true ∨
    (∃ c, w.call = some c ∧ c.first = none ∧ c.adapter = o.adapter ∧ healthy o.adapter = true ∧
      (c.held = true ↔ w.bytes ≠ 0)) ∨
    (Idle w o ∧ w.stopSeen = true)

/-- The end of a checkpoint. -/
def Ended (w : Session) (result : LiveResult × Owner) : Prop :=
  Concluded w result.1 ∨ w.excusable = true ∧ Coherent w result.2

theorem Coherent.pending_iff (h : Coherent w o) : o.adapter.runPending = true ↔ w.bytes ≠ 0 := by
  obtain ⟨m, hlinked, hserves⟩ := h.serves
  have hagrees := hserves.agrees
  cases hpending : o.adapter.runPending with
  | false =>
      simp only [Agrees, (hlinked.idle hpending).1] at hagrees
      simp [hagrees.2.2.2]
  | true =>
      obtain ⟨hphase, -, -, -, -, hlow, -⟩ := hlinked.pending hpending
      simp only [Agrees, hphase] at hagrees
      rw [hagrees.2.2.1]
      simp
      omega

/-- What the first load of the state makes of a checkpoint. -/
theorem Going.read (h : Going w o) {state : LiveState}
    (hstates : state = .running ∨ state = .stopRequested) :
    (tell w ⟨.load .state, state⟩).excusable = true ∨
      (state = .running ∧ healthy o.adapter = true ∧ o.adapter.runPending = true) ∨
      (state = .stopRequested ∧ o.adapter.runPending = false ∧ timely o.adapter = true ∧
        o.adapter.failed = false) ∨ (Idle w o ∧ w.stopSeen = true) := by
  have hgrows := grows_load w .state state
  rcases h.stage with hexcusable | ⟨c, hc, hfirst, hadapter, hhealthy, hheld⟩ | hidle
  · exact .inl (hgrows.toFollows.excusable hexcusable)
  · have hcall : (tell w ⟨.load .state, state⟩).call = some (c.read state) := by
      change w.call.map (CheckpointCall.read · state) = _
      rw [hc]
      rfl
    obtain ⟨hunfailed, htimely⟩ := unfailed_of_healthy hhealthy
    rcases hstates with rfl | rfl
    · by_cases hpending : o.adapter.runPending = true
      · exact .inr (.inl ⟨rfl, hhealthy, hpending⟩)
      · left
        have hbytes : w.bytes = 0 := by
          by_contra hne
          exact hpending (h.toCoherent.pending_iff.mpr hne)
        rw [Session.excusable, hcall]
        change (w.excused || (w.call.isSome && decide (w.bytes = 0) && true) || _ || _) = true
        simp [hc, hbytes]
    · cases hpending : o.adapter.runPending with
      | false =>
          exact .inr (.inr (.inl ⟨rfl, rfl, htimely, hunfailed⟩))
      | true =>
          left
          have hheld : c.held = true := hheld.mpr (h.toCoherent.pending_iff.mp hpending)
          rw [Session.excusable, hcall]
          simp [CheckpointCall.spared, CheckpointCall.read, hfirst, hheld]
  · exact .inr (.inr (.inr hidle))

/-- What holds after a round of a checkpoint. -/
def Passed (w : Session) (result : (Unit ⊕ LiveResult) × Owner) : Prop :=
  Sum.elim (fun _ => w.gone = true ∨ Going w result.2)
    (fun value => Ended w (value, result.2)) result.1

theorem Passed.gone (h : w.gone = true) (result : (Unit ⊕ LiveResult) × Owner) :
    Passed w result := by
  obtain ⟨value, o⟩ := result
  cases value with
  | inl again => exact .inl h
  | inr value => exact .inl (.inl h)

theorem watched_failAndDetach (h : Runs w) (hexcusable : w.excusable = true)
    {category : FailureCategory} (hcategory : category ≠ .none) (origin : FailureOrigin)
    (subcode : UInt32) : Watched session (fun w' _ => w'.gone = true)
      (failAndDetach category origin subcode o) w :=
  watched_fatal h hexcusable hcategory origin subcode fun _ => ownerDetachFailure

theorem watched_checkpointFailure (h : Runs w) (hexcusable : w.excusable = true) :
    Watched session Passed ((do
      return .inr (← failAndDetach .producer .checkpoint subcodeGuestContract) :
        OwnerCode (Unit ⊕ LiveResult)) o) w :=
  Watched.bind ((watched_failAndDetach h hexcusable (by simp) _ _).mono fun _ _ hgone =>
    watched_done_iff.mpr (Passed.gone hgone _))

theorem watched_checkpointStatus (check : Check) (h : Coherent w o) (hcalled : w.call.isSome = true)
    (hcause : w.excusable = true ∨ check = .terminated ∧ Idle w o ∧ w.stopSeen = true) :
    Watched session Passed (checkpointStatus check o) w := by
  cases check with
  | ok => exact watched_done_iff.mpr (.inr ⟨hcause.resolve_right (by simp), h⟩)
  | retry =>
      have hexcusable := hcause.resolve_right (by simp)
      exact watched_plain rfl fun _ => watched_done_iff.mpr (.inr ⟨h, hcalled, .inl hexcusable⟩)
  | contract => exact watched_checkpointFailure h.runs (hcause.resolve_right (by simp))
  | terminated =>
      refine watched_load h.runs.opened fun state hstate => ?_
      have hgrows := grows_load w .state state
      obtain ⟨hstates, hstop⟩ := hstate h.runs.bound h.runs.undrained
      change Watched session _ ((if state = .stopRequested then _ else _ : OwnerCode _) o) _
      split
      · refine watched_done_iff.mpr (.inr ⟨h.grows hgrows, hgrows.toFollows.isSome hcalled, ?_⟩)
        refine hcause.imp hgrows.toFollows.excusable fun hidle =>
          .inr ⟨?_, hgrows.stopSeen hidle.2.2⟩
        exact ⟨h.grows hgrows, hidle.2.1.idle, hidle.2.1.timely, hidle.2.1.unfailed⟩
      · rename_i hne
        have hexcusable := hcause.resolve_right fun hidle => hne (hstop hidle.2.2)
        exact watched_checkpointFailure (h.runs.grows hgrows)
          (hgrows.toFollows.excusable hexcusable)

theorem watched_checkpointRound (h : Going w o) : Watched session Passed (checkpointRound o) w := by
  have hruns := h.toCoherent.runs
  refine watched_load hruns.opened fun state hstate => ?_
  have hgrows := grows_load w .state state
  obtain ⟨hstates, hstop⟩ := hstate hruns.bound hruns.undrained
  have hcoherent := h.toCoherent.grows hgrows
  have hcalled := hgrows.toFollows.isSome h.called
  have hread := h.read hstates
  rcases hstates with rfl | rfl
  · change Watched session Passed ((guest progressCheckpoint >>= checkpointStatus) o) _
    rcases hread with hexcusable | ⟨-, hhealthy, hpending⟩ | ⟨hne, -⟩ | ⟨-, hseen⟩
    · refine Watched.bind ((watched_guest (bound_of_finishes finishes_progressCheckpoint) hcoherent
        (.inr ((finishes_progressCheckpoint o.adapter).mono fun _ _ => trivial))
        fun m hlinked => keeps_progressCheckpoint hlinked).mono ?_)
      rintro w₂ ⟨check, o₂⟩ (hgone | ⟨hfollows, hcoherent₂⟩)
      · exact (watched_gone _ hgone).mono fun _ _ hgone => Passed.gone hgone _
      · exact watched_checkpointStatus check hcoherent₂ (hfollows.isSome hcalled)
          (.inl (hfollows.excusable hexcusable))
    · refine Watched.bind ((watched_progressHeld hcoherent hhealthy hpending hcalled).mono ?_)
      rintro w₂ ⟨check, o₂⟩ ⟨hfollows, ⟨rfl, hseen, hidle⟩ | ⟨-, hexcused, hcoherent₂⟩⟩
      · exact watched_checkpointStatus _ hidle.toCoherent (hfollows.isSome hcalled)
          (.inr ⟨rfl, hidle, hseen⟩)
      · refine watched_checkpointStatus check hcoherent₂ (hfollows.isSome hcalled) (.inl ?_)
        obtain ⟨c, hc⟩ := Option.isSome_iff_exists.mp (hfollows.isSome hcalled)
        simp [Session.excusable, hc, hexcused]
    · cases hne
    · cases hstop hseen
  · change Watched session Passed ((ownerFinalizeClean >>= fun result =>
      (pure (.inr result) : OwnerCode (Unit ⊕ LiveResult))) o) _
    refine Watched.bind ((watched_ownerFinalizeClean hcoherent (Bool.or_true _) ?_).mono ?_)
    · rcases hread with hexcusable | ⟨hne, -⟩ | ⟨-, hidle⟩ | ⟨hidle, -⟩
      · exact .inl hexcusable
      · cases hne
      · exact .inr hidle
      · exact .inr ⟨hidle.idle, hidle.timely, hidle.unfailed⟩
    · rintro w₂ ⟨result, o₂⟩ hconcluded
      exact watched_done_iff.mpr (.inl hconcluded)

theorem watched_ownerCheckpoint (h : Going w o) : Watched session Ended (ownerCheckpoint o) w := by
  have hruns := h.toCoherent.runs
  refine watched_load hruns.opened fun valid hvalid => ?_
  obtain ⟨m, -, hserves⟩ := h.serves
  obtain rfl : valid = true := (hvalid hruns.bound).trans hserves.valid
  change Watched session Ended (iterating (fun _ => checkpointRound) () o) w
  refine watched_iterating (fun w' _ o' => w'.gone = true ∨ Going w' o') (.inr h) ?_
  rintro w₁ ⟨⟩ o₁ (hgone | hgoing)
  · exact (watched_gone _ hgone).mono fun _ _ hgone => Passed.gone hgone _
  · exact watched_checkpointRound hgoing

end Calls

section Actions

variable {w w' : Session} {o : Owner} {actions : List OwnerAction}

/-- Between two calls of the owner. -/
def Stands (w : Session) (o : Owner) : Prop :=
  w.gone = true ∨ w.call = none ∧ Coherent w o

/-- A call that returns leaves what a transaction relies on. -/
theorem carries_note {mark : Note} (h : Runs w) (hopen : (tell w ⟨.note mark, ()⟩).gone = false) :
    Carries w (tell w ⟨.note mark, ()⟩) := by
  cases mark <;>
    exact ⟨⟨hopen, h.bound, h.undrained⟩, rfl, rfl, fun _ _ => rfl, id, id, id⟩

theorem watched_mark {mark : Note} (h : Coherent w o) (haccepts : accepts w ⟨.note mark, ()⟩ = true)
    (hcall : (tell w ⟨.note mark, ()⟩).call = none) :
    Watched session (fun w' result => Stands w' result.2)
      ((liftM (note mark) : OwnerCode Unit) o) w := by
  refine watched_tell fun _ _ => ⟨haccepts, watched_done_iff.mpr ?_⟩
  by_cases hgone : (tell w ⟨.note mark, ()⟩).gone = true
  · exact .inl hgone
  · exact .inr ⟨hcall, h.carried (carries_note h.runs (by simpa using hgone))⟩

theorem watched_gone_mark {mark : Note} (h : w.gone = true) :
    Watched session (fun w' result => Stands w' result.2)
      ((liftM (note mark) : OwnerCode Unit) o) w :=
  (watched_gone _ h).mono fun _ _ => .inl

theorem watched_refused (hattached : w.attached = none) : Watched session
    (fun w' result => Stands w' result.2)
    ((liftM (note (.attachGuest .stateError)) : OwnerCode Unit) o) w := by
  refine watched_tell fun _ _ => ⟨rfl, watched_done_iff.mpr (.inl ?_)⟩
  have hnow : (tell w ⟨.note (.attachGuest .stateError), ()⟩).attached = some .stateError := by
    change (w.attached <|> some .stateError) = _
    rw [hattached]
    rfl
  simp [Session.gone, Session.refused, hnow]

/-- A guest that nothing has been asked of. -/
structure Fresh (s : Adapter) : Prop where
  bound : s.guest.bound = true
  sequence : s.guest.sequence = 0
  idle : s.runPending = false

/-- The first attach of an owner is refused, or fails, or binds its guest. -/
theorem watched_attachGuest {adapter : Adapter} (h : Fresh adapter) :
    Watched session (fun w' result => w'.gone = true ∨
      (result.1 = .stateError ∧ w'.attached = none) ∨ (w'.call = none ∧ Coherent w' result.2))
      (OwnerThread.attachGuest ⟨adapter, {}⟩) {} := by
  refine watched_load rfl fun state _ => ?_
  have hgrows := grows_load {} .state state
  have hnone : (tell {} ⟨.load .state, state⟩).call = none := hgrows.toFollows.outside rfl
  change Watched session _ ((if state ≠ .startedUnattached then _ else _ : OwnerCode LiveResult) _)
    _
  split
  · exact watched_done_iff.mpr (.inr (.inl ⟨rfl, rfl⟩))
  refine watched_store rfl ?_
  refine watched_tell fun bound _ => ⟨rfl, ?_⟩
  cases bound with
  | false =>
      exact watched_store rfl (watched_done_iff.mpr (.inr (.inl ⟨rfl, rfl⟩)))
  | true =>
      refine watched_modify (watched_store rfl ?_)
      refine watched_get ?_
      split
      · refine Watched.mono (Q := fun w' _ => w'.gone = true) ?_ fun _ _ => .inl
        refine watched_failAndDetach ⟨rfl, rfl, rfl⟩ (excusable_outside ?_) (by simp) _ _
        exact hnone
      · refine watched_plain rfl fun _ => watched_done_iff.mpr (.inr (.inr ⟨hnone, rfl,
          { sequence := 0, horizon := 0 }, ?_, ?_⟩))
        · exact ⟨rfl, h.bound, UInt64.zero_le, fun _ => ⟨rfl, h.sequence⟩,
            fun hpending => absurd (h.idle.symm.trans hpending) (by simp)⟩
        · exact ⟨⟨rfl, rfl, rfl⟩, rfl, rfl, rfl, rfl, rfl, rfl,
            fun entry hentry => absurd hentry List.not_mem_nil, rfl, rfl, rfl, rfl⟩

theorem watched_attachGuest_again (h : Coherent w o) (hcall : w.call = none) :
    Watched session (fun w' result => Stands w' result.2) (OwnerAction.attachGuest.code o) w := by
  have hruns := h.runs
  refine Watched.bind
    (Watched.mono (Q := fun w' result => w'.call = none ∧ Coherent w' result.2) ?_ ?_)
  · refine watched_load hruns.opened fun state hstate => ?_
    obtain ⟨hstates, -⟩ := hstate hruns.bound hruns.undrained
    have hgrows := grows_load w .state state
    change Watched session _
      ((if state ≠ .startedUnattached then _ else _ : OwnerCode LiveResult) _) _
    rw [if_pos (by rcases hstates with rfl | rfl <;> simp)]
    exact watched_done_iff.mpr ⟨hgrows.toFollows.outside hcall, h.grows hgrows⟩
  · rintro w₁ ⟨result, o₁⟩ ⟨hcall₁, hcoherent⟩
    exact watched_mark hcoherent rfl hcall₁

theorem watched_reportProducerFailure (h : Coherent w o) (hcall : w.call = none)
    (subcode : UInt32) : Watched session (fun w' result => Stands w' result.2)
      ((OwnerAction.reportProducerFailure subcode).code o) w := by
  have hruns := h.runs
  refine Watched.bind (Watched.mono (Q := fun w' result => Stands w' result.2) ?_ ?_)
  · change Watched session _ ((if subcode = 0 then _ else _ : OwnerCode LiveResult) o) w
    split
    · exact watched_done_iff.mpr (.inr ⟨hcall, h⟩)
    refine watched_load hruns.opened fun state hstate => ?_
    obtain ⟨hstates, -⟩ := hstate hruns.bound hruns.undrained
    have hgrows := grows_load w .state state
    have hruns₁ := hruns.grows hgrows
    change Watched session _ ((if state ≠ .running ∧ _ then _ else _ : OwnerCode LiveResult) _) _
    rw [if_neg (by rcases hstates with rfl | rfl <;> simp)]
    refine watched_load hruns₁.opened fun valid hvalid => ?_
    obtain ⟨m, -, hserves⟩ := (h.grows hgrows).serves
    obtain rfl : valid = true := (hvalid hruns₁.bound).trans hserves.valid
    refine watched_lift ((watched_firstFatal hruns₁ (excusable_outside
      (hgrows.toFollows.outside hcall)) (by simp) _ _).mono ?_)
    rintro w₂ won hgone
    exact (watched_gone _ hgone).mono fun _ _ => .inl
  · rintro w₁ ⟨result, o₁⟩ (hgone | ⟨hcall₁, hcoherent⟩)
    · exact watched_gone_mark hgone
    · exact watched_mark hcoherent rfl hcall₁

theorem watched_checkpoint (h : Coherent w o) :
    Watched session (fun w' result => Stands w' result.2)
      (OwnerAction.ownerCheckpoint.code o) w := by
  have hruns := h.runs
  refine watched_get (watched_lift (watched_tell fun _ _ => ⟨rfl, watched_done_iff.mpr ?_⟩))
  have hcoherent : Coherent (tell w ⟨.note (.checkpointCalled o.adapter), ()⟩) o :=
    h.carried (carries_note hruns hruns.opened)
  refine Watched.bind ((watched_ownerCheckpoint ⟨hcoherent, rfl, ?_⟩).mono ?_)
  · by_cases hhealthy : healthy o.adapter = true
    · exact .inr (.inl ⟨_, rfl, rfl, rfl, hhealthy, decide_eq_true_iff⟩)
    · exact .inl (by simp [Session.excusable, OwnerSession.tell, Story.tell, hhealthy])
  · rintro w₁ ⟨result, o₁⟩ ((hgone | ⟨rfl, hfinalized⟩) | ⟨hexcusable, hcoherent₁⟩)
    · exact watched_gone_mark hgone
    · refine watched_tell fun _ _ => ⟨?_, watched_done_iff.mpr (.inl ?_)⟩
      · change w₁.answers .ok = true
        rw [Session.answers]
        split <;> simp [hfinalized]
      · simp only [Session.finalized, Bool.and_eq_true] at hfinalized
        change (w₁.lost || (w₁.completed || w₁.drained) || _) = true
        simp [hfinalized.1.1.1.1.1]
    · refine watched_mark hcoherent₁ ?_ rfl
      change w₁.answers result = true
      rw [Session.excusable] at hexcusable
      rw [Session.answers]
      cases hcall : w₁.call with
      | none => rfl
      | some c =>
          rw [hcall] at hexcusable
          simp only [Bool.or_eq_true, Bool.and_eq_true] at hexcusable ⊢
          exact .inl (hexcusable.imp id And.right)

theorem watched_action (action : OwnerAction) (h : Stands w o) :
    Watched session (fun w' result => Stands w' result.2) (action.code o) w := by
  rcases h with hgone | ⟨hcall, hcoherent⟩
  · exact (watched_gone _ hgone).mono fun _ _ => .inl
  cases action with
  | attachGuest => exact watched_attachGuest_again hcoherent hcall
  | operation step =>
      refine (watched_guest (bound_operation step) hcoherent (.inl hcall) fun m hlinked =>
        keeps_operation step hlinked).mono ?_
      rintro w₁ ⟨result, o₁⟩ (hgone | ⟨hfollows, hcoherent₁⟩)
      · exact .inl hgone
      · exact .inr ⟨hfollows.outside hcall, hcoherent₁⟩
  | ownerCheckpoint => exact watched_checkpoint hcoherent
  | reportProducerFailure subcode => exact watched_reportProducerFailure hcoherent hcall subcode

theorem watched_actions (h : Stands w o) :
    Watched session (fun _ _ => True) (ownerRun actions o) w := by
  induction actions generalizing w o with
  | nil => exact watched_done_iff.mpr trivial
  | cons action rest ih =>
      refine Watched.bind ((watched_action action h).mono ?_)
      rintro w₁ ⟨_, o₁⟩ hstands
      exact ih hstands

/-- The session accepts every step of an owner that begins with an attach. -/
theorem watched_ownerRun {adapter : Adapter} (h : Fresh adapter) :
    Watched session (fun _ _ => True) (ownerRun (.attachGuest :: actions) ⟨adapter, {}⟩) {} := by
  refine Watched.bind (Watched.bind ((watched_attachGuest h).mono ?_))
  rintro w₁ ⟨result, o₁⟩ (hgone | ⟨rfl, hattached⟩ | ⟨hcall, hcoherent⟩)
  · exact (watched_gone_mark hgone).mono fun _ _ => watched_actions
  · exact (watched_refused hattached).mono fun _ _ => watched_actions
  · exact Watched.mono (watched_mark hcoherent rfl hcall) fun _ _ => watched_actions

end Actions

end EspNp2.LiveService.CheckpointSession
