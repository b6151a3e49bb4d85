import EspNp2.GuestAdapter.AdapterOperations
import EspNp2.Library.CallMonitor

/-!
What the guest effects of an operation leave alone: they call hooks only, they keep the
sequence and the pending run, and they never turn the frame clock back.
-/

namespace EspNp2.GuestAdapter.AdapterFrame

open EspNp2.GuestAdapter.AdapterOperations
open EspNp2.GuestAdapter.AdapterState
open EspNp2.Library.CallMonitor
open EspNp2.Library.CallProgram

abbrev CallLabel := Label Call Reply

/-- A call of a hook of the host, not of the sink. -/
def IsHook (label : CallLabel) : Prop :=
  match label.1 with
  | .cpuPosition | .schedule .. | .cancel _ | .isWork _ | .irq .. | .extension _ => True
  | _ => False

/-- A call that reads the clock of the host. -/
def ReadsClock (label : CallLabel) : Prop := label.1 = .cpuPosition

theorem ReadsClock.isHook {label : CallLabel} (h : ReadsClock label) : IsHook label := by
  rw [IsHook, h]
  trivial

/-- The fields that decide what is committed. -/
structure Core where
  sink : Option Sink
  sequence : UInt64
  bound : Bool
  runPending : Bool
  runTimestamp : UInt64
  runSequence : UInt64
  runOffset : Nat
  runCount : Nat
  runTransaction : Token
  runTransactionActive : Bool

def core (s : Adapter) : Core where
  sink := s.sink
  sequence := s.guest.sequence
  bound := s.guest.bound
  runPending := s.runPending
  runTimestamp := s.runTimestamp
  runSequence := s.runSequence
  runOffset := s.runOffset
  runCount := s.runCount
  runTransaction := s.runTransaction
  runTransactionActive := s.runTransactionActive

/-- The core stays and the clock does not run backwards. -/
def Advances (s s' : Adapter) : Prop :=
  core s' = core s ∧ s.guest.frameTimestamp ≤ s'.guest.frameTimestamp

instance : Std.Refl Advances := ⟨fun _ => ⟨rfl, UInt64.le_refl _⟩⟩

instance : IsTrans Adapter Advances :=
  ⟨fun _ _ _ h h' => ⟨h'.1.trans h.1, UInt64.le_trans h.2 h'.2⟩⟩

abbrev Effect {α : Type} (program : Guest α) : Prop := Within IsHook Advances program

theorem advances_of_eq {s s' : Adapter} (hcore : core s' = core s)
    (hframe : s'.guest.frameTimestamp = s.guest.frameTimestamp) : Advances s s' :=
  ⟨hcore, by rw [hframe]; exact UInt64.le_refl _⟩

theorem effect_callOut {request : Call} (h : ∀ reply, IsHook ⟨request, reply⟩) :
    Effect (callOut request) :=
  fun s reply => ⟨h reply, Std.Refl.refl s⟩

theorem effect_modifyGuest {change : GuestState → GuestState}
    (h : ∀ g, (change g).sequence = g.sequence ∧ (change g).bound = g.bound ∧
      (change g).frameTimestamp = g.frameTimestamp) : Effect (modifyGuest change) := by
  refine within_modify fun s => advances_of_eq ?_ (h s.guest).2.2
  simp [core, (h s.guest).1, (h s.guest).2.1]

theorem effect_onlyIf {condition : Prop} [Decidable condition] {body : Guest Unit}
    (h : Effect body) : Effect (onlyIf condition body) :=
  within_ite (fun _ => h) fun _ => within_pure _

theorem effect_discard {α : Type} {program : Guest α} (h : Effect program) :
    Effect (discard program) :=
  fun s => Makes.bind ((h s).mono fun _ hresult => hresult)

theorem effect_fail (reason : String) : Effect (fail reason) := by
  refine within_modify fun s => ?_
  split
  · exact Std.Refl.refl s
  · exact advances_of_eq rfl rfl

theorem effect_currentCpuPosition : Effect currentCpuPosition :=
  within_get.bind fun _ => within_ite (fun _ => effect_callOut fun _ => trivial)
    fun _ => within_pure _

theorem effect_timerTrace : Effect timerTrace := by
  refine within_get.bind fun s => ?_
  split
  · exact within_pure _
  · refine within_ite (fun _ => within_pure _) fun _ =>
      within_ite (fun _ => effect_fail _) fun _ => ?_
    exact within_modify fun s => advances_of_eq rfl rfl

theorem effect_timerIsWork (timer : UInt8) : Effect (timerIsWork timer) :=
  within_get.bind fun _ => within_ite (fun _ => effect_callOut fun _ => trivial)
    fun _ => within_pure _

theorem effect_scheduleEvent (timer : UInt8) (period : UInt64) (absolute : Bool) :
    Effect (scheduleEvent timer period absolute) :=
  within_get.bind fun _ => within_ite
    (fun _ => within_ite (fun _ => effect_fail _) fun _ => effect_callOut fun _ => trivial)
    fun _ => within_pure _

theorem effect_cancelEvent (timer : UInt8) : Effect (cancelEvent timer) :=
  within_get.bind fun _ => within_ite (fun _ => effect_callOut fun _ => trivial)
    fun _ => within_pure _

theorem setPicSource_core (g : GuestState) (source : Source) (value : Bool) :
    (GuestState.setPicSource g source value).sequence = g.sequence ∧
      (GuestState.setPicSource g source value).bound = g.bound ∧
      (GuestState.setPicSource g source value).frameTimestamp = g.frameTimestamp := by
  cases source <;> exact ⟨rfl, rfl, rfl⟩

theorem effect_picSetLine (source : Source) (other : Option Source) (line : UInt32) :
    Effect (picSetLine source other line) := by
  refine within_get.bind fun s => within_ite (fun _ => within_pure _) fun _ => ?_
  refine Within.bind (effect_onlyIf (effect_callOut fun _ => trivial)) fun _ => ?_
  refine Within.bind ?_ fun _ => within_pure _
  exact effect_modifyGuest fun g => setPicSource_core g source true

theorem effect_picSetCause (cause : UInt8) (source : Source) (other : Option Source)
    (line : UInt32) : Effect (picSetCause cause source other line) :=
  within_ite (fun _ => effect_picSetLine source other line) fun _ => within_pure _

theorem effect_picSet (cause : UInt8) : Effect (picSet cause) := by
  refine within_get.bind fun s => ?_
  refine Within.bind (effect_picSetCause _ _ _ _) fun _ => ?_
  exact Within.bind (effect_picSetCause _ _ _ _) fun _ => within_pure _

theorem effect_picResetIfIdle (source : Source) : Effect (picResetIfIdle source) := by
  refine within_get.bind fun s => within_ite (fun _ => within_pure _) fun _ => ?_
  refine Within.bind (effect_modifyGuest fun g => setPicSource_core g source false) fun _ => ?_
  refine within_ite (fun _ => within_pure _) fun _ =>
    within_ite (fun _ => within_pure _) fun _ => ?_
  exact Within.bind (effect_onlyIf (effect_callOut fun _ => trivial)) fun _ => effect_timerTrace

section Pcm

theorem effect_pcmRecalcPosition : Effect pcmRecalcPosition := by
  refine within_get.bind fun s => within_ite (fun _ => within_pure _) fun _ => ?_
  refine effect_currentCpuPosition.bind fun position => ?_
  exact effect_modifyGuest fun g => ⟨rfl, rfl, rfl⟩

theorem effect_pcmSetRate (rateIndex : UInt8) : Effect (pcmSetRate rateIndex) :=
  within_get.bind fun _ => effect_modifyGuest fun _ => ⟨rfl, rfl, rfl⟩

theorem effect_pcmgenIntrq : Effect pcmgenIntrq := by
  refine effect_currentCpuPosition.bind fun now => within_get.bind fun s => ?_
  refine within_ite (fun _ => within_pure _) fun _ =>
    within_ite (fun _ => within_pure _) fun _ => ?_
  refine (effect_timerIsWork tracePcm).bind fun working => ?_
  refine within_ite (fun _ => within_pure _) fun _ => ?_
  refine effect_pcmRecalcPosition.bind fun _ => within_get.bind fun s => ?_
  refine within_ite (fun _ => Within.bind ?_ fun _ => within_pure _) fun _ => within_pure _
  exact effect_modifyGuest fun g => ⟨rfl, rfl, rfl⟩

theorem effect_pcmSetNextInterrupt : Effect pcmSetNextInterrupt := by
  refine within_get.bind fun s => within_ite (fun _ => within_pure _) fun _ => ?_
  refine within_ite (fun _ => effect_scheduleEvent _ _ _) fun _ => ?_
  refine within_ite (fun _ => effect_scheduleEvent _ _ _) fun _ => ?_
  refine Within.bind ?_ fun _ => effect_scheduleEvent _ _ _
  exact effect_modifyGuest fun g => ⟨rfl, rfl, rfl⟩

end Pcm

section Clock

theorem advance_frame {g : GuestState} {plan plan' : SyncPlan} {position : UInt32}
    (h : plan.advance g position = .ok plan') : plan.frameTimestamp ≤ plan'.frameTimestamp := by
  simp only [SyncPlan.advance] at h
  split at h
  · cases h
  split at h
  · cases h
  rename_i hframe
  cases h
  change plan.frameTimestamp ≤ plan.frameTimestamp + _
  generalize (plan.frameRemainder.toUInt64 + (position - plan.lastCpuPosition).toUInt64) / 1024 =
    frames at hframe ⊢
  rw [gt_iff_lt, UInt64.not_lt] at hframe
  rw [UInt64.le_iff_toNat_le] at hframe ⊢
  rw [UInt64.toNat_sub, UInt64.toNat_neg] at hframe
  rw [UInt64.toNat_add]
  have hframes := frames.toNat_lt
  have hnow := plan.frameTimestamp.toNat_lt
  simp at hframe
  omega

/-- A plan that does not turn the clock back. -/
def Ahead (s : Adapter) : Except SyncError SyncPlan → Prop
  | .error _ => True
  | .ok plan => s.guest.frameTimestamp ≤ plan.frameTimestamp

theorem makes_currentCpuPosition (s : Adapter) :
    Makes ReadsClock (fun result => result.2 = s) (currentCpuPosition s) := by
  change Makes ReadsClock _ ((if s.hooks.cpuPosition = true then callOut .cpuPosition
    else pure s.manualCpuPosition : Guest UInt32) s)
  split
  · exact fun reply => ⟨rfl, rfl⟩
  · rfl

theorem makes_syncPlanCompute (s : Adapter) :
    Makes ReadsClock (fun result => Ahead s result.1 ∧ result.2 = s) (syncPlanCompute s) := by
  refine Makes.bind ((makes_currentCpuPosition s).mono ?_)
  rintro ⟨position, s'⟩ rfl
  change Makes ReadsClock _ ((if s'.guest.cpuPositionValid = false then _ else _ : Guest _) s')
  split
  · exact ⟨UInt64.le_refl _, rfl⟩
  · refine ⟨?_, rfl⟩
    change Ahead s' (SyncPlan.advance s'.guest (SyncPlan.current s'.guest position) position)
    generalize hplan : SyncPlan.advance s'.guest (SyncPlan.current s'.guest position) position =
      result
    cases result with
    | error status => trivial
    | ok plan => exact advance_frame hplan

theorem makes_pcmSyncPlan (registerIndex : UInt8) (s : Adapter) :
    Makes ReadsClock (fun result => Ahead s result.1 ∧ result.2 = s)
      (pcmSyncPlan registerIndex s) := by
  refine Makes.bind ((makes_syncPlanCompute s).mono ?_)
  rintro ⟨result, s'⟩ ⟨hahead, rfl⟩
  cases result with
  | error status => exact ⟨trivial, rfl⟩
  | ok plan =>
      change Makes ReadsClock _ ((if _ then syncPlanComputeFollowing plan else _ : Guest _) s')
      split
      · refine Makes.bind ((makes_currentCpuPosition s').mono ?_)
        rintro ⟨position, s''⟩ rfl
        refine ⟨?_, rfl⟩
        change Ahead s'' (plan.advance s''.guest position)
        generalize hplan : plan.advance s''.guest position = result
        cases result with
        | error status => trivial
        | ok plan' => exact UInt64.le_trans hahead (advance_frame hplan)
      · exact ⟨hahead, rfl⟩

/-- The fields of a state whose clock was set by a plan. -/
theorem advances_syncPlanApply {s : Adapter} {plan : SyncPlan}
    (h : s.guest.frameTimestamp ≤ plan.frameTimestamp) :
    Makes IsHook (fun result => Advances s result.2) (syncPlanApply plan s) :=
  ⟨rfl, h⟩

theorem effect_audioSync : Effect audioSync := by
  intro s
  refine Makes.bind (((makes_syncPlanCompute s).weaken fun _ => ReadsClock.isHook).mono ?_)
  rintro ⟨result, s'⟩ ⟨hahead, rfl⟩
  cases result with
  | error status => cases status <;> exact effect_fail _ s'
  | ok plan => exact advances_syncPlanApply hahead

end Clock

section Equations

variable {α β : Type}

def failing (s : Adapter) (reason : String) : Adapter :=
  if s.failure.isSome then s else { s with failure := some reason }

theorem failing_core (s : Adapter) (reason : String) :
    core (failing s reason) = core s ∧ (failing s reason).guest = s.guest := by
  rw [failing]
  split <;> exact ⟨rfl, rfl⟩

theorem ite_run {c : Prop} [Decidable c] (first second : Guest α) (s : Adapter) :
    (if c then first else second) s = if c then first s else second s := by
  split <;> rfl

theorem get_bind_run (rest : Adapter → Guest β) (s : Adapter) : (get >>= rest) s = rest s s := rfl

/-- The calls of a flush. -/
theorem flushPendingRun_eq (s : Adapter) : flushPendingRun s =
    if s.runPending = false then .done (true, s)
    else if s.trace.isNone ∧ s.sink.isNone then
      .done (true, { s with runPending := false, runCount := 0 })
    else if s.runCount = 0 ∨ s.runCount > maxDataRun then
      .done (false, failing s "PCM DATA_RUN length")
    else if dataRunTraceFull s then
      .done (false, failing s "reserved PCM DATA_RUN trace capacity lost")
    else if s.sink.isSome ∧ s.runTransactionActive then
      .call (.commitDataRun s.runTransaction (pendingRun s)) fun token =>
        .call (.commitHorizon token s.runTimestamp) fun token =>
          .done (true, closeRun { countDataRun s with runTransaction := token })
    else .done (true, closeRun (countDataRun s)) := by
  rw [flushPendingRun, get_bind_run]
  simp only [ite_run]
  split
  · rfl
  split
  · rfl
  split
  · rfl
  split
  · rfl
  · change (onlyIf _ _ >>= fun _ => _) (countDataRun s) = _
    rw [onlyIf]
    split <;> rfl

/-- A reservation of a bound sink: refused by the adapter itself, or asked for. -/
theorem transactionBegin_cases {s : Adapter} (hsink : s.sink.isSome = true) (kind : Kind)
    {bytes : Nat} (hbytes : kind = .dataRun → bytes ≠ 0) :
    (∃ token, transactionBegin kind bytes s = .done ((.retry, token), s)) ∨
      transactionBegin kind bytes s =
        .call (.reserveChecked kind bytes) fun reply => .done (reply, s) := by
  have hreserve : reserveChecked kind bytes s =
      .call (.reserveChecked kind bytes) fun reply => .done (reply, s) := by
    rw [reserveChecked, get_bind_run, if_pos hsink]
    rfl
  have hrefuse : ∀ reason, refuseTrace reason s = .done ((.retry, s.runTransaction), s) := by
    intro reason
    rw [refuseTrace, get_bind_run, onlyIf, if_neg (by simp [Option.isSome_iff_ne_none.mp hsink])]
    rfl
  rw [transactionBegin, get_bind_run]
  simp only [ite_run]
  split
  · exact .inl ⟨_, rfl⟩
  cases kind with
  | event =>
      simp only [ite_run]
      split
      · exact .inl ⟨_, hrefuse _⟩
      · exact .inr hreserve
  | reset =>
      simp only [ite_run]
      split
      · exact .inl ⟨_, hrefuse _⟩
      · exact .inr hreserve
  | dataRun =>
      simp only [ite_run, if_neg (hbytes rfl)]
      split
      · exact .inl ⟨_, hrefuse _⟩
      split
      · exact .inl ⟨_, hrefuse _⟩
      · exact .inr hreserve

/-- A publication of progress: to a sink that takes it, or nowhere. -/
theorem publishProgress_cases (s : Adapter) (frameTimestamp : UInt64) :
    publishProgress frameTimestamp s = .done (.ok, s) ∨
      publishProgress frameTimestamp s =
        .call (.publishProgressChecked frameTimestamp) fun reply => .done (reply, s) := by
  rw [publishProgress, get_bind_run]
  generalize s.sink = sink
  cases sink with
  | none => exact .inl rfl
  | some sink =>
      simp only [ite_run]
      split
      · exact .inr rfl
      · exact .inl rfl

end Equations

section Effects

theorem effect_pcmExpire : Effect pcmExpire := by
  refine within_get.bind fun s => within_ite (fun _ => ?_) fun _ => effect_pcmSetNextInterrupt
  refine effect_audioSync.bind fun _ => within_get.bind fun s => ?_
  refine within_ite (fun _ => Within.bind ?_ fun _ => ?_) fun _ => effect_pcmSetNextInterrupt
  · exact effect_modifyGuest fun g => ⟨rfl, rfl, rfl⟩
  · exact effect_onlyIf ((effect_discard (effect_picSet 4)).bind fun _ => effect_timerTrace)

theorem effect_sharedPcmCause (timer : UInt8) : Effect (sharedPcmCause timer) := by
  refine within_get.bind fun s => within_ite (fun _ => ?_) fun _ => within_pure _
  exact effect_pcmgenIntrq.bind fun _ => within_get.bind fun _ => within_pure _

theorem effect_timerEffects (timer : UInt8) : Effect (timerEffects timer) := by
  refine within_get.bind fun _ => (effect_sharedPcmCause timer).bind fun shared =>
    within_get.bind fun s => ?_
  refine Within.bind (effect_onlyIf (effect_modifyGuest fun g => ⟨rfl, rfl, rfl⟩)) fun _ => ?_
  refine Within.bind (effect_onlyIf (effect_discard (effect_picSet _))) fun _ => ?_
  exact effect_timerTrace.bind fun _ => within_get.bind fun _ => effect_scheduleEvent _ _ _

theorem effect_switchTimer (timer value old : UInt8) : Effect (switchTimer timer value old) := by
  refine within_ite (fun _ => (effect_timerIsWork timer).bind fun _ => ?_) fun _ => ?_
  · exact within_ite (fun _ => within_get.bind fun _ => effect_scheduleEvent _ _ _)
      fun _ => within_pure _
  · exact within_ite (fun _ => effect_cancelEvent timer) fun _ => within_pure _

theorem effect_writeTimerControl (value : UInt8) : Effect (writeTimerControl value) := by
  refine within_get.bind fun s => Within.bind (effect_modifyGuest fun g =>
    ⟨rfl, rfl, rfl⟩) fun _ => ?_
  refine (effect_switchTimer _ _ _).bind fun _ => (effect_switchTimer _ _ _).bind fun _ => ?_
  exact within_ite (fun _ => effect_picResetIfIdle _) fun _ => within_pure _

theorem effect_writeRegister (address : UInt16) (value : UInt8) :
    Effect (writeRegister address value) := by
  refine Within.bind (effect_modifyGuest fun g => ⟨rfl, rfl, rfl⟩) fun _ => ?_
  refine within_ite (fun _ => effect_modifyGuest fun g => ⟨rfl, rfl, rfl⟩) fun _ => ?_
  refine within_ite (fun _ => effect_modifyGuest fun g => ⟨rfl, rfl, rfl⟩) fun _ => ?_
  refine within_ite (fun _ => effect_modifyGuest fun g => ⟨rfl, rfl, rfl⟩) fun _ => ?_
  exact within_ite (fun _ => effect_writeTimerControl value) fun _ => within_pure _

theorem effect_opnaSetExtension (enabled : Bool) : Effect (opnaSetExtension enabled) := by
  refine Within.bind (effect_modifyGuest fun g => ⟨rfl, rfl, rfl⟩) fun _ =>
    within_get.bind fun s => ?_
  exact within_ite (fun _ => effect_callOut fun _ => trivial) fun _ => within_pure _

theorem effect_writeFifo (value : UInt8) (cpuPosition : UInt32) :
    Effect (writeFifo value cpuPosition) := by
  refine within_get.bind fun s => ?_
  refine Within.bind (effect_onlyIf (effect_modifyGuest fun g => ⟨rfl, rfl, rfl⟩)) fun _ => ?_
  refine Within.bind (effect_onlyIf (effect_modifyGuest fun g => ⟨rfl, rfl, rfl⟩)) fun _ => ?_
  refine Within.bind (effect_modifyGuest fun g => ⟨rfl, rfl, rfl⟩) fun _ => ?_
  refine Within.bind (effect_onlyIf (effect_pcmSetRate _)) fun _ => ?_
  refine Within.bind (effect_modifyGuest fun g => ⟨rfl, rfl, rfl⟩) fun _ => ?_
  refine Within.bind (effect_onlyIf (effect_modifyGuest fun g => ⟨rfl, rfl, rfl⟩)) fun _ => ?_
  refine within_get.bind fun _ => Within.bind (effect_onlyIf effect_pcmSetNextInterrupt) fun _ => ?_
  exact effect_onlyIf (effect_picResetIfIdle _)

theorem effect_writeDac (value : UInt8) : Effect (writeDac value) := by
  refine within_get.bind fun s => ?_
  refine Within.bind (effect_onlyIf (effect_modifyGuest fun g => ⟨rfl, rfl, rfl⟩)) fun _ => ?_
  refine Within.bind (effect_onlyIf ?_) fun _ => ?_
  · refine Within.bind (effect_modifyGuest fun g => ⟨rfl, rfl, rfl⟩) fun _ => ?_
    exact within_get.bind fun _ => effect_pcmSetRate _
  · exact within_get.bind fun _ => effect_onlyIf effect_pcmSetNextInterrupt

theorem effect_writePcmRegister (registerIndex value : UInt8) (cpuPosition : UInt32) :
    Effect (writePcmRegister registerIndex value cpuPosition) := by
  refine within_ite (fun _ => Within.bind ?_ fun _ => effect_opnaSetExtension _) fun _ => ?_
  · exact effect_modifyGuest fun g => ⟨rfl, rfl, rfl⟩
  refine within_ite (fun _ => ?_) fun _ => ?_
  · exact within_ite (fun _ => effect_modifyGuest fun g => ⟨rfl, rfl, rfl⟩) fun _ => within_pure _
  refine within_ite (fun _ => effect_writeFifo _ _) fun _ => ?_
  exact within_ite (fun _ => effect_writeDac _) fun _ => within_pure _

end Effects

end EspNp2.GuestAdapter.AdapterFrame
