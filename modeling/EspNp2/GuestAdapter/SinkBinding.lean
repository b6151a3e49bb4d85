import EspNp2.GuestAdapter.AdapterFrame

/-!
No operation of the guest changes the sink that is bound, and a checkpoint only makes calls
that cannot be refused.
-/

namespace EspNp2.GuestAdapter.SinkBinding

open EspNp2.GuestAdapter.AdapterFrame
open EspNp2.GuestAdapter.AdapterOperations
open EspNp2.GuestAdapter.AdapterState
open EspNp2.Library.CallMonitor
open EspNp2.Library.CallProgram

variable {α β : Type} {program : Guest α}

/-- A call that a sink cannot refuse: a commit, a progress or a hook. -/
def Finishing : Call → Bool
  | .reserveChecked .. | .extendChecked .. | .commitEvent .. | .commitPcmByte .. => false
  | _ => true

abbrev Bound (program : Guest α) : Prop :=
  Within (fun _ => True) (Preserves fun s : Adapter => s.sink) program

/-- The sink stays bound, and it is asked for nothing. -/
abbrev Finishes (program : Guest α) : Prop :=
  Within (fun label => Finishing label.1 = true) (Preserves fun s : Adapter => s.sink) program

theorem bound_of_finishes (h : Finishes program) : Bound program :=
  fun s => (h s).weaken fun _ _ => trivial

theorem finishes_effect (h : Effect program) : Finishes program := by
  intro s
  refine ((h s).weaken ?_).mono fun result hadvances => congrArg Core.sink hadvances.1
  rintro ⟨request, reply⟩ hhook
  cases request <;> first | rfl | exact hhook.elim

theorem bound_effect (h : Effect program) : Bound program := bound_of_finishes (finishes_effect h)

theorem bound_call (request : Call) : Bound (callOut request) := fun _ _ => ⟨trivial, rfl⟩

theorem bound_onlyIf {condition : Prop} [Decidable condition] {body : Guest Unit} (h : Bound body) :
    Bound (onlyIf condition body) :=
  within_ite (fun _ => h) fun _ => within_pure _

theorem finishes_flushPendingRun : Finishes flushPendingRun := by
  have hfailing : ∀ s reason, (failing s reason).sink = s.sink := fun s reason =>
    congrArg Core.sink (failing_core s reason).1
  intro s
  rw [flushPendingRun_eq]
  split
  · exact rfl
  split
  · exact rfl
  split
  · exact hfailing _ _
  split
  · exact hfailing _ _
  split
  · exact fun _ => ⟨rfl, fun _ => ⟨rfl, rfl⟩⟩
  · exact rfl

theorem bound_flushPendingRun : Bound flushPendingRun := bound_of_finishes finishes_flushPendingRun

theorem bound_refuseTrace (reason : String) : Bound (refuseTrace reason) :=
  within_get.bind fun _ => (bound_onlyIf (bound_effect (effect_fail reason))).bind fun _ =>
    within_pure _

theorem bound_transactionBegin (kind : Kind) (bytes : Nat) :
    Bound (transactionBegin kind bytes) := by
  have hreserve : Bound (reserveChecked kind bytes) :=
    within_get.bind fun s => within_ite (fun _ => bound_call _) fun _ => within_pure _
  refine within_get.bind fun s => within_ite (fun _ => within_pure _) fun _ => ?_
  cases kind with
  | event | reset => exact within_ite (fun _ => bound_refuseTrace _) fun _ => hreserve
  | dataRun =>
      refine within_ite (fun _ => (bound_effect (effect_fail _)).bind fun _ =>
        within_pure _) fun _ => ?_
      refine within_ite (fun _ => bound_refuseTrace _) fun _ => ?_
      exact within_ite (fun _ => bound_refuseTrace _) fun _ => hreserve

theorem bound_transactionExtend (bytes : Nat) : Bound (transactionExtend bytes) := by
  refine within_get.bind fun s => within_ite (fun _ => within_pure _) fun _ => ?_
  refine within_ite (fun _ => (bound_refuseTrace _).bind fun _ => within_pure _) fun _ => ?_
  refine within_ite (fun _ => ?_) fun _ => within_pure _
  exact (bound_call _).bind fun _ => Within.bind (within_modify fun s => rfl) fun _ => within_pure _

theorem bound_prepareEventTransaction (kind : Kind) : Bound (prepareEventTransaction kind) := by
  refine bound_flushPendingRun.bind fun flushed => within_ite (fun _ => ?_) fun _ => ?_
  · exact within_get.bind fun s => (bound_onlyIf (bound_effect (effect_fail _))).bind fun _ =>
      within_pure _
  · refine within_get.bind fun s => within_ite (fun _ => ?_) fun _ => bound_transactionBegin kind 0
    exact (bound_effect (effect_fail _)).bind fun _ => within_pure _

theorem bound_commitEvent (transaction : Token) (opcode payload : UInt32) :
    Bound (commitEvent transaction opcode payload) := by
  refine within_get.bind fun s => Within.bind (within_modify fun s => rfl) fun _ => ?_
  refine Within.bind (bound_onlyIf ?_) fun _ => within_modify fun s => rfl
  exact (bound_call _).bind fun _ => within_discard (bound_call _)

theorem bound_beginRun : Bound beginRun := by
  refine bound_flushPendingRun.bind fun flushed => within_ite (fun _ => within_pure _) fun _ => ?_
  refine within_get.bind fun s => within_ite (fun _ => ?_) fun _ => ?_
  · exact (bound_effect (effect_fail _)).bind fun _ => within_pure _
  · refine (bound_transactionBegin _ _).bind fun result =>
      within_ite (fun _ => within_pure _) fun _ => ?_
    exact Within.bind (within_modify fun s => rfl) fun _ => within_pure _

theorem bound_commitPcmByte (starting : Bool) (value : UInt8) :
    Bound (commitPcmByte starting value) := by
  refine Within.bind (bound_onlyIf (within_modify fun s => rfl)) fun _ => ?_
  refine Within.bind (within_modify fun s => rfl) fun _ => within_get.bind fun s => ?_
  refine Within.bind (bound_onlyIf ?_) fun _ => within_modify fun s => rfl
  exact (bound_call _).bind fun _ => within_modify fun s => rfl

theorem bound_prepareByteTransaction : Bound prepareByteTransaction := by
  refine within_get.bind fun _ => within_ite (fun _ => within_pure _) fun _ => ?_
  refine within_ite (fun _ => bound_beginRun) fun _ => ?_
  exact (bound_transactionExtend 1).bind fun _ => within_pure _

theorem steady_semanticCall {P : CallLabel → Prop} {refused : α} {body : Guest α}
    (h : Within P (Preserves fun s : Adapter => s.sink) body) :
    Within P (Preserves fun s : Adapter => s.sink) (semanticCall refused body) := by
  have henter : Within P (Preserves fun s : Adapter => s.sink) semanticEnter := by
    have hfail : ∀ reason, Within P (Preserves fun s : Adapter => s.sink) (fail reason) :=
      fun reason => within_modify fun s => congrArg Core.sink (failing_core s reason).1
    refine within_get_bind fun s => ?_
    simp only [ite_run]
    split
    · exact rfl
    split
    · exact rfl
    split
    · exact ((hfail _).bind fun _ => within_pure _) s
    split
    · exact ((hfail _).bind fun _ => within_pure _) s
    · exact rfl
  refine henter.bind fun entered => within_ite (fun _ => ?_) fun _ => within_pure _
  exact h.bind fun _ => Within.bind (within_modify fun _ => rfl) fun _ => within_pure _

theorem finishes_failSyncPlan (status : SyncError) : Finishes (failSyncPlan status) := by
  cases status <;> exact finishes_effect (effect_fail _)

theorem finishes_syncPlanCompute : Finishes syncPlanCompute := by
  refine (finishes_effect effect_currentCpuPosition).bind fun _ => within_get.bind fun _ => ?_
  exact within_ite (fun _ => within_pure _) fun _ => within_pure _

theorem finishes_syncPlanApply (plan : SyncPlan) : Finishes (syncPlanApply plan) :=
  within_modify fun _ => rfl

theorem finishes_publishPlan (plan : SyncPlan) : Finishes (publishPlan plan) := by
  have hpublish : Finishes (publishProgress plan.frameTimestamp) := by
    intro s
    rcases publishProgress_cases s plan.frameTimestamp with heq | heq
    · rw [heq]
      exact rfl
    · rw [heq]
      exact fun _ => ⟨rfl, rfl⟩
  refine hpublish.bind fun check => within_ite (fun _ => ?_) fun _ => ?_
  · exact (finishes_syncPlanApply plan).bind fun _ => within_pure _
  · refine within_ite (fun _ => within_pure _) fun _ => ?_
    exact (finishes_effect (effect_fail _)).bind fun _ => within_pure _

/-- A checkpoint asks the sink for nothing. -/
theorem finishes_progressCheckpoint : Finishes progressCheckpoint := by
  refine steady_semanticCall (finishes_flushPendingRun.bind fun flushed => ?_)
  refine within_ite (fun _ => ?_) fun _ => within_pure _
  refine finishes_syncPlanCompute.bind fun result => ?_
  cases result with
  | error status => exact (finishes_failSyncPlan status).bind fun _ => within_pure _
  | ok plan => exact finishes_publishPlan plan

theorem bound_opnaWriteRegister (address : UInt16) (value : UInt8) :
    Bound (opnaWriteRegister address value) := by
  refine (bound_prepareEventTransaction .event).bind fun _ => within_ite (fun _ => ?_) fun _ =>
    within_pure _
  exact (bound_effect (effect_writeRegister address value)).bind fun _ => bound_commitEvent _ _ _

theorem bound_opnaReset (capabilities : UInt8) (irq : UInt32) (timerAEvent timerBEvent : UInt8) :
    Bound (opnaReset capabilities irq timerAEvent timerBEvent) := by
  have hcancel : ∀ timer, Bound (cancelEvent timer) :=
    fun timer => bound_effect (effect_cancelEvent timer)
  have heffects : ∀ old, Bound (resetEffects old capabilities irq timerAEvent timerBEvent) :=
    fun old =>
    (hcancel _).bind fun _ => (hcancel _).bind fun _ => (hcancel _).bind fun _ =>
      within_modify fun _ => rfl
  refine within_get.bind fun _ => within_ite (fun _ => ?_) fun _ => heffects _
  refine steady_semanticCall ((bound_prepareEventTransaction .reset).bind fun _ => ?_)
  exact within_ite (fun _ => (heffects _).bind fun _ => bound_commitEvent _ _ _) fun _ =>
    within_pure _

theorem bound_pcm86Write (registerIndex value : UInt8) :
    Bound (pcm86Write registerIndex value) := by
  have hcompute : Bound syncPlanCompute := bound_of_finishes finishes_syncPlanCompute
  refine steady_semanticCall (within_get.bind fun _ => within_ite (fun _ => ?_) fun _ => ?_)
  · exact (bound_effect effect_audioSync).bind fun _ => within_get.bind fun _ => within_pure _
  have hplan : Bound (pcmSyncPlan registerIndex) := by
    refine hcompute.bind fun result => ?_
    cases result with
    | error status => exact within_pure _
    | ok plan =>
        refine within_ite (fun _ => ?_) fun _ => within_pure _
        exact (bound_effect effect_currentCpuPosition).bind fun _ => within_get.bind fun _ =>
          within_pure _
  refine bound_flushPendingRun.bind fun flushed => within_ite (fun _ => ?_) fun _ => within_pure _
  refine hplan.bind fun result => ?_
  cases result with
  | error status =>
      exact (bound_of_finishes (finishes_failSyncPlan status)).bind fun _ => within_pure _
  | ok plan =>
      refine (bound_prepareEventTransaction .event).bind fun _ => within_ite (fun _ => ?_) fun _ =>
        within_pure _
      refine (bound_of_finishes (finishes_syncPlanApply plan)).bind fun _ => ?_
      refine (bound_effect (effect_writePcmRegister _ _ _)).bind fun _ => ?_
      exact (bound_commitEvent _ _ _).bind fun _ => within_pure _

theorem bound_pcm86WriteData (value : UInt8) : Bound (pcm86WriteData value) := by
  refine (bound_effect effect_currentCpuPosition).bind fun cur => steady_semanticCall ?_
  have haccept : ∀ cur starting, Bound (acceptByte cur starting value) := fun _ _ =>
    within_get.bind fun _ => Within.bind (within_modify fun _ => rfl) fun _ =>
      bound_commitPcmByte _ _
  refine bound_prepareByteTransaction.bind fun _ => within_ite (fun _ => ?_) fun _ => ?_
  · exact (haccept _ _).bind fun _ => within_pure _
  · refine within_get.bind fun _ => (bound_onlyIf ?_).bind fun _ => within_pure _
    exact bound_flushPendingRun.bind fun _ => within_ite (fun _ => within_modify fun _ =>
      rfl) fun _ =>
      within_pure _

theorem bound_pcm86Read (registerIndex : UInt8) : Bound (pcm86Read registerIndex) := by
  have hposition : Bound currentCpuPosition := bound_effect effect_currentCpuPosition
  refine bound_flushPendingRun.bind fun _ => (bound_effect effect_audioSync).bind fun _ => ?_
  refine within_ite (fun _ => within_get.bind fun _ => within_pure _) fun _ => ?_
  refine within_ite (fun _ => ?_) fun _ => ?_
  · exact hposition.bind fun _ => within_get.bind fun _ => within_pure _
  refine within_ite (fun _ => ?_) fun _ => ?_
  · exact within_get.bind fun _ => (bound_effect effect_pcmgenIntrq).bind fun _ => within_pure _
  · exact within_ite (fun _ => within_get.bind fun _ => within_pure _) fun _ => within_pure _

theorem bound_timerDispatch (timer : UInt8) : Bound (timerDispatch timer) := by
  have hexpire : Bound (timerExpire timer) := by
    refine within_get.bind fun _ => within_ite (fun _ => ?_) fun _ => ?_
    · refine bound_flushPendingRun.bind fun _ => within_ite (fun _ => ?_) fun _ => within_pure _
      refine (bound_of_finishes finishes_syncPlanCompute).bind fun result => ?_
      cases result with
      | error status => exact bound_of_finishes (finishes_failSyncPlan status)
      | ok plan =>
          refine within_get.bind fun _ =>
            within_ite (fun _ => bound_effect (effect_fail _)) fun _ => ?_
          refine (bound_transactionBegin _ _).bind fun _ => within_ite (fun _ => ?_) fun _ =>
            within_pure _
          refine (bound_of_finishes (finishes_syncPlanApply plan)).bind fun _ => ?_
          exact (bound_effect (effect_timerEffects timer)).bind fun _ => bound_commitEvent _ _ _
    · refine (bound_effect effect_audioSync).bind fun _ => within_get.bind fun _ => ?_
      exact within_ite (fun _ => bound_effect (effect_timerEffects timer)) fun _ => within_pure _
  refine steady_semanticCall (within_ite (fun _ => ?_) fun _ => ?_)
  · refine (bound_effect effect_audioSync).bind fun _ => within_get.bind fun _ => ?_
    exact within_ite (fun _ => bound_effect effect_pcmExpire) fun _ => within_pure _
  · exact within_ite (fun _ => hexpire) fun _ => within_pure _

/-- An operation of the guest leaves the sink bound. -/
theorem bound_operation (operation : Operation) : Bound operation.code := by
  have hread : ∀ read : Adapter → UInt8,
      Bound (do let _ ← flushPendingRun; return read (← get) : Guest UInt8) := fun read =>
    bound_flushPendingRun.bind fun _ => within_get.bind fun _ => within_pure _
  cases operation with
  | opnaWriteAddressLow value => exact within_modify fun _ => rfl
  | opnaWriteDataLow value =>
      exact steady_semanticCall (within_get.bind fun _ => bound_opnaWriteRegister _ value)
  | opnaWriteAddressExtended value => exact within_modify fun _ => rfl
  | opnaWriteDataExtended value =>
      refine within_get.bind fun _ => within_ite (fun _ => ?_) fun _ => within_pure _
      exact steady_semanticCall (within_get.bind fun _ => bound_opnaWriteRegister _ value)
  | opnaReadStatus => exact within_discard (hread _)
  | opnaReadData => exact within_discard (hread _)
  | opnaReadExtendedStatus => exact within_discard (hread _)
  | opnaReadExtendedData => exact within_discard (hread _)
  | opnaReadJoy => exact within_discard (hread _)
  | opnaSetExtension enabled => exact bound_effect (effect_opnaSetExtension enabled)
  | opnaReset capabilities irq timerAEvent timerBEvent => exact bound_opnaReset _ _ _ _
  | pcm86Write registerIndex value => exact within_discard (bound_pcm86Write registerIndex value)
  | pcm86WriteData value => exact within_discard (bound_pcm86WriteData value)
  | pcm86Read registerIndex => exact within_discard (bound_pcm86Read registerIndex)
  | timerDispatch timer => exact bound_timerDispatch timer
  | progressCheckpoint => exact within_discard (bound_of_finishes finishes_progressCheckpoint)
  | audioSync => exact bound_effect effect_audioSync
  | flushDataRun => exact within_discard bound_flushPendingRun

section Healthy

/-- The clocks do not run over at the next read of the CPU position. -/
def timely (s : Adapter) : Bool :=
  s.guest.guestCycles.toNat + 0x100000000 ≤ UInt64.size &&
    s.guest.frameTimestamp.toNat + 0x800000 ≤ UInt64.size

/-- The adapter has not failed, its clocks do not run over, and it can flush the run that is open:
no other call goes on, none is refused, and the trace has room. -/
def healthy (s : Adapter) : Bool :=
  !s.failed && timely s && (!s.runPending || !s.semanticCallActive && !s.contractViolation &&
    !s.terminationPending && !dataRunTraceFull s)

variable {s : Adapter}

theorem unfailed_of_healthy (h : healthy s = true) : s.failed = false ∧ timely s = true := by
  simp only [healthy, Bool.and_eq_true, Bool.not_eq_true'] at h
  exact h.1

theorem advance_ok (g : GuestState) {plan : SyncPlan} (position : UInt32)
    (hcycles : plan.guestCycles.toNat + 0x100000000 ≤ UInt64.size)
    (hframe : plan.frameTimestamp.toNat + 0x800000 ≤ UInt64.size) :
    ∃ plan', plan.advance g position = .ok plan' := by
  have hdelta := (position - plan.lastCpuPosition).toNat_lt
  have hremainder := plan.frameRemainder.toNat_lt
  have hsize : UInt64.size = 2 ^ 64 := rfl
  have hlargest : ∀ x : UInt64, ((-1 : UInt64) - x).toNat = 2 ^ 64 - 1 - x.toNat := by
    intro x
    have hx := x.toNat_lt
    have hone : (-1 : UInt64).toNat = 2 ^ 64 - 1 := rfl
    rw [UInt64.toNat_sub, hone]
    omega
  simp only [SyncPlan.advance]
  rw [if_neg, if_neg]
  · exact ⟨_, rfl⟩
  · rw [gt_iff_lt, UInt64.not_lt, UInt64.le_iff_toNat_le, hlargest, UInt64.toNat_div,
      UInt64.toNat_add, UInt32.toNat_toUInt64, UInt32.toNat_toUInt64]
    change _ ≤ 2 ^ 64 - 1 - _ % 2 ^ 64 / 1024
    omega
  · rw [gt_iff_lt, UInt64.not_lt, UInt64.le_iff_toNat_le, hlargest, UInt32.toNat_toUInt64]
    omega

theorem makes_syncPlanCompute_ok (h : timely s = true) : Makes ReadsClock (fun result =>
    ∃ plan, result.1 = .ok plan ∧ s.guest.frameTimestamp ≤ plan.frameTimestamp ∧ result.2 = s)
    (syncPlanCompute s) := by
  simp only [timely, Bool.and_eq_true, decide_eq_true_eq] at h
  refine Makes.bind ((makes_currentCpuPosition s).mono ?_)
  rintro ⟨position, s'⟩ rfl
  change Makes ReadsClock _ ((if s'.guest.cpuPositionValid = false then _ else _ : Guest _) s')
  split
  · exact ⟨_, rfl, UInt64.le_refl _, rfl⟩
  · have hadvance : ∃ plan, (SyncPlan.current s'.guest position).advance s'.guest
      position = .ok plan :=
      advance_ok s'.guest position h.1 h.2
    obtain ⟨plan, hplan⟩ := hadvance
    exact ⟨plan, hplan, advance_frame hplan, rfl⟩

theorem makes_audioSync_ok (h : timely s = true) :
    Makes IsHook (fun result => Advances s result.2 ∧ result.2.failed = s.failed)
      (audioSync s) := by
  refine Makes.bind (((makes_syncPlanCompute_ok h).weaken fun _ => ReadsClock.isHook).mono ?_)
  rintro ⟨_, s'⟩ ⟨plan, rfl, hahead, rfl⟩
  exact ⟨⟨rfl, hahead⟩, rfl⟩

/-- The adapter after the flush of its run in a checkpoint. -/
def flushed (s : Adapter) (token : Token) : Adapter :=
  closeRun { countDataRun { s with semanticCallActive := true } with runTransaction := token }

/-- The part of a checkpoint that follows the flush. -/
def publishing : Guest Check := do
  let result ← (do
    match ← syncPlanCompute with
    | .error status =>
        failSyncPlan status
        return .contract
    | .ok plan => publishPlan plan : Guest Check)
  semanticLeave
  return result

/-- A checkpoint of a healthy adapter commits the open run and publishes its progress. -/
theorem progressCheckpoint_eq (h : healthy s = true) (hpending : s.runPending = true)
    (hsink : s.sink.isSome = true) (hactive : s.runTransactionActive = true) (hlow : 1 ≤ s.runCount)
    (hhigh : s.runCount ≤ maxDataRun) : progressCheckpoint s =
      .call (.commitDataRun s.runTransaction (pendingRun s)) fun token =>
        .call (.commitHorizon token s.runTimestamp) fun token => publishing (flushed s token) := by
  simp only [healthy, hpending, Bool.not_true, Bool.false_or, Bool.and_eq_true,
    Bool.not_eq_true'] at h
  obtain ⟨⟨hfailed, -⟩, ⟨⟨hcall, hviolation⟩, htermination⟩, htrace⟩ := h
  have henter : semanticEnter s = .done (true, { s with semanticCallActive := true }) := by
    rw [semanticEnter, get_bind_run]
    simp only [ite_run]
    rw [if_neg (by simp [hcall]), if_neg (by simp [hfailed]), if_neg (by simp [hviolation]),
      if_neg (by simp [htermination])]
    rfl
  have hflush : flushPendingRun { s with semanticCallActive := true } =
      .call (.commitDataRun s.runTransaction (pendingRun s)) fun token =>
        .call (.commitHorizon token s.runTimestamp) fun token => .done (true, flushed s token) := by
    rw [flushPendingRun_eq]
    rw [if_neg (by simp [hpending]), if_neg (by simp [Option.isSome_iff_ne_none.mp hsink]),
      if_neg (by simp only []; omega), if_neg (by rw [Bool.not_eq_true]; exact htrace),
      if_pos ⟨hsink, hactive⟩]
    rfl
  change (semanticEnter s).bind _ = _
  rw [henter]
  change Program.bind (Program.bind (flushPendingRun { s with semanticCallActive := true }) _) _ = _
  rw [hflush]
  rfl

end Healthy

end EspNp2.GuestAdapter.SinkBinding
