import EspNp2.GuestAdapter.AdapterRuns
import EspNp2.GuestAdapter.CommitStream
import EspNp2.GuestAdapter.QuietFrame

/-!
The clock of the guest over whole runs. Operations synchronise it at the positions that
they read; a rule says what a synchronisation preserves, and every operation preserves it.
-/

namespace EspNp2.GuestAdapter.ClockRuns

open EspNp2.GuestAdapter.AdapterFrame
open EspNp2.GuestAdapter.AdapterOperations
open EspNp2.GuestAdapter.AdapterRuns
open EspNp2.GuestAdapter.AdapterState
open EspNp2.GuestAdapter.ClockPaths
open EspNp2.GuestAdapter.CommitStream
open EspNp2.GuestAdapter.QuietFrame
open EspNp2.Library.CallMonitor
open EspNp2.Library.CallProgram
open EspNp2.Library.LabelledRun

section Clock

/-- The clock of the host, while it runs forward and not past a limit. -/
def tick (limit : UInt32) (now : Option UInt32) : CallLabel → Option UInt32
  | ⟨.cpuPosition, position⟩ =>
      now.bind fun now => if now ≤ position ∧ position ≤ limit then some position else none
  | _ => now

def observeClock (limit : UInt32) (now : Option UInt32) (label : CallLabel) :
    Option (Option UInt32) :=
  some (tick limit now label)

/-- The calls read the clock from one position to another. -/
def ReadsFrom (limit start : UInt32) (trace : List CallLabel) (now : UInt32) : Prop :=
  trace.foldl (tick limit) (some start) = some now

theorem tick_unclocked {limit : UInt32} {now : Option UInt32} {label : CallLabel}
    (h : IsUnclocked label) : observeClock limit now label = some now := by
  obtain ⟨request, reply⟩ := label
  cases request with
  | cpuPosition => exact absurd rfl h
  | _ => rfl

theorem foldlM_observeClock (limit : UInt32) (trace : List CallLabel) (now : Option UInt32) :
    trace.foldlM (observeClock limit) now = some (trace.foldl (tick limit) now) := by
  induction trace generalizing now with
  | nil => rfl
  | cons label rest ih => exact ih (tick limit now label)

end Clock

section Unclocked

theorem unclocked_modify {change : Adapter → Adapter}
    (h : ∀ s, clockView (change s) = clockView s) : Unclocked (modify change) :=
  within_modify h

theorem unclocked_onlyIf {condition : Prop} [Decidable condition] {body : Guest Unit}
    (h : Unclocked body) : Unclocked (onlyIf condition body) :=
  within_ite (fun _ => h) fun _ => within_pure _

theorem unclocked_callOut {request : Call} (h : request ≠ .cpuPosition) :
    Unclocked (callOut request) :=
  fun _ _ => ⟨h, rfl⟩

theorem clockFields_setPicSource (g : GuestState) (source : Source) (value : Bool) :
    clockFields (GuestState.setPicSource g source value) = clockFields g := by
  cases source <;> rfl

theorem unclocked_setPicSource (source : Source) (value : Bool) :
    Unclocked (modifyGuest fun g => GuestState.setPicSource g source value) :=
  unclocked_modify fun s => Prod.ext (clockFields_setPicSource s.guest source value) rfl

theorem unclocked_picSetCause (cause : UInt8) (source : Source) (other : Option Source)
    (line : UInt32) : Unclocked (picSetCause cause source other line) := by
  refine within_ite (fun _ => ?_) fun _ => within_pure _
  refine within_get.bind fun s => within_ite (fun _ => within_pure _) fun _ => ?_
  refine Within.bind (unclocked_onlyIf (unclocked_callOut (by simp))) fun _ => ?_
  exact (unclocked_setPicSource source true).bind fun _ => within_pure _

theorem unclocked_picSet (cause : UInt8) : Unclocked (picSet cause) :=
  within_get.bind fun _ => Within.bind (unclocked_picSetCause _ _ _ _) fun _ =>
    Within.bind (unclocked_picSetCause _ _ _ _) fun _ => within_pure _

theorem unclocked_picResetIfIdle (source : Source) : Unclocked (picResetIfIdle source) := by
  refine within_get.bind fun s => within_ite (fun _ => within_pure _) fun _ => ?_
  refine (unclocked_setPicSource source false).bind fun _ => ?_
  refine within_ite (fun _ => within_pure _) fun _ =>
    within_ite (fun _ => within_pure _) fun _ => ?_
  exact Within.bind (unclocked_onlyIf (unclocked_callOut (by simp))) fun _ =>
    quiet_timerTrace.unclocked

theorem unclocked_writeTimerControl (value : UInt8) : Unclocked (writeTimerControl value) := by
  refine within_get.bind fun s => Within.bind (unclocked_modify fun s => rfl) fun _ => ?_
  refine (quiet_switchTimer _ _ _).unclocked.bind fun _ => ?_
  refine (quiet_switchTimer _ _ _).unclocked.bind fun _ => ?_
  exact within_ite (fun _ => unclocked_picResetIfIdle _) fun _ => within_pure _

theorem unclocked_writeRegister (address : UInt16) (value : UInt8) :
    Unclocked (writeRegister address value) := by
  refine Within.bind (unclocked_modify fun s => rfl) fun _ => ?_
  refine within_ite (fun _ => unclocked_modify fun s => rfl) fun _ => ?_
  refine within_ite (fun _ => unclocked_modify fun s => rfl) fun _ => ?_
  refine within_ite (fun _ => unclocked_modify fun s => rfl) fun _ => ?_
  exact within_ite (fun _ => unclocked_writeTimerControl value) fun _ => within_pure _

theorem unclocked_opnaWriteRegister (address : UInt16) (value : UInt8) :
    Unclocked (opnaWriteRegister address value) := by
  refine (quiet_prepareEventTransaction _).unclocked.bind fun reply => ?_
  refine within_ite (fun _ => ?_) fun _ => within_pure _
  exact (unclocked_writeRegister address value).bind fun _ => (quiet_commitEvent _ _ _).unclocked

theorem unclocked_opnaWriteDataLow (value : UInt8) : Unclocked (opnaWriteDataLow value) :=
  within_semanticCall Quiet.unclocked
    (within_get.bind fun _ => unclocked_opnaWriteRegister _ value)

theorem unclocked_opnaWriteDataExtended (value : UInt8) :
    Unclocked (opnaWriteDataExtended value) := by
  refine within_get.bind fun s => within_ite (fun _ => ?_) fun _ => within_pure _
  exact within_semanticCall Quiet.unclocked
    (within_get.bind fun _ => unclocked_opnaWriteRegister _ value)

theorem quiet_read {read : Adapter → UInt8} :
    Quiet (do let _ ← flushPendingRun; return read (← get)) :=
  quiet_flushPendingRun.bind fun _ => within_get.bind fun _ => within_pure _

end Unclocked

section Rule

/-- A position that has just been read. -/
def Current (now : Option UInt32) (position : UInt32) : Prop :=
  ∀ instant, now = some instant → position = instant

/-- What the readings of the clock preserve. -/
structure ClockRule (limit : UInt32) (I : Option UInt32 → Adapter → Prop) : Prop where
  frame : ∀ {now s s'}, I now s → clockView s' = clockView s → I now s'
  manual : ∀ {now s}, I now s → s.hooks.cpuPosition = false → Current now s.manualCpuPosition
  sample : ∀ {now s} (position : UInt32), I now s → s.hooks.cpuPosition = true →
    I (tick limit now ⟨.cpuPosition, position⟩) s
  recalc : ∀ {now s position}, I now s → Current now position →
    I now { s with guest := recalc s.guest position }
  sync : ∀ {now s position plan}, I now s → Current now position →
    compute s.guest position = .ok plan → I now { s with guest := applyPlan s.guest plan }

variable {α : Type} {limit : UInt32} {I : Option UInt32 → Adapter → Prop}

/-- The invariant is kept. -/
abbrev KeepsClock (limit : UInt32) (I : Option UInt32 → Adapter → Prop) {α : Type}
    (program : Guest α) : Prop :=
  Ensures (observeClock limit) I program fun now _ s => I now s

theorem keepsClock_pure (value : α) : KeepsClock limit I (pure value : Guest α) :=
  ensures_pure fun _ _ h => h

/-- What follows a reading of the state, without the state that was read. -/
theorem ensures_get {pre : Option UInt32 → Adapter → Prop}
    {post : Option UInt32 → α → Adapter → Prop} {rest : Adapter → Guest α}
    (h : ∀ s, Ensures (observeClock limit) pre (rest s) post) :
    Ensures (observeClock limit) pre (get >>= rest) post :=
  fun now s hpre => h s now s hpre

theorem keepsClock_onlyIf {condition : Prop} [Decidable condition] {body : Guest Unit}
    (h : KeepsClock limit I body) : KeepsClock limit I (onlyIf condition body) :=
  ensures_ite (fun _ => h) fun _ => keepsClock_pure _

theorem keepsClock_discard {program : Guest α} (h : KeepsClock limit I program) :
    KeepsClock limit I (discard program) :=
  fun now s hI => Watched.bind ((h now s hI).mono fun _ _ hresult => hresult)

variable (hrule : ClockRule limit I)
include hrule

theorem keepsClock_unclocked {program : Guest α} (h : Unclocked program) :
    KeepsClock limit I program :=
  h.ensures (fun _ _ => tick_unclocked) fun _ _ _ _ hI hview => hrule.frame hI hview

theorem keepsClock_quiet {program : Guest α} (h : Quiet program) : KeepsClock limit I program :=
  keepsClock_unclocked hrule h.unclocked

theorem keepsClock_semanticCall {refused : α} {body : Guest α} (h : KeepsClock limit I body) :
    KeepsClock limit I (semanticCall refused body) := by
  refine (keepsClock_quiet hrule quiet_semanticEnter).bind fun entered =>
    ensures_ite (fun _ => ?_) fun _ => keepsClock_pure _
  refine h.bind fun _ => (keepsClock_quiet hrule quiet_semanticLeave).bind fun _ => ?_
  exact keepsClock_pure _

theorem ensures_currentCpuPosition :
    Ensures (observeClock limit) I currentCpuPosition fun now position s =>
      Current now position ∧ I now s := by
  intro now s hI
  rw [currentCpuPosition, get_bind_run, ite_run]
  split
  · rename_i hhook
    intro position
    refine ⟨_, rfl, ?_, hrule.sample position hI hhook⟩
    intro instant hinstant
    obtain ⟨before, -, htick⟩ := Option.bind_eq_some_iff.mp hinstant
    obtain ⟨-, hposition⟩ := Option.ite_none_right_eq_some.mp htick
    exact Option.some.inj hposition
  · rename_i hhook
    exact ⟨hrule.manual hI (Bool.eq_false_iff.mpr hhook), hI⟩

theorem keepsClock_pcmRecalcPosition : KeepsClock limit I pcmRecalcPosition := by
  refine ensures_get fun s => ensures_ite (fun _ => keepsClock_pure _) fun _ => ?_
  refine (ensures_currentCpuPosition hrule).bind fun position => ?_
  rintro now s ⟨hcurrent, hI⟩
  exact hrule.recalc hI hcurrent

/-- A plan of the clock as it is. -/
theorem ensures_syncPlanCompute :
    Ensures (observeClock limit) I syncPlanCompute fun now result s =>
      I now s ∧ ∃ position, Current now position ∧ compute s.guest position = result := by
  refine (ensures_currentCpuPosition hrule).bind fun position => ?_
  rintro now s ⟨hcurrent, hI⟩
  rw [get_bind_run]
  dsimp only
  rw [ite_run]
  split
  · rename_i hinvalid
    exact ⟨hI, position, hcurrent, if_pos hinvalid⟩
  · rename_i hvalid
    exact ⟨hI, position, hcurrent, if_neg hvalid⟩

theorem keepsClock_audioSync : KeepsClock limit I audioSync := by
  refine (ensures_syncPlanCompute hrule).bind fun result => ?_
  rintro now s ⟨hI, position, hcurrent, hresult⟩
  cases result with
  | error status => exact keepsClock_quiet hrule (quiet_failSyncPlan status) now s hI
  | ok plan => exact hrule.sync hI hcurrent hresult

/-- A plan that was computed from the state as it still is. -/
def Planned (I : Option UInt32 → Adapter → Prop) (plan : SyncPlan) (now : Option UInt32)
    (s : Adapter) : Prop :=
  I now s ∧ ∃ position, Current now position ∧ compute s.guest position = .ok plan

theorem ensures_planned {program : Guest α} (h : Quiet program) (plan : SyncPlan) :
    Ensures (observeClock limit) (Planned I plan) program fun now _ s => Planned I plan now s := by
  refine h.unclocked.ensures (fun _ _ => tick_unclocked) ?_
  rintro now s s' - ⟨hI, position, hcurrent, hplan⟩ hview
  refine ⟨hrule.frame hI hview, position, hcurrent, ?_⟩
  rw [compute_of_clockFields (congrArg Prod.fst hview), hplan]

theorem ensures_syncPlanApply (plan : SyncPlan) :
    Ensures (observeClock limit) (Planned I plan) (syncPlanApply plan) fun now _ s => I now s := by
  rintro now s ⟨hI, position, hcurrent, hplan⟩
  exact hrule.sync hI hcurrent hplan

theorem keepsClock_pcmgenIntrq : KeepsClock limit I pcmgenIntrq := by
  refine Ensures.bind (ensures_currentCpuPosition hrule) fun position => ?_
  refine ensures_before ?_ fun _ _ h => h.2
  refine ensures_get fun s => ensures_ite (fun _ => keepsClock_pure _) fun _ => ?_
  refine ensures_ite (fun _ => keepsClock_pure _) fun _ => ?_
  refine (keepsClock_quiet hrule (quiet_timerIsWork tracePcm)).bind fun working => ?_
  refine ensures_ite (fun _ => keepsClock_pure _) fun _ => ?_
  refine (keepsClock_pcmRecalcPosition hrule).bind fun _ => ensures_get fun s => ?_
  refine ensures_ite (fun _ => Ensures.bind (keepsClock_quiet hrule (quiet_modify ?_)) fun _ => ?_)
    fun _ => keepsClock_pure _
  · exact fun s => ⟨rfl, rfl⟩
  · exact keepsClock_pure _

theorem keepsClock_pcmExpire : KeepsClock limit I pcmExpire := by
  refine ensures_get fun s => ensures_ite (fun _ => ?_)
    fun _ => keepsClock_quiet hrule quiet_pcmSetNextInterrupt
  refine (keepsClock_audioSync hrule).bind fun _ => ensures_get fun s => ?_
  refine ensures_ite (fun _ => ?_) fun _ => keepsClock_quiet hrule quiet_pcmSetNextInterrupt
  refine Ensures.bind (keepsClock_quiet hrule (quiet_modify ?_)) fun _ => ?_
  · exact fun s => ⟨rfl, rfl⟩
  refine keepsClock_onlyIf ?_
  refine (keepsClock_unclocked hrule (within_discard (unclocked_picSet 4))).bind fun _ => ?_
  exact keepsClock_quiet hrule quiet_timerTrace

theorem keepsClock_timerEffects (timer : UInt8) : KeepsClock limit I (timerEffects timer) := by
  refine ensures_get fun s => Ensures.bind (Q := fun now _ s => I now s) ?_ fun shared => ?_
  · refine ensures_get fun s => ensures_ite (fun _ => ?_) fun _ => keepsClock_pure _
    exact (keepsClock_pcmgenIntrq hrule).bind fun _ => ensures_get fun _ => keepsClock_pure _
  refine ensures_get fun s => ?_
  refine Ensures.bind (keepsClock_onlyIf (keepsClock_unclocked hrule (within_modify ?_)))
    fun _ => ?_
  · exact fun s => rfl
  refine Ensures.bind (keepsClock_onlyIf
    (keepsClock_unclocked hrule (within_discard (unclocked_picSet _)))) fun _ => ?_
  refine (keepsClock_quiet hrule quiet_timerTrace).bind fun _ => ensures_get fun s => ?_
  exact keepsClock_quiet hrule (quiet_scheduleEvent _ _ _)

theorem keepsClock_timerExpire (timer : UInt8) : KeepsClock limit I (timerExpire timer) := by
  refine ensures_get fun s => ensures_ite (fun _ => ?_) fun _ => ?_
  · refine (keepsClock_quiet hrule quiet_flushPendingRun).bind fun flushed => ?_
    refine ensures_ite (fun _ => ?_) fun _ => keepsClock_pure _
    refine (ensures_syncPlanCompute hrule).bind fun result => ?_
    cases result with
    | error status =>
        exact ensures_before (keepsClock_quiet hrule (quiet_failSyncPlan status)) fun _ _ h => h.1
    | ok plan =>
        change Ensures _ (Planned I plan) _ _
        refine ensures_get fun s => ensures_ite (fun _ => ?_) fun _ => ?_
        · exact ensures_before (keepsClock_quiet hrule (quiet_fail _)) fun _ _ h => h.1
        refine (ensures_planned hrule (quiet_transactionBegin _ _) plan).bind fun reply => ?_
        refine ensures_ite (fun _ => ?_) fun _ => ?_
        · refine (ensures_syncPlanApply hrule plan).bind fun _ => ?_
          refine (keepsClock_timerEffects hrule timer).bind fun _ => ?_
          exact keepsClock_quiet hrule (quiet_commitEvent _ _ _)
        · exact ensures_before (keepsClock_pure _) fun _ _ h => h.1
  · refine (keepsClock_audioSync hrule).bind fun _ => ensures_get fun s => ?_
    exact ensures_ite (fun _ => keepsClock_timerEffects hrule timer) fun _ => keepsClock_pure _

theorem keepsClock_timerDispatch (timer : UInt8) : KeepsClock limit I (timerDispatch timer) := by
  refine keepsClock_semanticCall hrule (ensures_ite (fun _ => ?_) fun _ => ?_)
  · refine (keepsClock_audioSync hrule).bind fun _ => ensures_get fun s => ?_
    exact ensures_ite (fun _ => keepsClock_pcmExpire hrule) fun _ => keepsClock_pure _
  · exact ensures_ite (fun _ => keepsClock_timerExpire hrule timer) fun _ => keepsClock_pure _

theorem keepsClock_pcm86Read (registerIndex : UInt8) :
    KeepsClock limit I (pcm86Read registerIndex) := by
  refine (keepsClock_quiet hrule quiet_flushPendingRun).bind fun _ => ?_
  refine (keepsClock_audioSync hrule).bind fun _ => ?_
  refine ensures_ite (fun _ => ensures_get fun _ => keepsClock_pure _) fun _ => ?_
  refine ensures_ite (fun _ => ?_) fun _ => ?_
  · refine Ensures.bind (ensures_currentCpuPosition hrule) fun position => ?_
    exact ensures_before (ensures_get fun _ => keepsClock_pure _) fun _ _ h => h.2
  refine ensures_ite (fun _ => ensures_get fun _ => ?_) fun _ => ?_
  · exact (keepsClock_pcmgenIntrq hrule).bind fun _ => keepsClock_pure _
  exact ensures_ite (fun _ => ensures_get fun _ => keepsClock_pure _) fun _ => keepsClock_pure _

theorem keepsClock_publishPlan (plan : SyncPlan) :
    Ensures (observeClock limit) (Planned I plan) (publishPlan plan) fun now _ s => I now s := by
  refine (ensures_planned hrule (quiet_publishProgress _) plan).bind fun check => ?_
  refine ensures_ite (fun _ => ?_) fun _ => ?_
  · exact (ensures_syncPlanApply hrule plan).bind fun _ => keepsClock_pure _
  refine ensures_before ?_ fun _ _ h => h.1
  refine ensures_ite (fun _ => keepsClock_pure _) fun _ => ?_
  exact (keepsClock_quiet hrule (quiet_fail _)).bind fun _ => keepsClock_pure _

theorem keepsClock_progressCheckpoint : KeepsClock limit I progressCheckpoint := by
  refine keepsClock_semanticCall hrule ?_
  refine (keepsClock_quiet hrule quiet_flushPendingRun).bind fun flushed => ?_
  refine ensures_ite (fun _ => ?_) fun _ => keepsClock_pure _
  refine (ensures_syncPlanCompute hrule).bind fun result => ?_
  cases result with
  | error status =>
      refine ensures_before ?_ fun _ _ h => h.1
      exact (keepsClock_quiet hrule (quiet_failSyncPlan status)).bind fun _ => keepsClock_pure _
  | ok plan => exact keepsClock_publishPlan hrule plan

/-- The operations of the guest that are no writes of the PCM part and no resets. -/
def synchronises : Operation → Bool
  | .pcm86Write .. | .pcm86WriteData _ | .opnaReset .. => false
  | _ => true

theorem keepsClock_operation {operation : Operation} (h : synchronises operation = true) :
    KeepsClock limit I operation.code := by
  cases operation with
  | opnaWriteAddressLow value => exact keepsClock_quiet hrule (quiet_modify fun s => ⟨rfl, rfl⟩)
  | opnaWriteDataLow value => exact keepsClock_unclocked hrule (unclocked_opnaWriteDataLow value)
  | opnaWriteAddressExtended value =>
      exact keepsClock_quiet hrule (quiet_opnaWriteAddressExtended value)
  | opnaWriteDataExtended value =>
      exact keepsClock_unclocked hrule (unclocked_opnaWriteDataExtended value)
  | opnaReadStatus => exact keepsClock_quiet hrule (within_discard quiet_read)
  | opnaReadData => exact keepsClock_quiet hrule (within_discard quiet_read)
  | opnaReadExtendedStatus => exact keepsClock_quiet hrule (within_discard quiet_read)
  | opnaReadExtendedData => exact keepsClock_quiet hrule (within_discard quiet_read)
  | opnaReadJoy => exact keepsClock_quiet hrule (within_discard quiet_read)
  | opnaSetExtension enabled => exact keepsClock_quiet hrule (quiet_opnaSetExtension enabled)
  | pcm86Read registerIndex => exact keepsClock_discard (keepsClock_pcm86Read hrule _)
  | timerDispatch timer => exact keepsClock_timerDispatch hrule timer
  | progressCheckpoint => exact keepsClock_discard (keepsClock_progressCheckpoint hrule)
  | audioSync => exact keepsClock_audioSync hrule
  | flushDataRun => exact keepsClock_quiet hrule (within_discard quiet_flushPendingRun)
  | opnaReset | pcm86Write | pcm86WriteData => cases h

/-- A program that reads the clock for nothing. -/
theorem keepsClock_pcmSyncPlan (registerIndex : UInt8) :
    KeepsClock limit I (pcmSyncPlan registerIndex) := by
  refine (ensures_syncPlanCompute hrule).bind fun result => ?_
  refine ensures_before ?_ fun _ _ h => h.1
  cases result with
  | error status => exact keepsClock_pure _
  | ok plan =>
      refine ensures_ite (fun _ => ?_) fun _ => keepsClock_pure _
      refine Ensures.bind (ensures_currentCpuPosition hrule) fun position => ?_
      exact ensures_before (ensures_get fun _ => keepsClock_pure _) fun _ _ h => h.2

end Rule

section Rejections

variable {α : Type} {limit : UInt32} {I : Option UInt32 → Adapter → Prop}

theorem ensures_anything {pre : Option UInt32 → Adapter → Prop} (program : Guest α) :
    Ensures (observeClock limit) pre program fun _ _ _ => True := by
  rintro now s -
  generalize program s = p
  induction p generalizing now with
  | done value => trivial
  | call request next ih => exact fun reply => ⟨_, rfl, ih reply _⟩

/-- What follows an acceptance. -/
theorem ensures_accepted {pre : Option UInt32 → Adapter → Prop} (program : Guest Unit) :
    Ensures (observeClock limit) pre (do program; return true)
      fun now accepted s => accepted = false → I now s :=
  (ensures_anything program).bind fun _ => ensures_pure fun _ _ _ h => by cases h

theorem ensures_refused {program : Guest Bool} (h : KeepsClock limit I program) :
    Ensures (observeClock limit) I program fun now accepted s => accepted = false → I now s :=
  h.mono fun _ _ _ hI _ => hI

theorem ensures_refusingCall (hrule : ClockRule limit I) {body : Guest Bool}
    (h : Ensures (observeClock limit) I body fun now accepted s => accepted = false → I now s) :
    Ensures (observeClock limit) I (semanticCall false body)
      fun now accepted s => accepted = false → I now s := by
  refine (keepsClock_quiet hrule quiet_semanticEnter).bind fun entered =>
    ensures_ite (fun _ => ?_) fun _ => ensures_refused (keepsClock_pure _)
  refine h.bind fun accepted => ?_
  cases accepted with
  | true => exact ensures_accepted semanticLeave
  | false =>
      refine ensures_before ?_ fun _ _ h => h rfl
      exact ensures_refused ((keepsClock_quiet hrule quiet_semanticLeave).bind
        fun _ => keepsClock_pure _)

/-- A refused control write leaves the clock as its readings leave it. -/
theorem ensures_pcm86Write (hrule : ClockRule limit I) (registerIndex value : UInt8) :
    Ensures (observeClock limit) I (pcm86Write registerIndex value)
      fun now accepted s => accepted = false → I now s := by
  refine ensures_refusingCall hrule (ensures_get fun s => ensures_ite (fun _ => ?_) fun _ => ?_)
  · exact ensures_refused ((keepsClock_audioSync hrule).bind fun _ => ensures_get fun _ =>
      keepsClock_pure _)
  refine (keepsClock_quiet hrule quiet_flushPendingRun).bind fun flushed => ?_
  refine ensures_ite (fun _ => ?_) fun _ => ensures_refused (keepsClock_pure _)
  refine (keepsClock_pcmSyncPlan hrule registerIndex).bind fun result => ?_
  cases result with
  | error status =>
      exact ensures_refused ((keepsClock_quiet hrule (quiet_failSyncPlan status)).bind
        fun _ => keepsClock_pure _)
  | ok plan =>
      refine (keepsClock_quiet hrule (quiet_prepareEventTransaction _)).bind fun reply => ?_
      refine ensures_ite (fun _ => ?_) fun _ => ensures_refused (keepsClock_pure _)
      refine (ensures_anything (syncPlanApply plan)).bind fun _ => ?_
      exact (ensures_anything (writePcmRegister _ _ _)).bind fun _ => ensures_accepted _

/-- A refused data byte too. -/
theorem ensures_pcm86WriteData (hrule : ClockRule limit I) (value : UInt8) :
    Ensures (observeClock limit) I (pcm86WriteData value)
      fun now accepted s => accepted = false → I now s := by
  refine (ensures_currentCpuPosition hrule).bind fun cur => ?_
  refine ensures_before (ensures_refusingCall hrule ?_) fun _ _ h => h.2
  refine (keepsClock_quiet hrule quiet_prepareByteTransaction).bind fun reply => ?_
  refine ensures_ite (fun _ => ensures_accepted _) fun _ => ?_
  refine ensures_refused (ensures_get fun s => ?_)
  exact Ensures.bind (keepsClock_onlyIf (keepsClock_quiet hrule quiet_flushTerminated)) fun _ =>
    keepsClock_pure _

end Rejections

end EspNp2.GuestAdapter.ClockRuns
