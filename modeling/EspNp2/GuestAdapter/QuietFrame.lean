import EspNp2.GuestAdapter.AdapterFrame
import EspNp2.GuestAdapter.ClockPaths

/-!
The parts of the adapter that touch neither the clock of the guest nor its interrupt lines:
they do not read the CPU position, they drive no line, and they keep the fields of both.
-/

namespace EspNp2.GuestAdapter.QuietFrame

open EspNp2.GuestAdapter.AdapterFrame
open EspNp2.GuestAdapter.AdapterOperations
open EspNp2.GuestAdapter.AdapterState
open EspNp2.GuestAdapter.ClockPaths
open EspNp2.Library.CallMonitor
open EspNp2.Library.CallProgram

section Views

/-- The clock of the guest, with the fields that say how it runs. -/
structure ClockFields where
  rate : Rate
  pcm : PcmClock
  guestCycles : UInt64
  frameTimestamp : UInt64
  frameRemainder : UInt32
  lastCpuPosition : UInt32
  cpuPositionValid : Bool

def clockFields (g : GuestState) : ClockFields where
  rate := rate g
  pcm := GuestState.pcmClock g
  guestCycles := g.guestCycles
  frameTimestamp := g.frameTimestamp
  frameRemainder := g.frameRemainder
  lastCpuPosition := g.lastCpuPosition
  cpuPositionValid := g.cpuPositionValid

theorem compute_of_clockFields {g g' : GuestState} (h : clockFields g' = clockFields g)
    (position : UInt32) : compute g' position = compute g position := by
  rw [clockFields, clockFields, ClockFields.mk.injEq] at h
  obtain ⟨hrate, hpcm, hguest, hframe, hremainder, hlast, hvalid⟩ := h
  have hcurrent : SyncPlan.current g' position = SyncPlan.current g position := by
    rw [SyncPlan.current, SyncPlan.current, hlast, hpcm, hremainder, hguest, hframe, hvalid]
  rw [compute, compute, hcurrent, hvalid, hpcm, advance_congr hrate rfl rfl]

/-- The sources of the interrupt lines. -/
structure PicFields where
  opnaPicSource : Bool
  pcmPicSource : Bool
  timerStatus : UInt8
  opnaIrq : UInt32
  pcmIrqLine : UInt32
deriving DecidableEq

def picFields (g : GuestState) : PicFields where
  opnaPicSource := g.opnaPicSource
  pcmPicSource := g.pcmPicSource
  timerStatus := g.timerStatus
  opnaIrq := g.opnaIrq
  pcmIrqLine := g.pcmIrqLine

/-- What the host has set. -/
structure Settings where
  hooks : Hooks
  manualCpuPosition : UInt32
  baseclock : UInt32
  multiple : UInt32
deriving DecidableEq

def settings (s : Adapter) : Settings :=
  ⟨s.hooks, s.manualCpuPosition, s.baseclock, s.multiple⟩

def clockView (s : Adapter) : ClockFields × Settings := (clockFields s.guest, settings s)

def picView (s : Adapter) : PicFields × Settings := (picFields s.guest, settings s)

/-- A call that does not read the clock. -/
def IsUnclocked (label : CallLabel) : Prop := label.1 ≠ .cpuPosition

/-- A call that does not drive a line. -/
def IsUndriven (label : CallLabel) : Prop := ∀ line level, label.1 ≠ .irq line level

def IsQuiet (label : CallLabel) : Prop := IsUnclocked label ∧ IsUndriven label

/-- The clock stays. -/
abbrev Unclocked {α : Type} (program : Guest α) : Prop :=
  Within IsUnclocked (Preserves clockView) program

/-- The lines stay. -/
abbrev Undriven {α : Type} (program : Guest α) : Prop :=
  Within IsUndriven (Preserves picView) program

/-- Both stay. -/
abbrev Quiet {α : Type} (program : Guest α) : Prop :=
  Within IsQuiet (Preserves fun s => (clockView s, picView s)) program

theorem Quiet.unclocked {α : Type} {program : Guest α} (h : Quiet program) : Unclocked program :=
  h.coarsen (fun _ hlabel => hlabel.1) fun _ _ hview => congrArg Prod.fst hview

theorem Quiet.undriven {α : Type} {program : Guest α} (h : Quiet program) : Undriven program :=
  h.coarsen (fun _ hlabel => hlabel.2) fun _ _ hview => congrArg Prod.snd hview

end Views

section Hooks

variable {α β : Type}

theorem quiet_callOut {request : Call} (h : ∀ reply, IsQuiet ⟨request, reply⟩) :
    Quiet (callOut request) :=
  fun _ reply => ⟨h reply, rfl⟩

/-- Calls other than the clock and the lines. -/
theorem quiet_call {request : Call} (hclock : request ≠ .cpuPosition)
    (hline : ∀ line level, request ≠ .irq line level) : Quiet (callOut request) :=
  quiet_callOut fun _ => ⟨hclock, hline⟩

theorem quiet_modify {change : Adapter → Adapter}
    (h : ∀ s, clockView (change s) = clockView s ∧ picView (change s) = picView s) :
    Quiet (modify change) :=
  within_modify fun s => Prod.ext (h s).1 (h s).2

theorem quiet_onlyIf {condition : Prop} [Decidable condition] {body : Guest Unit}
    (h : Quiet body) : Quiet (onlyIf condition body) :=
  within_ite (fun _ => h) fun _ => within_pure _

theorem quiet_fail (reason : String) : Quiet (fail reason) := by
  refine quiet_modify fun s => ?_
  split
  · exact ⟨rfl, rfl⟩
  · exact ⟨rfl, rfl⟩

theorem quiet_timerTrace : Quiet timerTrace := by
  refine within_get.bind fun s => ?_
  split
  · exact within_pure _
  · refine within_ite (fun _ => within_pure _) fun _ =>
      within_ite (fun _ => quiet_fail _) fun _ => ?_
    exact quiet_modify fun s => ⟨rfl, rfl⟩

theorem quiet_timerIsWork (timer : UInt8) : Quiet (timerIsWork timer) :=
  within_get.bind fun _ => within_ite (fun _ => quiet_call (by simp) (by simp))
    fun _ => within_pure _

theorem quiet_scheduleEvent (timer : UInt8) (period : UInt64) (absolute : Bool) :
    Quiet (scheduleEvent timer period absolute) :=
  within_get.bind fun _ => within_ite
    (fun _ => within_ite (fun _ => quiet_fail _) fun _ => quiet_call (by simp) (by simp))
    fun _ => within_pure _

theorem quiet_cancelEvent (timer : UInt8) : Quiet (cancelEvent timer) :=
  within_get.bind fun _ => within_ite (fun _ => quiet_call (by simp) (by simp))
    fun _ => within_pure _

theorem quiet_opnaWriteAddressExtended (value : UInt8) :
    Quiet (opnaWriteAddressExtended value) := by
  refine quiet_modify fun s => ?_
  dsimp only
  split
  · exact ⟨rfl, rfl⟩
  · exact ⟨rfl, rfl⟩

theorem quiet_opnaSetExtension (enabled : Bool) : Quiet (opnaSetExtension enabled) := by
  refine Within.bind (quiet_modify fun s => ⟨rfl, rfl⟩) fun _ => within_get.bind fun s => ?_
  exact within_ite (fun _ => quiet_call (by simp) (by simp)) fun _ => within_pure _

theorem quiet_pcmSetNextInterrupt : Quiet pcmSetNextInterrupt := by
  refine within_get.bind fun s => within_ite (fun _ => within_pure _) fun _ => ?_
  refine within_ite (fun _ => quiet_scheduleEvent _ _ _) fun _ => ?_
  refine within_ite (fun _ => quiet_scheduleEvent _ _ _) fun _ => ?_
  exact Within.bind (quiet_modify fun s => ⟨rfl, rfl⟩) fun _ => quiet_scheduleEvent _ _ _

theorem quiet_switchTimer (timer value old : UInt8) : Quiet (switchTimer timer value old) := by
  refine within_ite (fun _ => (quiet_timerIsWork timer).bind fun _ => ?_) fun _ => ?_
  · exact within_ite (fun _ => within_get.bind fun _ => quiet_scheduleEvent _ _ _)
      fun _ => within_pure _
  · exact within_ite (fun _ => quiet_cancelEvent timer) fun _ => within_pure _

theorem quiet_failSyncPlan (status : SyncError) : Quiet (failSyncPlan status) := by
  cases status with
  | guestCycles => exact quiet_fail _
  | frameTimestamp => exact quiet_fail _

end Hooks

section Transactions

variable {α : Type}

theorem quiet_refuseTrace (reason : String) : Quiet (refuseTrace reason) :=
  within_get.bind fun _ => Within.bind (quiet_onlyIf (quiet_fail _)) fun _ => within_pure _

theorem quiet_reserveChecked (kind : Kind) (bytes : Nat) : Quiet (reserveChecked kind bytes) :=
  within_get.bind fun _ => within_ite (fun _ => quiet_call (by simp) (by simp))
    fun _ => within_pure _

theorem quiet_transactionBegin (kind : Kind) (bytes : Nat) :
    Quiet (transactionBegin kind bytes) := by
  refine within_get.bind fun s => within_ite (fun _ => within_pure _) fun _ => ?_
  cases kind with
  | event | reset =>
      exact within_ite (fun _ => quiet_refuseTrace _) fun _ => quiet_reserveChecked _ _
  | dataRun =>
      refine within_ite (fun _ => Within.bind (quiet_fail _) fun _ => within_pure _) fun _ => ?_
      refine within_ite (fun _ => quiet_refuseTrace _) fun _ => ?_
      exact within_ite (fun _ => quiet_refuseTrace _) fun _ => quiet_reserveChecked _ _

theorem quiet_transactionExtend (bytes : Nat) : Quiet (transactionExtend bytes) := by
  refine within_get.bind fun s => within_ite (fun _ => within_pure _) fun _ => ?_
  refine within_ite (fun _ => Within.bind (quiet_refuseTrace _) fun _ => within_pure _) fun _ => ?_
  refine within_ite (fun _ => Within.bind (quiet_call (by simp) (by simp)) fun _ => ?_)
    fun _ => within_pure _
  exact Within.bind (quiet_modify fun s => ⟨rfl, rfl⟩) fun _ => within_pure _

theorem quiet_flushPendingRun : Quiet flushPendingRun := by
  intro s
  rw [flushPendingRun_eq]
  split
  · exact rfl
  split
  · exact rfl
  split
  · rw [failing]
    split <;> exact rfl
  split
  · rw [failing]
    split <;> exact rfl
  split
  · exact fun token => ⟨⟨by simp [IsUnclocked], by simp [IsUndriven]⟩,
      fun token => ⟨⟨by simp [IsUnclocked], by simp [IsUndriven]⟩, rfl⟩⟩
  · exact rfl

theorem quiet_prepareEventTransaction (kind : Kind) : Quiet (prepareEventTransaction kind) := by
  refine quiet_flushPendingRun.bind fun flushed => within_ite (fun _ => ?_) fun _ => ?_
  · exact within_get.bind fun _ => Within.bind (quiet_onlyIf (quiet_fail _)) fun _ => within_pure _
  · refine within_get.bind fun _ => within_ite (fun _ => ?_) fun _ => quiet_transactionBegin kind 0
    exact Within.bind (quiet_fail _) fun _ => within_pure _

theorem quiet_commitEvent (token : Token) (opcode payload : UInt32) :
    Quiet (commitEvent token opcode payload) := by
  refine within_get.bind fun s => Within.bind (quiet_modify fun s => ⟨rfl, rfl⟩) fun _ => ?_
  refine Within.bind (quiet_onlyIf ?_) fun _ => quiet_modify fun s => ⟨rfl, rfl⟩
  exact Within.bind (quiet_call (by simp) (by simp)) fun _ =>
    within_discard (quiet_call (by simp) (by simp))

theorem quiet_beginRun : Quiet beginRun := by
  refine quiet_flushPendingRun.bind fun flushed => within_ite (fun _ => within_pure _) fun _ => ?_
  refine within_get.bind fun s => within_ite (fun _ => ?_) fun _ => ?_
  · exact Within.bind (quiet_fail _) fun _ => within_pure _
  · refine (quiet_transactionBegin _ _).bind fun reply =>
      within_ite (fun _ => within_pure _) fun _ => ?_
    exact Within.bind (quiet_modify fun s => ⟨rfl, rfl⟩) fun _ => within_pure _

theorem quiet_prepareByteTransaction : Quiet prepareByteTransaction := by
  refine within_get.bind fun s => within_ite (fun _ => within_pure _) fun _ => ?_
  refine within_ite (fun _ => quiet_beginRun) fun _ => ?_
  exact (quiet_transactionExtend 1).bind fun _ => within_pure _

theorem quiet_commitPcmByte (starting : Bool) (value : UInt8) :
    Quiet (commitPcmByte starting value) := by
  refine Within.bind (quiet_onlyIf (quiet_modify fun s => ⟨rfl, rfl⟩)) fun _ => ?_
  refine Within.bind (quiet_modify fun s => ⟨rfl, rfl⟩) fun _ => within_get.bind fun s => ?_
  refine Within.bind (quiet_onlyIf ?_) fun _ => quiet_modify fun s => ⟨rfl, rfl⟩
  exact Within.bind (quiet_call (by simp) (by simp)) fun _ => quiet_modify fun _ => ⟨rfl, rfl⟩

theorem quiet_flushTerminated : Quiet flushTerminated :=
  quiet_flushPendingRun.bind fun _ =>
    within_ite (fun _ => quiet_modify fun _ => ⟨rfl, rfl⟩) fun _ => within_pure _

theorem quiet_publishProgress (frameTimestamp : UInt64) :
    Quiet (publishProgress frameTimestamp) := by
  refine within_get.bind fun s => ?_
  split
  · exact within_ite (fun _ => quiet_call (by simp) (by simp)) fun _ => within_pure _
  · exact within_pure _

theorem quiet_semanticEnter : Quiet semanticEnter := by
  intro s
  rw [semanticEnter, get_bind_run]
  simp only [ite_run]
  split
  · exact rfl
  split
  · exact rfl
  split
  · exact (Within.bind (quiet_fail _) fun _ => within_pure _ : Quiet (do fail _; return false)) s
  split
  · exact (Within.bind (quiet_fail _) fun _ => within_pure _ : Quiet (do fail _; return false)) s
  · exact rfl

theorem quiet_semanticLeave : Quiet semanticLeave := quiet_modify fun _ => ⟨rfl, rfl⟩

/-- A semantic call of a program that keeps a view which the rest of the call keeps. -/
theorem within_semanticCall {V : Type} {P : CallLabel → Prop} {view : Adapter → V} {refused : α}
    {body : Guest α} (hquiet : ∀ {β : Type} {program : Guest β}, Quiet program →
      Within P (Preserves view) program)
    (hbody : Within P (Preserves view) body) :
    Within P (Preserves view) (semanticCall refused body) := by
  refine (hquiet quiet_semanticEnter).bind fun entered => within_ite (fun _ => ?_)
    fun _ => within_pure _
  exact hbody.bind fun _ => (hquiet quiet_semanticLeave).bind fun _ => within_pure _

end Transactions

end EspNp2.GuestAdapter.QuietFrame
