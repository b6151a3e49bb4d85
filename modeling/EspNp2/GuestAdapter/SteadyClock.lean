import EspNp2.GuestAdapter.ClockRuns

/-!
What holds of the clock of every reachable guest: the last PCM clock is one that a position can
have left behind, the mask of the FIFO belongs to its step, and no operation changes how far the
frame clock is from the cycles of the guest.
-/

namespace EspNp2.GuestAdapter.SteadyClock

open EspNp2.GuestAdapter.AdapterFrame
open EspNp2.GuestAdapter.AdapterOperations
open EspNp2.GuestAdapter.AdapterRuns
open EspNp2.GuestAdapter.AdapterState
open EspNp2.GuestAdapter.ClockPaths
open EspNp2.GuestAdapter.ClockRuns
open EspNp2.GuestAdapter.CommitStream
open EspNp2.GuestAdapter.QuietFrame
open EspNp2.Library.CallMonitor
open EspNp2.Library.CallProgram
open EspNp2.Library.LabelledRun

section Steady

/-- What holds of the clock of every reachable guest. -/
structure Steady (distance : ℤ) (g : GuestState) : Prop where
  valid : g.cpuPositionValid = true → g.pcmClockValid = true
  placed : Placed g.pcmLastclock
  masked : Masked (rate g)
  drift : drift g = distance

/-- What holds of a plan for such a guest. -/
structure SteadyPlan (distance : ℤ) (plan : SyncPlan) : Prop where
  valid : plan.pcm.clockValid = true
  placed : Placed plan.pcm.lastclock
  drift : 1024 * (plan.frameTimestamp.toNat : ℤ) + plan.frameRemainder.toNat -
    plan.guestCycles.toNat = distance

theorem placed_position (position : UInt32) : Placed (position.toUInt64 <<< 6) := by
  have hposition := position.toNat_lt
  refine .inl ?_
  rw [UInt64.le_iff_toNat_le, toNat_position, pastCycle_toNat]
  omega

theorem placed_before (position : UInt32) : Placed (position.toUInt64 <<< 6 - 1) := by
  have hposition := position.toNat_lt
  have hcur := toNat_position position
  generalize position.toUInt64 <<< 6 = cur at hcur
  by_cases hzero : cur = 0
  · exact .inr (by rw [hzero]; rfl)
  · refine .inl ?_
    have hpositive : 1 ≤ cur := by
      rw [UInt64.le_iff_toNat_le]
      have hne : cur.toNat ≠ 0 := fun h => hzero (UInt64.toNat_inj.mp h)
      change 1 ≤ cur.toNat
      omega
    rw [UInt64.le_iff_toNat_le, UInt64.toNat_sub_of_le _ _ hpositive, pastCycle_toNat]
    omega

theorem placed_mod (clock : UInt64) : Placed (clock % pastCycle) := by
  refine .inl ?_
  rw [UInt64.le_iff_toNat_le, UInt64.toNat_mod]
  exact Nat.le_of_lt (Nat.mod_lt _ (by decide))

theorem stepPcm_steady (g : GuestState) {clock : PcmClock} (hplaced : Placed clock.lastclock)
    (past : UInt64) : Placed (stepPcm g clock past).lastclock ∧
      (clock.clockValid = true → (stepPcm g clock past).clockValid = true) := by
  rw [stepPcm]
  split
  · exact ⟨placed_mod _, fun _ => rfl⟩
  · exact ⟨hplaced, fun h => h⟩

theorem recalcPcm_steady (g : GuestState) (position : UInt32) {clock : PcmClock}
    (hplaced : Placed clock.lastclock) : Placed (recalcPcm g position clock).lastclock ∧
      (clock.clockValid = true → (recalcPcm g position clock).clockValid = true) := by
  by_cases hrate : g.pcmRateval = 0
  · rw [recalcPcm, if_pos hrate]
    exact ⟨hplaced, fun h => h⟩
  by_cases hvalid : clock.clockValid = false
  · rw [recalcPcm, if_neg hrate, if_pos hvalid]
    exact ⟨placed_position position, fun _ => rfl⟩
  rw [recalcPcm_eq_step hrate hvalid rfl rfl]
  split
  · split
    · exact stepPcm_steady g (placed_before position) 1
    · exact stepPcm_steady g hplaced 0
  · exact stepPcm_steady g hplaced _

theorem Steady.recalc {distance : ℤ} {g : GuestState} (h : Steady distance g) (position : UInt32) :
    Steady distance (ClockPaths.recalc g position) := by
  have hbefore : Placed (GuestState.pcmClock g).lastclock := h.placed
  obtain ⟨hplaced, hvalid⟩ := recalcPcm_steady g position hbefore
  exact ⟨fun hcpu => hvalid (h.valid hcpu), hplaced, h.masked, h.drift⟩

theorem Steady.compute {distance : ℤ} {g : GuestState} (h : Steady distance g)
    {position : UInt32} {plan : SyncPlan} (hplan : compute g position = .ok plan) :
    SteadyPlan distance plan := by
  have hdrift := (drift_apply hplan).trans h.drift
  rw [ClockPaths.compute] at hplan
  split at hplan
  · cases hplan
    exact ⟨rfl, placed_position position, hdrift⟩
  · rename_i hvalid
    rw [Bool.not_eq_false] at hvalid
    have hmoved := advance_fields hplan
    have hbefore : Placed (GuestState.pcmClock g).lastclock := h.placed
    obtain ⟨hplaced, hclock⟩ := recalcPcm_steady g position hbefore
    refine ⟨?_, ?_, hdrift⟩
    · rw [hmoved.pcm]
      exact hclock (h.valid hvalid)
    · rw [hmoved.pcm]
      exact hplaced

theorem SteadyPlan.advance {distance : ℤ} {plan plan' : SyncPlan} (h : SteadyPlan distance plan)
    {g : GuestState} {position : UInt32} (hplan : plan.advance g position = .ok plan') :
    SteadyPlan distance plan' := by
  have hmoved := advance_fields hplan
  obtain ⟨hplaced, hclock⟩ := recalcPcm_steady g position h.placed
  refine ⟨?_, ?_, ?_⟩
  · rw [hmoved.pcm]
    exact hclock h.valid
  · rw [hmoved.pcm]
    exact hplaced
  · have hdrift := h.drift
    rw [hmoved.guest, hmoved.frames, hmoved.remainder]
    omega

theorem Steady.apply {distance : ℤ} {g : GuestState} (h : Steady distance g) {plan : SyncPlan}
    (hplan : SteadyPlan distance plan) : Steady distance (applyPlan g plan) :=
  ⟨fun _ => hplan.valid, hplan.placed, h.masked, hplan.drift⟩

theorem Steady.of_fields {distance : ℤ} {g g' : GuestState} (h : Steady distance g)
    (hfields : clockFields g' = clockFields g) : Steady distance g' := by
  rw [clockFields, clockFields, ClockFields.mk.injEq] at hfields
  obtain ⟨hrate, hpcm, hguest, hframe, hremainder, hlast, hvalid⟩ := hfields
  refine ⟨fun hcpu => ?_, ?_, hrate ▸ h.masked, ?_⟩
  · exact (congrArg PcmClock.clockValid hpcm).trans (h.valid (hvalid ▸ hcpu))
  · rw [show g'.pcmLastclock = g.pcmLastclock from congrArg PcmClock.lastclock hpcm]
    exact h.placed
  · rw [ClockPaths.drift, hframe, hremainder, hguest]
    exact h.drift

/-- The steady guests, wherever the host is. -/
def SteadyAt (distance : ℤ) (now : Option UInt32) (s : Adapter) : Prop :=
  now = none ∧ Steady distance s.guest

theorem clockRule_steady (distance : ℤ) : ClockRule 0 (SteadyAt distance) where
  frame := fun h hview => ⟨h.1, h.2.of_fields (congrArg Prod.fst hview)⟩
  manual := fun h _ instant hinstant => by rw [h.1] at hinstant; cases hinstant
  sample := fun position h _ => ⟨by rw [h.1]; rfl, h.2⟩
  recalc := fun h _ => ⟨h.1, h.2.recalc _⟩
  sync := fun h _ hplan => ⟨h.1, h.2.apply (h.2.compute hplan)⟩

end Steady

section Writes

variable {distance : ℤ}

/-- The steady guests stay steady. -/
abbrev KeepsSteady (distance : ℤ) {α : Type} (program : Guest α) : Prop :=
  KeepsClock 0 (SteadyAt distance) program

theorem keepsSteady_quiet {α : Type} {program : Guest α} (h : Quiet program) :
    KeepsSteady distance program :=
  keepsClock_quiet (clockRule_steady distance) h

theorem keepsSteady_modifyGuest {change : GuestState → GuestState}
    (h : ∀ g, Steady distance g → Steady distance (change g)) :
    KeepsSteady distance (modifyGuest change) :=
  ensures_modify fun _ s hs => ⟨hs.1, h s.guest hs.2⟩

theorem steady_setRate {g : GuestState} (h : Steady distance g) (baseclock multiple : UInt32)
    (rateIndex : UInt8) : Steady distance (GuestState.setRate g baseclock multiple rateIndex) :=
  ⟨h.valid, h.placed, h.masked, h.drift⟩

theorem keepsSteady_pcmSetRate (rateIndex : UInt8) : KeepsSteady distance (pcmSetRate rateIndex) :=
  ensures_get fun _ => keepsSteady_modifyGuest fun _ h => steady_setRate h _ _ rateIndex

theorem keepsSteady_writeFifo (value : UInt8) (cpuPosition : UInt32) :
    KeepsSteady distance (writeFifo value cpuPosition) := by
  refine ensures_get fun s => ?_
  refine Ensures.bind (keepsClock_onlyIf (keepsSteady_modifyGuest fun g h => ?_)) fun _ => ?_
  · exact ⟨fun _ => rfl, placed_position cpuPosition, h.masked, h.drift⟩
  refine Ensures.bind (keepsClock_onlyIf (keepsSteady_modifyGuest fun g h => ?_)) fun _ => ?_
  · exact ⟨h.valid, h.placed, h.masked, h.drift⟩
  refine Ensures.bind (keepsSteady_modifyGuest fun g h => ?_) fun _ => ?_
  · exact ⟨h.valid, h.placed, h.masked, h.drift⟩
  refine Ensures.bind (keepsClock_onlyIf (keepsSteady_pcmSetRate value)) fun _ => ?_
  refine Ensures.bind (keepsSteady_modifyGuest fun g h => ?_) fun _ => ?_
  · exact ⟨h.valid, h.placed, h.masked, h.drift⟩
  refine Ensures.bind (keepsClock_onlyIf (keepsSteady_modifyGuest fun g h => ?_)) fun _ => ?_
  · exact ⟨fun _ => rfl, placed_position cpuPosition, h.masked, h.drift⟩
  refine ensures_get fun s => ?_
  refine Ensures.bind (keepsClock_onlyIf (keepsSteady_quiet quiet_pcmSetNextInterrupt)) fun _ => ?_
  exact keepsClock_onlyIf
    (keepsClock_unclocked (clockRule_steady distance) (unclocked_picResetIfIdle .pcm))

theorem dacStepbits_le (index : UInt8) :
    dacStepbits.getD (index &&& 7).toNat 0 ≤ 2 := by
  have hindex : (index &&& 7).toNat < 8 := by
    rw [UInt8.toNat_and]
    exact Nat.lt_succ_of_le Nat.and_le_right
  have hall : ∀ position : Fin 8, dacStepbits.getD position 0 ≤ 2 := by decide
  exact hall ⟨_, hindex⟩

theorem keepsSteady_writeDac (value : UInt8) : KeepsSteady distance (writeDac value) := by
  refine ensures_get fun s => ?_
  refine Ensures.bind (keepsClock_onlyIf (keepsSteady_modifyGuest fun g h => ?_)) fun _ => ?_
  · exact ⟨h.valid, h.placed, h.masked, h.drift⟩
  refine Ensures.bind (keepsClock_onlyIf ?_) fun _ => ?_
  · refine Ensures.bind (keepsSteady_modifyGuest fun g h => ?_) fun _ => ?_
    · exact ⟨h.valid, h.placed, ⟨dacStepbits_le (value >>> 4), rfl⟩, h.drift⟩
    exact ensures_get fun _ => keepsSteady_pcmSetRate _
  refine ensures_get fun s => ?_
  exact keepsClock_onlyIf (keepsSteady_quiet quiet_pcmSetNextInterrupt)

theorem keepsSteady_writePcmRegister (registerIndex value : UInt8) (cpuPosition : UInt32) :
    KeepsSteady distance (writePcmRegister registerIndex value cpuPosition) := by
  refine ensures_ite (fun _ => ?_) fun _ => ensures_ite (fun _ => ?_) fun _ =>
    ensures_ite (fun _ => keepsSteady_writeFifo value cpuPosition) fun _ =>
      ensures_ite (fun _ => keepsSteady_writeDac value) fun _ => keepsClock_pure _
  · refine Ensures.bind (keepsSteady_modifyGuest fun g h => ?_) fun _ => ?_
    · exact ⟨h.valid, h.placed, h.masked, h.drift⟩
    exact keepsSteady_quiet (quiet_opnaSetExtension _)
  · refine ensures_ite (fun _ => keepsSteady_modifyGuest fun g h => ?_) fun _ => keepsClock_pure _
    exact ⟨h.valid, h.placed, h.masked, h.drift⟩

/-- A plan for the guest as it is. -/
def SteadyPlanned (distance : ℤ) (plan : SyncPlan) (now : Option UInt32) (s : Adapter) : Prop :=
  SteadyAt distance now s ∧ SteadyPlan distance plan

theorem ensures_steadyPlan : Ensures (observeClock 0) (SteadyAt distance) syncPlanCompute
    fun now result s => SteadyAt distance now s ∧
      ∀ plan, result = .ok plan → SteadyPlan distance plan := by
  refine (ensures_syncPlanCompute (clockRule_steady distance)).mono ?_
  rintro now result s ⟨hs, position, -, hresult⟩
  exact ⟨hs, fun plan hplan => hs.2.compute (hresult.trans hplan)⟩

theorem ensures_steadyPcmPlan (registerIndex : UInt8) :
    Ensures (observeClock 0) (SteadyAt distance) (pcmSyncPlan registerIndex)
      fun now result s => SteadyAt distance now s ∧
        ∀ plan, result = .ok plan → SteadyPlan distance plan := by
  refine ensures_steadyPlan.bind fun result => ?_
  cases result with
  | error status => exact ensures_pure fun _ _ h => ⟨h.1, nofun⟩
  | ok plan =>
      refine ensures_ite (fun _ => ?_) fun _ => ensures_pure fun _ _ h => h
      change Ensures _ _ (currentCpuPosition >>= _) _
      rintro now s ⟨hs, hplan⟩
      have hread := ensures_currentCpuPosition (clockRule_steady distance) now s hs
      refine Watched.bind (hread.mono ?_)
      rintro now' ⟨position, s'⟩ ⟨-, hs'⟩
      exact ⟨hs', fun plan' hplan' => (hplan plan rfl).advance hplan'⟩

theorem ensures_steadyPlanned {α : Type} {program : Guest α} (h : Quiet program)
    (plan : SyncPlan) :
    Ensures (observeClock 0) (SteadyPlanned distance plan) program
      fun now _ s => SteadyPlanned distance plan now s := by
  refine h.unclocked.ensures (fun _ _ => tick_unclocked) ?_
  rintro now s s' - ⟨hs, hplan⟩ hview
  exact ⟨(clockRule_steady distance).frame hs hview, hplan⟩

theorem keepsSteady_pcm86Write (registerIndex value : UInt8) :
    KeepsSteady distance (pcm86Write registerIndex value) := by
  refine keepsClock_semanticCall (clockRule_steady distance)
    (ensures_get fun s => ensures_ite (fun _ => ?_) fun _ => ?_)
  · refine (keepsClock_audioSync (clockRule_steady distance)).bind fun _ => ?_
    exact ensures_get fun _ => keepsClock_pure _
  refine (keepsSteady_quiet quiet_flushPendingRun).bind fun flushed => ?_
  refine ensures_ite (fun _ => ?_) fun _ => keepsClock_pure _
  refine (ensures_steadyPcmPlan registerIndex).bind fun result => ?_
  cases result with
  | error status =>
      refine ensures_before ?_ fun _ _ h => h.1
      exact (keepsSteady_quiet (quiet_failSyncPlan status)).bind fun _ => keepsClock_pure _
  | ok plan =>
      refine ensures_before (?_ : Ensures (observeClock 0) (SteadyPlanned distance plan) _ _)
        fun _ _ h => ⟨h.1, h.2 plan rfl⟩
      refine (ensures_steadyPlanned (quiet_prepareEventTransaction .event) plan).bind
        fun reply => ?_
      refine ensures_ite (fun _ => ?_) fun _ =>
        ensures_before (keepsClock_pure false) fun _ _ h => h.1
      have happly : Ensures (observeClock 0) (SteadyPlanned distance plan) (syncPlanApply plan)
          fun now _ s => SteadyAt distance now s :=
        ensures_modify fun _ s h => ⟨h.1.1, h.1.2.apply h.2⟩
      refine happly.bind fun _ => ?_
      refine (keepsSteady_writePcmRegister registerIndex value plan.cpuPosition).bind fun _ => ?_
      exact (keepsSteady_quiet (quiet_commitEvent _ _ _)).bind fun _ => keepsClock_pure _

theorem keepsSteady_pcm86WriteData (value : UInt8) :
    KeepsSteady distance (pcm86WriteData value) := by
  refine (ensures_currentCpuPosition (clockRule_steady distance)).bind fun cur => ?_
  refine ensures_before (keepsClock_semanticCall (clockRule_steady distance) ?_) fun _ _ h => h.2
  refine (keepsSteady_quiet quiet_prepareByteTransaction).bind fun reply => ?_
  refine ensures_ite (fun _ => ?_) fun _ => ensures_get fun s => ?_
  · refine Ensures.bind (ensures_get fun s => ?_) fun _ => keepsClock_pure true
    refine Ensures.bind (keepsSteady_modifyGuest fun g h => ?_) fun _ => ?_
    · exact ⟨h.valid, h.placed, h.masked, h.drift⟩
    exact keepsSteady_quiet (quiet_commitPcmByte _ _)
  · refine Ensures.bind (keepsClock_onlyIf (keepsSteady_quiet quiet_flushTerminated)) fun _ => ?_
    exact keepsClock_pure false

theorem steady_resetGuest {old : GuestState} (h : drift old = distance) (s : Adapter)
    (capabilities : UInt8) (irq : UInt32) (timerAEvent timerBEvent : UInt8) :
    Steady distance (resetGuest s old capabilities irq timerAEvent timerBEvent) :=
  ⟨nofun, .inl (show (0 : UInt64) ≤ pastCycle by decide), ⟨show (2 : UInt8) ≤ 2 by decide,
    show (3 : UInt16) = (1 : UInt16) <<< (2 : UInt8).toUInt16 - 1 by decide⟩, h⟩

theorem keepsSteady_resetEffects {old : GuestState} (h : drift old = distance)
    (capabilities : UInt8) (irq : UInt32) (timerAEvent timerBEvent : UInt8) :
    KeepsSteady distance (resetEffects old capabilities irq timerAEvent timerBEvent) := by
  refine (keepsSteady_quiet (quiet_cancelEvent _)).bind fun _ => ?_
  refine (keepsSteady_quiet (quiet_cancelEvent _)).bind fun _ => ?_
  refine (keepsSteady_quiet (quiet_cancelEvent _)).bind fun _ => ?_
  exact ensures_modify fun _ s hs => ⟨hs.1, steady_resetGuest h s _ _ _ _⟩

theorem keepsSteady_opnaReset (capabilities : UInt8) (irq : UInt32)
    (timerAEvent timerBEvent : UInt8) :
    KeepsSteady distance (opnaReset capabilities irq timerAEvent timerBEvent) := by
  rintro now s hs
  have heffects := keepsSteady_resetEffects hs.2.drift capabilities irq timerAEvent timerBEvent
  rw [opnaReset, get_bind_run, ite_run]
  split
  case isFalse => exact heffects now s hs
  refine keepsClock_semanticCall (clockRule_steady distance) ?_ now s hs
  refine (keepsSteady_quiet (quiet_prepareEventTransaction .reset)).bind fun reply => ?_
  refine ensures_ite (fun _ => heffects.bind fun _ => ?_) fun _ => keepsClock_pure _
  exact keepsSteady_quiet (quiet_commitEvent _ _ _)

end Writes

section Reach

theorem keepsSteady_operation (distance : ℤ) (operation : Operation) :
    KeepsSteady distance operation.code := by
  by_cases hsync : synchronises operation = true
  · exact keepsClock_operation (clockRule_steady distance) hsync
  cases operation with
  | pcm86Write registerIndex value =>
      exact keepsClock_discard (keepsSteady_pcm86Write registerIndex value)
  | pcm86WriteData value => exact keepsClock_discard (keepsSteady_pcm86WriteData value)
  | opnaReset capabilities irq timerAEvent timerBEvent =>
      exact keepsSteady_opnaReset capabilities irq timerAEvent timerBEvent
  | _ => exact absurd rfl hsync

/-- Whatever an operation does and reads, the frame clock stays as far from the cycles. -/
theorem steady_operation {distance : ℤ} {s s' : Adapter} {operation : Operation}
    {trace : List CallLabel} (h : Steady distance s.guest)
    (hrun : Run (Step anyReply) (operation.code s, ()) trace (.done ((), s'), ())) :
    Steady distance s'.guest := by
  have hkeeps := keepsSteady_operation distance operation none s ⟨rfl, h⟩
  obtain ⟨now, -, hresult⟩ := hkeeps.run hrun
  exact hresult.2

/-- The host may seed another distance. -/
theorem steady_configure {s : Adapter} (h : Steady (drift s.guest) s.guest)
    (configuration : Configuration) :
    Steady (drift (configure s configuration).guest) (configure s configuration).guest := by
  cases configuration with
  | setClock baseclock multiple =>
      have hfailing : ∀ reason, Steady (drift (failing s reason).guest)
        (failing s reason).guest := by
        intro reason
        rw [(failing_core s reason).2]
        exact h
      rw [configure, setClock]
      split
      · exact hfailing _
      split
      · exact hfailing _
      · dsimp only
        split
        · exact steady_setRate h baseclock multiple s.guest.pcmFifo
        · exact h
  | sinkBindIncomplete =>
      rw [configure, (failing_core _ _).2]
      exact h
  | testSeed frameTimestamp sequence => exact ⟨nofun, h.placed, h.masked, rfl⟩
  | _ => exact ⟨h.valid, h.placed, h.masked, rfl⟩

theorem reachable_steady {s : Adapter} (h : Reachable s) : Steady (drift s.guest) s.guest := by
  induction h with
  | start =>
      exact ⟨nofun, .inl (show (0 : UInt64) ≤ pastCycle by decide),
        ⟨show (0 : UInt8) ≤
          2 by decide, show (0 : UInt16) = (1 : UInt16) <<< (0 : UInt8).toUInt16 - 1
          by decide⟩, rfl⟩
  | operation operation _ hrun ih =>
      have hsteady := steady_operation ih hrun
      rwa [← hsteady.drift] at hsteady
  | configuration configuration _ ih => exact steady_configure ih configuration

end Reach

end EspNp2.GuestAdapter.SteadyClock
