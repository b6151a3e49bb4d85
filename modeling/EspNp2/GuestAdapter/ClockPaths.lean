import EspNp2.GuestAdapter.AdapterOperations
import EspNp2.Library.SteppedMeter
import Mathlib.Tactic.NormNum

/-!
The clock of the guest as a function of the CPU position. The PCM clock and the frame
clock are meters of elapsed clocks, so a synchronisation on the way changes neither what a
later one computes nor whether that one overflows.
-/

namespace EspNp2.GuestAdapter.ClockPaths

open EspNp2.GuestAdapter.AdapterOperations
open EspNp2.GuestAdapter.AdapterState
open EspNp2.Library.SteppedMeter

section Words

theorem pastCycle_toNat : pastCycle.toNat = 274877906880 := rfl

theorem toNat_position (position : UInt32) :
    (position.toUInt64 <<< 6).toNat = position.toNat * 64 := by
  have := position.toNat_lt
  rw [UInt64.toNat_shiftLeft, UInt32.toNat_toUInt64]
  simp only [UInt64.reduceToNat, Nat.reduceMod, Nat.shiftLeft_eq, Nat.reducePow]
  omega

end Words

section Rates

/-- The fields that say how the FIFO drains. -/
structure Rate where
  rateval : UInt32
  stepclock : UInt64
  stepbit : UInt8
  stepmask : UInt16
  fifo : UInt8
deriving DecidableEq

def rate (g : GuestState) : Rate :=
  ⟨g.pcmRateval, g.pcmStepclock, g.pcmStepbit, g.pcmStepmask, g.pcmFifo⟩

theorem recalcPcm_of_rate {g g' : GuestState} (h : rate g' = rate g) (position : UInt32)
    (clock : PcmClock) : recalcPcm g' position clock = recalcPcm g position clock := by
  simp only [rate, Rate.mk.injEq] at h
  obtain ⟨hrateval, hstepclock, hstepbit, hstepmask, hfifo⟩ := h
  have hpassed : passedCycles g' = passedCycles g := by
    funext cur lastclock
    rw [passedCycles, passedCycles, hstepclock]
  rw [recalcPcm, recalcPcm, hpassed, hrateval, hstepclock, hstepbit, hstepmask, hfifo]

/-- The clocks from the last PCM clock to a position. -/
def distance (lastclock : UInt64) (position : UInt32) : ℕ :=
  ((position.toUInt64 <<< 6 + pastCycle - lastclock) % pastCycle).toNat

/-- A clock that a position can have left behind. -/
def Placed (lastclock : UInt64) : Prop := lastclock ≤ pastCycle ∨ lastclock = -1

/-- The place of a clock on the circle of positions. -/
def place (lastclock : UInt64) : ℕ := (lastclock + pastCycle).toNat % pastCycle.toNat

theorem distance_eq {lastclock : UInt64} (h : Placed lastclock) (position : UInt32) :
    distance lastclock position =
      (position.toNat * 64 + pastCycle.toNat - place lastclock) % pastCycle.toNat := by
  have hposition := position.toNat_lt
  have hlastclock := lastclock.toNat_lt
  rw [distance, place, UInt64.toNat_mod, UInt64.toNat_sub, UInt64.toNat_add, UInt64.toNat_add,
    toNat_position]
  rw [Placed, UInt64.le_iff_toNat_le, ← UInt64.toNat_inj] at h
  rw [pastCycle_toNat] at h ⊢
  rcases h with h | h
  · omega
  · rw [h]
    have : (-1 : UInt64).toNat = 18446744073709551615 := rfl
    omega

theorem place_lt (lastclock : UInt64) : place lastclock < pastCycle.toNat :=
  Nat.mod_lt _ (by decide)

theorem place_ofNat (clocks : ℕ) :
    place (UInt64.ofNat (clocks % pastCycle.toNat)) = clocks % pastCycle.toNat := by
  rw [place, UInt64.toNat_add, UInt64.toNat_ofNat', pastCycle_toNat]
  omega

theorem placed_ofNat (clocks : ℕ) : Placed (UInt64.ofNat (clocks % pastCycle.toNat)) := by
  refine .inl ?_
  rw [UInt64.le_iff_toNat_le, UInt64.toNat_ofNat', pastCycle_toNat]
  omega

/-- The mask of the FIFO belongs to its step. -/
def Masked (r : Rate) : Prop :=
  r.stepbit ≤ 2 ∧ r.stepmask = ((1 : UInt16) <<< r.stepbit.toUInt16) - 1

/-- The bytes that a step takes from the FIFO. -/
def Rate.unit (r : Rate) : ℕ := 2 ^ r.stepbit.toNat

theorem Masked.cases {r : Rate} (h : Masked r) :
    r.stepbit = 0 ∧ r.stepmask = 0 ∨ r.stepbit = 1 ∧ r.stepmask = 1 ∨
      r.stepbit = 2 ∧ r.stepmask = 3 := by
  obtain ⟨hstepbit, hstepmask⟩ := h
  have hcases : r.stepbit = 0 ∨ r.stepbit = 1 ∨ r.stepbit = 2 := by
    rw [UInt8.le_iff_toNat_le] at hstepbit
    simp only [← UInt8.toNat_inj]
    simp at hstepbit ⊢
    omega
  rcases hcases with hcase | hcase | hcase <;> rw [hcase] at hstepmask <;>
    simp [hcase, hstepmask] <;>
    decide

theorem Masked.toNat_shift {r : Rate} (h : Masked r) {count : UInt64}
    (hcount : count.toNat ≤ pastCycle.toNat) :
    (count <<< r.stepbit.toUInt64).toNat = count.toNat * r.unit := by
  rw [pastCycle_toNat] at hcount
  rw [UInt64.toNat_shiftLeft, Rate.unit, Nat.shiftLeft_eq]
  rcases h.cases with ⟨hstepbit, -⟩ | ⟨hstepbit, -⟩ | ⟨hstepbit, -⟩ <;> rw [hstepbit] <;>
    simp <;> omega

theorem Masked.toNat_mask {r : Rate} (h : Masked r) (level : UInt32) :
    (level &&& r.stepmask.toUInt32).toNat = level.toNat % r.unit := by
  rw [UInt32.toNat_and, Rate.unit]
  rcases h.cases with ⟨hstepbit, hstepmask⟩ | ⟨hstepbit, hstepmask⟩ | ⟨hstepbit, hstepmask⟩ <;>
    rw [hstepbit, hstepmask]
  · simp [Nat.mod_one]
  · exact Nat.and_two_pow_sub_one_eq_mod level.toNat 1
  · exact Nat.and_two_pow_sub_one_eq_mod level.toNat 2

/-- The FIFO after whole steps, in words. -/
theorem Masked.drained {r : Rate} (h : Masked r) {count : UInt64}
    (hcount : count.toNat ≤ pastCycle.toNat) (level : UInt32) :
    (if count <<< r.stepbit.toUInt64 < level.toUInt64 then
        level - (count <<< r.stepbit.toUInt64).toUInt32
      else level &&& r.stepmask.toUInt32) =
      UInt32.ofNat (drain r.unit count.toNat level.toNat) := by
  have hdrain : drain r.unit count.toNat level.toNat < 2 ^ 32 :=
    Nat.lt_of_le_of_lt (drain_le _ _ _) level.toNat_lt
  rw [← UInt32.toNat_inj, UInt32.toNat_ofNat', Nat.mod_eq_of_lt hdrain, drain,
    ← h.toNat_shift hcount]
  simp only [UInt64.lt_iff_toNat_lt, UInt32.toNat_toUInt64]
  split
  · rename_i hlt
    have hlevel := level.toNat_lt
    have hconsumed : (count <<< r.stepbit.toUInt64).toUInt32.toNat =
        (count <<< r.stepbit.toUInt64).toNat := by
      rw [UInt64.toNat_toUInt32]
      exact Nat.mod_eq_of_lt (Nat.lt_trans hlt hlevel)
    rw [UInt32.toNat_sub_of_le, hconsumed]
    rw [UInt32.le_iff_toNat_le, hconsumed]
    exact Nat.le_of_lt hlt
  · exact h.toNat_mask level

/-- What whole steps do to the last clock and to the FIFO. -/
def Rate.consume (r : Rate) (steps : ℕ) (level : UInt64 × UInt32) : UInt64 × UInt32 :=
  if steps = 0 then level
  else
    (UInt64.ofNat ((place level.1 + steps * r.stepclock.toNat) % pastCycle.toNat),
      if r.fifo &&& 0x80 = 0 then level.2
      else UInt32.ofNat (drain r.unit steps level.2.toNat))

theorem Rate.consume_zero (r : Rate) (level : UInt64 × UInt32) : r.consume 0 level = level :=
  if_pos rfl

theorem Rate.consume_succ (r : Rate) {steps : ℕ} (h : 0 < steps) (level : UInt64 × UInt32) :
    r.consume steps level =
      (UInt64.ofNat ((place level.1 + steps * r.stepclock.toNat) % pastCycle.toNat),
        if r.fifo &&& 0x80 = 0 then level.2
        else UInt32.ofNat (drain r.unit steps level.2.toNat)) :=
  if_neg (Nat.ne_of_gt h)

theorem Rate.additive_consume (r : Rate) : Additive r.consume := by
  rintro first second ⟨lastclock, level⟩
  rcases Nat.eq_zero_or_pos first with rfl | hfirst
  · rw [Nat.zero_add, Rate.consume_zero]
  rcases Nat.eq_zero_or_pos second with rfl | hsecond
  · rw [Nat.add_zero, Rate.consume_zero]
  · have hdrain : drain r.unit first level.toNat < 2 ^ 32 :=
      Nat.lt_of_le_of_lt (drain_le _ _ _) level.toNat_lt
    have hunit : 0 < r.unit := Nat.two_pow_pos _
    rw [Rate.consume_succ r hfirst, Rate.consume_succ r hsecond,
      Rate.consume_succ r (Nat.add_pos_left hfirst _)]
    simp only [place_ofNat, Nat.mod_add_mod, Nat.add_mul, Nat.add_assoc]
    split
    · rfl
    · rw [UInt32.toNat_ofNat', Nat.mod_eq_of_lt hdrain, additive_drain hunit first second]

/-- The PCM clock as a meter that was read at its last clock. -/
def Rate.read (r : Rate) (clock : PcmClock) (clocks : ℕ) : PcmClock :=
  let meter := Meter.advance r.stepclock.toNat r.consume
    ⟨0, (clock.lastclock, clock.virtualBuffer)⟩ clocks
  ⟨meter.level.1, true, UInt32.ofNat meter.elapsed, meter.level.2⟩

theorem Rate.read_of_lt (r : Rate) (clock : PcmClock) {clocks : ℕ}
    (h : clocks < r.stepclock.toNat) :
    r.read clock clocks =
      { clock with clockValid := true, stepRemainder := UInt32.ofNat clocks } := by
  rw [Rate.read, Meter.advance, Nat.zero_add, Nat.div_eq_of_lt h, Nat.mod_eq_of_lt h,
    Rate.consume_zero]

theorem Rate.read_of_le (r : Rate) (clock : PcmClock) {clocks : ℕ} (hstep : 1 ≤ r.stepclock)
    (h : r.stepclock.toNat ≤ clocks) :
    r.read clock clocks =
      { lastclock := UInt64.ofNat
          ((place clock.lastclock + clocks / r.stepclock.toNat * r.stepclock.toNat) %
            pastCycle.toNat)
        clockValid := true
        stepRemainder := UInt32.ofNat (clocks % r.stepclock.toNat)
        virtualBuffer :=
          if r.fifo &&& 0x80 = 0 then clock.virtualBuffer
          else UInt32.ofNat
            (drain r.unit (clocks / r.stepclock.toNat) clock.virtualBuffer.toNat) } := by
  have hcount : 0 < clocks / r.stepclock.toNat := Nat.div_pos h (UInt64.le_iff_toNat_le.mp hstep)
  rw [Rate.read, Meter.advance, Nat.zero_add, Rate.consume_succ r hcount]

theorem passedCycles_near (g : GuestState) {lastclock : UInt64} {position : UInt32}
    (h : distance lastclock position ≤ pastCycle.toNat / 2) :
    passedCycles g (position.toUInt64 <<< 6) lastclock =
      (UInt64.ofNat (distance lastclock position), lastclock) := by
  rw [passedCycles, distance, UInt64.ofNat_toNat]
  refine if_neg ?_
  rw [gt_iff_lt, UInt64.not_lt, UInt64.le_iff_toNat_le]
  exact h

theorem toNat_distance (lastclock : UInt64) (position : UInt32) :
    (UInt64.ofNat (distance lastclock position)).toNat = distance lastclock position := by
  rw [distance, UInt64.ofNat_toNat]

theorem distance_lt (lastclock : UInt64) (position : UInt32) :
    distance lastclock position < pastCycle.toNat := by
  rw [distance, UInt64.toNat_mod]
  exact Nat.mod_lt _ (by decide)

/-- The last clock after whole steps, in words and on the circle. -/
theorem lastclock_steps {lastclock step : UInt64} (h : Placed lastclock) (hstep : 1 ≤ step)
    {steps : ℕ} (hsteps : 0 < steps) (hpast : steps * step.toNat < pastCycle.toNat) :
    (lastclock + UInt64.ofNat steps * step) % pastCycle =
      UInt64.ofNat ((place lastclock + steps * step.toNat) % pastCycle.toNat) := by
  rw [UInt64.le_iff_toNat_le] at hstep
  have hone : (1 : UInt64).toNat = 1 := rfl
  have hsteps_le : steps ≤ steps * step.toNat := Nat.le_mul_of_pos_right steps (by omega)
  rw [pastCycle_toNat] at hpast
  have hmul : (UInt64.ofNat steps * step).toNat = steps * step.toNat := by
    have hword : steps % 2 ^ 64 = steps := Nat.mod_eq_of_lt (by omega)
    rw [UInt64.toNat_mul, UInt64.toNat_ofNat', hword, Nat.mod_eq_of_lt (by omega)]
  rw [← UInt64.toNat_inj, UInt64.toNat_mod, UInt64.toNat_add, hmul, UInt64.toNat_ofNat', place,
    UInt64.toNat_add]
  rw [Placed, UInt64.le_iff_toNat_le, ← UInt64.toNat_inj] at h
  rw [pastCycle_toNat] at h ⊢
  generalize steps * step.toNat = clocks at hpast hsteps_le ⊢
  have hlastclock := lastclock.toNat_lt
  rcases h with h | h
  · omega
  · rw [h]
    have : (-1 : UInt64).toNat = 18446744073709551615 := rfl
    omega

theorem recalcPcm_eq_read {g : GuestState} (hrate : g.pcmRateval ≠ 0) (hstep : 1 ≤ g.pcmStepclock)
    (hmasked : Masked (rate g)) {clock : PcmClock} (hvalid : clock.clockValid = true)
    (hplaced : Placed clock.lastclock) {position : UInt32}
    (hnear : distance clock.lastclock position ≤ pastCycle.toNat / 2) :
    recalcPcm g position clock = (rate g).read clock (distance clock.lastclock position) := by
  have hpast := distance_lt clock.lastclock position
  have htoNat := toNat_distance clock.lastclock position
  rw [recalcPcm, if_neg hrate, if_neg (by simp [hvalid]), passedCycles_near g hnear]
  generalize distance clock.lastclock position = past at hpast htoNat ⊢
  have hstep' : 1 ≤ g.pcmStepclock.toNat := UInt64.le_iff_toNat_le.mp hstep
  change (if UInt64.ofNat past ≥ g.pcmStepclock then _ else _) = _
  split
  · rename_i hle
    rw [ge_iff_le, UInt64.le_iff_toNat_le, htoNat] at hle
    have hcount : 0 < past / g.pcmStepclock.toNat := Nat.div_pos hle hstep'
    have hdiv : UInt64.ofNat past / g.pcmStepclock = UInt64.ofNat
      (past / g.pcmStepclock.toNat) := by
      rw [← UInt64.toNat_inj, UInt64.toNat_div, htoNat, UInt64.toNat_ofNat', Nat.mod_eq_of_lt]
      rw [pastCycle_toNat] at hpast
      exact Nat.lt_of_le_of_lt (Nat.div_le_self _ _) (Nat.lt_trans hpast (by norm_num))
    rw [Rate.read_of_le (rate g) clock hstep hle]
    change PcmClock.mk _ _ _ _ = PcmClock.mk _ _ _ _
    rw [PcmClock.mk.injEq]
    refine ⟨?_, rfl, ?_, ?_⟩
    · rw [hdiv]
      refine lastclock_steps hplaced hstep hcount ?_
      exact Nat.lt_of_le_of_lt (Nat.div_mul_le_self _ _) hpast
    · rw [← UInt64.toUInt32_ofNat']
      congr 1
      rw [← UInt64.toNat_inj, UInt64.toNat_mod, htoNat, UInt64.toNat_ofNat']
      refine (Nat.mod_eq_of_lt (Nat.lt_of_le_of_lt (Nat.mod_le _ _) ?_)).symm
      exact htoNat ▸ (UInt64.ofNat past).toNat_lt
    · have hcounted : (UInt64.ofNat past / g.pcmStepclock).toNat = past / g.pcmStepclock.toNat := by
        rw [UInt64.toNat_div, htoNat]
      have hsmall : (UInt64.ofNat past / g.pcmStepclock).toNat ≤ pastCycle.toNat := by
        rw [hcounted]
        exact Nat.le_trans (Nat.div_le_self _ _) (Nat.le_of_lt hpast)
      have hdrained := hmasked.drained hsmall clock.virtualBuffer
      rw [hcounted] at hdrained
      split
      · exact (if_pos ‹_›).symm
      · exact hdrained.trans (if_neg ‹_›).symm
  · rename_i hlt
    rw [ge_iff_le, UInt64.not_le, UInt64.lt_iff_toNat_lt, htoNat] at hlt
    rw [Rate.read_of_lt (rate g) clock hlt]
    rw [PcmClock.mk.injEq]
    exact ⟨rfl, hvalid, UInt64.toUInt32_ofNat' past, rfl⟩

theorem Rate.read_read (r : Rate) (clock : PcmClock) (first second : ℕ) :
    r.read (r.read clock first) (first % r.stepclock.toNat + second) =
      r.read clock (first + second) := by
  have hmeter := @Meter.advance_advance _ r.stepclock.toNat _ r.additive_consume
    ⟨0, (clock.lastclock, clock.virtualBuffer)⟩ first second
  have hrest : ∀ meter : Meter (UInt64 × UInt32),
      Meter.advance r.stepclock.toNat r.consume ⟨0, meter.level⟩ (meter.elapsed + second) =
        meter.advance r.stepclock.toNat r.consume second := by
    intro meter
    rw [Meter.advance, Meter.advance, Nat.zero_add]
  have hfirst := hrest (Meter.advance r.stepclock.toNat r.consume
    ⟨0, (clock.lastclock, clock.virtualBuffer)⟩ first)
  rw [hmeter, Meter.advance, Nat.zero_add] at hfirst
  rw [Rate.read, Rate.read, Rate.read, ← hfirst]
  simp only [Meter.advance, Nat.zero_add]

end Rates

section Positions

theorem distance_add {lastclock : UInt64} (hplaced : Placed lastclock) {first second : UInt32}
    (hle : first ≤ second)
    (hnear : distance lastclock first + (second.toNat - first.toNat) * 64 < pastCycle.toNat) :
    distance lastclock second =
      distance lastclock first + (second.toNat - first.toNat) * 64 := by
  rw [UInt32.le_iff_toNat_le] at hle
  have hplace := place_lt lastclock
  rw [distance_eq hplaced] at hnear
  rw [distance_eq hplaced, distance_eq hplaced]
  rw [pastCycle_toNat] at hplace hnear ⊢
  omega

/-- After a reading the clock is less than a step behind. -/
theorem distance_read {r : Rate} (hstep : 1 ≤ r.stepclock) {clock : PcmClock}
    (hplaced : Placed clock.lastclock) (position : UInt32) :
    Placed (r.read clock (distance clock.lastclock position)).lastclock ∧
      distance (r.read clock (distance clock.lastclock position)).lastclock position =
        distance clock.lastclock position % r.stepclock.toNat := by
  rcases Nat.lt_or_ge (distance clock.lastclock position) r.stepclock.toNat with hlt | hle
  · rw [Rate.read_of_lt r clock hlt, Nat.mod_eq_of_lt hlt]
    exact ⟨hplaced, rfl⟩
  · rw [Rate.read_of_le r clock hstep hle]
    refine ⟨placed_ofNat _, ?_⟩
    have hwhole := Nat.div_mul_le_self (distance clock.lastclock position) r.stepclock.toNat
    have hrest := Nat.mod_add_div' (distance clock.lastclock position) r.stepclock.toNat
    have hplace := place_lt clock.lastclock
    have hposition := position.toNat_lt
    have hdistance := distance_eq hplaced position
    rw [distance_eq (placed_ofNat _), place_ofNat]
    generalize distance clock.lastclock position / r.stepclock.toNat * r.stepclock.toNat = whole
      at hwhole hrest ⊢
    rw [pastCycle_toNat] at hplace hdistance ⊢
    omega

theorem recalcPcm_recalcPcm {g : GuestState} (hstep : 1 ≤ g.pcmStepclock)
    (hmasked : Masked (rate g)) {clock : PcmClock} (hvalid : clock.clockValid = true)
    (hplaced : Placed clock.lastclock) {first second : UInt32} (hle : first ≤ second)
    (hnear : g.pcmRateval ≠ 0 → distance clock.lastclock first +
      (second.toNat - first.toNat) * 64 ≤ pastCycle.toNat / 2) :
    recalcPcm g second (recalcPcm g first clock) = recalcPcm g second clock := by
  by_cases hrate : g.pcmRateval = 0
  · have hkept : ∀ position clock, recalcPcm g position clock = clock := fun _ _ => if_pos hrate
    rw [hkept first]
  · have hnear := hnear hrate
    have hfirst : distance clock.lastclock first ≤ pastCycle.toNat / 2 := by omega
    have hhalf : pastCycle.toNat / 2 < pastCycle.toNat := by decide
    have hsecond := distance_add hplaced hle (Nat.lt_of_le_of_lt hnear hhalf)
    obtain ⟨hplaced', hdistance'⟩ := distance_read (r := rate g) hstep hplaced first
    have hmod := Nat.mod_le (distance clock.lastclock first) (rate g).stepclock.toNat
    have hsecond' := distance_add hplaced' hle (by rw [hdistance']; omega)
    rw [recalcPcm_eq_read hrate hstep hmasked hvalid hplaced hfirst,
      recalcPcm_eq_read hrate hstep hmasked rfl hplaced' (by rw [hsecond', hdistance']; omega),
      recalcPcm_eq_read hrate hstep hmasked hvalid hplaced (by rw [hsecond]; exact hnear),
      hsecond', hdistance', Rate.read_read, hsecond]

end Positions

section Plans

/-- What `sync_plan_compute` computes at a position. -/
def compute (g : GuestState) (position : UInt32) : Except SyncError SyncPlan :=
  if g.cpuPositionValid = false then
    .ok
      { SyncPlan.current g position with
        lastCpuPosition := position
        cpuPositionValid := true
        pcm := { GuestState.pcmClock g with
          lastclock := position.toUInt64 <<< 6, clockValid := true } }
  else (SyncPlan.current g position).advance g position

/-- What `sync_plan_apply` does to the guest. -/
def applyPlan (g : GuestState) (plan : SyncPlan) : GuestState :=
  { GuestState.setPcmClock g plan.pcm with
    lastCpuPosition := plan.lastCpuPosition
    frameRemainder := plan.frameRemainder
    guestCycles := plan.guestCycles
    frameTimestamp := plan.frameTimestamp
    cpuPositionValid := plan.cpuPositionValid }

/-- What `pcm_recalc_position` does to the guest. -/
def recalc (g : GuestState) (position : UInt32) : GuestState :=
  GuestState.setPcmClock g (recalcPcm g position (GuestState.pcmClock g))

theorem toNat_ofNat_word {n : ℕ} (h : n < 2 ^ 64) : (UInt64.ofNat n).toNat = n := by
  rw [UInt64.toNat_ofNat', Nat.mod_eq_of_lt h]

theorem exceeds_iff (count delta : UInt64) :
    count > (-1 : UInt64) - delta ↔ 2 ^ 64 ≤ count.toNat + delta.toNat := by
  have hdelta := delta.toNat_lt
  have hones : (-1 : UInt64).toNat = 2 ^ 64 - 1 := rfl
  rw [gt_iff_lt, UInt64.lt_iff_toNat_lt, UInt64.toNat_sub_of_le, hones]
  · omega
  · rw [UInt64.le_iff_toNat_le, hones]
    omega

/-- The clocks of a plan that is advanced by a number of cycles. -/
def SyncPlan.moved (g : GuestState) (plan : SyncPlan) (position : UInt32) (cycles : ℕ) : SyncPlan :=
  { plan with
    cpuPosition := position
    lastCpuPosition := position
    pcm := recalcPcm g position plan.pcm
    guestCycles := UInt64.ofNat (plan.guestCycles.toNat + cycles)
    frameTimestamp :=
      UInt64.ofNat (plan.frameTimestamp.toNat + (plan.frameRemainder.toNat + cycles) / 1024)
    frameRemainder := UInt32.ofNat ((plan.frameRemainder.toNat + cycles) % 1024) }

theorem advance_eq (g : GuestState) (plan : SyncPlan) (position : UInt32) :
    let cycles := (position - plan.lastCpuPosition).toNat
    plan.advance g position =
      if 2 ^ 64 ≤ plan.guestCycles.toNat + cycles then .error .guestCycles
      else if 2 ^ 64 ≤ plan.frameTimestamp.toNat + (plan.frameRemainder.toNat + cycles) / 1024 then
        .error .frameTimestamp
      else .ok (SyncPlan.moved g plan position cycles) := by
  intro cycles
  have hcycles := (position - plan.lastCpuPosition).toNat_lt
  have hremainder := plan.frameRemainder.toNat_lt
  have htotal : (plan.frameRemainder.toUInt64 +
      (position - plan.lastCpuPosition).toUInt64).toNat = plan.frameRemainder.toNat + cycles := by
    rw [UInt64.toNat_add, UInt32.toNat_toUInt64, UInt32.toNat_toUInt64]
    exact Nat.mod_eq_of_lt (by omega)
  have hframes : ((plan.frameRemainder.toUInt64 +
      (position - plan.lastCpuPosition).toUInt64) / 1024).toNat =
        (plan.frameRemainder.toNat + cycles) / 1024 := by
    rw [UInt64.toNat_div, htotal]
    rfl
  rw [SyncPlan.advance]
  simp only [exceeds_iff, hframes, UInt32.toNat_toUInt64]
  refine ite_congr rfl (fun _ => rfl) fun _ => ite_congr rfl (fun _ => rfl) fun _ => ?_
  have hguest : UInt64.ofNat (plan.guestCycles.toNat + cycles) =
      plan.guestCycles + (position - plan.lastCpuPosition).toUInt64 := by
    rw [← UInt64.toNat_inj, UInt64.toNat_add, UInt32.toNat_toUInt64, UInt64.toNat_ofNat']
  have hframe : UInt64.ofNat
      (plan.frameTimestamp.toNat + (plan.frameRemainder.toNat + cycles) / 1024) =
        plan.frameTimestamp + (plan.frameRemainder.toUInt64 +
          (position - plan.lastCpuPosition).toUInt64) / 1024 := by
    rw [← UInt64.toNat_inj, UInt64.toNat_add, hframes, UInt64.toNat_ofNat']
  have hrest : UInt32.ofNat ((plan.frameRemainder.toNat + cycles) % 1024) =
      ((plan.frameRemainder.toUInt64 +
        (position - plan.lastCpuPosition).toUInt64) % 1024).toUInt32 := by
    rw [← UInt32.toNat_inj, UInt64.toNat_toUInt32, UInt64.toNat_mod, htotal, UInt32.toNat_ofNat']
    rfl
  rw [SyncPlan.moved, hguest, hframe, hrest]

/-- The fields of a plan that was advanced. -/
structure Moved (g : GuestState) (plan : SyncPlan) (position : UInt32) (plan' : SyncPlan) :
    Prop where
  last : plan'.lastCpuPosition = position
  pcm : plan'.pcm = recalcPcm g position plan.pcm
  valid : plan'.cpuPositionValid = plan.cpuPositionValid
  guest : plan'.guestCycles.toNat =
    plan.guestCycles.toNat + (position - plan.lastCpuPosition).toNat
  frames : plan'.frameTimestamp.toNat = plan.frameTimestamp.toNat +
    (plan.frameRemainder.toNat + (position - plan.lastCpuPosition).toNat) / 1024
  remainder : plan'.frameRemainder.toNat =
    (plan.frameRemainder.toNat + (position - plan.lastCpuPosition).toNat) % 1024

theorem advance_fields {g : GuestState} {plan plan' : SyncPlan} {position : UInt32}
    (h : plan.advance g position = .ok plan') : Moved g plan position plan' := by
  rw [advance_eq] at h
  split at h
  · cases h
  split at h
  · cases h
  rename_i hguest hframe
  cases h
  refine ⟨rfl, rfl, rfl, toNat_ofNat_word (Nat.lt_of_not_le hguest),
    toNat_ofNat_word (Nat.lt_of_not_le hframe), ?_⟩
  rw [SyncPlan.moved, UInt32.toNat_ofNat']
  omega

/-- Two advances of a plan are one. -/
theorem advance_advance {g : GuestState} {plan middle : SyncPlan} {first second : UInt32}
    (h : plan.advance g first = .ok middle) (hlast : plan.lastCpuPosition ≤ first)
    (hle : first ≤ second)
    (hpcm : recalcPcm g second (recalcPcm g first plan.pcm) = recalcPcm g second plan.pcm) :
    middle.advance g second = plan.advance g second := by
  have hmoved := advance_fields h
  have hfirst := UInt32.toNat_sub_of_le _ _ hlast
  have hsecond := UInt32.toNat_sub_of_le _ _ hle
  have hboth := UInt32.toNat_sub_of_le _ _ (UInt32.le_trans hlast hle)
  rw [UInt32.le_iff_toNat_le] at hlast hle
  have hcycles : (second - plan.lastCpuPosition).toNat =
      (first - plan.lastCpuPosition).toNat + (second - first).toNat := by omega
  have hsame : ∀ cycles, SyncPlan.moved g middle second cycles =
      SyncPlan.moved g plan second ((first - plan.lastCpuPosition).toNat + cycles) := by
    intro cycles
    simp only [SyncPlan.moved, hmoved.guest, hmoved.frames, hmoved.remainder, hmoved.pcm, hpcm,
      hmoved.valid, Nat.mod_add_mod, Nat.add_assoc]
    simp only [← Nat.add_assoc, div_add_elapsed 1024 (plan.frameRemainder.toNat + _) _]
  rw [advance_eq, advance_eq, hmoved.last, hcycles]
  simp only [hsame, hmoved.guest, hmoved.frames, hmoved.remainder]
  simp only [← Nat.add_assoc, div_add_elapsed 1024 (plan.frameRemainder.toNat + _) _]

end Plans

section Following

/-- The clock of the guest while the CPU runs from one position to a limit. -/
structure Following (g : GuestState) (now limit : UInt32) : Prop where
  valid : g.cpuPositionValid = true
  clockValid : (GuestState.pcmClock g).clockValid = true
  step : 1 ≤ g.pcmStepclock
  placed : Placed (GuestState.pcmClock g).lastclock
  masked : Masked (rate g)
  last : g.lastCpuPosition ≤ now
  within : now ≤ limit
  near : g.pcmRateval ≠ 0 → distance (GuestState.pcmClock g).lastclock now +
    (limit.toNat - now.toNat) * 64 ≤ pastCycle.toNat / 2

variable {g : GuestState} {now limit : UInt32}

theorem Following.later (h : Following g now limit) {position : UInt32} (hnow : now ≤ position)
    (hlimit : position ≤ limit) : Following g position limit := by
  refine { h with last := UInt32.le_trans h.last hnow, within := hlimit, near := fun hrate => ?_ }
  have hnear := h.near hrate
  have hhalf : pastCycle.toNat / 2 < pastCycle.toNat := by decide
  rw [UInt32.le_iff_toNat_le] at hlimit
  have hle := UInt32.le_iff_toNat_le.mp hnow
  rw [distance_add h.placed hnow (by omega)]
  omega

theorem Following.distance_le (h : Following g now limit) (hrate : g.pcmRateval ≠ 0) :
    distance (GuestState.pcmClock g).lastclock now ≤ pastCycle.toNat / 2 := by
  have hnear := h.near hrate
  omega

/-- The PCM clock that a reading leaves. -/
theorem Following.reading (h : Following g now limit) {clock : PcmClock}
    (hclock : recalcPcm g now (GuestState.pcmClock g) = clock) :
    clock.clockValid = true ∧ Placed clock.lastclock ∧
      (g.pcmRateval ≠ 0 → distance clock.lastclock now + (limit.toNat - now.toNat) * 64 ≤
        pastCycle.toNat / 2) := by
  by_cases hrate : g.pcmRateval = 0
  · rw [recalcPcm, if_pos hrate] at hclock
    subst hclock
    exact ⟨h.clockValid, h.placed, h.near⟩
  · rw [recalcPcm_eq_read hrate h.step h.masked h.clockValid h.placed (h.distance_le hrate)]
      at hclock
    obtain ⟨hplaced, hdistance⟩ := distance_read (r := rate g) h.step h.placed now
    rw [hclock] at hplaced hdistance
    have hvalid : clock.clockValid = true := by rw [← hclock, Rate.read]
    refine ⟨hvalid, hplaced, fun _ => ?_⟩
    have hnear := h.near hrate
    have hmod := Nat.mod_le (distance (GuestState.pcmClock g).lastclock now)
      (rate g).stepclock.toNat
    rw [hdistance]
    omega

/-- A reading on the way changes no later one. -/
theorem Following.reread (h : Following g now limit) {position : UInt32}
    (hnow : now ≤ position) (hlimit : position ≤ limit) :
    recalcPcm g position (recalcPcm g now (GuestState.pcmClock g)) =
      recalcPcm g position (GuestState.pcmClock g) := by
  refine recalcPcm_recalcPcm h.step h.masked h.clockValid h.placed hnow fun hrate => ?_
  have hnear := h.near hrate
  rw [UInt32.le_iff_toNat_le] at hlimit
  omega

theorem compute_of_valid (hvalid : g.cpuPositionValid = true) (position : UInt32) :
    compute g position = (SyncPlan.current g position).advance g position := by
  rw [compute, if_neg (by simp [hvalid])]

/-- A plan that only differs in the PCM clock before it. -/
theorem advance_congr {g g' : GuestState} {plan plan' : SyncPlan} {position : UInt32}
    (hrate : rate g' = rate g)
    (hpcm : recalcPcm g position plan'.pcm = recalcPcm g position plan.pcm)
    (hplan : { plan' with cpuPosition := position, pcm := plan.pcm } =
      { plan with cpuPosition := position }) :
    plan'.advance g' position = plan.advance g position := by
  have hsame : { plan' with cpuPosition := position, pcm := plan.pcm }.advance g position =
      { plan with cpuPosition := position }.advance g position := by rw [hplan]
  rw [advance_eq, advance_eq] at hsame ⊢
  simp only [SyncPlan.moved, recalcPcm_of_rate hrate, hpcm] at hsame ⊢
  exact hsame

theorem Following.recalc (h : Following g now limit) :
    Following (recalc g now) now limit ∧
      ∀ position, now ≤ position → position ≤ limit →
        compute (ClockPaths.recalc g now) position = compute g position := by
  obtain ⟨hvalid, hplaced, hnear⟩ := h.reading rfl
  refine ⟨{ h with clockValid := hvalid, placed := hplaced, near := hnear }, ?_⟩
  intro position hnow hlimit
  rw [compute_of_valid h.valid, compute_of_valid (g := ClockPaths.recalc g now) h.valid]
  exact advance_congr rfl (h.reread hnow hlimit) rfl

theorem Following.apply (h : Following g now limit) {plan : SyncPlan}
    (hplan : compute g now = .ok plan) :
    Following (applyPlan g plan) now limit ∧
      ∀ position, now ≤ position → position ≤ limit →
        compute (applyPlan g plan) position = compute g position := by
  rw [compute_of_valid h.valid] at hplan
  have hmoved := advance_fields hplan
  obtain ⟨hvalid, hplaced, hnear⟩ := h.reading hmoved.pcm.symm
  have hcpu : plan.cpuPositionValid = true := hmoved.valid.trans h.valid
  refine ⟨⟨hcpu, hvalid, h.step, hplaced, h.masked, ?_, h.within, hnear⟩, ?_⟩
  · change plan.lastCpuPosition ≤ now
    rw [hmoved.last]
    exact UInt32.le_refl now
  · intro position hnow hlimit
    rw [compute_of_valid h.valid, compute_of_valid (g := applyPlan g plan) hcpu]
    calc (SyncPlan.current (applyPlan g plan) position).advance (applyPlan g plan) position
        = plan.advance g position := advance_congr rfl rfl rfl
      _ = (SyncPlan.current g now).advance g position := by
          refine advance_advance hplan h.last hnow ?_
          exact h.reread hnow hlimit
      _ = (SyncPlan.current g position).advance g position := advance_congr rfl rfl rfl

end Following

section Drift

/-- How far the frame clock is from the cycles of the guest. -/
def drift (g : GuestState) : ℤ :=
  1024 * g.frameTimestamp.toNat + g.frameRemainder.toNat - g.guestCycles.toNat

theorem drift_apply {g : GuestState} {plan : SyncPlan} {position : UInt32}
    (hplan : compute g position = .ok plan) : drift (applyPlan g plan) = drift g := by
  rw [compute] at hplan
  split at hplan
  · cases hplan
    rfl
  · have hmoved := advance_fields hplan
    change 1024 * (plan.frameTimestamp.toNat : ℤ) + plan.frameRemainder.toNat -
      plan.guestCycles.toNat = _
    rw [hmoved.guest, hmoved.frames, hmoved.remainder, drift]
    simp only [SyncPlan.current]
    omega

end Drift

section Duplicates

/-- The end of `pcm_recalc_position`, from the cycles that have passed. -/
def pcmStepStatements (g : GuestState) (past : UInt64) : GuestState :=
  if past ≥ g.pcmStepclock then
    let count := past / g.pcmStepclock
    let g : GuestState := { g with
      pcmLastclock := (g.pcmLastclock + count * g.pcmStepclock) % pastCycle }
    let g : GuestState := { g with pcmStepRemainder := (past % g.pcmStepclock).toUInt32 }
    if g.pcmFifo &&& 0x80 ≠ 0 then
      let consumed := count <<< g.pcmStepbit.toUInt64
      if consumed < g.pcmVirtualBuffer.toUInt64 then
        { g with pcmVirtualBuffer := g.pcmVirtualBuffer - consumed.toUInt32 }
      else { g with pcmVirtualBuffer := g.pcmVirtualBuffer &&& g.pcmStepmask.toUInt32 }
    else g
  else { g with pcmStepRemainder := past.toUInt32 }

/-- The statements of `pcm_recalc_position`, on the guest. -/
def pcmRecalcStatements (g : GuestState) (cpuPosition : UInt32) : GuestState :=
  if g.pcmRateval = 0 then g
  else
    let cur := cpuPosition.toUInt64 <<< 6
    if g.pcmClockValid = false then
      { g with pcmLastclock := cur, pcmClockValid := true, pcmStepRemainder := 0 }
    else
      let past := (cur + pastCycle - g.pcmLastclock) % pastCycle
      if past > pastCycle / 2 then
        if past < pastCycle - g.pcmStepclock * 4 then
          pcmStepStatements { g with pcmLastclock := cur - 1 } 1
        else pcmStepStatements g 0
      else pcmStepStatements g past

/-- The end of `sync_plan_recalc_pcm`, from the cycles that have passed. -/
def planStepStatements (g : GuestState) (plan : SyncPlan) (past : UInt64) : SyncPlan :=
  if past ≥ g.pcmStepclock then
    let count := past / g.pcmStepclock
    let plan : SyncPlan := { plan with
      pcm.lastclock := (plan.pcm.lastclock + count * g.pcmStepclock) % pastCycle }
    let plan : SyncPlan := { plan with
      pcm.stepRemainder := (past % g.pcmStepclock).toUInt32 }
    if g.pcmFifo &&& 0x80 ≠ 0 then
      let consumed := count <<< g.pcmStepbit.toUInt64
      if consumed < plan.pcm.virtualBuffer.toUInt64 then
        { plan with pcm.virtualBuffer := plan.pcm.virtualBuffer - consumed.toUInt32 }
      else { plan with pcm.virtualBuffer := plan.pcm.virtualBuffer &&& g.pcmStepmask.toUInt32 }
    else plan
  else { plan with pcm.stepRemainder := past.toUInt32 }

/-- The statements of `sync_plan_recalc_pcm`, on the plan. -/
def syncPlanRecalcPcm (g : GuestState) (plan : SyncPlan) : SyncPlan :=
  if g.pcmRateval = 0 then plan
  else
    let cur := plan.cpuPosition.toUInt64 <<< 6
    if plan.pcm.clockValid = false then
      { plan with pcm := ⟨cur, true, 0, plan.pcm.virtualBuffer⟩ }
    else
      let past := (cur + pastCycle - plan.pcm.lastclock) % pastCycle
      if past > pastCycle / 2 then
        if past < pastCycle - g.pcmStepclock * 4 then
          planStepStatements g { plan with pcm.lastclock := cur - 1 } 1
        else planStepStatements g plan 0
      else planStepStatements g plan past

/-- The end of the common function. -/
def stepPcm (g : GuestState) (clock : PcmClock) (past : UInt64) : PcmClock :=
  if past ≥ g.pcmStepclock then
    let count := past / g.pcmStepclock
    let consumed := count <<< g.pcmStepbit.toUInt64
    { lastclock := (clock.lastclock + count * g.pcmStepclock) % pastCycle
      clockValid := true
      stepRemainder := (past % g.pcmStepclock).toUInt32
      virtualBuffer :=
        if g.pcmFifo &&& 0x80 = 0 then clock.virtualBuffer
        else if consumed < clock.virtualBuffer.toUInt64 then
          clock.virtualBuffer - consumed.toUInt32
        else clock.virtualBuffer &&& g.pcmStepmask.toUInt32 }
  else { clock with stepRemainder := past.toUInt32 }

theorem recalcPcm_eq_step {g : GuestState} {cpuPosition : UInt32} {clock : PcmClock}
    (hrate : ¬ g.pcmRateval = 0) (hvalid : ¬ clock.clockValid = false) {cur past : UInt64}
    (hcur : cpuPosition.toUInt64 <<< 6 = cur)
    (hpast : (cur + pastCycle - clock.lastclock) % pastCycle = past) :
    recalcPcm g cpuPosition clock =
      if past > pastCycle / 2 then
        if past < pastCycle - g.pcmStepclock * 4 then
          stepPcm g { clock with lastclock := cur - 1 } 1
        else stepPcm g clock 0
      else stepPcm g clock past := by
  have hrecalc : recalcPcm g cpuPosition clock =
      stepPcm g { clock with lastclock := (passedCycles g cur clock.lastclock).2 }
        (passedCycles g cur clock.lastclock).1 := by
    rw [recalcPcm, if_neg hrate, if_neg hvalid, hcur]
    generalize passedCycles g cur clock.lastclock = passed
    obtain ⟨past, lastclock⟩ := passed
    rw [stepPcm]
  have hpassed : passedCycles g cur clock.lastclock =
      if past > pastCycle / 2 then
        if past < pastCycle - g.pcmStepclock * 4 then (1, cur - 1) else (0, clock.lastclock)
      else (past, clock.lastclock) := by
    rw [passedCycles, hpast]
  rw [hrecalc, hpassed]
  split
  · split
    · rfl
    · rfl
  · rfl

theorem pcmStepStatements_eq {g : GuestState} (hvalid : ¬ g.pcmClockValid = false)
    (past : UInt64) :
    pcmStepStatements g past =
      GuestState.setPcmClock g (stepPcm g (GuestState.pcmClock g) past) := by
  rw [Bool.not_eq_false] at hvalid
  rw [pcmStepStatements, stepPcm, GuestState.setPcmClock, GuestState.pcmClock]
  simp only [ne_eq, ite_not]
  split
  · split
    · rw [hvalid]
    · split <;> rw [hvalid]
  · rfl

theorem planStepStatements_eq {g : GuestState} {plan : SyncPlan}
    (hvalid : ¬ plan.pcm.clockValid = false) (past : UInt64) :
    planStepStatements g plan past = { plan with pcm := stepPcm g plan.pcm past } := by
  rw [Bool.not_eq_false] at hvalid
  rw [planStepStatements, stepPcm]
  simp only [ne_eq, ite_not]
  split
  · split
    · rw [hvalid]
    · split <;> rw [hvalid]
  · rfl

/-- The two functions change the PCM clock in the same way, and nothing else. -/
theorem recalc_duplicates (g : GuestState) (cpuPosition : UInt32) (plan : SyncPlan) :
    pcmRecalcStatements g cpuPosition = recalc g cpuPosition ∧
      syncPlanRecalcPcm g plan = { plan with pcm := recalcPcm g plan.cpuPosition plan.pcm } := by
  constructor
  · rw [pcmRecalcStatements, recalc]
    split
    · rename_i hrate
      rw [recalcPcm, if_pos hrate]
      rfl
    split
    · rename_i hrate hvalid
      have hinvalid : (GuestState.pcmClock g).clockValid = false := hvalid
      rw [recalcPcm, if_neg hrate, if_pos hinvalid]
      rfl
    rename_i hrate hvalid
    have hclock : ¬ (GuestState.pcmClock g).clockValid = false := hvalid
    rw [recalcPcm_eq_step hrate hclock rfl rfl, apply_ite
      (GuestState.setPcmClock g), apply_ite (GuestState.setPcmClock g)]
    refine ite_congr rfl (fun _ => ite_congr rfl (fun _ => ?_) fun _ => ?_) fun _ => ?_
    · exact pcmStepStatements_eq
        (g := { g with pcmLastclock := cpuPosition.toUInt64 <<< 6 - 1 }) hvalid 1
    · exact pcmStepStatements_eq hvalid 0
    · exact pcmStepStatements_eq hvalid _
  · rw [syncPlanRecalcPcm]
    split
    · rename_i hrate
      rw [recalcPcm, if_pos hrate]
    split
    · rename_i hrate hvalid
      rw [recalcPcm, if_neg hrate, if_pos hvalid]
    rename_i hrate hvalid
    rw [recalcPcm_eq_step hrate hvalid rfl rfl]
    refine Eq.trans ?_ (apply_ite (fun pcm => { plan with pcm := pcm }) _ _ _).symm
    refine ite_congr rfl (fun _ => ?_) fun _ => planStepStatements_eq hvalid _
    refine Eq.trans ?_ (apply_ite (fun pcm => { plan with pcm := pcm }) _ _ _).symm
    refine ite_congr rfl (fun _ => ?_) fun _ => planStepStatements_eq hvalid 0
    have hstale : ¬ { plan with pcm.lastclock := plan.cpuPosition.toUInt64 <<< 6 - 1 : SyncPlan
      }.pcm.clockValid = false := hvalid
    exact planStepStatements_eq hstale 1

end Duplicates

end EspNp2.GuestAdapter.ClockPaths
