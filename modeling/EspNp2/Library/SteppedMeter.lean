import Mathlib.Algebra.Group.Nat.Defs

/-!
A meter of elapsed clocks. It counts clocks up to a step and does something to a level for
every whole step. How often it is read does not matter: a meter that is advanced in parts
ends where it ends when it is advanced at once.
-/

namespace EspNp2.Library.SteppedMeter

variable {α : Type*}

structure Meter (α : Type*) where
  elapsed : ℕ
  level : α
deriving DecidableEq, Repr

/-- What a number of steps does is what a part of them does, and then the rest. -/
def Additive (consume : ℕ → α → α) : Prop :=
  ∀ first second level, consume (first + second) level = consume second (consume first level)

def Meter.advance (step : ℕ) (consume : ℕ → α → α) (meter : Meter α) (clocks : ℕ) : Meter α where
  elapsed := (meter.elapsed + clocks) % step
  level := consume ((meter.elapsed + clocks) / step) meter.level

theorem div_add_elapsed (step clocks rest : ℕ) :
    (clocks + rest) / step = clocks / step + (clocks % step + rest) / step := by
  rcases Nat.eq_zero_or_pos step with rfl | hstep
  · simp
  · have hsplit : clocks + rest = clocks % step + rest + clocks / step * step := by
      have hdiv := Nat.mod_add_div' clocks step
      omega
    rw [hsplit, Nat.add_mul_div_right _ _ hstep, Nat.add_comm]

theorem Meter.advance_advance {step : ℕ} {consume : ℕ → α → α} (h : Additive consume)
    (meter : Meter α) (first second : ℕ) :
    (meter.advance step consume first).advance step consume second =
      meter.advance step consume (first + second) := by
  simp only [Meter.advance, Meter.mk.injEq]
  constructor
  · rw [Nat.mod_add_mod, Nat.add_assoc]
  · rw [← Nat.add_assoc, div_add_elapsed step (meter.elapsed + first) second, h]

section Drain

/-- A store gives a unit for every step while it can; the part of a unit stays. -/
def drain (unit steps level : ℕ) : ℕ :=
  if steps * unit < level then level - steps * unit else level % unit

theorem drain_zero (unit level : ℕ) : drain unit 0 level = level := by
  rw [drain, Nat.zero_mul, Nat.sub_zero]
  split
  · rfl
  · rename_i h
    rw [Nat.eq_zero_of_not_pos h, Nat.zero_mod]

theorem drain_le (unit steps level : ℕ) : drain unit steps level ≤ level := by
  rw [drain]
  split
  · exact Nat.sub_le _ _
  · exact Nat.mod_le _ _

theorem drain_of_lt {unit steps level : ℕ} (hlevel : level < unit) :
    drain unit steps level = level := by
  cases steps with
  | zero => exact drain_zero unit level
  | succ steps =>
      have hlarge : unit ≤ (steps + 1) * unit := Nat.le_mul_of_pos_left unit steps.succ_pos
      rw [drain, if_neg (by omega), Nat.mod_eq_of_lt hlevel]

theorem additive_drain {unit : ℕ} (hunit : 0 < unit) : Additive (drain unit) := by
  intro first second level
  by_cases hfirst : first * unit < level
  · have hrest : drain unit first level = level - first * unit := if_pos hfirst
    rw [hrest, drain, drain, Nat.add_mul]
    by_cases hboth : first * unit + second * unit < level
    · rw [if_pos hboth, if_pos (by omega)]
      omega
    · rw [if_neg hboth, if_neg (by omega)]
      rw [Nat.mul_comm first, Nat.sub_mul_mod (by rw [Nat.mul_comm]; exact Nat.le_of_lt hfirst)]
  · have hrest : drain unit first level = level % unit := if_neg hfirst
    have hboth : ¬ (first + second) * unit < level := by
      rw [Nat.add_mul]
      omega
    rw [hrest, drain_of_lt (Nat.mod_lt _ hunit), drain, if_neg hboth]

end Drain

end EspNp2.Library.SteppedMeter
