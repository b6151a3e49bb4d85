import EspNp2.Library.BitStrings
import EspNp2.Library.WrappingWords
import Mathlib.Tactic.Ring

/-!
The multiply-divide of the S98 parser: the floor of `a * b / divisor` without a word wider
than 64 bits. The bits of `a` are taken from the top; a quotient and a remainder stand for the
product of the bits taken with `b`.
-/

namespace EspNp2.S98Parser.MulDivFloor

open EspNp2.Library.BitStrings
open EspNp2.Library.WrappingWords
open EspNp2.Library.WrappingWords.Marked (add mul sub stop Exactly exactly_add exactly_mul
  exactly_sub run_eq_of_exactly)

def uint64Max : UInt64 := UInt64.ofNat (2 ^ 64 - 1)

/-- The remainder goes below the divisor again; what it loses is carried. -/
def carry (quotient remainder divisor : UInt64) : Marked (UInt64 × UInt64) :=
  if remainder ≥ divisor then do
    let remainder ← sub remainder divisor
    if quotient == uint64Max then
      stop
    else do
      let quotient ← add quotient 1
      pure (quotient, remainder)
  else
    pure (quotient, remainder)

def addProduct (bQuotient bRemainder divisor quotient remainder : UInt64) :
    Marked (UInt64 × UInt64) := do
  if quotient > uint64Max - bQuotient then
    stop
  else do
    let quotient ← add quotient bQuotient
    let remainder ← add remainder bRemainder
    carry quotient remainder divisor

/-- The loop body for one bit of `a`. -/
def mulDivBit (a bQuotient bRemainder divisor : UInt64) (bit : ℕ) (quotient remainder : UInt64) :
    Marked (UInt64 × UInt64) := do
  if quotient > uint64Max / 2 then
    stop
  else do
    let quotient ← mul quotient 2
    let remainder ← mul remainder 2
    let (quotient, remainder) ← carry quotient remainder divisor
    if a &&& ((1 : UInt64) <<< UInt64.ofNat bit) != 0 then
      addProduct bQuotient bRemainder divisor quotient remainder
    else
      pure (quotient, remainder)

/-- The loop over the bits below `bits`, from the highest. -/
def mulDivLoop (a bQuotient bRemainder divisor : UInt64) :
    ℕ → UInt64 → UInt64 → Marked UInt64
  | 0, quotient, _ => pure quotient
  | bit + 1, quotient, remainder => do
      let (quotient, remainder) ←
        mulDivBit a bQuotient bRemainder divisor bit quotient remainder
      mulDivLoop a bQuotient bRemainder divisor bit quotient remainder

def mulDivFloor (a b : UInt64) (divisor : UInt32) : Marked UInt64 :=
  if divisor == 0 then
    stop
  else
    mulDivLoop a (b / divisor.toUInt64) (b % divisor.toUInt64) divisor.toUInt64 64 0 0

/-- The pair that stands for a number: its quotient and its remainder. -/
def Divides (number divisor quotient remainder : ℕ) : Prop :=
  number = quotient * divisor + remainder ∧ remainder < divisor

theorem Divides.quotient_eq {number divisor quotient remainder : ℕ}
    (h : Divides number divisor quotient remainder) : quotient = number / divisor := by
  obtain ⟨hnumber, hremainder⟩ := h
  rw [hnumber, Nat.add_comm, Nat.add_mul_div_right _ _ (Nat.zero_lt_of_lt hremainder),
    Nat.div_eq_of_lt hremainder, Nat.zero_add]

theorem divides_div_mod (number : ℕ) {divisor : ℕ} (h : 0 < divisor) :
    Divides number divisor (number / divisor) (number % divisor) :=
  ⟨(Nat.div_add_mod' number divisor).symm, Nat.mod_lt _ h⟩

/-- A remainder below twice the divisor is carried once; without room the quotient is too
large. -/
theorem carry_exactly {number : ℕ} {quotient remainder divisor : UInt64}
    (hnumber : number = quotient.toNat * divisor.toNat + remainder.toNat)
    (hremainder : remainder.toNat < 2 * divisor.toNat) :
    (carry quotient remainder divisor).Exactly
      (fun pair => Divides number divisor.toNat pair.1.toNat pair.2.toNat)
      (2 ^ 64 ≤ number / divisor.toNat) := by
  have hpositive : 0 < divisor.toNat := by omega
  unfold carry
  split
  · rename_i hge
    have hle : divisor.toNat ≤ remainder.toNat := hge
    refine Exactly.bind (exactly_sub hge) fun rest hrest => ?_
    split
    · rename_i hfull
      apply Exactly.stop
      have hmax : quotient.toNat = 2 ^ 64 - 1 := by
        rw [eq_of_beq hfull]
        rfl
      rw [Nat.le_div_iff_mul_le hpositive, hnumber, hmax]
      omega
    · rename_i hroom
      have hlt : quotient.toNat + (1 : UInt64).toNat < 2 ^ 64 := by
        have hword := quotient.toNat_lt
        have hne : quotient.toNat ≠ 2 ^ 64 - 1 := by
          intro h
          exact hroom (beq_iff_eq.mpr (UInt64.toNat_inj.mp h))
        change quotient.toNat + 1 < 2 ^ 64
        omega
      refine Exactly.bind (exactly_add hlt) fun next hnext => ?_
      refine Exactly.pure ⟨?_, ?_⟩
      · have hone : (1 : UInt64).toNat = 1 := rfl
        rw [hnext, hrest, hone, Nat.add_mul]
        omega
      · change rest.toNat < divisor.toNat
        omega
  · rename_i hless
    have hlt : remainder.toNat < divisor.toNat := by
      exact not_le.mp fun h => hless h
    exact Exactly.pure ⟨hnumber, hlt⟩

theorem addProduct_exactly {number b : ℕ} {bQuotient bRemainder divisor quotient remainder : UInt64}
    (hb : Divides b divisor.toNat bQuotient.toNat bRemainder.toNat)
    (h : Divides number divisor.toNat quotient.toNat remainder.toNat)
    (hdivisor : divisor.toNat < 2 ^ 32) :
    (addProduct bQuotient bRemainder divisor quotient remainder).Exactly
      (fun pair => Divides (number + b) divisor.toNat pair.1.toNat pair.2.toNat)
      (2 ^ 64 ≤ (number + b) / divisor.toNat) := by
  obtain ⟨hnumber, hremainder⟩ := h
  obtain ⟨hbnumber, hbremainder⟩ := hb
  have hmax : (uint64Max - bQuotient).toNat = 2 ^ 64 - 1 - bQuotient.toNat := by
    apply UInt64.toNat_sub_of_le
    change bQuotient.toNat ≤ 2 ^ 64 - 1
    have := bQuotient.toNat_lt
    omega
  have hsum : number + b = (quotient.toNat + bQuotient.toNat) * divisor.toNat +
      (remainder.toNat + bRemainder.toNat) := by
    rw [hnumber, hbnumber]
    ring
  unfold addProduct
  split
  · rename_i hfull
    have hlarge : 2 ^ 64 ≤ quotient.toNat + bQuotient.toNat := by
      have hlt : (uint64Max - bQuotient).toNat < quotient.toNat := hfull
      have := bQuotient.toNat_lt
      omega
    apply Exactly.stop
    rw [Nat.le_div_iff_mul_le (by omega), hsum]
    exact (Nat.mul_le_mul_right _ hlarge).trans (Nat.le_add_right _ _)
  · rename_i hroom
    have hfits : quotient.toNat + bQuotient.toNat < 2 ^ 64 := by
      have hle : quotient.toNat ≤ (uint64Max - bQuotient).toNat := not_lt.mp hroom
      have := bQuotient.toNat_lt
      omega
    refine Exactly.bind (exactly_add hfits) fun next hnext => ?_
    refine Exactly.bind (exactly_add (by omega)) fun rest hrest => ?_
    apply carry_exactly
    · rw [hnext, hrest, hsum]
    · omega

theorem bit_test {a : UInt64} {bit : ℕ} (h : bit < 64) :
    (a &&& ((1 : UInt64) <<< UInt64.ofNat bit) != 0) = a.toNat.testBit bit := by
  have hmask : ((1 : UInt64) <<< UInt64.ofNat bit).toNat = 2 ^ bit := by
    rw [UInt64.toNat_shiftLeft, UInt64.toNat_ofNat']
    have hone : (1 : UInt64).toNat = 1 := rfl
    have hpow : 2 ^ bit < 2 ^ 64 := Nat.pow_lt_pow_right (by omega) h
    rw [hone, Nat.mod_eq_of_lt (by omega : bit < 2 ^ 64), Nat.mod_eq_of_lt h, Nat.shiftLeft_eq,
      Nat.one_mul, Nat.mod_eq_of_lt hpow]
  rw [Bool.eq_iff_iff, bne_iff_ne, ne_eq, ← UInt64.toNat_inj, UInt64.toNat_and, hmask,
    Nat.and_two_pow]
  cases a.toNat.testBit bit with
  | true =>
      change ¬1 * 2 ^ bit = 0 ↔ _
      simp
  | false => simp

theorem mulDivBit_exactly {a b : ℕ} {word bQuotient bRemainder divisor quotient remainder : UInt64}
    {bit : ℕ} (hbit : bit < 64) (ha : word.toNat = a)
    (hb : Divides b divisor.toNat bQuotient.toNat bRemainder.toNat)
    (h : Divides (a >>> (bit + 1) * b) divisor.toNat quotient.toNat remainder.toNat)
    (hdivisor : divisor.toNat < 2 ^ 32) :
    (mulDivBit word bQuotient bRemainder divisor bit quotient remainder).Exactly
      (fun pair => Divides (a >>> bit * b) divisor.toNat pair.1.toNat pair.2.toNat)
      (2 ^ 64 ≤ a >>> bit * b / divisor.toNat) := by
  have hquotient := h.quotient_eq
  obtain ⟨hnumber, hremainder⟩ := h
  have htwo : (2 : UInt64).toNat = 2 := rfl
  have hhalf : (uint64Max / 2).toNat = 2 ^ 63 - 1 := rfl
  have hdouble : 2 * (a >>> (bit + 1)) * b =
      quotient.toNat * 2 * divisor.toNat + remainder.toNat * 2 := by
    rw [Nat.mul_assoc, hnumber]
    ring
  have hle : 2 * (a >>> (bit + 1)) * b ≤ a >>> bit * b := by
    apply Nat.mul_le_mul_right
    rw [shiftRight_eq_double_add_testBit a bit]
    exact Nat.le_add_right _ _
  have hlarge {number : ℕ} (hnumber : 2 ^ 64 ≤ number / divisor.toNat)
      (hle : number ≤ a >>> bit * b) : 2 ^ 64 ≤ a >>> bit * b / divisor.toNat :=
    hnumber.trans (Nat.div_le_div_right hle)
  unfold mulDivBit
  split
  · rename_i hfull
    have hhigh : 2 ^ 63 ≤ quotient.toNat := by
      have hlt : (uint64Max / 2).toNat < quotient.toNat := hfull
      omega
    apply Exactly.stop
    apply hlarge _ hle
    rw [Nat.le_div_iff_mul_le (by omega), hdouble]
    have hmul : 2 ^ 64 * divisor.toNat ≤ quotient.toNat * 2 * divisor.toNat :=
      Nat.mul_le_mul_right _ (by omega)
    omega
  · rename_i hroom
    have hlow : quotient.toNat ≤ 2 ^ 63 - 1 := by
      have hle : quotient.toNat ≤ (uint64Max / 2).toNat := not_lt.mp hroom
      omega
    refine Exactly.bind (exactly_mul (by rw [htwo]; omega)) fun doubled hdoubled => ?_
    refine Exactly.bind (exactly_mul (by rw [htwo]; omega)) fun rest hrest => ?_
    rw [htwo] at hdoubled hrest
    have hcarry : (carry doubled rest divisor).Exactly
        (fun pair => Divides (2 * (a >>> (bit + 1)) * b) divisor.toNat pair.1.toNat pair.2.toNat)
        (2 ^ 64 ≤ 2 * (a >>> (bit + 1)) * b / divisor.toNat) := by
      apply carry_exactly
      · rw [hdouble, hdoubled, hrest]
      · omega
    refine Exactly.bind (hcarry.imp (fun _ h => h) fun h => hlarge h hle) fun pair hpair => ?_
    have hbits := shiftRight_eq_double_add_testBit a bit
    dsimp only
    rw [bit_test hbit, ha]
    split
    · rename_i hset
      have hnext : a >>> bit * b = 2 * (a >>> (bit + 1)) * b + b := by
        rw [hbits, hset, Bool.toNat_true]
        ring
      rw [hnext]
      exact addProduct_exactly hb hpair hdivisor
    · rename_i hclear
      have hnext : a >>> bit * b = 2 * (a >>> (bit + 1)) * b := by
        rw [hbits, Bool.not_eq_true _ |>.mp hclear, Bool.toNat_false, Nat.add_zero]
      rw [hnext]
      exact Exactly.pure hpair

/-- A stop is final: the floor only grows with the bits that are still missing. -/
theorem mulDivLoop_exactly {a b : ℕ} {word bQuotient bRemainder divisor : UInt64}
    (ha : word.toNat = a) (hb : Divides b divisor.toNat bQuotient.toNat bRemainder.toNat)
    (hdivisor : divisor.toNat < 2 ^ 32) {bits : ℕ} (hbits : bits ≤ 64)
    {quotient remainder : UInt64}
    (h : Divides (a >>> bits * b) divisor.toNat quotient.toNat remainder.toNat) :
    (mulDivLoop word bQuotient bRemainder divisor bits quotient remainder).Exactly
      (fun result => result.toNat = a * b / divisor.toNat)
      (2 ^ 64 ≤ a * b / divisor.toNat) := by
  induction bits generalizing quotient remainder with
  | zero =>
      refine Exactly.pure ?_
      rw [h.quotient_eq, Nat.shiftRight_zero]
  | succ bit ih =>
      have hbit := mulDivBit_exactly (by omega) ha hb h hdivisor
      refine Exactly.bind (hbit.imp (fun _ h => h) fun hlarge => ?_) fun pair hpair => ?_
      · refine hlarge.trans (Nat.div_le_div_right (Nat.mul_le_mul_right b ?_))
        rw [Nat.shiftRight_eq_div_pow]
        exact Nat.div_le_self _ _
      · exact ih (by omega) hpair

theorem mulDivFloor_exactly (a b : UInt64) {divisor : UInt32} (h : divisor ≠ 0) :
    (mulDivFloor a b divisor).Exactly
      (fun result => result.toNat = a.toNat * b.toNat / divisor.toNat)
      (2 ^ 64 ≤ a.toNat * b.toNat / divisor.toNat) := by
  have hdivisor : divisor.toUInt64.toNat = divisor.toNat := UInt32.toNat_toUInt64 divisor
  have hpositive : 0 < divisor.toNat := by
    refine Nat.pos_of_ne_zero fun hzero => h ?_
    rw [← UInt32.toNat_inj, hzero]
    rfl
  unfold mulDivFloor
  rw [if_neg (by simpa using h), ← hdivisor]
  refine mulDivLoop_exactly rfl ?_ ?_ le_rfl ?_
  · rw [UInt64.toNat_div, UInt64.toNat_mod, hdivisor]
    exact divides_div_mod _ hpositive
  · rw [hdivisor]
    exact divisor.toNat_lt
  · have hzero : a.toNat >>> 64 = 0 := by
      rw [Nat.shiftRight_eq_div_pow]
      exact Nat.div_eq_of_lt a.toNat_lt
    rw [hzero, Nat.zero_mul, hdivisor]
    constructor
    · change 0 = 0 * divisor.toNat + 0
      omega
    · exact hpositive

/-- The floor when it is a word, a stop exactly when it is none, and no operation wraps. -/
theorem mulDivFloor_run (a b : UInt64) (divisor : UInt32) (h : divisor ≠ 0) :
    (mulDivFloor a b divisor).run =
      (if a.toNat * b.toNat / divisor.toNat ≤ 2 ^ 64 - 1 then
        some (UInt64.ofNat (a.toNat * b.toNat / divisor.toNat))
      else
        none, false) := by
  apply run_eq_of_exactly
  refine (mulDivFloor_exactly a b h).imp (fun result hresult => ?_) fun hlarge => ?_
  · have hword := result.toNat_lt
    rw [if_pos (by omega), ← hresult, UInt64.ofNat_toNat]
  · rw [if_neg (by omega)]

theorem mulDivFloor_run_largest :
    (3 : UInt32) ≠ 0 ∧ (mulDivFloor uint64Max 3 3).run = (some uint64Max, false) ∧
      (mulDivFloor uint64Max 4 3).run = (none, false) := by
  refine ⟨by decide, ?_, ?_⟩
  · exact mulDivFloor_run uint64Max 3 3 (by decide)
  · exact mulDivFloor_run uint64Max 4 3 (by decide)

end EspNp2.S98Parser.MulDivFloor
