import EspNp2.Library.BitStrings
import EspNp2.Library.BlockHash
import Mathlib.Analysis.SpecialFunctions.Pow.Real
import Mathlib.Data.Nat.Prime.Nth

/-!
SHA-256 as FIPS 180-4 states it, on strings of bits. The constants are the fractional parts of
roots of primes; the integers that round them are found by a comparison of powers.
-/

namespace EspNp2.Library.Sha256Standard

open EspNp2.Library.BitStrings
open EspNp2.Library.BlockHash

section Standard

def word (bits : List Bool) : BitVec 32 := BitVec.ofNat 32 (bitsValue bits)

def ch (x y z : BitVec 32) : BitVec 32 := (x &&& y) ^^^ (~~~x &&& z)

def maj (x y z : BitVec 32) : BitVec 32 := (x &&& y) ^^^ (x &&& z) ^^^ (y &&& z)

def bigSigma0 (x : BitVec 32) : BitVec 32 :=
  x.rotateRight 2 ^^^ x.rotateRight 13 ^^^ x.rotateRight 22

def bigSigma1 (x : BitVec 32) : BitVec 32 :=
  x.rotateRight 6 ^^^ x.rotateRight 11 ^^^ x.rotateRight 25

def smallSigma0 (x : BitVec 32) : BitVec 32 :=
  x.rotateRight 7 ^^^ x.rotateRight 18 ^^^ x >>> 3

def smallSigma1 (x : BitVec 32) : BitVec 32 :=
  x.rotateRight 17 ^^^ x.rotateRight 19 ^^^ x >>> 10

/-- The first 32 bits of the fractional part of a root of a prime, the primes counted from 0. -/
noncomputable def rootFraction (degree t : ℕ) : BitVec 32 :=
  BitVec.ofNat 32 ⌊Int.fract ((Nat.nth Nat.Prime t : ℝ) ^ (degree : ℝ)⁻¹) * 2 ^ 32⌋₊

noncomputable def roundConstant (t : ℕ) : BitVec 32 := rootFraction 3 t

/-- The eight working variables, and the eight words of a hash value. -/
@[ext]
structure Working where
  a : BitVec 32
  b : BitVec 32
  c : BitVec 32
  d : BitVec 32
  e : BitVec 32
  f : BitVec 32
  g : BitVec 32
  h : BitVec 32

noncomputable def initialHash : Working where
  a := rootFraction 2 0
  b := rootFraction 2 1
  c := rootFraction 2 2
  d := rootFraction 2 3
  e := rootFraction 2 4
  f := rootFraction 2 5
  g := rootFraction 2 6
  h := rootFraction 2 7

theorem exists_padding (length : ℕ) : ∃ k, (length + 1 + k) % 512 = 448 := by
  refine ⟨(959 - length % 512) % 512, ?_⟩
  omega

/-- The smallest number of zeros after which 64 bits fill the last block. -/
def zeros (length : ℕ) : ℕ := Nat.find (exists_padding length)

def pad (message : List Bool) : List Bool :=
  message ++ true :: List.replicate (zeros message.length) false ++
    wordBits (BitVec.ofNat 64 message.length)

def schedule (block : List Bool) (t : ℕ) : BitVec 32 :=
  if h : t < 16 then
    word ((block.drop (32 * t)).take 32)
  else
    smallSigma1 (schedule block (t - 2)) + schedule block (t - 7) +
      smallSigma0 (schedule block (t - 15)) + schedule block (t - 16)
termination_by t

def round (k w : BitVec 32) (v : Working) : Working :=
  let t₁ := v.h + bigSigma1 v.e + ch v.e v.f v.g + k + w
  let t₂ := bigSigma0 v.a + maj v.a v.b v.c
  { a := t₁ + t₂
    b := v.a
    c := v.b
    d := v.c
    e := v.d + t₁
    f := v.e
    g := v.f
    h := v.g }

noncomputable def rounds (block : List Bool) (v : Working) : ℕ → Working
  | 0 => v
  | t + 1 => round (roundConstant t) (schedule block t) (rounds block v t)

def addWords (x y : Working) : Working where
  a := x.a + y.a
  b := x.b + y.b
  c := x.c + y.c
  d := x.d + y.d
  e := x.e + y.e
  f := x.f + y.f
  g := x.g + y.g
  h := x.h + y.h

noncomputable def compress (hash : Working) (block : List Bool) : Working :=
  addWords hash (rounds block hash 64)

def hashBits (hash : Working) : List Bool :=
  wordBits hash.a ++ wordBits hash.b ++ wordBits hash.c ++ wordBits hash.d ++
    wordBits hash.e ++ wordBits hash.f ++ wordBits hash.g ++ wordBits hash.h

/-- The digest of a message of fewer than `2 ^ 64` bits. -/
noncomputable def sha256 (message : List Bool) : List Bool :=
  hashBits (absorb compress 512 initialHash (pad message))

end Standard

section Constants

/-- An integer between the scaled root and the next one gives the bits of the fraction. -/
theorem floor_fract_root {p degree m : ℕ} (hdegree : degree ≠ 0)
    (hlow : m ^ degree ≤ p * (2 ^ 32) ^ degree)
    (hhigh : p * (2 ^ 32) ^ degree < (m + 1) ^ degree) :
    ⌊Int.fract ((p : ℝ) ^ (degree : ℝ)⁻¹) * 2 ^ 32⌋₊ = m % 2 ^ 32 := by
  set x : ℝ := (p : ℝ) ^ (degree : ℝ)⁻¹ with hx
  have hnonneg : 0 ≤ x := Real.rpow_nonneg (Nat.cast_nonneg p) _
  have hroot : x ^ degree = p := Real.rpow_inv_natCast_pow (Nat.cast_nonneg p) hdegree
  have hscaled : (x * 2 ^ 32) ^ degree = ((p * (2 ^ 32) ^ degree : ℕ) : ℝ) := by
    rw [mul_pow, hroot]
    push_cast
    ring
  have hle : (m : ℝ) ≤ x * 2 ^ 32 := by
    rw [← pow_le_pow_iff_left₀ (Nat.cast_nonneg m) (by positivity) hdegree, hscaled]
    exact_mod_cast hlow
  have hlt : x * 2 ^ 32 < (m : ℝ) + 1 := by
    rw [← pow_lt_pow_iff_left₀ (by positivity) (by positivity) hdegree, hscaled]
    exact_mod_cast hhigh
  have hdiv := Nat.div_add_mod' m (2 ^ 32)
  have hrest := Nat.mod_lt m (show 0 < 2 ^ 32 by positivity)
  generalize m / 2 ^ 32 = whole at hdiv
  generalize m % 2 ^ 32 = rest at hdiv hrest ⊢
  have hdiv : (m : ℝ) = whole * 2 ^ 32 + rest := by
    exact_mod_cast hdiv.symm
  have hrest : (rest : ℝ) + 1 ≤ 2 ^ 32 := by
    exact_mod_cast hrest
  have hzero : (0 : ℝ) ≤ rest := Nat.cast_nonneg rest
  have hfloor : ⌊x⌋ = (whole : ℤ) := by
    rw [Int.floor_eq_iff, Int.cast_natCast]
    constructor
    · nlinarith
    · nlinarith
  have hfract : Int.fract x * 2 ^ 32 = x * 2 ^ 32 - whole * 2 ^ 32 := by
    rw [Int.fract, hfloor, Int.cast_natCast]
    ring
  rw [Nat.floor_eq_iff (mul_nonneg (Int.fract_nonneg x) (by positivity)), hfract]
  constructor
  · linarith
  · linarith

def isPrime (n : ℕ) : Bool := 2 ≤ n && (List.range n).all fun d => d < 2 || n % d != 0

theorem isPrime_iff (n : ℕ) : isPrime n = true ↔ n.Prime := by
  rw [Nat.prime_def_lt']
  simp only [isPrime, Bool.and_eq_true, decide_eq_true_eq, List.all_eq_true, List.mem_range,
    Bool.or_eq_true, bne_iff_ne, ne_eq]
  refine and_congr_right fun _ => ⟨fun h d hd hlt hdvd => ?_, fun h d hlt => ?_⟩
  · rcases h d hlt with hsmall | hne
    · omega
    · exact hne (Nat.mod_eq_zero_of_dvd hdvd)
  · by_cases hd : d < 2
    · exact Or.inl hd
    · exact Or.inr fun hzero => h d (by omega) hlt (Nat.dvd_of_mod_eq_zero hzero)

def firstPrimes : List ℕ := (List.range 312).filter isPrime

theorem firstPrimes_eq :
    firstPrimes =
      [2, 3, 5, 7, 11, 13, 17, 19, 23, 29, 31, 37, 41, 43, 47, 53,
       59, 61, 67, 71, 73, 79, 83, 89, 97, 101, 103, 107, 109, 113, 127, 131,
       137, 139, 149, 151, 157, 163, 167, 173, 179, 181, 191, 193, 197, 199, 211, 223,
       227, 229, 233, 239, 241, 251, 257, 263, 269, 271, 277, 281, 283, 293, 307, 311] := by
  decide +kernel

theorem count_prime (n : ℕ) : Nat.count Nat.Prime n = (List.range n).countP isPrime := by
  induction n with
  | zero => rfl
  | succ n ih =>
      rw [Nat.count_succ, ih, List.range_succ, List.countP_append, List.countP_singleton]
      by_cases hprime : n.Prime
      · rw [if_pos hprime, if_pos ((isPrime_iff n).mpr hprime)]
      · rw [if_neg hprime, if_neg fun h => hprime ((isPrime_iff n).mp h)]

/-- An entry of the list with as many entries below it as its index is that prime. -/
theorem nth_prime_of_countP {p t : ℕ} (hmem : p ∈ firstPrimes)
    (hcount : firstPrimes.countP (· < p) = t) : Nat.nth Nat.Prime t = p := by
  rw [firstPrimes, List.mem_filter, List.mem_range, isPrime_iff] at hmem
  obtain ⟨hlt, hprime⟩ := hmem
  have hrange : List.range 312 = List.range p ++ (List.range (312 - p)).map (p + ·) := by
    rw [← List.range_add]
    congr 1
    omega
  have hbelow : (List.range p).countP (fun n => decide (n < p) && isPrime n) =
      (List.range p).countP isPrime := by
    apply List.countP_congr
    intro n hn
    rw [List.mem_range] at hn
    simp [hn]
  have habove : ((List.range (312 - p)).map (p + ·)).countP
      (fun n => decide (n < p) && isPrime n) = 0 := by
    rw [List.countP_eq_zero]
    intro n hn
    obtain ⟨rest, -, rfl⟩ := List.mem_map.mp hn
    simp
  have hnumber : Nat.count Nat.Prime p = t := by
    rw [count_prime, ← hcount, firstPrimes, List.countP_filter, hrange, List.countP_append,
      hbelow, habove, Nat.add_zero]
  rw [← hnumber, Nat.nth_count hprime]

/-- The integer part of a small root. -/
def integerRoot (degree p : ℕ) : ℕ := Nat.findGreatest (fun n => n ^ degree ≤ p) 32

/-- An entry of the list and the 32 bits that follow the integer part of its root. -/
def isRootFraction (degree p fraction : ℕ) : Bool :=
  let m := integerRoot degree p * 2 ^ 32 + fraction
  fraction < 2 ^ 32 && m ^ degree ≤ p * (2 ^ 32) ^ degree &&
    p * (2 ^ 32) ^ degree < (m + 1) ^ degree

theorem rootFraction_eq {degree p t fraction : ℕ} (hdegree : degree ≠ 0)
    (hmem : p ∈ firstPrimes) (hcount : firstPrimes.countP (· < p) = t)
    (h : isRootFraction degree p fraction = true) :
    rootFraction degree t = BitVec.ofNat 32 fraction := by
  simp only [isRootFraction, Bool.and_eq_true, decide_eq_true_eq] at h
  obtain ⟨⟨hfraction, hlow⟩, hhigh⟩ := h
  rw [rootFraction, nth_prime_of_countP hmem hcount, floor_fract_root hdegree hlow hhigh,
    Nat.mul_add_mod_self_right, Nat.mod_eq_of_lt hfraction]

end Constants

end EspNp2.Library.Sha256Standard
