import Mathlib.Data.BitVec
import Mathlib.Data.Nat.Bitwise

/-!
Words as strings of bits, the most significant bit first.
-/

namespace EspNp2.Library.BitStrings

/-- The bits of a number from a position up are the bits above it and the bit there. -/
theorem shiftRight_eq_double_add_testBit (a bit : ℕ) :
    a >>> bit = 2 * (a >>> (bit + 1)) + (a.testBit bit).toNat := by
  rw [Nat.shiftRight_succ, Nat.testBit, Nat.one_and_eq_mod_two]
  rcases Nat.mod_two_eq_zero_or_one (a >>> bit) with h | h
  · rw [h]
    simp
    omega
  · rw [h]
    simp
    omega

/-- The value of a string of bits, the first one the most significant. -/
def bitsValue (bits : List Bool) : ℕ :=
  bits.foldl (fun value bit => 2 * value + bit.toNat) 0

def wordBits {width : ℕ} (x : BitVec width) : List Bool :=
  (List.range width).map fun i => x.getMsbD i

theorem bitsValue_append_singleton (bits : List Bool) (bit : Bool) :
    bitsValue (bits ++ [bit]) = 2 * bitsValue bits + bit.toNat := by
  rw [bitsValue, List.foldl_append]
  rfl

@[simp] theorem length_wordBits {width : ℕ} (x : BitVec width) : (wordBits x).length = width := by
  simp [wordBits]

theorem getElem_wordBits {width : ℕ} (x : BitVec width) {i : ℕ} (h : i < (wordBits x).length) :
    (wordBits x)[i] = x.getMsbD i := by
  simp [wordBits]

/-- The first bits of a word are the word without its last bits. -/
theorem bitsValue_leading {width : ℕ} (x : BitVec width) {count : ℕ} (h : count ≤ width) :
    bitsValue ((List.range count).map fun i => x.getMsbD i) = x.toNat >>> (width - count) := by
  induction count with
  | zero =>
      rw [Nat.shiftRight_eq_div_pow, Nat.sub_zero, Nat.div_eq_of_lt x.isLt]
      rfl
  | succ count ih =>
      have hbit : x.getMsbD count = x.toNat.testBit (width - (count + 1)) := by
        have hlt : count < width := h
        rw [BitVec.getMsbD, decide_eq_true hlt, Bool.true_and, BitVec.getLsbD]
        congr 1
        omega
      have hnext : width - (count + 1) + 1 = width - count := by omega
      rw [List.range_succ, List.map_append, List.map_singleton, bitsValue_append_singleton,
        ih (by omega), shiftRight_eq_double_add_testBit x.toNat (width - (count + 1)), hnext, hbit]

theorem bitsValue_wordBits {width : ℕ} (x : BitVec width) : bitsValue (wordBits x) = x.toNat := by
  rw [wordBits, bitsValue_leading x le_rfl, Nat.sub_self, Nat.shiftRight_zero]

theorem wordBits_append {width rest : ℕ} (x : BitVec width) (y : BitVec rest) :
    wordBits (x ++ y) = wordBits x ++ wordBits y := by
  apply List.ext_getElem
  · simp
  · intro i hleft hright
    rw [length_wordBits] at hleft
    rw [getElem_wordBits, BitVec.getMsbD_append, List.getElem_append]
    split
    · rename_i h
      rw [dif_neg (by rw [length_wordBits]; omega), getElem_wordBits, length_wordBits]
    · rename_i h
      rw [dif_pos (by rw [length_wordBits]; omega), getElem_wordBits]

theorem getMsbD_byte {width bytes : ℕ} (x : BitVec width) (hwidth : width = bytes * 8) {i j : ℕ}
    (hi : i < bytes) (hj : j < 8) :
    ((x >>> ((bytes - 1 - i) * 8)).setWidth 8).getMsbD j = x.getMsbD (i * 8 + j) := by
  have hindex : (bytes - 1 - i) * 8 + (8 - 1 - j) = width - 1 - (i * 8 + j) := by omega
  have hlt : i * 8 + j < width := by omega
  rw [BitVec.getMsbD_eq_getLsbD, BitVec.getMsbD_eq_getLsbD, decide_eq_true hj, decide_eq_true hlt,
    Bool.true_and, Bool.true_and, BitVec.getLsbD_setWidth, BitVec.getLsbD_ushiftRight, hindex,
    decide_eq_true (by omega : 8 - 1 - j < 8), Bool.true_and]

/-- The bits of a word are the bits of its bytes. -/
theorem wordBits_eq_flatMap {width bytes : ℕ} (x : BitVec width) (hwidth : width = bytes * 8) :
    wordBits x = (List.range bytes).flatMap fun i =>
      wordBits ((x >>> ((bytes - 1 - i) * 8)).setWidth 8) := by
  have hleading : ∀ count ≤ bytes, (List.range (count * 8)).map (fun i => x.getMsbD i) =
      (List.range count).flatMap fun i =>
        wordBits ((x >>> ((bytes - 1 - i) * 8)).setWidth 8) := by
    intro count hcount
    induction count with
    | zero => rfl
    | succ count ih =>
        rw [Nat.succ_mul, List.range_add, List.map_append, ih (by omega),
          @List.range_succ count, List.flatMap_append, List.flatMap_singleton]
        congr 1
        rw [wordBits, List.map_map]
        apply List.map_congr_left
        intro j hj
        exact (getMsbD_byte x hwidth (by omega) (List.mem_range.mp hj)).symm
  rw [← hleading bytes le_rfl, wordBits]
  congr 2

end EspNp2.Library.BitStrings
