import Mathlib.Data.List.Basic
import Mathlib.Tactic.Ring

/-!
Consistent-overhead byte stuffing. The input is cut into blocks of at most 254
nonzero bytes; every block is preceded by its length plus one, and a block that
ended because of a zero byte stands for the block followed by that zero.
-/

namespace EspNp2.Library.ByteStuffing

/-- The code byte in front of a block. -/
def blockCode (block : List UInt8) : UInt8 := UInt8.ofNat (block.length + 1)

/-- Stuff `input`, with `block` the nonzero bytes already collected for the
block under construction. -/
def stuff : List UInt8 → List UInt8 → List UInt8
  | block, [] => blockCode block :: block
  | block, byte :: rest =>
      if byte = 0 then blockCode block :: (block ++ stuff [] rest)
      else if block.length + 1 = 254 then
        255 :: ((block ++ [byte]) ++ stuff [] rest)
      else stuff (block ++ [byte]) rest

theorem stuff_ne_nil (block input : List UInt8) : stuff block input ≠ [] := by
  induction input generalizing block with
  | nil => simp [stuff]
  | cons byte rest ih =>
      rw [stuff]
      split_ifs
      · simp
      · simp
      · exact ih _

theorem blockCode_toNat {block : List UInt8} (hblock : block.length < 254) :
    (blockCode block).toNat = block.length + 1 := by
  rw [blockCode, UInt8.toNat_ofNat']
  omega

theorem blockCode_ne_zero {block : List UInt8} (hblock : block.length < 254) :
    blockCode block ≠ 0 := by
  intro hzero
  have hcode := blockCode_toNat hblock
  rw [hzero] at hcode
  simp at hcode

theorem blockCode_ne_full {block : List UInt8} (hblock : block.length < 254) :
    blockCode block ≠ 255 := by
  intro hfull
  have hcode := blockCode_toNat hblock
  rw [hfull] at hcode
  simp at hcode
  omega

/-- Stuffed output has no zero byte. -/
theorem zero_not_mem_stuff (block input : List UInt8)
    (hblock : block.length < 254) (hnonzero : 0 ∉ block) :
    0 ∉ stuff block input := by
  induction input generalizing block with
  | nil =>
      rw [stuff, List.mem_cons, not_or]
      exact ⟨(blockCode_ne_zero hblock).symm, hnonzero⟩
  | cons byte rest ih =>
      have hrest : 0 ∉ stuff [] rest := ih [] (by simp) (by simp)
      rw [stuff]
      split_ifs with hzero hfull
      · simp only [List.mem_cons, List.mem_append, not_or]
        exact ⟨(blockCode_ne_zero hblock).symm, hnonzero, hrest⟩
      · simp only [List.mem_cons, List.mem_append, not_or]
        exact ⟨by decide, ⟨hnonzero, Ne.symm hzero, by simp⟩, hrest⟩
      · apply ih
        · simp only [List.length_append, List.length_singleton]
          omega
        · simp only [List.mem_append, List.mem_singleton, not_or]
          exact ⟨hnonzero, Ne.symm hzero⟩

/-- One code byte for every block, and a block that is not the last either ends
at a zero byte, which it replaces, or holds 254 bytes. -/
theorem stuff_length_le (block input : List UInt8) (hblock : block.length < 254) :
    (stuff block input).length ≤
      block.length + input.length + 1 + (block.length + input.length) / 254 := by
  induction input generalizing block with
  | nil =>
      simp only [stuff, List.length_cons, List.length_nil]
      omega
  | cons byte rest ih =>
      have hrest := ih [] (by simp)
      rw [stuff]
      split_ifs with hzero hfull
      · simp only [List.length_cons, List.length_append, List.length_nil] at hrest ⊢
        omega
      · simp only [List.length_cons, List.length_append, List.length_nil] at hrest ⊢
        omega
      · have hstep := ih (block ++ [byte]) (by
          simp only [List.length_append, List.length_singleton]
          omega)
        simp only [List.length_cons, List.length_append, List.length_nil] at hstep ⊢
        omega

/-- Stuffing a block that is under construction never loses what was collected. -/
theorem length_le_stuff (block input : List UInt8) :
    block.length + 1 ≤ (stuff block input).length := by
  induction input generalizing block with
  | nil => simp [stuff]
  | cons byte rest ih =>
      rw [stuff]
      split_ifs
      · simp
      · simp only [List.length_cons, List.length_append, List.length_nil]
        omega
      · have hstep := ih (block ++ [byte])
        simp only [List.length_append, List.length_singleton] at hstep
        omega

end EspNp2.Library.ByteStuffing
