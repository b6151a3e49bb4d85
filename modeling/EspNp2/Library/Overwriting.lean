import Mathlib.Data.List.Basic

/-!
Writes into a buffer of a fixed length.
-/

namespace EspNp2.Library.Overwriting

variable {α : Type}

/-- The buffer after a write from an offset on. -/
def overwrite (buffer : List α) (offset : ℕ) (source : List α) : List α :=
  buffer.take offset ++ source ++ buffer.drop (offset + source.length)

theorem overwrite_length {buffer source : List α} {offset : ℕ}
    (h : offset + source.length ≤ buffer.length) :
    (overwrite buffer offset source).length = buffer.length := by
  simp only [overwrite, List.length_append, List.length_take, List.length_drop]
  omega

/-- What stands before the write stays, and the write follows it. -/
theorem overwrite_take {buffer : List α} {offset : ℕ} (source : List α)
    (h : offset ≤ buffer.length) :
    (overwrite buffer offset source).take (offset + source.length) =
      buffer.take offset ++ source := by
  refine List.take_left' ?_
  rw [List.length_append, List.length_take, Nat.min_eq_left h]

end EspNp2.Library.Overwriting
