import Mathlib.Data.UInt

/-!
Bytes that stand at a place of a memory, and the numbers of base 128: seven bits a byte, the
lowest first, and the high bit set in every byte but the last.
-/

namespace EspNp2.Library.ByteReader

section Stands

variable {α : Type}

def Stands (memory : List α) (cursor : ℕ) (bytes : List α) : Prop :=
  bytes <+: memory.drop cursor

theorem stands_cons_iff {memory bytes : List α} {cursor : ℕ} {byte : α} :
    Stands memory cursor (byte :: bytes) ↔
      memory[cursor]? = some byte ∧ Stands memory (cursor + 1) bytes := by
  unfold Stands
  rw [← List.head?_drop, ← List.tail_drop]
  cases memory.drop cursor with
  | nil => simp
  | cons first rest =>
      rw [List.cons_prefix_cons, List.head?_cons, List.tail_cons, Option.some.injEq, eq_comm]

theorem stands_append_iff {memory first second : List α} {cursor : ℕ} :
    Stands memory cursor (first ++ second) ↔
      Stands memory cursor first ∧ Stands memory (cursor + first.length) second := by
  induction first generalizing cursor with
  | nil =>
      rw [List.nil_append, List.length_nil, Nat.add_zero, iff_and_self]
      exact fun _ => List.nil_prefix
  | cons byte first ih =>
      rw [List.cons_append, stands_cons_iff, stands_cons_iff, ih, List.length_cons, and_assoc,
        Nat.add_assoc cursor 1, Nat.add_comm 1]

theorem stands_nil (memory : List α) (cursor : ℕ) : Stands memory cursor [] := List.nil_prefix

theorem Stands.length_le {memory bytes : List α} {cursor : ℕ} (h : Stands memory cursor bytes)
    (hcursor : cursor ≤ memory.length) : cursor + bytes.length ≤ memory.length := by
  have hle := List.IsPrefix.length_le h
  rw [List.length_drop] at hle
  omega

theorem Stands.eq_of_length {memory first second : List UInt8} {cursor : ℕ}
    (hfirst : Stands memory cursor first) (hsecond : Stands memory cursor second)
    (hlength : first.length = second.length) : first = second :=
  (List.prefix_of_prefix_length_le hfirst hsecond (le_of_eq hlength)).eq_of_length hlength

end Stands

section Base128

inductive Base128 : List UInt8 → ℕ → Prop where
  | last {byte : UInt8} (h : byte.toNat < 128) : Base128 [byte] byte.toNat
  | more {byte : UInt8} {bytes : List UInt8} {number : ℕ} (h : 128 ≤ byte.toNat)
      (rest : Base128 bytes number) :
      Base128 (byte :: bytes) (byte.toNat % 128 + 128 * number)

end Base128

end EspNp2.Library.ByteReader
