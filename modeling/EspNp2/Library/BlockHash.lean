import Mathlib.Data.List.Basic
import Mathlib.Tactic.Ring

/-!
Iterated hashing. A compression function takes a chaining value and one block; a message is
absorbed block by block. A hasher that is given the message in parts keeps the part of a block
that is not yet full, and ends where it ends when it is given the message at once.
-/

namespace EspNp2.Library.BlockHash

variable {α β H : Type*}

def absorbBlocks (compress : H → List α → H) (size : ℕ) : ℕ → H → List α → H
  | 0, chain, _ => chain
  | count + 1, chain, message =>
      absorbBlocks compress size count (compress chain (message.take size)) (message.drop size)

/-- The complete blocks of a message, in order. -/
def absorb (compress : H → List α → H) (size : ℕ) (chain : H) (message : List α) : H :=
  absorbBlocks compress size (message.length / size) chain message

section Absorb

variable {compress : H → List α → H} {size : ℕ}

theorem absorb_nil (chain : H) : absorb compress size chain [] = chain := by
  rw [absorb, List.length_nil, Nat.zero_div, absorbBlocks]

theorem absorb_block_append (hsize : 0 < size) (chain : H) {block : List α}
    (hblock : block.length = size) (rest : List α) :
    absorb compress size chain (block ++ rest) =
      absorb compress size (compress chain block) rest := by
  have hcount : (block ++ rest).length / size = rest.length / size + 1 := by
    rw [List.length_append, hblock, Nat.add_comm, Nat.add_div_right _ hsize]
  rw [absorb, hcount, absorbBlocks, ← hblock, List.take_left, List.drop_left, absorb]

theorem absorb_append (hsize : 0 < size) (chain : H) (first second : List α)
    (h : size ∣ first.length) :
    absorb compress size chain (first ++ second) =
      absorb compress size (absorb compress size chain first) second := by
  obtain ⟨count, hcount⟩ := h
  induction count generalizing chain first with
  | zero =>
      have hnil : first = [] := List.eq_nil_of_length_eq_zero (by omega)
      rw [hnil, List.nil_append, absorb_nil]
  | succ count ih =>
      have hlength : first.length = size * count + size := by
        rw [hcount, Nat.mul_succ]
      have htake : (first.take size).length = size := by
        rw [List.length_take]
        omega
      have hdrop : (first.drop size).length = size * count := by
        rw [List.length_drop]
        omega
      rw [← List.take_append_drop size first, List.append_assoc,
        absorb_block_append hsize chain htake, absorb_block_append hsize chain htake]
      exact ih _ _ hdrop

theorem absorb_block (hsize : 0 < size) (chain : H) {block : List α}
    (hblock : block.length = size) :
    absorb compress size chain block = compress chain block := by
  have h : absorb compress size chain (block ++ []) =
      absorb compress size (compress chain block) [] :=
    absorb_block_append hsize chain hblock []
  rwa [List.append_nil, absorb_nil] at h

end Absorb

section Encoding

variable {compress : H → List α → H} {size : ℕ}

theorem length_flatMap_of_width {encode : α → List β} {width : ℕ}
    (hwidth : ∀ a, (encode a).length = width) (message : List α) :
    (message.flatMap encode).length = message.length * width := by
  induction message with
  | nil => simp
  | cons a message ih =>
      rw [List.flatMap_cons, List.length_append, hwidth, ih, List.length_cons]
      ring

theorem take_flatMap_of_width {encode : α → List β} {width : ℕ}
    (hwidth : ∀ a, (encode a).length = width) (message : List α) (count : ℕ) :
    (message.flatMap encode).take (count * width) = (message.take count).flatMap encode := by
  induction count generalizing message with
  | zero => simp
  | succ count ih =>
      cases message with
      | nil => simp
      | cons a message =>
          rw [List.flatMap_cons, List.take_succ_cons, List.flatMap_cons, ← ih, Nat.succ_mul,
            Nat.add_comm, ← hwidth a, List.take_length_add_append]

theorem drop_flatMap_of_width {encode : α → List β} {width : ℕ}
    (hwidth : ∀ a, (encode a).length = width) (message : List α) (count : ℕ) :
    (message.flatMap encode).drop (count * width) = (message.drop count).flatMap encode := by
  induction count generalizing message with
  | zero => simp
  | succ count ih =>
      cases message with
      | nil => simp
      | cons a message =>
          rw [List.flatMap_cons, List.drop_succ_cons, ← ih, Nat.succ_mul, Nat.add_comm,
            ← hwidth a, List.drop_length_add_append]

/-- Symbols may be read in a finer alphabet when the compression function agrees on blocks. -/
theorem absorb_flatMap {compressFine : H → List β → H} {encode : α → List β} {width : ℕ}
    (hwidth : ∀ a, (encode a).length = width) (hpositive : 0 < width)
    (hcompress : ∀ chain block, block.length = size →
      compressFine chain (block.flatMap encode) = compress chain block)
    (chain : H) (message : List α) :
    absorb compressFine (size * width) chain (message.flatMap encode) =
      absorb compress size chain message := by
  have hcount : (message.flatMap encode).length / (size * width) = message.length / size := by
    rw [length_flatMap_of_width hwidth, Nat.mul_div_mul_right _ _ hpositive]
  rw [absorb, hcount, absorb]
  have hlength : message.length / size * size ≤ message.length := Nat.div_mul_le_self _ _
  clear hcount
  generalize message.length / size = count at hlength ⊢
  induction count generalizing chain message with
  | zero => rfl
  | succ count ih =>
      have hlong : size ≤ message.length := by
        have hmul := Nat.le_mul_of_pos_left size (Nat.succ_pos count)
        exact hmul.trans hlength
      have hblock : (message.take size).length = size := by
        rw [List.length_take]
        omega
      rw [absorbBlocks, absorbBlocks, take_flatMap_of_width hwidth, drop_flatMap_of_width hwidth,
        hcompress _ _ hblock]
      apply ih
      rw [List.length_drop]
      rw [Nat.succ_mul] at hlength
      omega

end Encoding

section Buffered

variable (compress : H → List α → H) (size : ℕ) (start : H)

/-- What a hasher has after a message: the chaining value of the complete blocks, and the
part of a block that is left. -/
structure Buffered (message : List α) (chain : H) (tail : List α) : Prop where
  short : tail.length < size
  split : ∃ whole, message = whole ++ tail ∧ size ∣ whole.length ∧
    chain = absorb compress size start whole

variable {compress size start} {message tail : List α} {chain : H}

theorem buffered_nil (hsize : 0 < size) : Buffered compress size start [] start [] where
  short := hsize
  split := ⟨[], rfl, ⟨0, rfl⟩, (absorb_nil start).symm⟩

theorem Buffered.keep (h : Buffered compress size start message chain tail) {data : List α}
    (hshort : (tail ++ data).length < size) :
    Buffered compress size start (message ++ data) chain (tail ++ data) where
  short := hshort
  split := by
    obtain ⟨whole, hmessage, hwhole, hchain⟩ := h.split
    refine ⟨whole, ?_, hwhole, hchain⟩
    rw [hmessage, List.append_assoc]

theorem Buffered.fill (h : Buffered compress size start message chain tail) {data : List α}
    (hfull : (tail ++ data).length = size) :
    Buffered compress size start (message ++ data) (compress chain (tail ++ data)) [] where
  short := Nat.zero_lt_of_lt h.short
  split := by
    have hsize := Nat.zero_lt_of_lt h.short
    obtain ⟨whole, hmessage, hwhole, hchain⟩ := h.split
    refine ⟨whole ++ (tail ++ data), ?_, ?_, ?_⟩
    · rw [hmessage, List.append_nil, List.append_assoc]
    · rw [List.length_append, hfull]
      exact Nat.dvd_add hwhole ⟨1, (Nat.mul_one size).symm⟩
    · rw [absorb_append hsize _ _ _ hwhole, absorb_block hsize _ hfull, hchain]

theorem Buffered.absorb_eq (h : Buffered compress size start message chain []) :
    chain = absorb compress size start message := by
  obtain ⟨whole, hmessage, -, hchain⟩ := h.split
  rw [hmessage, List.append_nil, hchain]

theorem Buffered.length_mod (h : Buffered compress size start message chain tail) :
    tail.length = message.length % size := by
  obtain ⟨whole, hmessage, ⟨count, hcount⟩, -⟩ := h.split
  rw [hmessage, List.length_append, hcount, Nat.mul_add_mod, Nat.mod_eq_of_lt h.short]

end Buffered

end EspNp2.Library.BlockHash
