import Mathlib.Data.List.FinRange
import Mathlib.Logic.Function.Basic
import Mathlib.Tactic.Basic
import Mathlib.Tactic.SplitIfs

/-!
The block table of `StorageRam`: first-fit allocation out of an arena and release
with coalescing. A table is sound when its blocks lie apart inside the arena.
-/

namespace EspNp2.StorageBackend.BlockAllocator

def kArenaBytes : Nat := 256 * 1024
def kMaxBlocks : Nat := 64

structure Block where
  offset : Nat := 0
  size : Nat := 0
  used : Bool := false
deriving DecidableEq, Repr

abbrev Blocks := Fin kMaxBlocks → Block

/-- The inner loop of `allocate_block`. -/
def unusedSlot (blocks : Blocks) : Option (Fin kMaxBlocks) :=
  (List.finRange kMaxBlocks).find? fun j => (blocks j).size = 0

/-- The outer loop of `allocate_block` over the indices it has left. -/
def allocateFrom (blocks : Blocks) (size : Nat) :
    List (Fin kMaxBlocks) → Option (Fin kMaxBlocks × Blocks)
  | [] => none
  | i :: rest =>
      let block := blocks i
      if block.size = 0 ∨ block.used ∨ block.size < size then allocateFrom blocks size rest
      else if block.size = size then
        some (i, Function.update blocks i { block with used := true })
      else
        match unusedSlot blocks with
        | none => allocateFrom blocks size rest
        | some split =>
            let blocks := Function.update blocks split
              { offset := block.offset + size, size := block.size - size }
            some (i, Function.update blocks i { block with size := size, used := true })

def allocateBlock (blocks : Blocks) (size : Nat) : Option (Fin kMaxBlocks × Blocks) :=
  if size = 0 ∨ size > kArenaBytes then none
  else allocateFrom blocks size (List.finRange kMaxBlocks)

/-- The innermost body of `release_block`, with the flag `merged`. -/
def mergeBlocks (i : Fin kMaxBlocks) (state : Blocks × Bool) (j : Fin kMaxBlocks) :
    Blocks × Bool :=
  let blocks := state.1
  if (blocks j).size = 0 ∨ (blocks j).used then state
  else if (blocks i).offset + (blocks i).size = (blocks j).offset then
    (Function.update
      (Function.update blocks i { blocks i with size := (blocks i).size + (blocks j).size }) j {},
      true)
  else if (blocks j).offset + (blocks j).size = (blocks i).offset then
    (Function.update
      (Function.update blocks j { blocks j with size := (blocks j).size + (blocks i).size }) i {},
      true)
  else state

def mergeFrom (state : Blocks × Bool) (i : Fin kMaxBlocks) : Blocks × Bool :=
  if (state.1 i).size = 0 ∨ (state.1 i).used then state
  else ((List.finRange kMaxBlocks).filter (i < ·)).foldl (mergeBlocks i) state

/-- The passes of `release_block`. -/
def mergePasses : Nat → Blocks → Blocks
  | 0, blocks => blocks
  | passes + 1, blocks =>
      let (blocks, merged) := (List.finRange kMaxBlocks).foldl mergeFrom (blocks, false)
      if merged then mergePasses passes blocks else blocks

def releaseBlock (blocks : Blocks) : Option (Fin kMaxBlocks) → Blocks
  | none => blocks
  | some index =>
      if (blocks index).size = 0 then blocks
      else
        mergePasses kMaxBlocks (Function.update blocks index { blocks index with used := false })

def Apart (left right : Block) : Prop :=
  left.offset + left.size ≤ right.offset ∨ right.offset + right.size ≤ left.offset

structure Packed (blocks : Blocks) : Prop where
  bounded : ∀ i, (blocks i).size ≠ 0 → (blocks i).offset + (blocks i).size ≤ kArenaBytes
  apart : ∀ i j, i ≠ j → (blocks i).size ≠ 0 → (blocks j).size ≠ 0 → Apart (blocks i) (blocks j)
  used_size : ∀ i, (blocks i).used = true → (blocks i).size ≠ 0

/-- The blocks in use are still there. -/
def KeepsUsed (before after : Blocks) : Prop :=
  ∀ k, (before k).used = true → after k = before k

theorem KeepsUsed.trans {first second third : Blocks} (h : KeepsUsed first second)
    (h' : KeepsUsed second third) : KeepsUsed first third := by
  intro k hused
  have hsame := h k hused
  rw [h' k (by rw [hsame]; exact hused), hsame]

theorem Packed.of_shape {blocks after : Blocks} (h : Packed blocks)
    (hshape : ∀ k, (after k).offset = (blocks k).offset ∧ (after k).size = (blocks k).size)
    (hused : ∀ k, (after k).used = true → (blocks k).size ≠ 0) : Packed after := by
  refine ⟨?_, ?_, ?_⟩
  · intro k hk
    rw [(hshape k).2] at hk
    rw [(hshape k).1, (hshape k).2]
    exact h.bounded k hk
  · intro j k hjk hj hk
    rw [(hshape j).2] at hj
    rw [(hshape k).2] at hk
    have hapart := h.apart j k hjk hj hk
    simpa only [Apart, hshape] using hapart
  · intro k hk
    rw [(hshape k).2]
    exact hused k hk

/-- Setting the flag `used` of one block. -/
theorem update_used_shape (blocks : Blocks) (i : Fin kMaxBlocks) (used : Bool)
    (k : Fin kMaxBlocks) :
    (Function.update blocks i { blocks i with used := used } k).offset = (blocks k).offset ∧
      (Function.update blocks i { blocks i with used := used } k).size = (blocks k).size := by
  by_cases hki : k = i
  · subst hki
    simp
  · simp [Function.update_of_ne hki]

section Allocate

variable {blocks blocks' : Blocks} {size : Nat} {i : Fin kMaxBlocks}

theorem unusedSlot_size {split : Fin kMaxBlocks} (h : unusedSlot blocks = some split) :
    (blocks split).size = 0 := by
  have hfound := List.find?_some h
  simpa using hfound

/-- What `allocate_block` has done when it returns a block. -/
structure Allocated (blocks : Blocks) (size : Nat) (i : Fin kMaxBlocks) (blocks' : Blocks) :
    Prop where
  packed : Packed blocks'
  keeps : KeepsUsed blocks blocks'
  fresh : (blocks i).used = false
  used : (blocks' i).used = true
  only : ∀ k, (blocks' k).used = true → k = i ∨ (blocks k).used = true
  size_eq : (blocks' i).size = size

theorem allocated_whole (h : Packed blocks) (hsize : size ≠ 0) (hfree : (blocks i).used = false)
    (hwhole : (blocks i).size = size) :
    Allocated blocks size i (Function.update blocks i { blocks i with used := true }) := by
  refine ⟨h.of_shape (update_used_shape blocks i true) ?_, ?_, hfree, by simp, ?_,
    by simpa using hwhole⟩
  · intro k hk
    by_cases hki : k = i
    · subst hki
      omega
    · rw [Function.update_of_ne hki] at hk
      exact h.used_size k hk
  · intro k hk
    have hki : k ≠ i := by
      rintro rfl
      rw [hfree] at hk
      cases hk
    exact Function.update_of_ne hki _ _
  · intro k hk
    by_cases hki : k = i
    · exact .inl hki
    · rw [Function.update_of_ne hki] at hk
      exact .inr hk

theorem allocated_split {split : Fin kMaxBlocks} (h : Packed blocks) (hsize : size ≠ 0)
    (hfree : (blocks i).used = false) (hlarge : size < (blocks i).size)
    (hsplit : (blocks split).size = 0) :
    Allocated blocks size i
      (Function.update
        (Function.update blocks split
          { offset := (blocks i).offset + size, size := (blocks i).size - size })
        i { blocks i with size := size, used := true }) := by
  have hne : split ≠ i := by
    rintro rfl
    omega
  have hi := h.bounded i (by omega)
  generalize hafter : Function.update
    (Function.update blocks split
      { offset := (blocks i).offset + size, size := (blocks i).size - size })
    i { blocks i with size := size, used := true } = after
  have hself : after i = { blocks i with size := size, used := true } := by
    rw [← hafter, Function.update_self]
  have hrest : after split =
      { offset := (blocks i).offset + size, size := (blocks i).size - size } := by
    rw [← hafter, Function.update_of_ne hne, Function.update_self]
  have hother : ∀ k, k ≠ i → k ≠ split → after k = blocks k := by
    intro k hki hks
    rw [← hafter, Function.update_of_ne hki, Function.update_of_ne hks]
  have hcases : ∀ k, k = i ∨ k = split ∨ k ≠ i ∧ k ≠ split := by
    intro k
    tauto
  refine ⟨⟨?_, ?_, ?_⟩, ?_, hfree, by rw [hself], ?_, by rw [hself]⟩
  · intro k hk
    rcases hcases k with rfl | rfl | ⟨hki, hks⟩
    · rw [hself]
      simp only
      omega
    · rw [hrest]
      simp only
      omega
    · rw [hother k hki hks] at hk ⊢
      exact h.bounded k hk
  · have hwithin : ∀ k, k ≠ i → k ≠ split → (after k).size ≠ 0 →
        Apart (after i) (after k) ∧ Apart (after split) (after k) := by
      intro k hki hks hk
      rw [hother k hki hks] at hk ⊢
      have hapart := h.apart i k (Ne.symm hki) (by omega) hk
      rw [hself, hrest]
      simp only [Apart] at hapart ⊢
      omega
    have hpair : Apart (after i) (after split) := by
      rw [hself, hrest]
      exact .inl le_rfl
    have hsymm : ∀ {left right : Block}, Apart left right → Apart right left := Or.symm
    intro j k hjk hj hk
    rcases hcases j with rfl | rfl | ⟨hji, hjs⟩
    · rcases hcases k with rfl | rfl | ⟨hki, hks⟩
      · exact absurd rfl hjk
      · exact hpair
      · exact (hwithin k hki hks hk).1
    · rcases hcases k with rfl | rfl | ⟨hki, hks⟩
      · exact hsymm hpair
      · exact absurd rfl hjk
      · exact (hwithin k hki hks hk).2
    · rcases hcases k with rfl | rfl | ⟨hki, hks⟩
      · exact hsymm (hwithin j hji hjs hj).1
      · exact hsymm (hwithin j hji hjs hj).2
      · rw [hother j hji hjs] at hj ⊢
        rw [hother k hki hks] at hk ⊢
        exact h.apart j k hjk hj hk
  · intro k hk
    rcases hcases k with rfl | rfl | ⟨hki, hks⟩
    · rw [hself]
      exact hsize
    · rw [hrest]
      simp only
      omega
    · rw [hother k hki hks] at hk ⊢
      exact h.used_size k hk
  · intro k hk
    refine hother k ?_ ?_
    · rintro rfl
      rw [hfree] at hk
      cases hk
    · rintro rfl
      exact h.used_size k hk hsplit
  · intro k hk
    rcases hcases k with rfl | rfl | ⟨hki, hks⟩
    · exact .inl rfl
    · rw [hrest] at hk
      cases hk
    · rw [hother k hki hks] at hk
      exact .inr hk

theorem allocateFrom_allocated {indices : List (Fin kMaxBlocks)} (h : Packed blocks)
    (hsize : size ≠ 0) (halloc : allocateFrom blocks size indices = some (i, blocks')) :
    Allocated blocks size i blocks' := by
  induction indices with
  | nil => cases halloc
  | cons first rest ih =>
      rw [allocateFrom] at halloc
      simp only at halloc
      split_ifs at halloc with hskip hwhole
      · exact ih halloc
      · obtain ⟨rfl, rfl⟩ := Prod.mk.inj (Option.some.inj halloc)
        exact allocated_whole h hsize (by simpa using fun hused => hskip (.inr (.inl hused))) hwhole
      · split at halloc
        · exact ih halloc
        · rename_i split hslot
          obtain ⟨rfl, rfl⟩ := Prod.mk.inj (Option.some.inj halloc)
          refine allocated_split h hsize (by simpa using fun hused => hskip (.inr (.inl hused))) ?_
            (unusedSlot_size hslot)
          omega

theorem allocateBlock_allocated (h : Packed blocks)
    (halloc : allocateBlock blocks size = some (i, blocks')) :
    Allocated blocks size i blocks' ∧ size ≠ 0 := by
  rw [allocateBlock] at halloc
  split_ifs at halloc with hbad
  have hsize : size ≠ 0 := fun hzero => hbad (.inl hzero)
  exact ⟨allocateFrom_allocated h hsize halloc, hsize⟩

end Allocate

section Release

/-- The free block `j` was joined to the free block `i` that it follows. -/
structure Joined (blocks : Blocks) (i j : Fin kMaxBlocks) (after : Blocks) : Prop where
  ne : i ≠ j
  free : (blocks i).used = false
  free_next : (blocks j).used = false
  adjacent : (blocks i).offset + (blocks i).size = (blocks j).offset
  joined : after i = { blocks i with size := (blocks i).size + (blocks j).size }
  cleared : after j = {}
  other : ∀ k, k ≠ i → k ≠ j → after k = blocks k

variable {blocks after : Blocks} {i j : Fin kMaxBlocks} {state : Blocks × Bool}

/-- A block in use is none of the two. -/
theorem Joined.used_ne (h : Joined blocks i j after) {k : Fin kMaxBlocks}
    (hk : (blocks k).used = true) : k ≠ i ∧ k ≠ j := by
  constructor
  · rintro rfl
    rw [h.free] at hk
    cases hk
  · rintro rfl
    rw [h.free_next] at hk
    cases hk

theorem Joined.used (h : Joined blocks i j after) {k : Fin kMaxBlocks}
    (hk : (after k).used = true) : after k = blocks k := by
  refine h.other k ?_ ?_
  · rintro rfl
    rw [h.joined, show ({ blocks k with size := _ } : Block).used = (blocks k).used from rfl,
      h.free] at hk
    cases hk
  · rintro rfl
    rw [h.cleared] at hk
    cases hk

theorem Joined.packed (h : Joined blocks i j after) (hpacked : Packed blocks) : Packed after := by
  have hadjacent := h.adjacent
  have hne_of_size : ∀ k, (after k).size ≠ 0 → k ≠ j := by
    rintro k hk rfl
    rw [h.cleared] at hk
    exact hk rfl
  have hwithin : ∀ k, k ≠ i → k ≠ j → (blocks k).size ≠ 0 → (after i).size ≠ 0 →
      Apart (after i) (blocks k) := by
    intro k hki hkj hk hsize
    have hfirst := hpacked.apart i k (Ne.symm hki)
    have hsecond := hpacked.apart j k (Ne.symm hkj)
    rw [h.joined] at hsize ⊢
    simp only [Apart] at hfirst hsecond hsize ⊢
    omega
  refine ⟨?_, ?_, ?_⟩
  · intro k hk
    have hkj := hne_of_size k hk
    by_cases hki : k = i
    · subst hki
      have hfirst := hpacked.bounded k
      have hsecond := hpacked.bounded j
      rw [h.joined] at hk ⊢
      simp only at hk ⊢
      omega
    · rw [h.other k hki hkj] at hk ⊢
      exact hpacked.bounded k hk
  · intro k l hkl hk hl
    have hkj := hne_of_size k hk
    have hlj := hne_of_size l hl
    by_cases hki : k = i
    · subst hki
      have hlk : l ≠ k := Ne.symm hkl
      rw [h.other l hlk hlj] at hl ⊢
      exact hwithin l hlk hlj hl hk
    · rw [h.other k hki hkj] at hk ⊢
      by_cases hli : l = i
      · subst hli
        exact Or.symm (hwithin k hki hkj hk hl)
      · rw [h.other l hli hlj] at hl ⊢
        exact hpacked.apart k l hkl hk hl
  · intro k hk
    have hsame := h.used hk
    rw [hsame] at hk ⊢
    exact hpacked.used_size k hk

/-- The inner body of `release_block` joins two blocks or leaves the table. -/
theorem mergeBlocks_cases (hfree : (state.1 i).used = false) (hij : i < j) :
    mergeBlocks i state j = state ∨
      (mergeBlocks i state j).2 = true ∧ (state.1 j).size ≠ 0 ∧
        (Joined state.1 i j (mergeBlocks i state j).1 ∨
          Joined state.1 j i (mergeBlocks i state j).1) := by
  have hne : i ≠ j := hij.ne
  rw [mergeBlocks]
  simp only
  split_ifs with hskip hafter hbefore
  · exact .inl rfl
  · have hj : (state.1 j).used = false := by simpa using fun hused => hskip (.inr hused)
    refine .inr ⟨rfl, fun hzero => hskip (.inl hzero), .inl ⟨hne, hfree, hj, hafter, ?_, ?_, ?_⟩⟩
    · simp only [Function.update_of_ne hne, Function.update_self]
    · simp only [Function.update_self]
    · intro k hki hkj
      simp only [Function.update_of_ne hkj, Function.update_of_ne hki]
  · have hj : (state.1 j).used = false := by simpa using fun hused => hskip (.inr hused)
    refine .inr ⟨rfl, fun hzero => hskip (.inl hzero),
      .inr ⟨hne.symm, hj, hfree, hbefore, ?_, ?_, ?_⟩⟩
    · simp only [Function.update_of_ne hne.symm, Function.update_self]
    · simp only [Function.update_self]
    · intro k hkj hki
      simp only [Function.update_of_ne hkj, Function.update_of_ne hki]
  · exact .inl rfl

/-- The block `i` of the inner loop stays free. -/
theorem mergeBlocks_free (hfree : (state.1 i).used = false) (hij : i < j) :
    ((mergeBlocks i state j).1 i).used = false := by
  rcases mergeBlocks_cases hfree hij with hsame | ⟨-, -, hjoined | hjoined⟩
  · rw [hsame]
    exact hfree
  · rw [hjoined.joined]
    exact hfree
  · rw [hjoined.cleared]

/-- The indices of the inner loop. -/
theorem lt_of_mem_inner {k : Fin kMaxBlocks}
    (h : k ∈ (List.finRange kMaxBlocks).filter (i < ·)) : i < k := by
  simpa using (List.mem_filter.mp h).2

section Preservation

variable {P : Blocks → Prop}
  (hjoin : ∀ {blocks after i j}, P blocks → Joined blocks i j after → P after)
include hjoin

theorem foldl_mergeBlocks_preserves {indices : List (Fin kMaxBlocks)} (h : P state.1)
    (hfree : (state.1 i).used = false) (hindices : ∀ j ∈ indices, i < j) :
    P (indices.foldl (mergeBlocks i) state).1 := by
  induction indices generalizing state with
  | nil => exact h
  | cons j rest ih =>
      rw [List.forall_mem_cons] at hindices
      refine ih ?_ (mergeBlocks_free hfree hindices.1) hindices.2
      rcases mergeBlocks_cases hfree hindices.1 with hsame | ⟨-, -, hjoined | hjoined⟩
      · rw [hsame]
        exact h
      · exact hjoin h hjoined
      · exact hjoin h hjoined

theorem mergeFrom_preserves (h : P state.1) (i : Fin kMaxBlocks) : P (mergeFrom state i).1 := by
  rw [mergeFrom]
  split_ifs with hskip
  · exact h
  · have hfree : (state.1 i).used = false := by simpa using fun hused => hskip (.inr hused)
    exact foldl_mergeBlocks_preserves hjoin h hfree fun j hj => lt_of_mem_inner hj

theorem mergePass_preserves {indices : List (Fin kMaxBlocks)} (h : P state.1) :
    P (indices.foldl mergeFrom state).1 := by
  induction indices generalizing state with
  | nil => exact h
  | cons i rest ih => exact ih (mergeFrom_preserves hjoin h i)

/-- What every join keeps, the passes of `release_block` keep. -/
theorem mergePasses_preserves (passes : Nat) (h : P blocks) : P (mergePasses passes blocks) := by
  induction passes generalizing blocks with
  | zero => exact h
  | succ passes ih =>
      have hpass : P ((List.finRange kMaxBlocks).foldl mergeFrom (blocks, false)).1 :=
        mergePass_preserves hjoin (show P (blocks, false).1 from h)
      rw [mergePasses]
      simp only
      split_ifs
      · exact ih hpass
      · exact hpass

end Preservation

/-- What the merging loops keep. -/
structure Merged (blocks after : Blocks) : Prop where
  packed : Packed after
  keeps : KeepsUsed blocks after
  fewer : ∀ k, (after k).used = true → (blocks k).used = true

theorem Merged.join {next : Blocks} (h : Merged blocks after) (hjoined : Joined after i j next) :
    Merged blocks next := by
  refine ⟨hjoined.packed h.packed, h.keeps.trans ?_, ?_⟩
  · intro k hk
    obtain ⟨hki, hkj⟩ := hjoined.used_ne hk
    exact hjoined.other k hki hkj
  · intro k hk
    rw [hjoined.used hk] at hk
    exact h.fewer k hk

/-- The table in which a block was just marked as free. -/
theorem freed_packed (h : Packed blocks) (index : Fin kMaxBlocks) :
    Packed (Function.update blocks index { blocks index with used := false }) := by
  refine h.of_shape (update_used_shape blocks index false) ?_
  intro k hk
  have hne : k ≠ index := by
    rintro rfl
    rw [Function.update_self] at hk
    cases hk
  rw [Function.update_of_ne hne] at hk
  exact h.used_size k hk

/-- Releasing a block keeps every other block in use. -/
theorem releaseBlock_merged (h : Packed blocks) (index : Option (Fin kMaxBlocks)) :
    Packed (releaseBlock blocks index) ∧
      (∀ k, some k ≠ index → (blocks k).used = true → releaseBlock blocks index k = blocks k) ∧
      ∀ k, (releaseBlock blocks index k).used = true → some k ≠ index ∧ (blocks k).used = true := by
  cases index with
  | none => exact ⟨h, fun k _ _ => rfl, fun k hk => ⟨by simp, hk⟩⟩
  | some index =>
      rw [releaseBlock]
      split_ifs with hempty
      · refine ⟨h, fun k _ _ => rfl, fun k hk => ⟨?_, hk⟩⟩
        intro heq
        obtain rfl := Option.some.inj heq
        exact h.used_size k hk hempty
      · have hpacked := freed_packed h index
        generalize hfreed : Function.update blocks index { blocks index with used := false } = freed
          at hpacked
        have hother : ∀ k, k ≠ index → freed k = blocks k := by
          intro k hk
          rw [← hfreed, Function.update_of_ne hk]
        have hmerged : Merged freed (mergePasses kMaxBlocks freed) :=
          mergePasses_preserves (P := Merged freed) (fun hmerged hjoined => hmerged.join hjoined)
            kMaxBlocks ⟨hpacked, fun _ _ => rfl, fun _ hk => hk⟩
        refine ⟨hmerged.packed, ?_, ?_⟩
        · intro k hk hused
          have hne : k ≠ index := fun heq => hk (congrArg some heq)
          have hsame := hother k hne
          rw [hmerged.keeps k (by rw [hsame]; exact hused), hsame]
        · intro k hk
          have hused := hmerged.fewer k hk
          have hne : k ≠ index := by
            rintro rfl
            rw [← hfreed, Function.update_self] at hused
            cases hused
          rw [hother k hne] at hused
          exact ⟨fun heq => hne (Option.some.inj heq), hused⟩

end Release

end EspNp2.StorageBackend.BlockAllocator
