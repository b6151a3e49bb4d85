import EspNp2.StorageBackend.BlockAllocator
import Mathlib.Algebra.BigOperators.Group.Finset.Basic
import Mathlib.Algebra.Order.BigOperators.Group.Finset
import Mathlib.Order.Interval.Finset.Nat

/-!
The blocks of the table tile the arena, and no two free ones lie next to each other.
Every pass of `release_block` that merges leaves fewer blocks, so the last one finds
nothing to merge.
-/

namespace EspNp2.StorageBackend.BlockTiling

open EspNp2.StorageBackend.BlockAllocator

def Block.contains (block : Block) (address : Nat) : Prop :=
  block.offset ≤ address ∧ address < block.offset + block.size

def Covers (blocks : Blocks) : Prop :=
  ∀ address < kArenaBytes, ∃ i, Block.contains (blocks i) address

def free (block : Block) : Prop := block.size ≠ 0 ∧ block.used = false

/-- No free block ends where another one begins. -/
def Coalesced (blocks : Blocks) : Prop :=
  ∀ i j, i ≠ j → free (blocks i) → free (blocks j) →
    (blocks i).offset + (blocks i).size ≠ (blocks j).offset

structure Tiled (blocks : Blocks) : Prop where
  packed : Packed blocks
  covers : Covers blocks
  coalesced : Coalesced blocks

variable {blocks blocks' after : Blocks} {i j : Fin kMaxBlocks} {state start : Blocks × Bool}

/-- The sizes of the blocks add up to the arena. -/
theorem sum_size (hpacked : Packed blocks) (hcovers : Covers blocks) :
    ∑ i, (blocks i).size = kArenaBytes := by
  have hdisjoint : ∀ i ∈ Finset.univ, ∀ j ∈ Finset.univ, i ≠ j →
      Disjoint (Finset.Ico (blocks i).offset ((blocks i).offset + (blocks i).size))
        (Finset.Ico (blocks j).offset ((blocks j).offset + (blocks j).size)) := by
    intro i _ j _ hij
    rw [Finset.disjoint_left]
    intro address hi hj
    rw [Finset.mem_Ico] at hi hj
    have hapart := hpacked.apart i j hij (by omega) (by omega)
    rw [Apart] at hapart
    omega
  have hunion : Finset.univ.biUnion (fun i =>
      Finset.Ico (blocks i).offset ((blocks i).offset + (blocks i).size)) =
      Finset.range kArenaBytes := by
    ext address
    simp only [Finset.mem_biUnion, Finset.mem_univ, true_and, Finset.mem_Ico, Finset.mem_range]
    constructor
    · rintro ⟨i, hlow, hhigh⟩
      have hbounded := hpacked.bounded i (by omega)
      omega
    · exact hcovers address
  calc
    ∑ i, (blocks i).size =
        ∑ i, (Finset.Ico (blocks i).offset ((blocks i).offset + (blocks i).size)).card := by
      simp
    _ = (Finset.range kArenaBytes).card := by
      rw [← hunion, Finset.card_biUnion hdisjoint]
    _ = kArenaBytes := Finset.card_range _

section Allocate

theorem covers_update_used {used : Bool} (h : Covers blocks) :
    Covers (Function.update blocks i { blocks i with used := used }) := by
  intro address haddress
  obtain ⟨k, hk⟩ := h address haddress
  refine ⟨k, ?_⟩
  rw [Block.contains] at hk ⊢
  rw [(update_used_shape blocks i used k).1, (update_used_shape blocks i used k).2]
  exact hk

theorem tiled_whole {size : Nat} (h : Tiled blocks) (hsize : size ≠ 0)
    (hfree : (blocks i).used = false) (hwhole : (blocks i).size = size) :
    Tiled (Function.update blocks i { blocks i with used := true }) := by
  refine ⟨(allocated_whole h.packed hsize hfree hwhole).packed, covers_update_used h.covers, ?_⟩
  intro j k hjk hj hk
  have hne : ∀ l, free (Function.update blocks i { blocks i with used := true } l) → l ≠ i := by
    rintro l hl rfl
    rw [Function.update_self] at hl
    cases hl.2
  have hji := hne j hj
  have hki := hne k hk
  rw [Function.update_of_ne hji] at hj ⊢
  rw [Function.update_of_ne hki] at hk ⊢
  exact h.coalesced j k hjk hj hk

theorem tiled_split {size : Nat} {split : Fin kMaxBlocks} (h : Tiled blocks) (hsize : size ≠ 0)
    (hfree : (blocks i).used = false) (hlarge : size < (blocks i).size)
    (hsplit : (blocks split).size = 0) :
    Tiled (Function.update
      (Function.update blocks split
        { offset := (blocks i).offset + size, size := (blocks i).size - size })
      i { blocks i with size := size, used := true }) := by
  have hpacked := (allocated_split h.packed hsize hfree hlarge hsplit).packed
  have hne : split ≠ i := by
    rintro rfl
    omega
  generalize hafter : Function.update
    (Function.update blocks split
      { offset := (blocks i).offset + size, size := (blocks i).size - size })
    i { blocks i with size := size, used := true } = after at hpacked ⊢
  have hself : after i = { blocks i with size := size, used := true } := by
    rw [← hafter, Function.update_self]
  have hrest : after split =
      { offset := (blocks i).offset + size, size := (blocks i).size - size } := by
    rw [← hafter, Function.update_of_ne hne, Function.update_self]
  have hother : ∀ k, k ≠ i → k ≠ split → after k = blocks k := by
    intro k hki hks
    rw [← hafter, Function.update_of_ne hki, Function.update_of_ne hks]
  refine ⟨hpacked, ?_, ?_⟩
  · intro address haddress
    obtain ⟨k, hk⟩ := h.covers address haddress
    by_cases hki : k = i
    · subst hki
      by_cases hfirst : address < (blocks k).offset + size
      · refine ⟨k, ?_⟩
        rw [hself]
        exact ⟨hk.1, hfirst⟩
      · refine ⟨split, ?_⟩
        rw [hrest]
        have hlow := hk.1
        have hhigh := hk.2
        constructor <;> simp only <;> omega
    · have hks : k ≠ split := by
        rintro rfl
        have hlow := hk.1
        have hhigh := hk.2
        omega
      refine ⟨k, ?_⟩
      rw [hother k hki hks]
      exact hk
  · have hfresh : free (blocks i) := ⟨by omega, hfree⟩
    have hni : ∀ k, free (after k) → k ≠ i := by
      rintro k hk rfl
      rw [hself] at hk
      cases hk.2
    intro j k hjk hj hk
    have hji := hni j hj
    have hki := hni k hk
    by_cases hjs : j = split
    · subst hjs
      rw [hother k hki (Ne.symm hjk)] at hk ⊢
      have hnext := h.coalesced i k (Ne.symm hki) hfresh hk
      rw [hrest]
      simp only
      omega
    · rw [hother j hji hjs] at hj ⊢
      by_cases hks : k = split
      · subst hks
        have hapart := h.packed.apart i j (Ne.symm hji) (by omega) hj.1
        have hpos := hj.1
        rw [Apart] at hapart
        rw [hrest]
        simp only
        omega
      · rw [hother k hki hks] at hk ⊢
        exact h.coalesced j k hjk hj hk

theorem allocateFrom_tiled {size : Nat} {indices : List (Fin kMaxBlocks)} (h : Tiled blocks)
    (hsize : size ≠ 0) (halloc : allocateFrom blocks size indices = some (i, blocks')) :
    Tiled blocks' := by
  induction indices with
  | nil => cases halloc
  | cons first rest ih =>
      rw [allocateFrom] at halloc
      simp only at halloc
      split_ifs at halloc with hskip hwhole
      · exact ih halloc
      · obtain ⟨rfl, rfl⟩ := Prod.mk.inj (Option.some.inj halloc)
        exact tiled_whole h hsize (by simpa using fun hused => hskip (.inr (.inl hused))) hwhole
      · split at halloc
        · exact ih halloc
        · rename_i split hslot
          obtain ⟨rfl, rfl⟩ := Prod.mk.inj (Option.some.inj halloc)
          refine tiled_split h hsize (by simpa using fun hused => hskip (.inr (.inl hused))) ?_
            (unusedSlot_size hslot)
          omega

theorem allocateBlock_tiled {size : Nat} (h : Tiled blocks)
    (halloc : allocateBlock blocks size = some (i, blocks')) : Tiled blocks' := by
  rw [allocateBlock] at halloc
  split_ifs at halloc with hbad
  exact allocateFrom_tiled h (fun hzero => hbad (.inl hzero)) halloc

end Allocate

section Release

theorem Joined.covers (hjoined : Joined blocks i j after) (h : Covers blocks) : Covers after := by
  have hadjacent := hjoined.adjacent
  intro address haddress
  obtain ⟨k, hlow, hhigh⟩ := h address haddress
  by_cases hkij : k = i ∨ k = j
  · refine ⟨i, ?_⟩
    rw [hjoined.joined, Block.contains]
    simp only
    rcases hkij with rfl | rfl <;> omega
  · obtain ⟨hki, hkj⟩ := not_or.mp hkij
    refine ⟨k, ?_⟩
    rw [hjoined.other k hki hkj]
    exact ⟨hlow, hhigh⟩

/-- The number of blocks. -/
def blockCount (blocks : Blocks) : Nat :=
  (Finset.univ.filter fun k => (blocks k).size ≠ 0).card

/-- The blocks of the table after a join, but for the one that grew. -/
theorem Joined.mem_of_size (h : Joined blocks i j after) {k : Fin kMaxBlocks}
    (hk : (after k).size ≠ 0) (hki : k ≠ i) : k ≠ j ∧ (blocks k).size ≠ 0 := by
  have hkj : k ≠ j := by
    rintro rfl
    rw [h.cleared] at hk
    exact hk rfl
  rw [h.other k hki hkj] at hk
  exact ⟨hkj, hk⟩

theorem Joined.blockCount_lt (h : Joined blocks i j after) (hfirst : (blocks i).size ≠ 0)
    (hsecond : (blocks j).size ≠ 0) : blockCount after < blockCount blocks := by
  refine Finset.card_lt_card (Finset.ssubset_iff_of_subset ?_ |>.mpr ⟨j, ?_, ?_⟩)
  · intro k hk
    simp only [Finset.mem_filter, Finset.mem_univ, true_and] at hk ⊢
    by_cases hki : k = i
    · rw [hki]
      exact hfirst
    · exact (Joined.mem_of_size h hk hki).2
  · simpa using hsecond
  · simp [h.cleared]

/-- A join that moves a block into an empty slot. -/
theorem Joined.blockCount_le (h : Joined blocks i j after) (hsecond : (blocks j).size ≠ 0) :
    blockCount after ≤ blockCount blocks := by
  have hsubset : (Finset.univ.filter fun k => (after k).size ≠ 0) ⊆
      insert i ((Finset.univ.filter fun k => (blocks k).size ≠ 0).erase j) := by
    intro k hk
    simp only [Finset.mem_filter, Finset.mem_univ, true_and, Finset.mem_insert,
      Finset.mem_erase] at hk ⊢
    by_cases hki : k = i
    · exact .inl hki
    · exact .inr (Joined.mem_of_size h hk hki)
  have hmem : j ∈ Finset.univ.filter fun k => (blocks k).size ≠ 0 := by simpa using hsecond
  calc
    blockCount after ≤ _ := Finset.card_le_card hsubset
    _ ≤ _ + 1 := Finset.card_insert_le _ _
    _ = blockCount blocks := Finset.card_erase_add_one hmem

/-- How the inner loop at `i` has changed the table it started from. A block that was
cleared has lost its offset and may take over one at offset 0, but only after a merge. -/
def Progressed (start state : Blocks × Bool) (i : Fin kMaxBlocks) : Prop :=
  (state.1 i).used = false ∧
    (state = start ∧ (start.1 i).size ≠ 0 ∨
      state.2 = true ∧ blockCount state.1 < blockCount start.1)

theorem Progressed.step (h : Progressed start state i) (hij : i < j) :
    Progressed start (mergeBlocks i state j) i := by
  obtain ⟨hfree, hprogress⟩ := h
  refine ⟨mergeBlocks_free hfree hij, ?_⟩
  rcases mergeBlocks_cases hfree hij with hsame | ⟨hflag, hsize, hjoined⟩
  · rw [hsame]
    exact hprogress
  · refine .inr ⟨hflag, ?_⟩
    rcases hprogress with ⟨rfl, hfirst⟩ | ⟨-, hfewer⟩
    · rcases hjoined with hjoined | hjoined
      · exact Joined.blockCount_lt hjoined hfirst hsize
      · exact Joined.blockCount_lt hjoined hsize hfirst
    · refine lt_of_le_of_lt ?_ hfewer
      rcases hjoined with hjoined | hjoined
      · exact Joined.blockCount_le hjoined hsize
      · by_cases hfirst : (state.1 i).size = 0
        · exact Finset.card_le_card fun k hk => by
            simp only [Finset.mem_filter, Finset.mem_univ, true_and] at hk ⊢
            by_cases hkj : k = j
            · rw [hkj]
              exact hsize
            · exact (Joined.mem_of_size hjoined hk hkj).2
        · exact (Joined.blockCount_lt hjoined hsize hfirst).le

theorem foldl_mergeBlocks_progressed {indices : List (Fin kMaxBlocks)}
    (h : Progressed start state i) (hindices : ∀ j ∈ indices, i < j) :
    Progressed start (indices.foldl (mergeBlocks i) state) i := by
  induction indices generalizing state with
  | nil => exact h
  | cons j rest ih =>
      rw [List.forall_mem_cons] at hindices
      exact ih (h.step hindices.1) hindices.2

theorem mergeFrom_progressed (state : Blocks × Bool) (i : Fin kMaxBlocks) :
    mergeFrom state i = state ∨
      (mergeFrom state i).2 = true ∧ blockCount (mergeFrom state i).1 < blockCount state.1 := by
  rw [mergeFrom]
  split_ifs with hskip
  · exact .inl rfl
  · have hfree : (state.1 i).used = false := by simpa using fun hused => hskip (.inr hused)
    have hstart : Progressed state state i := ⟨hfree, .inl ⟨rfl, fun hzero => hskip (.inl hzero)⟩⟩
    rcases (foldl_mergeBlocks_progressed hstart fun j hj => lt_of_mem_inner hj).2 with
      ⟨hsame, -⟩ | hfewer
    · exact .inl hsame
    · exact .inr hfewer

/-- A pass that merges leaves fewer blocks. -/
theorem mergePass_progressed (state : Blocks × Bool) (indices : List (Fin kMaxBlocks)) :
    indices.foldl mergeFrom state = state ∨
      (indices.foldl mergeFrom state).2 = true ∧
        blockCount (indices.foldl mergeFrom state).1 < blockCount state.1 := by
  induction indices generalizing state with
  | nil => exact .inl rfl
  | cons i rest ih =>
      rw [List.foldl_cons]
      rcases mergeFrom_progressed state i with hsame | ⟨hflag, hfewer⟩
      · rw [hsame]
        exact ih state
      · rcases ih (mergeFrom state i) with hsame | ⟨hflag', hfewer'⟩
        · rw [hsame]
          exact .inr ⟨hflag, hfewer⟩
        · exact .inr ⟨hflag', hfewer'.trans hfewer⟩

/-- Two free blocks that neither order of the inner body would merge. -/
def Separate (left right : Block) : Prop :=
  left.offset + left.size ≠ right.offset ∧ right.offset + right.size ≠ left.offset

theorem mergeBlocks_false (h : (mergeBlocks i state j).2 = false) :
    mergeBlocks i state j = state ∧ (free (state.1 j) → Separate (state.1 i) (state.1 j)) := by
  rw [mergeBlocks] at h ⊢
  simp only at h ⊢
  split_ifs at h ⊢ with hskip hafter hbefore
  · refine ⟨rfl, fun hfree => absurd hskip (not_or.mpr ⟨hfree.1, ?_⟩)⟩
    rw [hfree.2]
    simp
  · exact ⟨rfl, fun _ => ⟨hafter, hbefore⟩⟩

theorem foldl_mergeBlocks_false {indices : List (Fin kMaxBlocks)}
    (h : (indices.foldl (mergeBlocks i) state).2 = false) :
    indices.foldl (mergeBlocks i) state = state ∧
      ∀ j ∈ indices, free (state.1 j) → Separate (state.1 i) (state.1 j) := by
  induction indices generalizing state with
  | nil => exact ⟨rfl, by simp⟩
  | cons j rest ih =>
      rw [List.foldl_cons] at h ⊢
      obtain ⟨hsame, hrest⟩ := ih h
      have hflag : (mergeBlocks i state j).2 = false := by
        rw [hsame] at h
        exact h
      obtain ⟨hnext, hseparate⟩ := mergeBlocks_false hflag
      rw [hnext] at hrest hsame
      rw [hnext]
      refine ⟨hsame, ?_⟩
      intro k hk
      rcases List.mem_cons.mp hk with rfl | hk
      · exact hseparate
      · exact hrest k hk

theorem mergeFrom_false (h : (mergeFrom state i).2 = false) :
    mergeFrom state i = state ∧ (free (state.1 i) → ∀ j, i < j → free (state.1 j) →
      Separate (state.1 i) (state.1 j)) := by
  rw [mergeFrom] at h ⊢
  split_ifs at h ⊢ with hskip
  · refine ⟨rfl, fun hfree => absurd hskip (not_or.mpr ⟨hfree.1, ?_⟩)⟩
    rw [hfree.2]
    simp
  · obtain ⟨hsame, hseparate⟩ := foldl_mergeBlocks_false h
    refine ⟨hsame, fun _ j hij => hseparate j ?_⟩
    simpa using hij

theorem mergePass_false {indices : List (Fin kMaxBlocks)}
    (h : (indices.foldl mergeFrom state).2 = false) :
    indices.foldl mergeFrom state = state ∧ ∀ i ∈ indices, free (state.1 i) →
      ∀ j, i < j → free (state.1 j) → Separate (state.1 i) (state.1 j) := by
  induction indices generalizing state with
  | nil => exact ⟨rfl, by simp⟩
  | cons i rest ih =>
      rw [List.foldl_cons] at h ⊢
      obtain ⟨hsame, hrest⟩ := ih h
      have hflag : (mergeFrom state i).2 = false := by
        rw [hsame] at h
        exact h
      obtain ⟨hnext, hseparate⟩ := mergeFrom_false hflag
      rw [hnext] at hrest hsame
      rw [hnext]
      refine ⟨hsame, ?_⟩
      intro k hk
      rcases List.mem_cons.mp hk with rfl | hk
      · exact hseparate
      · exact hrest k hk

/-- A pass that merges nothing finds no two free blocks next to each other. -/
theorem coalesced_of_mergePass
    (h : ((List.finRange kMaxBlocks).foldl mergeFrom (blocks, false)).2 = false) :
    ((List.finRange kMaxBlocks).foldl mergeFrom (blocks, false)).1 = blocks ∧ Coalesced blocks := by
  obtain ⟨hsame, hseparate⟩ := mergePass_false h
  refine ⟨congrArg Prod.fst hsame, ?_⟩
  intro i j hij hi hj
  rcases lt_or_gt_of_ne hij with hlt | hlt
  · exact (hseparate i (List.mem_finRange i) hi j hlt hj).1
  · exact (hseparate j (List.mem_finRange j) hj i hlt hi).2

theorem Covers.blockCount_pos (h : Covers blocks) : 0 < blockCount blocks := by
  obtain ⟨k, hlow, hhigh⟩ := h 0 (by decide)
  refine Finset.card_pos.mpr ⟨k, ?_⟩
  simp only [Finset.mem_filter, Finset.mem_univ, true_and]
  omega

/-- With as many passes as there are blocks, the last pass merges nothing. -/
theorem mergePasses_coalesced {passes : Nat} (hcovers : Covers blocks)
    (hcount : blockCount blocks ≤ passes) : Coalesced (mergePasses passes blocks) := by
  induction passes generalizing blocks with
  | zero =>
      have hpos := hcovers.blockCount_pos
      omega
  | succ passes ih =>
      have hcovers' : Covers ((List.finRange kMaxBlocks).foldl mergeFrom (blocks, false)).1 :=
        mergePass_preserves (P := Covers) (fun hcovers hjoined => Joined.covers hjoined hcovers)
          (show Covers (blocks, false).1 from hcovers)
      have hprogress := mergePass_progressed (blocks, false) (List.finRange kMaxBlocks)
      rw [mergePasses]
      simp only
      split_ifs with hmerged
      · refine ih hcovers' ?_
        rcases hprogress with hsame | ⟨-, hfewer⟩
        · rw [hsame] at hmerged
          cases hmerged
        · simp only at hfewer
          omega
      · obtain ⟨hsame, hcoalesced⟩ := coalesced_of_mergePass (by simpa using hmerged)
        rw [hsame]
        exact hcoalesced

theorem blockCount_le_max (blocks : Blocks) : blockCount blocks ≤ kMaxBlocks := by
  calc
    blockCount blocks ≤ (Finset.univ : Finset (Fin kMaxBlocks)).card := Finset.card_filter_le _ _
    _ = kMaxBlocks := Finset.card_fin _

theorem releaseBlock_tiled (h : Tiled blocks) (index : Option (Fin kMaxBlocks)) :
    Tiled (releaseBlock blocks index) := by
  have hpacked := (releaseBlock_merged h.packed index).1
  cases index with
  | none => exact h
  | some index =>
      rw [releaseBlock] at hpacked ⊢
      split_ifs at hpacked ⊢ with hempty
      · exact h
      · have hfreed : Covers (Function.update blocks index { blocks index with used := false }) :=
          covers_update_used h.covers
        refine ⟨hpacked, ?_, mergePasses_coalesced hfreed (blockCount_le_max _)⟩
        exact mergePasses_preserves (P := Covers)
          (fun hcovers hjoined => Joined.covers hjoined hcovers) kMaxBlocks hfreed

end Release

end EspNp2.StorageBackend.BlockTiling
