import EspNp2.StorageBackend.BlockTiling
import EspNp2.StorageBackend.RamVisibility

/-!
The representation invariant of `StorageRam`: its blocks tile the arena, the blocks in
use are those of its entries, and committed paths differ. It holds after any calls
whose paths an entry can hold.
-/

namespace EspNp2.StorageBackend.RamInvariant

open EspNp2.StorageBackend.BlockAllocator
open EspNp2.StorageBackend.BlockTiling
open EspNp2.StorageBackend.RamStorage
open EspNp2.StorageBackend.RamVisibility
open EspNp2.StorageBackend.StorageInterface

/-- The tables agree with each other. -/
structure Represented (s : StorageRam) : Prop where
  sound : Sound s
  tiled : Tiled s.blocks
  owner : ∀ block, (s.blocks block).used = true →
    ∃ i, (s.entries i).used = true ∧ (s.entries i).block = some block
  distinct : ∀ i j, live (s.entries i) = true → live (s.entries j) = true →
    (s.entries i).path = (s.entries j).path → i = j

/-- Every used entry but the staging one is committed. -/
inductive Session (s : StorageRam) : Prop
  | idle (context : s.writeContext = {})
      (committed : ∀ i, (s.entries i).used = true → (s.entries i).committed = true)
  | writing {path : Path} {size : UInt64} {staging : Fin kMaxEntries}
      {block : Option (Fin kMaxBlocks)} (staged : StagedAt s path size staging block)
      (committed : ∀ i, i ≠ staging → (s.entries i).used = true → (s.entries i).committed = true)

structure Invariant (s : StorageRam) : Prop where
  represented : Represented s
  session : Session s

variable {s s' : StorageRam} {path : Path} {size : UInt64}

section Occupy

/-- The block of a new entry: none, or one that was allocated for it. -/
def Provided (blocks : Blocks) (entry : Entry) (blocks' : Blocks) : Prop :=
  entry.block = none ∧ blocks' = blocks ∨
    ∃ block, entry.block = some block ∧
      allocateBlock blocks entry.size.toNat = some (block, blocks')

theorem Provided.sound {entry : Entry} {blocks : Blocks} {index : Fin kMaxEntries}
    (hprovided : Provided s.blocks entry blocks) (h : Sound s) :
    Sound (setEntry { s with blocks := blocks } index entry) := by
  rcases hprovided with ⟨hnone, rfl⟩ | ⟨block, hblock, halloc⟩
  · refine h.setEntry fun b hb => ?_
    rw [hnone] at hb
    cases hb
  · obtain ⟨hallocated, -⟩ := allocateBlock_allocated h.packed halloc
    refine (h.withBlocks hallocated.packed hallocated.keeps).setEntry fun b hb => ?_
    rw [hblock] at hb
    obtain rfl := Option.some.inj hb
    exact ⟨hallocated.used, hallocated.size_eq, fun i _ hused =>
      h.not_owned hallocated.fresh i hused⟩

theorem Provided.only {entry : Entry} {blocks : Blocks} (hprovided : Provided s.blocks entry blocks)
    (h : Sound s) {block : Fin kMaxBlocks} (hused : (blocks block).used = true) :
    entry.block = some block ∨ (s.blocks block).used = true := by
  rcases hprovided with ⟨-, rfl⟩ | ⟨b, hblock, halloc⟩
  · exact .inr hused
  · obtain ⟨hallocated, -⟩ := allocateBlock_allocated h.packed halloc
    rcases hallocated.only block hused with rfl | hbefore
    · exact .inl hblock
    · exact .inr hbefore

/-- An unused entry is taken, with a path that no committed entry has. -/
theorem Represented.occupy {entry : Entry} {index : Fin kMaxEntries} (h : Represented s)
    (hunused : (s.entries index).used = false) (hentry : entry.used = true)
    (hprovided : Provided s.blocks entry s'.blocks)
    (hentries : s'.entries = Function.update s.entries index entry)
    (hpath : live entry = true → ∀ i, live (s.entries i) = true → (s.entries i).path ≠ entry.path) :
    Represented s' := by
  have hself : s'.entries index = entry := by rw [hentries, Function.update_self]
  have hother : ∀ i, i ≠ index → s'.entries i = s.entries i := by
    intro i hi
    rw [hentries, Function.update_of_ne hi]
  have hne : ∀ i, (s.entries i).used = true → i ≠ index := by
    rintro i hi rfl
    rw [hunused] at hi
    cases hi
  have hsound : Sound s' := by
    have hset : Sound (setEntry { s with blocks := s'.blocks } index entry) :=
      hprovided.sound h.sound
    refine ⟨hset.packed, ?_, ?_⟩
    · rw [hentries]
      exact hset.owned
    · rw [hentries]
      exact hset.unshared
  refine ⟨hsound, ?_, ?_, ?_⟩
  · rcases hprovided with ⟨-, hsame⟩ | ⟨block, -, halloc⟩
    · rw [hsame]
      exact h.tiled
    · exact allocateBlock_tiled h.tiled halloc
  · intro block hused
    rcases hprovided.only h.sound hused with hblock | hbefore
    · exact ⟨index, by rw [hself]; exact hentry, by rw [hself]; exact hblock⟩
    · obtain ⟨i, hi, hblock⟩ := h.owner block hbefore
      refine ⟨i, ?_, ?_⟩
      · rw [hother i (hne i hi)]
        exact hi
      · rw [hother i (hne i hi)]
        exact hblock
  · intro i j hi hj hsame
    by_cases hii : i = index
    · by_cases hji : j = index
      · rw [hii, hji]
      · rw [hii, hself] at hi hsame
        rw [hother j hji] at hj hsame
        exact absurd hsame.symm (hpath hi j hj)
    · rw [hother i hii] at hi hsame
      by_cases hji : j = index
      · rw [hji, hself] at hj hsame
        exact absurd hsame (hpath hj i hi)
      · rw [hother j hji] at hj hsame
        exact h.distinct i j hi hj hsame

end Occupy

section BeginWrite

theorem openStaging_invariant {blocks : Blocks} {staging : Fin kMaxEntries}
    {block : Option (Fin kMaxBlocks)} (h : Represented s)
    (hcommitted : ∀ i, (s.entries i).used = true → (s.entries i).committed = true)
    (hpath : Storable path) (hfile : ∀ index, find s path = some index →
      (s.entries index).type = .file)
    (hunused : (s.entries staging).used = false) (hsize : block = none → size = 0)
    (hprovided : Provided s.blocks
      { used := true, path := path, size := size, block := block } blocks) :
    Invariant (openStaging { s with blocks := blocks } path size (find s path) staging block) := by
  have hcontext : (openStaging { s with blocks := blocks } path size (find s path) staging
      block).writeContext = { owner := true, staging := some staging, target := find s path } := rfl
  have hblocks : (openStaging { s with blocks := blocks } path size (find s path) staging
      block).blocks = blocks := rfl
  have hentries : (openStaging { s with blocks := blocks } path size (find s path) staging
      block).entries = Function.update s.entries staging
        { used := true, path := path, size := size, block := block } := by
    rw [openStaging, copyPath_storable hpath]
    rfl
  generalize openStaging { s with blocks := blocks } path size (find s path) staging block = s'
    at hcontext hblocks hentries ⊢
  have hself : s'.entries staging =
      { used := true, path := path, size := size, block := block } := by
    rw [hentries, Function.update_self]
  have hother : ∀ i, i ≠ staging → s'.entries i = s.entries i := by
    intro i hi
    rw [hentries, Function.update_of_ne hi]
  have hrepresented : Represented s' := by
    rw [← hblocks] at hprovided
    refine h.occupy hunused rfl hprovided hentries ?_
    intro hlive
    cases hlive
  have hne : ∀ i, live (s.entries i) = true → i ≠ staging := by
    rintro i hi rfl
    rw [live_used hi] at hunused
    cases hunused
  have hlive : ∀ i, live (s'.entries i) = live (s.entries i) := by
    intro i
    by_cases hi : i = staging
    · subst hi
      rw [hself]
      simp [live, hunused]
    · rw [hother i hi]
  have hfind : find s' path = find s path :=
    find_congr hlive fun i hi => by rw [hother i (hne i hi)]
  have hstaged : StagedAt s' path size staging block := by
    refine ⟨hrepresented.sound, ?_, hself, ?_, hsize⟩
    · rw [hfind]
      exact hcontext
    · intro index hindex
      rw [hfind] at hindex
      rw [hother index (hne index (find_live hindex).1)]
      exact hfile index hindex
  refine ⟨hrepresented, .writing hstaged ?_⟩
  intro i hi hused
  rw [hother i hi] at hused ⊢
  exact hcommitted i hused

theorem beginWriteImpl_invariant (h : Invariant s) (hpath : Storable path) (size : UInt64)
    (replace : Bool) : Invariant (beginWriteImpl s path size replace).2 := by
  rcases hresult : beginWriteImpl s path size replace with ⟨error, s'⟩
  by_cases herror : error = .ok
  · subst herror
    cases h.session with
    | writing hstaged _ =>
        rw [beginWriteImpl, if_pos (by rw [hstaged.context])] at hresult
        cases hresult
    | idle hcontext hcommitted =>
        rw [beginWriteImpl] at hresult
        simp only at hresult
        split_ifs at hresult with hbusy hlarge hparent hfile hexists
        case neg =>
          have hfiles : ∀ index, find s path = some index → (s.entries index).type = .file := by
            intro index hindex
            rw [hindex] at hfile
            simpa using hfile
          rw [stageFile] at hresult
          cases hfree : findFreeEntry s with
          | none =>
              rw [hfree] at hresult
              cases hresult
          | some staging =>
              have hunused := findFreeEntry_unused hfree
              rw [hfree] at hresult
              simp only at hresult
              by_cases hsize : size = 0
              · rw [if_pos hsize] at hresult
                obtain rfl := (Prod.mk.inj hresult).2
                exact openStaging_invariant h.represented hcommitted hpath hfiles hunused
                  (fun _ => hsize) (.inl ⟨rfl, rfl⟩)
              · rw [if_neg hsize] at hresult
                cases halloc : allocateBlock s.blocks size.toNat with
                | none =>
                    rw [halloc] at hresult
                    cases hresult
                | some result =>
                    obtain ⟨block, blocks⟩ := result
                    rw [halloc] at hresult
                    obtain rfl := (Prod.mk.inj hresult).2
                    exact openStaging_invariant h.represented hcommitted hpath hfiles hunused
                      (fun hnone => by cases hnone) (.inr ⟨block, rfl, halloc⟩)
        all_goals cases hresult
  · obtain rfl := beginWriteImpl_failed herror hresult
    exact h

end BeginWrite

section Finish

theorem StagedAt.used {staging : Fin kMaxEntries} {block : Option (Fin kMaxBlocks)}
    (h : StagedAt s path size staging block) : (s.entries staging).used = true := by
  rw [h.entry]

/-- A commit over an existing file gives its block back to the table. -/
theorem Replaced.represented {target staging : Fin kMaxEntries} (h : Replaced s target staging s')
    (hrepresented : Represented s) (hne : target ≠ staging)
    (htarget : (s.entries target).used = true) (hstaging : (s.entries staging).used = true) :
    Represented s' := by
  have hused : ∀ i, (s'.entries i).used = true → i ≠ staging := by
    rintro i hi rfl
    rw [h.givenUp] at hi
    cases hi
  have hkept : ∀ i, i ≠ staging → live (s'.entries i) = live (s.entries i) ∧
      (s'.entries i).path = (s.entries i).path := by
    intro i his
    by_cases hit : i = target
    · subst hit
      rw [h.takesOver]
      exact ⟨rfl, rfl⟩
    · rw [h.other i hit his]
      exact ⟨rfl, rfl⟩
  refine ⟨h.sound hrepresented.sound hne htarget hstaging, ?_, ?_, ?_⟩
  · rw [h.blocks]
    exact releaseBlock_tiled hrepresented.tiled _
  · intro block hblock
    rw [h.blocks] at hblock
    obtain ⟨hother, hbefore⟩ :=
      (releaseBlock_merged hrepresented.sound.packed _).2.2 block hblock
    obtain ⟨i, hi, hiblock⟩ := hrepresented.owner block hbefore
    have hit : i ≠ target := by
      rintro rfl
      exact hother hiblock.symm
    by_cases his : i = staging
    · subst his
      exact ⟨target, by rw [h.takesOver]; exact htarget, by rw [h.takesOver]; exact hiblock⟩
    · refine ⟨i, ?_, ?_⟩
      · rw [h.other i hit his]
        exact hi
      · rw [h.other i hit his]
        exact hiblock
  · intro i j hi hj hsame
    obtain ⟨hlivei, hpathi⟩ := hkept i (hused i (live_used hi))
    obtain ⟨hlivej, hpathj⟩ := hkept j (hused j (live_used hj))
    rw [hlivei] at hi
    rw [hlivej] at hj
    rw [hpathi, hpathj] at hsame
    exact hrepresented.distinct i j hi hj hsame

/-- A commit of a new file. -/
theorem represented_committed {staging : Fin kMaxEntries} {block : Option (Fin kMaxBlocks)}
    (h : Represented s) (hstaged : StagedAt s path size staging block)
    (hnone : find s path = none) :
    Represented (setEntry s staging { s.entries staging with committed := true }) := by
  have hused := StagedAt.used hstaged
  have hpath : (s.entries staging).path = path := by rw [hstaged.entry]
  have hfields : ∀ i, ((setEntry s staging { s.entries staging with committed := true }).entries
        i).used = (s.entries i).used ∧
      ((setEntry s staging { s.entries staging with committed := true }).entries i).block =
        (s.entries i).block ∧
      ((setEntry s staging { s.entries staging with committed := true }).entries i).path =
        (s.entries i).path := by
    intro i
    by_cases hi : i = staging
    · subst hi
      rw [setEntry_self]
      exact ⟨rfl, rfl, rfl⟩
    · rw [setEntry_of_ne hi]
      exact ⟨rfl, rfl, rfl⟩
  refine ⟨?_, h.tiled, ?_, ?_⟩
  · refine h.sound.setEntry fun b hb => ?_
    obtain ⟨hbusy, hsize⟩ := h.sound.owned staging b hused hb
    exact ⟨hbusy, hsize, fun i hi hiused => h.sound.unshared staging i b hi.symm hused hiused hb⟩
  · intro b hb
    obtain ⟨i, hi, hblock⟩ := h.owner b hb
    exact ⟨i, (hfields i).1.trans hi, (hfields i).2.1.trans hblock⟩
  · intro i j hi hj hsame
    rw [(hfields i).2.2, (hfields j).2.2] at hsame
    by_cases hii : i = staging
    · by_cases hji : j = staging
      · rw [hii, hji]
      · rw [setEntry_of_ne hji] at hj
        rw [hii, hpath] at hsame
        exact absurd hsame.symm (find_none hnone hj)
    · rw [setEntry_of_ne hii] at hi
      by_cases hji : j = staging
      · rw [hji, hpath] at hsame
        exact absurd hsame (find_none hnone hi)
      · rw [setEntry_of_ne hji] at hj
        exact h.distinct i j hi hj hsame

theorem commitImpl_invariant (h : Invariant s) : Invariant (commitImpl s).2 := by
  cases h.session with
  | idle hcontext hcommitted =>
      rw [commitImpl, hcontext]
      exact h
  | @writing path size staging block hstaged hcommitted =>
      have hused := StagedAt.used hstaged
      rw [commitImpl]
      simp only [hstaged.context, Bool.true_eq_false, Bool.false_eq_true, or_self, if_false]
      cases htarget : find s path with
      | none =>
          have hrepresented := represented_committed h.represented hstaged htarget
          refine ⟨⟨?_, hrepresented.tiled, hrepresented.owner, hrepresented.distinct⟩,
            .idle rfl ?_⟩
          · exact ⟨hrepresented.sound.packed, hrepresented.sound.owned,
              hrepresented.sound.unshared⟩
          · intro i hi
            by_cases his : i = staging
            · subst his
              exact congrArg Entry.committed setEntry_self
            · rw [show _ = s.entries i from setEntry_of_ne his] at hi ⊢
              exact hcommitted i his hi
      | some target =>
          obtain ⟨hlive, -⟩ := find_live htarget
          have hne := hstaged.staging_ne hlive
          have hreplaced := commitOver_replaced s hne
          refine ⟨Replaced.represented hreplaced h.represented hne (live_used hlive) hused,
            .idle rfl ?_⟩
          intro i hi
          have his : i ≠ staging := by
            rintro rfl
            rw [hreplaced.givenUp] at hi
            cases hi
          by_cases hit : i = target
          · subst hit
            rw [hreplaced.takesOver]
            rw [live, Bool.and_eq_true] at hlive
            exact hlive.2
          · rw [hreplaced.other i hit his] at hi ⊢
            exact hcommitted i his hi

/-- An abort gives the block of the staging file back to the table. -/
theorem abortImpl_invariant (h : Invariant s) : Invariant (abortImpl s) := by
  cases h.session with
  | idle hcontext hcommitted =>
      rw [abortImpl, if_pos (by rw [hcontext])]
      exact h
  | @writing path size staging block hstaged hcommitted =>
      have hused := StagedAt.used hstaged
      have habort : abortImpl s = { setEntry { s with
          blocks := releaseBlock s.blocks (s.entries staging).block } staging {} with
          writeContext := {} } := by
        simp only [abortImpl, hstaged.context, Bool.true_eq_false, if_false, hused, if_true]
      have hblocks : (abortImpl s).blocks = releaseBlock s.blocks (s.entries staging).block := by
        rw [habort]
        rfl
      have hcontext : (abortImpl s).writeContext = {} := by rw [habort]
      have hself : (abortImpl s).entries staging = {} := by
        rw [habort]
        exact setEntry_self
      have hother : ∀ i, i ≠ staging → (abortImpl s).entries i = s.entries i := by
        intro i hi
        rw [habort]
        exact setEntry_of_ne hi
      generalize abortImpl s = s' at hblocks hcontext hself hother ⊢
      have hne : ∀ i, (s'.entries i).used = true → i ≠ staging := by
        rintro i hi rfl
        rw [hself] at hi
        cases hi
      have hmerged := releaseBlock_merged h.represented.sound.packed (s.entries staging).block
      refine ⟨⟨⟨?_, ?_, ?_⟩, ?_, ?_, ?_⟩, .idle hcontext ?_⟩
      · rw [hblocks]
        exact hmerged.1
      · intro i b hi hb
        have his := hne i hi
        rw [hother i his] at hi hb ⊢
        rw [hblocks, h.represented.sound.release_keeps his hi hused hb]
        exact h.represented.sound.owned i b hi hb
      · intro i j b hij hi hj hb
        have his := hne i hi
        have hjs := hne j hj
        rw [hother i his] at hi hb
        rw [hother j hjs] at hj ⊢
        exact h.represented.sound.unshared i j b hij hi hj hb
      · rw [hblocks]
        exact releaseBlock_tiled h.represented.tiled _
      · intro b hb
        rw [hblocks] at hb
        obtain ⟨hkept, hbefore⟩ := hmerged.2.2 b hb
        obtain ⟨i, hi, hblock⟩ := h.represented.owner b hbefore
        have his : i ≠ staging := by
          rintro rfl
          exact hkept hblock.symm
        refine ⟨i, ?_, ?_⟩
        · rw [hother i his]
          exact hi
        · rw [hother i his]
          exact hblock
      · intro i j hi hj hsame
        have his := hne i (live_used hi)
        have hjs := hne j (live_used hj)
        rw [hother i his] at hi hsame
        rw [hother j hjs] at hj hsame
        exact h.represented.distinct i j hi hj hsame
      · intro i hi
        have his := hne i hi
        rw [hother i his] at hi ⊢
        exact hcommitted i his hi

end Finish

section Transfers

/-- The invariant says nothing about the bytes of the arena or about readers. -/
theorem Invariant.withArena (h : Invariant s) (arena : Nat → UInt8) (readContext : ReadContext) :
    Invariant { s with arena := arena, readContext := readContext } := by
  have hsound : Sound { s with arena := arena, readContext := readContext } :=
    ⟨h.represented.sound.packed, h.represented.sound.owned, h.represented.sound.unshared⟩
  refine ⟨⟨hsound, h.represented.tiled, h.represented.owner, h.represented.distinct⟩, ?_⟩
  cases h.session with
  | idle hcontext hcommitted => exact .idle hcontext hcommitted
  | writing hstaged hcommitted =>
      exact .writing ⟨hsound, hstaged.context, hstaged.entry, hstaged.target, hstaged.block⟩
        hcommitted

theorem writeImpl_invariant (h : Invariant s) (offset : UInt64) (data : List UInt8) :
    Invariant (writeImpl s offset data).2 := by
  rw [writeImpl]
  split
  · exact h
  · simp only
    split_ifs
    · exact h
    · exact h
    · split
      · exact h
      · exact h.withArena _ s.readContext

theorem beginReadImpl_invariant (h : Invariant s) (path : Path) :
    Invariant (beginReadImpl s path).2 := by
  rw [beginReadImpl]
  split_ifs
  · exact h
  · split
    · exact h
    · split_ifs
      · exact h
      · exact h.withArena s.arena _

theorem closeRead_invariant (h : Invariant s) : Invariant (closeRead s) := by
  rw [closeRead]
  split_ifs
  · exact h.withArena s.arena _
  · exact h

/-- A write reaches no entry but the staging one. -/
theorem writeImpl_content (h : Represented s) (offset : UInt64) (data : List UInt8)
    {i : Fin kMaxEntries} (hused : (s.entries i).used = true)
    (hother : s.writeContext.staging ≠ some i) (hsession : Session s) :
    contentOf (writeImpl s offset data).2 (s.entries i) = contentOf s (s.entries i) := by
  cases hsession with
  | idle hcontext _ =>
      rw [writeImpl, hcontext]
  | @writing path size staging block hstaged _ =>
      rcases hresult : writeImpl s offset data with ⟨error, s'⟩
      by_cases herror : error = .ok
      · subst herror
        have hstaging : s.writeContext.staging = some staging := by rw [hstaged.context]
        have hne : i ≠ staging := fun heq => hother (by rw [hstaging, heq])
        have hsused := StagedAt.used hstaged
        rw [writeImpl] at hresult
        simp only [hstaging] at hresult
        split_ifs at hresult with hrange hempty
        · cases hresult
        · obtain rfl := (Prod.mk.inj hresult).2
          rfl
        · cases hblock : (s.entries staging).block with
          | none =>
              rw [hblock] at hresult
              cases hresult
          | some b =>
              rw [hblock] at hresult
              obtain rfl := (Prod.mk.inj hresult).2
              refine contentOf_congr (fun _ _ => rfl) fun other hiblock => ?_
              obtain ⟨hle, hshort⟩ := not_or.mp hrange
              rw [UInt64.not_lt] at hle
              have hbelow := UInt64.le_iff_toNat_le.mp hle
              rw [UInt64.toNat_sub_of_le _ _ hle] at hshort
              obtain ⟨hbusy, hsize⟩ := h.sound.owned staging b hsused hblock
              obtain ⟨hbusy', hsize'⟩ := h.sound.owned i other hused hiblock
              have hdistinct : other ≠ b := by
                rintro rfl
                exact h.sound.unshared i staging other hne hused hsused hiblock hblock
              have hapart := h.sound.packed.apart b other hdistinct.symm
                (h.sound.packed.used_size b hbusy) (h.sound.packed.used_size other hbusy')
              rw [Apart, hsize, hsize'] at hapart
              apply copyOut_copyIn_apart
              omega
      · obtain rfl := writeImpl_failed herror hresult
        rfl

end Transfers

section Init

/-- A table in which every entry is committed, with the paths of the entries. -/
structure Seeded (s : StorageRam) (paths : List Path) : Prop where
  represented : Represented s
  context : s.writeContext = {}
  committed : ∀ i, (s.entries i).used = true → (s.entries i).committed = true
  known : ∀ i, (s.entries i).used = true → (s.entries i).path ∈ paths

/-- One more committed entry, with a path that is not there. -/
theorem Seeded.occupy {paths : List Path} {entry : Entry} {index : Fin kMaxEntries}
    (h : Seeded s paths) (hfresh : path ∉ paths) (hunused : (s.entries index).used = false)
    (hentry : entry.used = true ∧ entry.committed = true ∧ entry.path = path)
    (hprovided : Provided s.blocks entry s'.blocks)
    (hentries : s'.entries = Function.update s.entries index entry)
    (hcontext : s'.writeContext = s.writeContext) : Seeded s' (paths ++ [path]) := by
  obtain ⟨hused, hcommitted, hpath⟩ := hentry
  have hself : s'.entries index = entry := by rw [hentries, Function.update_self]
  have hother : ∀ i, i ≠ index → s'.entries i = s.entries i := by
    intro i hi
    rw [hentries, Function.update_of_ne hi]
  refine ⟨h.represented.occupy hunused hused hprovided hentries ?_, hcontext.trans h.context,
    ?_, ?_⟩
  · intro _ i hi hsame
    rw [hpath] at hsame
    exact hfresh (hsame ▸ h.known i (live_used hi))
  · intro i hi
    by_cases hii : i = index
    · rw [hii, hself]
      exact hcommitted
    · rw [hother i hii] at hi ⊢
      exact h.committed i hi
  · intro i hi
    rw [List.mem_append, List.mem_singleton]
    by_cases hii : i = index
    · rw [hii, hself]
      exact .inr hpath
    · rw [hother i hii] at hi ⊢
      exact .inl (h.known i hi)

theorem Seeded.skip {paths : List Path} (h : Seeded s paths) (path : Path) :
    Seeded s (paths ++ [path]) :=
  ⟨h.represented, h.context, h.committed, fun i hi => List.mem_append_left _ (h.known i hi)⟩

/-- What `add_entry` does with a path that it can store. -/
theorem addEntry_cases (hpath : Storable path) (type : EntryType) :
    addEntry s path type = (none, s) ∨
      ∃ index, (s.entries index).used = false ∧ addEntry s path type =
        (some index,
          setEntry s index { used := true, committed := true, type := type, path := path }) := by
  rw [addEntry]
  cases hfree : findFreeEntry s with
  | none => exact .inl rfl
  | some index =>
      simp only [copyPath]
      split_ifs with hbad
      · exact .inl rfl
      · rw [takeWhile_storable hpath]
        exact .inr ⟨index, findFreeEntry_unused hfree, rfl⟩

theorem addEntry_seeded {paths : List Path} (h : Seeded s paths) (hpath : Storable path)
    (hfresh : path ∉ paths) (type : EntryType) :
    Seeded (addEntry s path type).2 (paths ++ [path]) := by
  rcases addEntry_cases hpath type with hfull | ⟨index, hunused, hadded⟩
  · rw [hfull]
    exact h.skip path
  · rw [hadded]
    exact h.occupy hfresh hunused ⟨rfl, rfl, rfl⟩ (.inl ⟨rfl, rfl⟩) rfl rfl

theorem addFile_seeded {paths : List Path} {data : List UInt8} (h : Seeded s paths)
    (hpath : Storable path) (hfresh : path ∉ paths) (hlength : data.length < 2 ^ 64) :
    Seeded (addFile s path data) (paths ++ [path]) := by
  rw [addFile]
  rcases addEntry_cases hpath .file with hfull | ⟨index, hunused, hadded⟩
  · rw [hfull]
    exact h.skip path
  · rw [hadded]
    simp only [setEntry_self, setEntry_blocks]
    cases halloc : allocateBlock s.blocks data.length with
    | none =>
        refine h.occupy hfresh hunused ?_ ?_ (Function.update_idem _ _ _) rfl
        · exact ⟨rfl, rfl, rfl⟩
        · exact .inl ⟨rfl, rfl⟩
    | some result =>
        obtain ⟨block, blocks⟩ := result
        refine h.occupy hfresh hunused ?_ ?_ (Function.update_idem _ _ _) rfl
        · exact ⟨rfl, rfl, rfl⟩
        · refine .inr ⟨block, rfl, ?_⟩
          rw [UInt64.toNat_ofNat_of_lt' hlength]
          exact halloc

theorem foldl_seeded {Item : Type} {step : StorageRam → Item → StorageRam}
    {pathOf : Item → Path} {items : List Item} {paths : List Path} (h : Seeded s paths)
    (hnodup : (paths ++ items.map pathOf).Nodup)
    (hstep : ∀ s paths item, item ∈ items → Seeded s paths → pathOf item ∉ paths →
      Seeded (step s item) (paths ++ [pathOf item])) :
    Seeded (items.foldl step s) (paths ++ items.map pathOf) := by
  induction items generalizing s paths with
  | nil => simpa using h
  | cons item items ih =>
      rw [List.map_cons, List.append_cons] at hnodup
      rw [List.foldl_cons, List.map_cons, List.append_cons]
      have hfresh : pathOf item ∉ paths := by
        have hfirst := (List.nodup_append.mp hnodup).1
        have hapart := (List.nodup_append.mp hfirst).2.2
        exact fun hmem => hapart _ hmem _ (List.mem_singleton_self _) rfl
      refine ih (hstep s paths item List.mem_cons_self h hfresh) hnodup ?_
      intro s paths next hnext
      exact hstep s paths next (List.mem_cons_of_mem _ hnext)

/-- The paths of `init`, in order. -/
def seedPaths : List Path :=
  [] ++ ["/", "/seed", "/upload", "/long"].map bytesOf ++ [bytesOf "/seed/existing.bin"] ++
    (List.range 12).map pagePath ++ (List.range 6).map longPath

theorem seedPaths_nodup : seedPaths.Nodup := by decide +kernel

theorem seedPaths_storable : ∀ path ∈ seedPaths, Storable path := by decide +kernel

theorem represented_fresh : Represented
    { blocks := fun i => if i.val = 0 then { size := kArenaBytes } else {} } := by
  refine ⟨sound_fresh, ⟨sound_fresh.packed, ?_, ?_⟩, ?_, ?_⟩
  · intro address haddress
    exact ⟨⟨0, by decide⟩, by simp, by simpa using haddress⟩
  · intro i j hij hi hj
    have hzero : ∀ k : Fin kMaxBlocks, free (if k.val = 0 then { size := kArenaBytes } else {}) →
        k.val = 0 := by
      intro k hk
      by_contra hne
      rw [if_neg hne] at hk
      exact hk.1 rfl
    exact absurd (Fin.ext ((hzero i hi).trans (hzero j hj).symm)) hij
  · intro block hused
    simp only at hused
    split_ifs at hused
  · intro i j hi
    cases hi

theorem seeded_init : Seeded init seedPaths := by
  have hnodup := seedPaths_nodup
  have hstorable := seedPaths_storable
  have hunused : ∀ i, (({ blocks := fun i => if i.val = 0 then { size := kArenaBytes } else {} } :
      StorageRam).entries i).used ≠ true := by simp
  have hfresh :
    Seeded { blocks := fun i => if i.val = 0 then { size := kArenaBytes } else {} } [] :=
    ⟨represented_fresh, rfl, fun i hi => absurd hi (hunused i), fun i hi => absurd hi (hunused i)⟩
  rw [seedPaths] at hnodup hstorable
  have hnodup₁ := (List.nodup_append.mp hnodup).1
  have hnodup₂ := (List.nodup_append.mp hnodup₁).1
  have hnodup₃ := (List.nodup_append.mp hnodup₂).1
  simp only [List.forall_mem_append] at hstorable
  obtain ⟨⟨⟨⟨-, hdirectory⟩, hexisting⟩, hpage⟩, hlong⟩ := hstorable
  have hdirectories := foldl_seeded hfresh hnodup₃ fun s paths name hname h hnew =>
    addEntry_seeded h (hdirectory _ (List.mem_map_of_mem hname)) hnew .directory
  have hfile := addFile_seeded hdirectories (hexisting _ (List.mem_singleton_self _))
    (fun hmem => (List.nodup_append.mp hnodup₂).2.2 _ hmem _ (List.mem_singleton_self _) rfl)
    (show (seedBytes 0xa0 37).length < 2 ^ 64 by simp [seedBytes])
  have hpages := foldl_seeded hfile hnodup₁ fun s paths page hmem h hnew =>
    addFile_seeded h (hpage _ (List.mem_map_of_mem hmem)) hnew
      (show (seedBytes (page * 17) (16 + page)).length < 2 ^ 64 by
        rw [List.mem_range] at hmem
        simp only [seedBytes, List.length_map, List.length_range]
        omega)
  exact foldl_seeded hpages hnodup fun s paths page hmem h hnew =>
    addEntry_seeded h (hlong _ (List.mem_map_of_mem hmem)) hnew .file

theorem invariant_init : Invariant init :=
  ⟨seeded_init.represented, .idle seeded_init.context seeded_init.committed⟩

end Init

section Runs

inductive Operation where
  | stat (path : Path)
  | listPage (path cursor : Path) (limit capacity : Nat)
  | beginRead (path : Path)
  | read (offset : UInt64) (requested : Nat)
  | close
  | beginWrite (path : Path) (size : UInt64) (replace : Bool)
  | write (offset : UInt64) (data : List UInt8)
  | commit
  | abort

def perform (s : StorageRam) : Operation → StorageRam
  | .stat _ | .listPage .. | .read .. => s
  | .beginRead path => (beginReadImpl s path).2
  | .close => closeRead s
  | .beginWrite path size replace => (beginWriteImpl s path size replace).2
  | .write offset data => (writeImpl s offset data).2
  | .commit => (commitImpl s).2
  | .abort => abortImpl s

def performAll (s : StorageRam) (ops : List Operation) : StorageRam := ops.foldl perform s

/-- A new file is named by a path that an entry can hold. -/
def Operation.Storable : Operation → Prop
  | .beginWrite path _ _ => RamVisibility.Storable path
  | _ => True

instance : DecidablePred Operation.Storable
  | .beginWrite path _ _ => inferInstanceAs (Decidable (RamVisibility.Storable path))
  | .stat _ | .listPage .. | .beginRead _ | .read .. | .close | .write .. | .commit | .abort =>
      .isTrue trivial

theorem perform_invariant (h : Invariant s) {op : Operation} (hop : op.Storable) :
    Invariant (perform s op) := by
  cases op with
  | stat path => exact h
  | listPage path cursor limit capacity => exact h
  | beginRead path => exact beginReadImpl_invariant h path
  | read offset requested => exact h
  | close => exact closeRead_invariant h
  | beginWrite path size replace => exact beginWriteImpl_invariant h hop size replace
  | write offset data => exact writeImpl_invariant h offset data
  | commit => exact commitImpl_invariant h
  | abort => exact abortImpl_invariant h

theorem performAll_invariant (h : Invariant s) {ops : List Operation}
    (hops : ∀ op ∈ ops, op.Storable) : Invariant (performAll s ops) := by
  induction ops generalizing s with
  | nil => exact h
  | cons op ops ih =>
      rw [List.forall_mem_cons] at hops
      exact ih (perform_invariant h hops.1) hops.2

/-- The free bytes of the arena and the bytes of the entries. -/
theorem Represented.accounted (h : Represented s) :
    (∑ block ∈ Finset.univ.filter (fun block => ¬ (s.blocks block).used = true),
        (s.blocks block).size) +
      ∑ i ∈ Finset.univ.filter (fun i => (s.entries i).used = true ∧
        (s.entries i).block.isSome = true), (s.entries i).size.toNat = kArenaBytes := by
  have hentries : ∑ i ∈ Finset.univ.filter (fun i => (s.entries i).used = true ∧
        (s.entries i).block.isSome = true), (s.entries i).size.toNat =
      ∑ block ∈ Finset.univ.filter (fun block => (s.blocks block).used = true),
        (s.blocks block).size := by
    have howned : ∀ i, i ∈ Finset.univ.filter (fun i => (s.entries i).used = true ∧
        (s.entries i).block.isSome = true) → (s.entries i).used = true ∧
          (s.entries i).block = some ((s.entries i).block.getD ⟨0, by decide⟩) := by
      intro i hi
      obtain ⟨hused, hblock⟩ := (Finset.mem_filter.mp hi).2
      refine ⟨hused, ?_⟩
      obtain ⟨block, hblock⟩ := Option.isSome_iff_exists.mp hblock
      rw [hblock]
      rfl
    refine Finset.sum_nbij (fun i => (s.entries i).block.getD ⟨0, by decide⟩) ?_ ?_ ?_ ?_
    · intro i hi
      obtain ⟨hused, hblock⟩ := howned i hi
      simpa using (h.sound.owned i _ hused hblock).1
    · intro i hi j hj hsame
      obtain ⟨hiused, hiblock⟩ := howned i hi
      obtain ⟨hjused, hjblock⟩ := howned j hj
      simp only at hsame
      by_contra hij
      rw [← hsame] at hjblock
      exact h.sound.unshared i j _ hij hiused hjused hiblock hjblock
    · intro block hblock
      obtain ⟨i, hused, howner⟩ := h.owner block (by simpa using hblock)
      refine ⟨i, ?_, ?_⟩
      · simp [hused, howner]
      · simp [howner]
    · intro i hi
      obtain ⟨hused, hblock⟩ := howned i hi
      exact (h.sound.owned i _ hused hblock).2.symm
  rw [hentries, Nat.add_comm, Finset.sum_filter_add_sum_filter_not]
  exact sum_size h.tiled.packed h.tiled.covers

/-- The tables of the backend are sound. -/
structure WellFormed (s : StorageRam) : Prop where
  disjoint : ∀ i j, i ≠ j → (s.blocks i).size ≠ 0 → (s.blocks j).size ≠ 0 →
    Apart (s.blocks i) (s.blocks j)
  inside : ∀ i, (s.blocks i).size ≠ 0 → (s.blocks i).offset + (s.blocks i).size ≤ kArenaBytes
  covers : Covers s.blocks
  total : ∑ i, (s.blocks i).size = kArenaBytes
  coalesced : Coalesced s.blocks
  entry_block : ∀ i block, (s.entries i).used = true → (s.entries i).block = some block →
    (s.blocks block).used = true ∧ (s.blocks block).size = (s.entries i).size.toNat
  block_entry : ∀ block, (s.blocks block).used = true →
    ∃! i, (s.entries i).used = true ∧ (s.entries i).block = some block
  uncommitted : ∀ i, (s.entries i).used = true → (s.entries i).committed = false →
    s.writeContext.staging = some i
  distinct : ∀ i j, live (s.entries i) = true → live (s.entries j) = true →
    (s.entries i).path = (s.entries j).path → i = j
  /-- A write alters no byte of another file. -/
  write_content : ∀ offset data i, (s.entries i).used = true →
    s.writeContext.staging ≠ some i →
    contentOf (writeImpl s offset data).2 (s.entries i) = contentOf s (s.entries i)
  /-- What no entry holds is free. -/
  accounted : (∑ block ∈ Finset.univ.filter (fun block => ¬ (s.blocks block).used = true),
      (s.blocks block).size) +
    ∑ i ∈ Finset.univ.filter (fun i => (s.entries i).used = true ∧
      (s.entries i).block.isSome = true), (s.entries i).size.toNat = kArenaBytes

theorem Invariant.wellFormed (h : Invariant s) : WellFormed s where
  disjoint := h.represented.sound.packed.apart
  inside := h.represented.sound.packed.bounded
  covers := h.represented.tiled.covers
  total := sum_size h.represented.tiled.packed h.represented.tiled.covers
  coalesced := h.represented.tiled.coalesced
  entry_block := h.represented.sound.owned
  block_entry := by
    intro block hused
    obtain ⟨i, hi, hblock⟩ := h.represented.owner block hused
    refine ⟨i, ⟨hi, hblock⟩, ?_⟩
    rintro j ⟨hj, hjblock⟩
    by_contra hji
    exact h.represented.sound.unshared j i block hji hj hi hjblock hblock
  uncommitted := by
    intro i hused hopen
    cases h.session with
    | idle _ hcommitted =>
        rw [hcommitted i hused] at hopen
        cases hopen
    | @writing path size staging block hstaged hcommitted =>
        by_cases hi : i = staging
        · rw [hstaged.context, hi]
        · rw [hcommitted i hi hused] at hopen
          cases hopen
  distinct := h.represented.distinct
  write_content offset data i hused hother :=
    writeImpl_content h.represented offset data hused hother h.session
  accounted := h.represented.accounted

/-- After any calls whose new files have a path that an entry can hold, the tables of
the backend are sound. -/
theorem wellFormed_of_storable (ops : List Operation) (hops : ∀ op ∈ ops, op.Storable) :
    WellFormed (performAll init ops) :=
  (performAll_invariant invariant_init hops).wellFormed

/-- Two files are written, one over the other. -/
def replacingRun : List Operation :=
  [.beginWrite (bytesOf "/upload/a") 3 false, .write 0 [1, 2, 3], .commit,
    .beginRead (bytesOf "/upload/a"), .beginWrite (bytesOf "/upload/a") 2 true, .write 0 [4],
    .read 0 3, .commit, .close]

theorem wellFormed_replacingRun : WellFormed (performAll init replacingRun) :=
  wellFormed_of_storable replacingRun (by decide +kernel)

/-- A path of 208 bytes. -/
def overlongPath : Path := bytesOf "/upload/" ++ List.replicate 200 0x61

/-- `begin_write_impl` ignores that `copy_path` refused the path, so two files are
committed under the empty path. -/
theorem overlong_paths_collide : ¬ WellFormed (performAll init
    [.beginWrite overlongPath 0 false, .commit, .beginWrite overlongPath 0 false, .commit]) := by
  intro h
  have hcollide : live ((performAll init
        [.beginWrite overlongPath 0 false, .commit, .beginWrite overlongPath 0 false,
          .commit]).entries ⟨23, by decide⟩) = true ∧
      live ((performAll init
        [.beginWrite overlongPath 0 false, .commit, .beginWrite overlongPath 0 false,
          .commit]).entries ⟨24, by decide⟩) = true ∧
      ((performAll init
        [.beginWrite overlongPath 0 false, .commit, .beginWrite overlongPath 0 false,
          .commit]).entries ⟨23, by decide⟩).path =
        ((performAll init
          [.beginWrite overlongPath 0 false, .commit, .beginWrite overlongPath 0 false,
            .commit]).entries ⟨24, by decide⟩).path := by
    decide +kernel
  have hsame := h.distinct _ _ hcollide.1 hcollide.2.1 hcollide.2.2
  exact absurd (congrArg Fin.val hsame) (by decide)

end Runs

end EspNp2.StorageBackend.RamInvariant
