import EspNp2.StorageBackend.RamStorage
import Mathlib.Algebra.Group.Nat.Defs
import Mathlib.Data.List.GetD
import Mathlib.Data.List.TakeWhile

/-!
What the RAM backend shows at each path, and what every call does to it: only
`commit` changes it, at the path of the session and to the bytes that were staged.
-/

namespace EspNp2.StorageBackend.RamVisibility

open EspNp2.StorageBackend.BlockAllocator
open EspNp2.StorageBackend.StorageInterface
open EspNp2.StorageBackend.RamStorage

section Arena

variable {arena : Nat → UInt8} {base base' length : Nat} {data : List UInt8}

theorem copyOut_length : (copyOut arena base length).length = length := by
  simp [copyOut]

/-- Copying in elsewhere. -/
theorem copyOut_copyIn_apart
    (h : base + data.length ≤ base' ∨ base' + length ≤ base) :
    copyOut (copyIn arena base data) base' length = copyOut arena base' length := by
  rw [copyOut, copyOut, List.map_inj_left]
  intro k hk
  rw [List.mem_range] at hk
  rw [copyIn, if_neg (by omega)]

/-- Copying in right after the first `offset` bytes. -/
theorem take_copyOut_copyIn {offset : Nat} (h : offset + data.length ≤ length) :
    (copyOut (copyIn arena (base + offset) data) base length).take (offset + data.length) =
      (copyOut arena base length).take offset ++ data := by
  apply List.ext_getElem
  · simp only [List.length_take, List.length_append, copyOut_length]
    omega
  · intro k hk _
    rw [List.length_take, copyOut_length] at hk
    rw [List.getElem_take, List.getElem_append]
    simp only [copyOut, List.getElem_map, List.getElem_range, List.getElem_take, List.length_take,
      List.length_map, List.length_range, copyIn]
    split_ifs with hinside hbefore hbefore
    · omega
    · rw [List.getD_eq_getElem _ _ (by omega)]
      congr 1
      omega
    · rfl
    · omega

end Arena

/-- The bytes behind an entry. -/
def contentOf (s : StorageRam) (entry : Entry) : List UInt8 :=
  match entry.block with
  | none => []
  | some block => copyOut s.arena (s.blocks block).offset entry.size.toNat

structure FileView where
  type : EntryType
  size : UInt64
  bytes : List UInt8
deriving DecidableEq, Repr

def viewOf (s : StorageRam) (entry : Entry) : FileView :=
  { type := entry.type, size := entry.size, bytes := contentOf s entry }

/-- What a reader finds at a path. -/
def visible (s : StorageRam) (path : Path) : Option FileView :=
  (find s path).map fun index => viewOf s (s.entries index)

/-- The bytes of the file that is being written. -/
def staged (s : StorageRam) : List UInt8 :=
  match s.writeContext.staging with
  | none => []
  | some index => contentOf s (s.entries index)

def live (entry : Entry) : Bool := entry.used && entry.committed

/-- Every block in use belongs to one entry, and is as large as its file. -/
structure Sound (s : StorageRam) : Prop where
  packed : Packed s.blocks
  owned : ∀ i block, (s.entries i).used = true → (s.entries i).block = some block →
    (s.blocks block).used = true ∧ (s.blocks block).size = (s.entries i).size.toNat
  unshared : ∀ i j block, i ≠ j → (s.entries i).used = true → (s.entries j).used = true →
    (s.entries i).block = some block → (s.entries j).block ≠ some block

/-- No session is open. -/
structure Quiet (s : StorageRam) : Prop where
  sound : Sound s
  readContext : s.readContext = {}
  writeContext : s.writeContext = {}

/-- The entry `staging` is the file `path` that a session writes. -/
structure StagedAt (s : StorageRam) (path : Path) (size : UInt64) (staging : Fin kMaxEntries)
    (block : Option (Fin kMaxBlocks)) : Prop where
  sound : Sound s
  context : s.writeContext = { owner := true, staging := some staging, target := find s path }
  entry : s.entries staging = { used := true, path := path, size := size, block := block }
  target : ∀ index, find s path = some index → (s.entries index).type = .file
  block : block = none → size = 0

/-- A session is writing the file `path`, and none is reading. -/
structure WritingAt (s : StorageRam) (path : Path) (size : UInt64) (staging : Fin kMaxEntries)
    (block : Option (Fin kMaxBlocks)) : Prop extends StagedAt s path size staging block where
  readContext : s.readContext = {}

def Writing (s : StorageRam) (path : Path) (size : UInt64) : Prop :=
  ∃ staging block, WritingAt s path size staging block

/-- A session is reading. -/
structure Reading (s : StorageRam) : Prop where
  sound : Sound s
  readContext : s.readContext.owner = true
  writeContext : s.writeContext = {}

section Find

variable {s s' : StorageRam} {path : Path}

theorem find_eq (s : StorageRam) (path : Path) :
    find s path = (List.finRange kMaxEntries).find? fun i =>
      live (s.entries i) && (s.entries i).path == path := rfl

theorem find_live {index : Fin kMaxEntries} (h : find s path = some index) :
    live (s.entries index) = true ∧ (s.entries index).path = path := by
  rw [find_eq] at h
  have hfound := List.find?_some h
  simpa using hfound

theorem find_none {index : Fin kMaxEntries} (h : find s path = none)
    (hlive : live (s.entries index) = true) : (s.entries index).path ≠ path := by
  rw [find_eq, List.find?_eq_none] at h
  have hmiss := h index (List.mem_finRange index)
  simpa [hlive] using hmiss

theorem find_congr (hlive : ∀ i, live (s'.entries i) = live (s.entries i))
    (hpath : ∀ i, live (s.entries i) = true → (s'.entries i).path = (s.entries i).path) :
    find s' path = find s path := by
  rw [find_eq, find_eq]
  congr 1
  funext i
  rw [hlive i]
  by_cases h : live (s.entries i) = true
  · rw [hpath i h]
  · simp [h]

theorem visible_congr (hlive : ∀ i, live (s'.entries i) = live (s.entries i))
    (hsame : ∀ i, live (s.entries i) = true →
      s'.entries i = s.entries i ∧ contentOf s' (s.entries i) = contentOf s (s.entries i)) :
    visible s' = visible s := by
  funext path
  have hfind : find s' path = find s path := find_congr hlive fun i hi => by rw [(hsame i hi).1]
  rw [visible, visible, hfind]
  cases hindex : find s path with
  | none => rfl
  | some index =>
      obtain ⟨hentry, hcontent⟩ := hsame index (find_live hindex).1
      simp only [Option.map_some, viewOf, hentry, hcontent]

theorem live_used {entry : Entry} (h : live entry = true) : entry.used = true := by
  simp only [live, Bool.and_eq_true] at h
  exact h.1

theorem findFreeEntry_unused {index : Fin kMaxEntries} (h : findFreeEntry s = some index) :
    (s.entries index).used = false := by
  have hfound := List.find?_some h
  simpa using hfound

end Find

section Entries

variable {s : StorageRam} {index : Fin kMaxEntries} {entry : Entry}

@[simp] theorem setEntry_blocks : (setEntry s index entry).blocks = s.blocks := rfl
@[simp] theorem setEntry_arena : (setEntry s index entry).arena = s.arena := rfl
@[simp] theorem setEntry_readContext : (setEntry s index entry).readContext = s.readContext := rfl
@[simp] theorem setEntry_writeContext : (setEntry s index entry).writeContext = s.writeContext :=
  rfl

@[simp] theorem setEntry_self : (setEntry s index entry).entries index = entry :=
  Function.update_self _ _ _

theorem setEntry_of_ne {i : Fin kMaxEntries} (h : i ≠ index) :
    (setEntry s index entry).entries i = s.entries i :=
  Function.update_of_ne h _ _

/-- The content of an entry rests on its block and on the arena under it. -/
theorem contentOf_congr {s' : StorageRam} (hblocks : ∀ block, entry.block = some block →
      s'.blocks block = s.blocks block)
    (harena : ∀ block, entry.block = some block →
      copyOut s'.arena (s.blocks block).offset entry.size.toNat =
        copyOut s.arena (s.blocks block).offset entry.size.toNat) :
    contentOf s' entry = contentOf s entry := by
  rw [contentOf, contentOf]
  cases hblock : entry.block with
  | none => rfl
  | some block =>
      simp only
      rw [hblocks block hblock, harena block hblock]

end Entries

section Paths

/-- A path that an entry can hold. -/
def Storable (path : Path) : Prop := path.length ≤ kMaxPathBytes ∧ (0 : UInt8) ∉ path

instance (path : Path) : Decidable (Storable path) := inferInstanceAs (Decidable (_ ∧ _))

theorem takeWhile_storable {path : Path} (h : Storable path) : path.takeWhile (· != 0) = path := by
  rw [List.takeWhile_eq_self_iff]
  intro c hc
  rw [bne_iff_ne]
  rintro rfl
  exact h.2 hc

theorem copyPath_storable {path : Path} (h : Storable path) : (copyPath path).getD [] = path := by
  rw [copyPath]
  split_ifs with hbad
  · rcases hbad with hempty | hlong
    · exact hempty.symm
    · exact absurd h.1 (Nat.not_le.mpr hlong)
  · exact takeWhile_storable h

end Paths

section Sessions

variable {s s' : StorageRam} {path : Path} {size : UInt64}

/-- New blocks under the same entries. -/
theorem Sound.withBlocks {blocks : Blocks} (h : Sound s) (hpacked : Packed blocks)
    (hkeeps : KeepsUsed s.blocks blocks) : Sound { s with blocks := blocks } := by
  refine ⟨hpacked, ?_, h.unshared⟩
  intro i block hused hblock
  obtain ⟨hbusy, hsize⟩ := h.owned i block hused hblock
  rw [show ({ s with blocks := blocks } : StorageRam).blocks block = s.blocks block from
    hkeeps block hbusy]
  exact ⟨hbusy, hsize⟩

/-- An unused entry becomes used, on a block of its own or on none. -/
theorem Sound.setEntry {index : Fin kMaxEntries} {entry : Entry} (h : Sound s)
    (hblock : ∀ block, entry.block = some block → (s.blocks block).used = true ∧
      (s.blocks block).size = entry.size.toNat ∧
      ∀ i, i ≠ index → (s.entries i).used = true → (s.entries i).block ≠ some block) :
    Sound (setEntry s index entry) := by
  refine ⟨h.packed, ?_, ?_⟩
  · intro i block hused howned
    by_cases hi : i = index
    · subst hi
      rw [setEntry_self] at howned ⊢
      exact ⟨(hblock block howned).1, (hblock block howned).2.1⟩
    · rw [setEntry_of_ne hi] at hused howned ⊢
      exact h.owned i block hused howned
  · intro i j block hij hi hj howned
    by_cases hii : i = index
    · subst hii
      have hji : j ≠ i := Ne.symm hij
      rw [setEntry_self] at howned
      rw [setEntry_of_ne hji] at hj ⊢
      exact (hblock block howned).2.2 j hji hj
    · rw [setEntry_of_ne hii] at hi howned
      by_cases hji : j = index
      · subst hji
        rw [setEntry_self]
        intro hshared
        exact (hblock block hshared).2.2 i hii hi howned
      · rw [setEntry_of_ne hji] at hj ⊢
        exact h.unshared i j block hij hi hj howned

/-- A block that was free belongs to no entry. -/
theorem Sound.not_owned {block : Fin kMaxBlocks} (h : Sound s)
    (hfree : (s.blocks block).used = false) (i : Fin kMaxEntries)
    (hused : (s.entries i).used = true) : (s.entries i).block ≠ some block := by
  intro hblock
  rw [(h.owned i block hused hblock).1] at hfree
  cases hfree

theorem openStaging_staged {target : Option (Fin kMaxEntries)} {staging : Fin kMaxEntries}
    {block : Option (Fin kMaxBlocks)} (h : Sound s) (hpath : Storable path)
    (htarget : find s path = target)
    (hfile : ∀ index, target = some index → (s.entries index).type = .file)
    (hfree : (s.entries staging).used = false) (hnone : block = none → size = 0)
    (hblock : ∀ b, block = some b → (s.blocks b).used = true ∧ (s.blocks b).size = size.toNat ∧
      ∀ i, i ≠ staging → (s.entries i).used = true → (s.entries i).block ≠ some b) :
    StagedAt (openStaging s path size target staging block) path size staging block ∧
      visible (openStaging s path size target staging block) = visible s := by
  have hentries : ∀ i, i ≠ staging →
      (openStaging s path size target staging block).entries i = s.entries i :=
    fun i hi => setEntry_of_ne hi
  have hself : (openStaging s path size target staging block).entries staging =
      { used := true, path := path, size := size, block := block } := by
    rw [openStaging, copyPath_storable hpath]
    exact setEntry_self
  have hlive : ∀ i, live ((openStaging s path size target staging block).entries i) =
      live (s.entries i) := by
    intro i
    by_cases hi : i = staging
    · subst hi
      rw [hself]
      simp [live, hfree]
    · rw [hentries i hi]
  have hsame : ∀ i, live (s.entries i) = true → i ≠ staging := by
    rintro i hi rfl
    rw [live_used hi] at hfree
    cases hfree
  have hfind : ∀ path', find (openStaging s path size target staging block) path' = find s path' :=
    fun path' => find_congr hlive fun i hi => by rw [hentries i (hsame i hi)]
  refine ⟨⟨?_, ?_, hself, ?_, hnone⟩, ?_⟩
  · have hsound : Sound (setEntry s staging
        { used := true, path := path, size := size, block := block }) := h.setEntry hblock
    rw [openStaging, copyPath_storable hpath]
    exact ⟨hsound.packed, hsound.owned, hsound.unshared⟩
  · rw [hfind, htarget]
    rfl
  · intro index hindex
    rw [hfind] at hindex
    rw [hentries index (hsame index (find_live hindex).1)]
    exact hfile index (htarget.symm.trans hindex)
  · refine visible_congr hlive fun i hi => ⟨hentries i (hsame i hi), ?_⟩
    exact contentOf_congr (fun _ _ => rfl) (fun _ _ => rfl)

theorem stageFile_ok (h : Quiet s) (hpath : Storable path)
    (hfile : ∀ index, find s path = some index → (s.entries index).type = .file)
    (hstage : stageFile s path size (find s path) = (.ok, s')) :
    Writing s' path size ∧ visible s' = visible s := by
  rw [stageFile] at hstage
  cases hfree : findFreeEntry s with
  | none =>
      rw [hfree] at hstage
      cases hstage
  | some staging =>
      rw [hfree] at hstage
      have hunused := findFreeEntry_unused hfree
      simp only at hstage
      by_cases hsize : size = 0
      · rw [if_pos hsize] at hstage
        obtain rfl := (Prod.mk.inj hstage).2
        obtain ⟨hstaged, hvisible⟩ : StagedAt _ path size staging none ∧ _ :=
          openStaging_staged h.sound hpath rfl hfile hunused (fun _ => hsize)
            (fun b hb => by cases hb)
        exact ⟨⟨staging, none, hstaged, h.readContext⟩, hvisible⟩
      · rw [if_neg hsize] at hstage
        cases halloc : allocateBlock s.blocks size.toNat with
        | none =>
            rw [halloc] at hstage
            cases hstage
        | some result =>
            obtain ⟨block, blocks⟩ := result
            rw [halloc] at hstage
            obtain rfl := (Prod.mk.inj hstage).2
            obtain ⟨hallocated, -⟩ := allocateBlock_allocated h.sound.packed halloc
            have hblock : ∀ b, some block = some b → (blocks b).used = true ∧
                (blocks b).size = size.toNat ∧ ∀ i, i ≠ staging → (s.entries i).used = true →
                  (s.entries i).block ≠ some b := by
              intro b hb
              obtain rfl := Option.some.inj hb
              exact ⟨hallocated.used, hallocated.size_eq, fun i _ hused =>
                h.sound.not_owned hallocated.fresh i hused⟩
            obtain ⟨hstaged, hvisible⟩ : StagedAt _ path size staging (some block) ∧ _ :=
              openStaging_staged (h.sound.withBlocks hallocated.packed hallocated.keeps)
                hpath rfl hfile hunused (fun hnone => by cases hnone) hblock
            refine ⟨⟨staging, some block, hstaged, h.readContext⟩, hvisible.trans ?_⟩
            refine visible_congr (fun _ => rfl) fun i hi => ⟨rfl, ?_⟩
            refine contentOf_congr ?_ fun _ _ => rfl
            intro b hb
            exact hallocated.keeps b (h.sound.owned i b (live_used hi) hb).1

theorem beginWriteImpl_ok {replace : Bool} (h : Quiet s) (hpath : Storable path)
    (hbegin : beginWriteImpl s path size replace = (.ok, s')) :
    Writing s' path size ∧ visible s' = visible s := by
  rw [beginWriteImpl] at hbegin
  simp only at hbegin
  split_ifs at hbegin with hbusy hlarge hparent hfile hexists
  case neg =>
    refine stageFile_ok h hpath ?_ hbegin
    intro index hindex
    rw [hindex] at hfile
    simpa using hfile
  all_goals cases hbegin

theorem stageFile_failed {target : Option (Fin kMaxEntries)} {error : Error} (herror : error ≠ .ok)
    (hstage : stageFile s path size target = (error, s')) : s' = s := by
  rw [stageFile] at hstage
  split at hstage
  · exact (Prod.mk.inj hstage).2.symm
  · by_cases hsize : size = 0
    · rw [if_pos hsize] at hstage
      exact absurd (Prod.mk.inj hstage).1.symm herror
    · rw [if_neg hsize] at hstage
      split at hstage
      · exact (Prod.mk.inj hstage).2.symm
      · exact absurd (Prod.mk.inj hstage).1.symm herror

theorem beginWriteImpl_failed {replace : Bool} {error : Error} (herror : error ≠ .ok)
    (hbegin : beginWriteImpl s path size replace = (error, s')) : s' = s := by
  rw [beginWriteImpl] at hbegin
  simp only at hbegin
  split_ifs at hbegin
  case neg => exact stageFile_failed herror hbegin
  all_goals exact (Prod.mk.inj hbegin).2.symm

/-- The entry that a session stages is not one that a reader finds. -/
theorem StagedAt.staging_ne {staging index : Fin kMaxEntries} {block : Option (Fin kMaxBlocks)}
    (h : StagedAt s path size staging block) (hlive : live (s.entries index) = true) :
    index ≠ staging := by
  rintro rfl
  rw [h.entry] at hlive
  cases hlive

theorem StagedAt.staged_eq {staging : Fin kMaxEntries} {block : Option (Fin kMaxBlocks)}
    (h : StagedAt s path size staging block) :
    staged s = contentOf s { used := true, path := path, size := size, block := block } := by
  simp only [staged, h.context, h.entry]

theorem staged_length (h : Writing s path size) : (staged s).length = size.toNat := by
  obtain ⟨staging, block, h⟩ := h
  rw [h.staged_eq, contentOf]
  cases hblock : block with
  | none =>
      rw [h.block hblock]
      rfl
  | some b => exact copyOut_length

/-- A write goes to the staging file alone. -/
theorem writeImpl_ok {offset : UInt64} {data : List UInt8} (h : Writing s path size)
    (hwrite : writeImpl s offset data = (.ok, s')) :
    Writing s' path size ∧ visible s' = visible s ∧
      offset.toNat + data.length ≤ size.toNat ∧
      (staged s').take (offset.toNat + data.length) = (staged s).take offset.toNat ++ data := by
  obtain ⟨staging, block, h⟩ := h
  have hstaging : s.writeContext.staging = some staging := by rw [h.context]
  rw [writeImpl] at hwrite
  simp only [hstaging, h.entry] at hwrite
  split_ifs at hwrite with hrange hempty
  · cases hwrite
  · obtain rfl := (Prod.mk.inj hwrite).2
    obtain rfl := List.length_eq_zero_iff.mp hempty
    refine ⟨⟨staging, block, h⟩, rfl, ?_, by simp⟩
    have hle : offset ≤ size := by simpa using fun hlt => hrange (.inl hlt)
    simpa using UInt64.le_iff_toNat_le.mp hle
  · have hle : offset ≤ size := by simpa using fun hlt => hrange (.inl hlt)
    have hfits : offset.toNat + data.length ≤ size.toNat := by
      have hshort : ¬data.length > (size - offset).toNat := fun hlt => hrange (.inr hlt)
      rw [UInt64.toNat_sub_of_le _ _ hle] at hshort
      have hbelow := UInt64.le_iff_toNat_le.mp hle
      omega
    cases hblock : block with
    | none =>
        rw [hblock] at hwrite
        cases hwrite
    | some b =>
        rw [hblock] at hwrite h
        obtain rfl := (Prod.mk.inj hwrite).2
        have hused : (s.entries staging).used = true := by rw [h.entry]
        obtain ⟨hbusy, hsize⟩ := h.sound.owned staging b hused (by rw [h.entry])
        replace hsize : (s.blocks b).size = size.toNat := by rw [hsize, h.entry]
        refine ⟨⟨staging, some b, ?_⟩, ?_, hfits, ?_⟩
        · exact ⟨⟨⟨h.sound.packed, h.sound.owned, h.sound.unshared⟩, h.context, h.entry, h.target,
            h.block⟩, h.readContext⟩
        · refine visible_congr (fun _ => rfl) fun i hi => ⟨rfl, ?_⟩
          refine contentOf_congr (fun _ _ => rfl) fun other hother => ?_
          have hne : other ≠ b := by
            rintro rfl
            exact h.sound.unshared i staging other (h.staging_ne hi) (live_used hi) hused hother
              (by rw [h.entry])
          obtain ⟨hbusy', hsize'⟩ := h.sound.owned i other (live_used hi) hother
          have hapart := h.sound.packed.apart b other hne.symm (h.sound.packed.used_size b hbusy)
            (h.sound.packed.used_size other hbusy')
          rw [Apart, hsize, hsize'] at hapart
          apply copyOut_copyIn_apart
          omega
        · have hafter : ∀ arena, staged { s with arena := arena } =
              copyOut arena (s.blocks b).offset size.toNat := by
            intro arena
            simp only [staged, hstaging, h.entry, contentOf]
          have hbefore : staged s = copyOut s.arena (s.blocks b).offset size.toNat := by
            rw [h.staged_eq, contentOf]
          rw [hafter, hbefore, take_copyOut_copyIn hfits]

theorem writeImpl_failed {offset : UInt64} {data : List UInt8} {error : Error}
    (herror : error ≠ .ok) (hwrite : writeImpl s offset data = (error, s')) : s' = s := by
  rw [writeImpl] at hwrite
  split at hwrite
  · exact (Prod.mk.inj hwrite).2.symm
  · simp only at hwrite
    split at hwrite
    · exact (Prod.mk.inj hwrite).2.symm
    · split at hwrite
      · exact (Prod.mk.inj hwrite).2.symm
      · split at hwrite
        · exact (Prod.mk.inj hwrite).2.symm
        · exact absurd (Prod.mk.inj hwrite).1.symm herror

/-- A used entry keeps its block when the block of another one is released. -/
theorem Sound.release_keeps {i j : Fin kMaxEntries} {block : Fin kMaxBlocks} (h : Sound s)
    (hij : i ≠ j) (hi : (s.entries i).used = true) (hj : (s.entries j).used = true)
    (hblock : (s.entries i).block = some block) :
    releaseBlock s.blocks (s.entries j).block block = s.blocks block := by
  refine (releaseBlock_merged h.packed (s.entries j).block).2.1 block ?_
    (h.owned i block hi hblock).1
  exact fun hshared => h.unshared i j block hij hi hj hblock hshared.symm

/-- `target` takes over the block of the entry `staging`, which is given up. -/
structure Replaced (s : StorageRam) (target staging : Fin kMaxEntries) (s' : StorageRam) :
    Prop where
  blocks : s'.blocks = releaseBlock s.blocks (s.entries target).block
  arena : s'.arena = s.arena
  takesOver : s'.entries target =
    { s.entries target with
      block := (s.entries staging).block
      size := (s.entries staging).size }
  givenUp : (s'.entries staging).used = false
  other : ∀ i, i ≠ target → i ≠ staging → s'.entries i = s.entries i

theorem commitOver_replaced (s : StorageRam) {target staging : Fin kMaxEntries}
    (hne : target ≠ staging) : Replaced s target staging (commitOver s staging target) := by
  refine ⟨rfl, rfl, ?_, ?_, ?_⟩
  · exact (setEntry_of_ne hne).trans setEntry_self
  · exact congrArg Entry.used setEntry_self
  · intro i hit his
    exact (setEntry_of_ne his).trans (setEntry_of_ne hit)

theorem Replaced.sound {target staging : Fin kMaxEntries} (h : Replaced s target staging s')
    (hsound : Sound s) (hne : target ≠ staging) (htarget : (s.entries target).used = true)
    (hstaging : (s.entries staging).used = true) : Sound s' := by
  have hused : ∀ i, (s'.entries i).used = true → i ≠ staging := by
    rintro i hi rfl
    rw [h.givenUp] at hi
    cases hi
  -- An entry of `s'` sits on the block that one entry of `s` other than `target` had.
  have horigin : ∀ i, (s'.entries i).used = true → ∃ j, j ≠ target ∧ (s.entries j).used = true ∧
      (s'.entries i).block = (s.entries j).block ∧ (s'.entries i).size = (s.entries j).size ∧
      (i = target ∧ j = staging ∨ i ≠ target ∧ i = j) := by
    intro i hi
    by_cases hit : i = target
    · subst hit
      exact ⟨staging, hne.symm, hstaging, by rw [h.takesOver], by rw [h.takesOver], .inl ⟨rfl, rfl⟩⟩
    · have hsame := h.other i hit (hused i hi)
      rw [hsame] at hi ⊢
      exact ⟨i, hit, hi, rfl, rfl, .inr ⟨hit, rfl⟩⟩
  refine ⟨?_, ?_, ?_⟩
  · rw [h.blocks]
    exact (releaseBlock_merged hsound.packed _).1
  · intro i block hi hblock
    obtain ⟨j, hjt, hj, hsame, hsize, -⟩ := horigin i hi
    rw [hsame] at hblock
    rw [h.blocks, hsound.release_keeps hjt hj htarget hblock, hsize]
    exact hsound.owned j block hj hblock
  · intro i k block hik hi hk hblock hshared
    obtain ⟨j, hjt, hj, hsame, -, hij⟩ := horigin i hi
    obtain ⟨l, hlt, hl, hsame', -, hkl⟩ := horigin k hk
    have hjl : j ≠ l := by
      have hi' := hused i hi
      have hk' := hused k hk
      rintro rfl
      rcases hij with ⟨hit, hjs⟩ | ⟨-, hij⟩ <;> rcases hkl with ⟨hkt, hls⟩ | ⟨-, hkl⟩
      · exact hik (hit.trans hkt.symm)
      · exact hk' (hkl.trans hjs)
      · exact hi' (hij.trans hls)
      · exact hik (hij.trans hkl.symm)
    rw [hsame] at hblock
    rw [hsame'] at hshared
    exact hsound.unshared j l block hjl hj hl hblock hshared

/-- A commit over an existing file. -/
theorem Replaced.visible_eq {target staging : Fin kMaxEntries} {block : Option (Fin kMaxBlocks)}
    (h : Replaced s target staging s') (hwriting : StagedAt s path size staging block)
    (htarget : find s path = some target) :
    visible s' = Function.update (visible s) path
      (some { type := .file, size := size, bytes := staged s }) := by
  obtain ⟨hlive, hpath⟩ := find_live htarget
  have hused := live_used hlive
  have hne : target ≠ staging := hwriting.staging_ne hlive
  have hstaging : (s.entries staging).used = true := by rw [hwriting.entry]
  have hlives : ∀ i, live (s'.entries i) = live (s.entries i) := by
    intro i
    by_cases hit : i = target
    · subst hit
      rw [h.takesOver]
      rfl
    · by_cases his : i = staging
      · subst his
        rw [hwriting.entry]
        simp [live, h.givenUp]
      · rw [h.other i hit his]
  have hfind : ∀ path', find s' path' = find s path' := by
    refine fun path' => find_congr hlives fun i hi => ?_
    by_cases hit : i = target
    · subst hit
      rw [h.takesOver]
    · rw [h.other i hit (hwriting.staging_ne hi)]
  have hcontent : ∀ i, i ≠ target → (s.entries i).used = true →
      contentOf s' (s.entries i) = contentOf s (s.entries i) := by
    intro i hit hi
    refine contentOf_congr (fun b hb => ?_) fun b hb => by rw [h.arena]
    rw [h.blocks]
    exact hwriting.sound.release_keeps hit hi hused hb
  funext path'
  rw [visible, hfind]
  by_cases hp : path' = path
  · subst hp
    rw [Function.update_self, htarget]
    have hbytes : contentOf s' (s'.entries target) = staged s := by
      rw [hwriting.staged_eq, ← hwriting.entry, ← hcontent staging hne.symm hstaging, h.takesOver]
      rfl
    simp only [Option.map_some, viewOf, hbytes]
    simp only [h.takesOver, hwriting.target target htarget, hwriting.entry]
  · rw [Function.update_of_ne hp, visible]
    cases hindex : find s path' with
    | none => rfl
    | some index =>
        obtain ⟨hlive', hpath'⟩ := find_live hindex
        have hit : index ≠ target := by
          rintro rfl
          exact hp (hpath'.symm.trans hpath)
        simp only [Option.map_some, viewOf, h.other index hit (hwriting.staging_ne hlive'),
          hcontent index hit (live_used hlive')]

/-- A commit of a new file. -/
theorem visible_setEntry_committed {staging : Fin kMaxEntries} {block : Option (Fin kMaxBlocks)}
    (h : StagedAt s path size staging block) (hnone : find s path = none)
    (hself : s'.entries staging = { s.entries staging with committed := true })
    (hother : ∀ i, i ≠ staging → s'.entries i = s.entries i)
    (hcontent : ∀ entry, contentOf s' entry = contentOf s entry) :
    visible s' = Function.update (visible s) path
      (some { type := .file, size := size, bytes := staged s }) := by
  rw [h.entry] at hself
  funext path'
  by_cases hp : path' = path
  · subst hp
    rw [Function.update_self, visible]
    have hfind : find s' path' = some staging := by
      cases hindex : find s' path' with
      | none =>
          have hmiss : (s'.entries staging).path ≠ path' :=
            find_none hindex (by rw [hself]; rfl)
          rw [hself] at hmiss
          exact absurd rfl hmiss
      | some index =>
          by_cases his : index = staging
          · rw [his]
          · obtain ⟨hlive, hpath⟩ := find_live hindex
            rw [hother index his] at hlive hpath
            exact absurd hpath (find_none hnone hlive)
    rw [hfind, h.staged_eq]
    simp only [Option.map_some, viewOf, hself, hcontent]
    rfl
  · rw [Function.update_of_ne hp]
    have hfind : find s' path' = find s path' := by
      rw [find_eq, find_eq]
      congr 1
      funext i
      by_cases his : i = staging
      · subst his
        rw [hself, h.entry]
        simp [live, Ne.symm hp]
      · rw [hother i his]
    rw [visible, visible, hfind]
    cases hindex : find s path' with
    | none => rfl
    | some index =>
        have his := h.staging_ne (find_live hindex).1
        simp only [Option.map_some, viewOf, hother index his, hcontent]

/-- A commit always succeeds, and shows the staged file at the path of the session. -/
theorem commitImpl_ok (h : Writing s path size) :
    ∃ s', commitImpl s = (.ok, s') ∧ Quiet s' ∧
      visible s' = Function.update (visible s) path
        (some { type := .file, size := size, bytes := staged s }) := by
  obtain ⟨staging, block, h⟩ := h
  have hstaging : (s.entries staging).used = true := by rw [h.entry]
  rw [commitImpl]
  simp only [h.context, Bool.true_eq_false, Bool.false_eq_true, or_self, if_false]
  cases htarget : find s path with
  | none =>
      simp only
      refine ⟨_, rfl, ⟨?_, h.readContext, rfl⟩, ?_⟩
      · have hsound : Sound (setEntry s staging { s.entries staging with committed := true }) := by
          refine h.sound.setEntry fun b hb => ?_
          obtain ⟨hbusy, hsize⟩ := h.sound.owned staging b hstaging hb
          exact ⟨hbusy, hsize, fun i hi hused => h.sound.unshared staging i b hi.symm hstaging
            hused hb⟩
        exact ⟨hsound.packed, hsound.owned, hsound.unshared⟩
      · exact visible_setEntry_committed h.toStagedAt htarget setEntry_self
          (fun i hi => setEntry_of_ne hi)
          fun entry => rfl
  | some target =>
      obtain ⟨hlive, -⟩ := find_live htarget
      have hne := h.staging_ne hlive
      have hreplaced := commitOver_replaced s hne
      refine ⟨_, rfl, ⟨?_, h.readContext, rfl⟩, hreplaced.visible_eq h.toStagedAt htarget⟩
      exact hreplaced.sound h.sound hne (live_used hlive) hstaging

/-- An abort drops the staging file. -/
theorem abortImpl_quiet (h : Writing s path size) :
    Quiet (abortImpl s) ∧ visible (abortImpl s) = visible s := by
  obtain ⟨staging, block, h⟩ := h
  have hused : (s.entries staging).used = true := by rw [h.entry]
  have habort : abortImpl s = { setEntry { s with
      blocks := releaseBlock s.blocks (s.entries staging).block } staging {} with
      writeContext := {} } := by
    simp only [abortImpl, h.context, Bool.true_eq_false, if_false, hused, if_true]
  have hother : ∀ i, i ≠ staging → (abortImpl s).entries i = s.entries i := by
    intro i hi
    rw [habort]
    exact setEntry_of_ne hi
  have hself : (abortImpl s).entries staging = {} := by
    rw [habort]
    exact setEntry_self
  have hblocks : (abortImpl s).blocks = releaseBlock s.blocks (s.entries staging).block := by
    rw [habort]
    rfl
  have hne : ∀ i, ((abortImpl s).entries i).used = true → i ≠ staging := by
    rintro i hi rfl
    rw [hself] at hi
    cases hi
  have hkeeps : ∀ i block, i ≠ staging → (s.entries i).used = true →
      (s.entries i).block = some block → (abortImpl s).blocks block = s.blocks block := by
    intro i block hi hiused hblock
    rw [hblocks]
    exact h.sound.release_keeps hi hiused hused hblock
  refine ⟨⟨⟨?_, ?_, ?_⟩, ?_, ?_⟩, ?_⟩
  · rw [hblocks]
    exact (releaseBlock_merged h.sound.packed _).1
  · intro i block hi hblock
    have hi' := hne i hi
    rw [hother i hi'] at hi hblock ⊢
    rw [hkeeps i block hi' hi hblock]
    exact h.sound.owned i block hi hblock
  · intro i j block hij hi hj hblock
    have hi' := hne i hi
    have hj' := hne j hj
    rw [hother i hi'] at hi hblock
    rw [hother j hj'] at hj ⊢
    exact h.sound.unshared i j block hij hi hj hblock
  · rw [habort]
    exact h.readContext
  · rw [habort]
  · refine visible_congr ?_ ?_
    · intro i
      by_cases hi : i = staging
      · subst hi
        rw [hself, h.entry]
        rfl
      · rw [hother i hi]
    · intro i hi
      refine ⟨hother i (h.staging_ne hi), contentOf_congr ?_ ?_⟩
      · exact fun b hb => hkeeps i b (h.staging_ne hi) (live_used hi) hb
      · intro b _
        rw [habort]
        rfl

theorem beginReadImpl_ok (h : Quiet s) (hbegin : beginReadImpl s path = (.ok, s')) :
    Reading s' ∧ visible s' = visible s := by
  rw [beginReadImpl] at hbegin
  split_ifs at hbegin with hbusy
  · cases hbegin
  · split at hbegin
    · cases hbegin
    · split_ifs at hbegin
      · cases hbegin
      · obtain rfl := (Prod.mk.inj hbegin).2
        exact ⟨⟨⟨h.sound.packed, h.sound.owned, h.sound.unshared⟩, rfl, h.writeContext⟩, rfl⟩

theorem beginReadImpl_failed {error : Error} (herror : error ≠ .ok)
    (hbegin : beginReadImpl s path = (error, s')) : s' = s := by
  rw [beginReadImpl] at hbegin
  split at hbegin
  · exact (Prod.mk.inj hbegin).2.symm
  · split at hbegin
    · exact (Prod.mk.inj hbegin).2.symm
    · split at hbegin
      · exact (Prod.mk.inj hbegin).2.symm
      · exact absurd (Prod.mk.inj hbegin).1.symm herror

theorem closeRead_quiet (h : Reading s) :
    Quiet (closeRead s) ∧ visible (closeRead s) = visible s := by
  rw [closeRead, if_pos h.readContext]
  exact ⟨⟨⟨h.sound.packed, h.sound.owned, h.sound.unshared⟩, rfl, h.writeContext⟩, rfl⟩

end Sessions

section Init

theorem addEntry_quiet {s : StorageRam} (h : Quiet s) (path : Path) (type : EntryType) :
    Quiet (addEntry s path type).2 := by
  rw [addEntry]
  split
  · exact h
  · split
    · exact h
    · refine ⟨h.sound.setEntry ?_, h.readContext, h.writeContext⟩
      intro block hblock
      cases hblock

theorem addEntry_block {s s' : StorageRam} {path : Path} {type : EntryType}
    {index : Fin kMaxEntries} (h : addEntry s path type = (some index, s')) :
    (s'.entries index).block = none := by
  rw [addEntry] at h
  split at h
  · cases h
  · split at h
    · cases h
    · obtain ⟨hindex, rfl⟩ := Prod.mk.inj h
      obtain rfl := Option.some.inj hindex
      rw [setEntry_self]

theorem addFile_quiet {s : StorageRam} (h : Quiet s) (path : Path) {data : List UInt8}
    (hlength : data.length < 2 ^ 64) : Quiet (addFile s path data) := by
  have hquiet := addEntry_quiet h path .file
  rw [addFile]
  cases hadded : addEntry s path .file with
  | mk index s' =>
      rw [hadded] at hquiet
      cases index with
      | none => exact hquiet
      | some index =>
          have hnone := addEntry_block hadded
          simp only
          cases halloc : allocateBlock s'.blocks data.length with
          | none =>
              refine ⟨hquiet.sound.setEntry fun block hblock => ?_, hquiet.readContext,
                hquiet.writeContext⟩
              rw [show _ = (s'.entries index).block from rfl, hnone] at hblock
              cases hblock
          | some result =>
              obtain ⟨block, blocks⟩ := result
              obtain ⟨hallocated, -⟩ := allocateBlock_allocated hquiet.sound.packed halloc
              have hset : Sound (setEntry { s' with blocks := blocks } index
                  { s'.entries index with
                    size := UInt64.ofNat data.length
                    block := some block }) := by
                refine (hquiet.sound.withBlocks hallocated.packed hallocated.keeps).setEntry ?_
                intro b hb
                obtain rfl := Option.some.inj hb
                refine ⟨hallocated.used, ?_, fun i _ hused =>
                  hquiet.sound.not_owned hallocated.fresh i hused⟩
                rw [UInt64.toNat_ofNat_of_lt' hlength]
                exact hallocated.size_eq
              exact ⟨⟨hset.packed, hset.owned, hset.unshared⟩, hquiet.readContext,
                hquiet.writeContext⟩

/-- A fresh table has its whole arena in one free block. -/
theorem sound_fresh : Sound
    { blocks := fun i => if i.val = 0 then { size := kArenaBytes } else {} } := by
  refine ⟨⟨?_, ?_, ?_⟩, ?_, ?_⟩
  · intro i _
    simp only
    split_ifs <;> simp
  · intro i j hij hi hj
    simp only [ne_eq] at hi hj
    split_ifs at hi hj with hizero hjzero
    · exact absurd (Fin.ext (hizero.trans hjzero.symm)) hij
    · exact absurd rfl hj
    · exact absurd rfl hi
    · exact absurd rfl hi
  · intro i hi
    simp only at hi
    split_ifs at hi
  · intro i block hi
    cases hi
  · intro i j block _ hi
    cases hi

/-- The backend starts without a session. -/
theorem quiet_init : Quiet init := by
  have hfresh : Quiet { blocks := fun i => if i.val = 0 then { size := kArenaBytes } else {} } :=
    ⟨sound_fresh, rfl, rfl⟩
  have hdirectories := List.foldlRecOn ["/", "/seed", "/upload", "/long"] _ hfresh
    fun s h path _ => addEntry_quiet h (bytesOf path) .directory
  have hexisting := addFile_quiet hdirectories (bytesOf "/seed/existing.bin")
    (show (seedBytes 0xa0 37).length < 2 ^ 64 by simp [seedBytes])
  have hpages := List.foldlRecOn (List.range 12) _ hexisting
    fun s h page hpage => addFile_quiet h (pagePath page)
      (show (seedBytes (page * 17) (16 + page)).length < 2 ^ 64 by
        rw [List.mem_range] at hpage
        simp only [seedBytes, List.length_map, List.length_range]
        omega)
  exact List.foldlRecOn (List.range 6) _ hpages fun s h page _ =>
    addEntry_quiet h (longPath page) .file

end Init

end EspNp2.StorageBackend.RamVisibility
