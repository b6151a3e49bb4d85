import EspNp2.StorageBackend.FatfsStorage

/-!
A write session of `StorageFatfs` on a disk whose calls may fail: the target holds the
staged content or what it held before, and where putting the backup back failed the
old file is still there.
-/

namespace EspNp2.StorageBackend.FatfsReplacement

open EspNp2.Library.CallProgram
open EspNp2.Library.LabelledRun
open EspNp2.StorageBackend.FatfsStorage
open EspNp2.StorageBackend.FileSystem
open EspNp2.StorageBackend.StorageInterface (Path Error slash bytesOf parentOf)

abbrev Trace := List (Label Call Reply)

section Areas

variable (roots : RootConfig)

/-- The paths below the staging directory. -/
def InStaging (path : Path) : Prop := ∃ name, path = child roots.stagingRoot name

/-- Neither root lies below the other. -/
def Separate : Prop :=
  ¬ (roots.stagingRoot ++ [slash]) <+: (roots.fileTransferRoot ++ [slash]) ∧
    ¬ (roots.fileTransferRoot ++ [slash]) <+: (roots.stagingRoot ++ [slash])

instance : Decidable (Separate roots) := inferInstanceAs (Decidable (_ ∧ _))

variable {roots}

theorem not_inStaging_target (h : Separate roots) {path : Path} (hpath : path.head? = some slash) :
    ¬ InStaging roots (roots.fileTransferRoot ++ path) := by
  rintro ⟨name, heq⟩
  obtain ⟨rest, rfl⟩ := List.head?_eq_some_iff.mp hpath
  have hfile : (roots.fileTransferRoot ++ [slash]) <+: roots.fileTransferRoot ++ slash :: rest :=
    ⟨rest, by simp⟩
  have hstaging : (roots.stagingRoot ++ [slash]) <+: roots.fileTransferRoot ++ slash :: rest := by
    rw [heq, child]
    exact ⟨name, by simp⟩
  rcases List.prefix_or_prefix_of_prefix hfile hstaging with hbelow | hbelow
  · exact h.2 hbelow
  · exact h.1 hbelow

theorem makeStagingPath_area {s s' : StorageFatfs} {tag extension : String} {path : Path}
    (h : makeStagingPath roots s tag extension = (some path, s')) :
    InStaging roots path ∧ s' = { s with sequence := s.sequence + 1 } := by
  obtain ⟨hpath, rfl⟩ := Prod.mk.inj h
  split_ifs at hpath
  exact ⟨⟨_, (Option.some.inj hpath).symm⟩, rfl⟩

end Areas

theorem separate_spiNor : Separate kSpiNorRootConfig := by decide +kernel

theorem separate_sdmmc : Separate kSdmmcRootConfig := by decide +kernel

section Contents

/-- Two adjoining writes. -/
theorem overlay_append (content : List UInt8) (offset : Nat) (first second : List UInt8) :
    overlay content offset (first ++ second) =
      overlay (overlay content offset first) (offset + first.length) second := by
  have hlength : ((resize content (max content.length offset)).take offset).length = offset := by
    simp only [resize, List.length_take, List.length_append, List.length_replicate]
    omega
  generalize hhead : (resize content (max content.length offset)).take offset = head at hlength
  have hinner : overlay content offset first =
      head ++ first ++ content.drop (offset + first.length) := by rw [overlay, hhead]
  have hwhole : (resize (overlay content offset first)
      (max (overlay content offset first).length (offset + first.length))).take
        (offset + first.length) = head ++ first := by
    rw [hinner, Nat.max_eq_left (by simp [hlength])]
    rw [resize, List.take_length, Nat.sub_self, List.replicate_zero, List.append_nil]
    exact List.take_left' (by simp [hlength])
  have hrest : (overlay content offset first).drop (offset + first.length + second.length) =
      content.drop (offset + first.length + second.length) := by
    rw [hinner, ← List.drop_drop, List.drop_left' (by simp [hlength]), List.drop_drop]
  rw [overlay.eq_1 (overlay content offset first), hwhole, hrest, overlay, hhead,
    List.length_append, Nat.add_assoc]
  simp

theorem overlay_of_le {content data : List UInt8} {offset : Nat}
    (h : offset + data.length ≤ content.length) :
    overlay content offset data =
      content.take offset ++ data ++ content.drop (offset + data.length) := by
  rw [overlay, Nat.max_eq_left (by omega), resize, List.take_length, Nat.sub_self,
    List.replicate_zero, List.append_nil]

theorem length_overlay {content data : List UInt8} {offset : Nat}
    (h : offset + data.length ≤ content.length) :
    (overlay content offset data).length = content.length := by
  rw [overlay_of_le h]
  simp only [List.length_append, List.length_take, List.length_drop]
  omega

/-- What a call of `write_impl` may do to the staged content. -/
inductive Written (content : List UInt8) (offset : Nat) (data : List UInt8) :
    Error → List UInt8 → Prop
  | all : Written content offset data .ok (overlay content offset data)
  | part {error : Error} (herror : error ≠ .ok) (count : Nat) (hcount : count ≤ data.length) :
      Written content offset data error (overlay content offset (data.take count))
  | refused {error : Error} (herror : error ≠ .ok) : Written content offset data error content

theorem written_nil {content : List UInt8} {offset : Nat} (h : offset ≤ content.length) :
    Written content offset [] .ok content := by
  have hall : Written content offset [] .ok (overlay content offset []) := .all
  rwa [overlay_of_le (by simpa using h), List.append_nil, List.length_nil, Nat.add_zero,
    List.take_append_drop] at hall

/-- A call that goes on after its first `pwrite`. -/
theorem Written.after {content data content' : List UInt8} {offset count : Nat} {error : Error}
    (hcount : count ≤ data.length)
    (h : Written (overlay content offset (data.take count)) (offset + count) (data.drop count)
      error content') :
    Written content offset data error content' := by
  have hlength : (data.take count).length = count := List.length_take_of_le hcount
  cases h with
  | all =>
      have hjoin := overlay_append content offset (data.take count) (data.drop count)
      rw [hlength, List.take_append_drop] at hjoin
      rw [← hjoin]
      exact .all
  | part herror more hmore =>
      have hjoin := overlay_append content offset (data.take count) ((data.drop count).take more)
      rw [hlength, ← List.take_add] at hjoin
      rw [← hjoin]
      rw [List.length_drop] at hmore
      exact .part herror _ (by omega)
  | refused herror => exact .part herror _ hcount

/-- The staged content after several calls of `write_impl` with their results. -/
inductive Writes : List UInt8 → List (UInt64 × List UInt8) → List Error → List UInt8 → Prop
  | nil (content : List UInt8) : Writes content [] [] content
  | cons {content content' content'' : List UInt8} {offset : UInt64} {data : List UInt8}
      {error : Error} {writes : List (UInt64 × List UInt8)} {errors : List Error}
      (hfirst : Written content offset.toNat data error content')
      (hrest : Writes content' writes errors content'') :
      Writes content ((offset, data) :: writes) (error :: errors) content''

theorem mapErrno_ne_ok (errno : Errno) (writeOperation : Bool) :
    mapErrno errno writeOperation ≠ .ok := by
  cases errno <;> cases writeOperation <;> simp [mapErrno]

end Contents

section Session

variable (roots : RootConfig)

/-- The session of `ctx` has staged `content`; `before` is the disk without it. -/
structure Staged (before : Disk) (ctx : WriteContext) (content : List UInt8) (disk : Disk) :
    Prop where
  active : ctx.active = true
  notMoved : ctx.targetMoved = false
  area : InStaging roots ctx.stagingPath
  target : ¬ InStaging roots ctx.targetPath
  fresh : before.lookup ctx.stagingPath = none
  staged : ∃ synced, disk.lookup ctx.stagingPath = some (.file content synced)
  other : ∀ path, path ≠ ctx.stagingPath → disk.lookup path = before.lookup path

/-- The path that the last call of a trace has renamed. -/
def renamedLast (trace : Trace) : Option Path :=
  match trace.getLast? with
  | some ⟨.rename source _, .ok _⟩ => some source
  | _ => none

/-- The last call has moved a file away from its path. -/
def MovedAway (trace : Trace) : Prop :=
  ∃ source, renamedLast trace = some source ∧ ¬ InStaging roots source

/-- Outside the staging directory the disk is as before, or shows the new file. -/
def Installed (before : Disk) (target : Path) (content : List UInt8) (disk : Disk) : Prop :=
  ∀ path, ¬ InStaging roots path → disk.lookup path = before.lookup path ∨
    path = target ∧ disk.lookup path = some (.file content true)

/-- What holds at every point of a commit on a disk that does not fail. -/
def Between (faulty : Bool) (before : Disk) (target : Path) (content : List UInt8) (trace : Trace)
    (disk : Disk) : Prop :=
  faulty = false → MovedAway roots trace ∨ Installed roots before target content disk

/-- The disk is as before but for the paths of the session. -/
def Elsewhere (before : Disk) (target staging backup : Path) (disk : Disk) : Prop :=
  InStaging roots backup ∧ ∀ path, path ≠ target → path ≠ staging → path ≠ backup →
    disk.lookup path = before.lookup path

/-- The target was moved to `backup`, and the session has not put it back. -/
structure Moved (before : Disk) (ctx : WriteContext) (disk : Disk) : Prop where
  active : ctx.active = true
  moved : ctx.targetMoved = true
  target : ¬ InStaging roots ctx.targetPath
  staging : InStaging roots ctx.stagingPath
  absent : disk.lookup ctx.targetPath = none
  kept : disk.lookup ctx.backupPath = before.lookup ctx.targetPath
  existed : before.lookup ctx.targetPath ≠ none
  ne : ctx.backupPath ≠ ctx.stagingPath
  elsewhere : Elsewhere roots before ctx.targetPath ctx.stagingPath ctx.backupPath disk

variable {roots} {before disk : Disk} {content : List UInt8} {s : StorageFatfs} {faulty : Bool}
  {trace : Trace}

theorem Staged.target_ne {ctx : WriteContext} (h : Staged roots before ctx content disk) :
    ctx.targetPath ≠ ctx.stagingPath := by
  intro heq
  exact h.target (heq ▸ h.area)

theorem Staged.installed {ctx : WriteContext} (h : Staged roots before ctx content disk)
    {disk' : Disk} (hother : ∀ path, path ≠ ctx.stagingPath → disk'.lookup path = disk.lookup path)
    (target : Path) (content' : List UInt8) : Installed roots before target content' disk' := by
  intro path hpath
  have hne : path ≠ ctx.stagingPath := by
    rintro rfl
    exact hpath h.area
  exact .inl ((hother path hne).trans (h.other path hne))

/-- A reply to `unlink`. -/
theorem unlink_other {path : Path} {reply : Reply (.unlink path)} {disk' : Disk}
    (h : Answers faulty disk (.unlink path) reply disk') (other : Path) (hne : other ≠ path) :
    disk'.lookup other = disk.lookup other := by
  cases reply with
  | error errno =>
      obtain ⟨rfl, -⟩ := h
      rfl
  | ok value =>
      obtain ⟨-, rfl⟩ := h
      exact AList.lookup_erase_ne hne

/-- Aborting a session that has moved nothing removes the staging file. -/
theorem abortImpl_safe {before' : Trace → Disk → Prop}
    (h : Staged roots before s.writeContext content disk)
    (hbefore : ∀ trace disk', (∀ path, path ≠ s.writeContext.stagingPath →
      disk'.lookup path = disk.lookup path) → before' trace disk') :
    Safe (Answers faulty) before' (fun _ s' disk' => s' = resetWriteContext s ∧
      ∀ path, path ≠ s.writeContext.stagingPath → disk'.lookup path = before.lookup path)
      trace (abortImpl s) disk := by
  rw [abortImpl, if_neg (by simp [h.active])]
  refine safe_perform (hbefore _ _ fun _ _ => rfl) ?_
  intro reply disk' hreply
  have hother : ∀ path, path ≠ s.writeContext.stagingPath →
      disk'.lookup path = disk.lookup path := unlink_other hreply
  rw [restoreTarget, if_neg (by simp [h.notMoved])]
  refine safe_done (hbefore _ _ hother) ⟨rfl, fun path hne => ?_⟩
  rw [hother path hne, h.other path hne]

/-- The old file is at its path, or still at the backup path. -/
def Recovered (before : Disk) (target backup : Path) (disk : Disk) : Prop :=
  disk.lookup target = before.lookup target ∨ disk.lookup backup = before.lookup target

/-- The second attempt to put a moved target back. -/
theorem restoreTarget_safe {ctx : WriteContext} (hmoved : ctx.targetMoved = true)
    (htarget : ¬ InStaging roots ctx.targetPath) (habsent : disk.lookup ctx.targetPath = none)
    (hkept : disk.lookup ctx.backupPath = before.lookup ctx.targetPath)
    (helsewhere : Elsewhere roots before ctx.targetPath ctx.stagingPath ctx.backupPath disk) :
    Safe (Answers faulty) (fun _ _ => True) (fun _ _ disk' =>
      Elsewhere roots before ctx.targetPath ctx.stagingPath ctx.backupPath disk' ∧
        Recovered before ctx.targetPath ctx.backupPath disk') trace (restoreTarget ctx) disk := by
  rw [restoreTarget, if_pos hmoved]
  refine safe_perform trivial ?_
  intro reply disk₁ hreply
  cases reply with
  | ok directory =>
      obtain ⟨-, node, hnode, -⟩ := hreply
      rw [habsent] at hnode
      cases hnode
  | error errno =>
      obtain ⟨rfl, -⟩ := hreply
      simp only
      split_ifs
      · refine safe_perform trivial ?_
        intro reply disk₂ hreply
        cases reply with
        | error errno =>
            obtain ⟨rfl, -⟩ := hreply
            exact safe_done trivial ⟨helsewhere, .inr hkept⟩
        | ok value =>
            obtain ⟨node, hnode, -, rfl⟩ := hreply
            have hne : ctx.targetPath ≠ ctx.backupPath := by
              intro heq
              exact htarget (heq ▸ helsewhere.1)
            refine safe_done trivial ⟨⟨helsewhere.1, fun path hpt hps hpb => ?_⟩, .inl ?_⟩
            · rw [AList.lookup_erase_ne hpb, AList.lookup_insert_ne hpt]
              exact helsewhere.2 path hpt hps hpb
            · rw [AList.lookup_erase_ne hne, AList.lookup_insert, ← hnode, hkept]
      · exact safe_done trivial ⟨helsewhere, .inr hkept⟩

theorem abortImpl_moved (h : Moved roots before s.writeContext disk) :
    Safe (Answers faulty) (fun _ _ => True) (fun _ s' disk' => s' = resetWriteContext s ∧
      Elsewhere roots before s.writeContext.targetPath s.writeContext.stagingPath
        s.writeContext.backupPath disk' ∧
      Recovered before s.writeContext.targetPath s.writeContext.backupPath disk')
      trace (abortImpl s) disk := by
  rw [abortImpl, if_neg (by simp [h.active])]
  refine safe_perform trivial ?_
  intro reply disk₁ hreply
  have hother : ∀ path, path ≠ s.writeContext.stagingPath →
      disk₁.lookup path = disk.lookup path := unlink_other hreply
  have htarget : s.writeContext.targetPath ≠ s.writeContext.stagingPath :=
    fun heq => h.target (heq ▸ h.staging)
  have helsewhere : Elsewhere roots before s.writeContext.targetPath s.writeContext.stagingPath
      s.writeContext.backupPath disk₁ := by
    refine ⟨h.elsewhere.1, fun path hpt hps hpb => ?_⟩
    rw [hother path hps, h.elsewhere.2 path hpt hps hpb]
  refine Safe.bind ((restoreTarget_safe h.moved h.target ?_ ?_ helsewhere).mono (fun _ _ h => h) ?_)
  · rw [hother _ htarget, h.absent]
  · rw [hother _ h.ne, h.kept]
  · intro trace _ disk₂ hrestored
    exact safe_done trivial ⟨rfl, hrestored⟩

/-- How a commit may end. -/
inductive Outcome (roots : RootConfig) (faulty : Bool) (before : Disk) (target staging : Path)
    (mounted : Bool) (content : List UInt8) (trace : Trace) (error : Error) (s : StorageFatfs)
    (disk : Disk) : Prop
  | committed (hok : error = .ok) (hclosed : s.writeContext = {}) (hmounted : s.mounted = mounted)
      (htarget : disk.lookup target = some (.file content true))
      (helsewhere : ∃ backup, Elsewhere roots before target staging backup disk)
  | failed (herror : error ≠ .ok) (hclosed : s.writeContext = {}) (hmounted : s.mounted = mounted)
      (htarget : disk.lookup target = before.lookup target)
      (helsewhere : ∃ backup, Elsewhere roots before target staging backup disk)
  | stuck (hfaulty : faulty = true) (herror : error ≠ .ok)
      (hpaths : s.writeContext.targetPath = target ∧ s.writeContext.stagingPath = staging)
      (hmoved : Moved roots before s.writeContext disk)
      (hrestore : ∃ errno, ⟨.rename s.writeContext.backupPath target, .error errno⟩ ∈ trace)

/-- Installing a file where there was none. -/
theorem installStaging_new (h : Staged roots before s.writeContext content disk)
    (hsynced : disk.lookup s.writeContext.stagingPath = some (.file content true)) :
    Safe (Answers faulty)
      (Between roots faulty before s.writeContext.targetPath content)
      (fun trace result disk' => Outcome roots faulty before s.writeContext.targetPath
        s.writeContext.stagingPath s.mounted content trace result.1 result.2 disk')
      trace (installStaging s) disk := by
  have hsame : ∀ trace disk', (∀ path, path ≠ s.writeContext.stagingPath →
      disk'.lookup path = disk.lookup path) →
      Between roots faulty before s.writeContext.targetPath content trace disk' :=
    fun trace disk' hother _ => .inr (h.installed hother _ _)
  rw [installStaging]
  refine safe_perform (hsame _ _ fun _ _ => rfl) ?_
  intro reply disk₁ hreply
  cases reply with
  | error errno =>
      obtain ⟨rfl, -⟩ := hreply
      simp only [h.notMoved, Bool.false_eq_true, if_false]
      refine safe_perform (hsame _ _ fun _ _ => rfl) ?_
      intro reply disk₂ hreply
      have hother : ∀ path, path ≠ s.writeContext.stagingPath →
          disk₂.lookup path = disk₁.lookup path := unlink_other hreply
      refine safe_done (hsame _ _ hother) (.failed (by simp) rfl rfl ?_
        ⟨s.writeContext.stagingPath, h.area, fun path _ hps _ => ?_⟩)
      · rw [hother _ h.target_ne, h.other _ h.target_ne]
      · rw [hother path hps, h.other path hps]
  | ok value =>
      obtain ⟨node, hnode, -, rfl⟩ := hreply
      obtain rfl := Option.some.inj (hsynced.symm.trans hnode)
      simp only [h.notMoved, Bool.false_eq_true, if_false]
      have hnew : ((disk.insert s.writeContext.targetPath (.file content true)).erase
          s.writeContext.stagingPath).lookup s.writeContext.targetPath =
            some (.file content true) := by
        rw [AList.lookup_erase_ne h.target_ne, AList.lookup_insert]
      have hother : ∀ path, path ≠ s.writeContext.targetPath → path ≠ s.writeContext.stagingPath →
          ((disk.insert s.writeContext.targetPath (.file content true)).erase
            s.writeContext.stagingPath).lookup path = before.lookup path := by
        intro path hpt hps
        rw [AList.lookup_erase_ne hps, AList.lookup_insert_ne hpt, h.other path hps]
      refine safe_done (fun _ => .inr fun path hpath => ?_) (.committed rfl rfl rfl hnew
        ⟨s.writeContext.stagingPath, h.area, fun path hpt hps _ => hother path hpt hps⟩)
      by_cases hpt : path = s.writeContext.targetPath
      · rw [hpt]
        exact .inr ⟨rfl, hnew⟩
      · refine .inl (hother path hpt ?_)
        rintro rfl
        exact hpath h.area

/-- Installing a file over one that was moved away. -/
theorem installStaging_over (h : Moved roots before s.writeContext disk)
    (hsynced : disk.lookup s.writeContext.stagingPath = some (.file content true))
    (hlast : MovedAway roots trace) :
    Safe (Answers faulty)
      (Between roots faulty before s.writeContext.targetPath content)
      (fun trace result disk' => Outcome roots faulty before s.writeContext.targetPath
        s.writeContext.stagingPath s.mounted content trace result.1 result.2 disk')
      trace (installStaging s) disk := by
  obtain ⟨harea, helsewhere⟩ := h.elsewhere
  have htarget : s.writeContext.targetPath ≠ s.writeContext.stagingPath :=
    fun heq => h.target (heq ▸ h.staging)
  have hbackup : s.writeContext.targetPath ≠ s.writeContext.backupPath :=
    fun heq => h.target (heq ▸ harea)
  rw [installStaging]
  refine safe_perform (fun _ => .inl hlast) ?_
  intro reply disk₁ hreply
  cases reply with
  | error errno =>
      obtain ⟨rfl, hfails⟩ := hreply
      have hfaulty : faulty = true := by
        rcases hfails with hfaulty | hnone | hsome
        · exact hfaulty
        · rw [hsynced] at hnone
          cases hnone
        · exact absurd h.absent hsome
      subst hfaulty
      have hany : ∀ trace disk, Between roots true before s.writeContext.targetPath content
          trace disk := fun _ _ hfaulty => by cases hfaulty
      simp only [h.moved, if_true]
      refine safe_perform (hany _ _) ?_
      intro reply disk₂ hreply
      cases reply with
      | error errno =>
          obtain ⟨rfl, -⟩ := hreply
          exact safe_done (hany _ _) (.stuck rfl (by simp) ⟨rfl, rfl⟩ h ⟨errno, by simp⟩)
      | ok value =>
          obtain ⟨node, hnode, -, rfl⟩ := hreply
          refine safe_perform (hany _ _) ?_
          intro reply disk₃ hreply
          have hother := unlink_other hreply
          refine safe_done (hany _ _) (.failed (by simp) rfl rfl ?_
            ⟨s.writeContext.backupPath, harea, fun path hpt hps hpb => ?_⟩)
          · rw [hother _ htarget, AList.lookup_erase_ne hbackup, AList.lookup_insert, ← hnode,
              h.kept]
          · rw [hother _ hps, AList.lookup_erase_ne hpb, AList.lookup_insert_ne hpt]
            exact helsewhere path hpt hps hpb
  | ok value =>
      obtain ⟨node, hnode, -, rfl⟩ := hreply
      obtain rfl := Option.some.inj (hsynced.symm.trans hnode)
      have hinstalled : ∀ disk', (∀ path, path ≠ s.writeContext.backupPath → disk'.lookup path =
          ((disk.insert s.writeContext.targetPath (.file content true)).erase
            s.writeContext.stagingPath).lookup path) →
          disk'.lookup s.writeContext.targetPath = some (.file content true) ∧
            Elsewhere roots before s.writeContext.targetPath s.writeContext.stagingPath
              s.writeContext.backupPath disk' := by
        intro disk' hsame
        refine ⟨?_, harea, fun path hpt hps hpb => ?_⟩
        · rw [hsame _ hbackup, AList.lookup_erase_ne htarget, AList.lookup_insert]
        · rw [hsame _ hpb, AList.lookup_erase_ne hps, AList.lookup_insert_ne hpt]
          exact helsewhere path hpt hps hpb
      have hbetween : ∀ trace disk', (∀ path, path ≠ s.writeContext.backupPath →
          disk'.lookup path = ((disk.insert s.writeContext.targetPath (.file content true)).erase
            s.writeContext.stagingPath).lookup path) →
          Between roots faulty before s.writeContext.targetPath content trace disk' := by
        intro trace disk' hsame _
        refine .inr fun path hpath => ?_
        obtain ⟨hnew, -, hrest⟩ := hinstalled disk' hsame
        by_cases hpt : path = s.writeContext.targetPath
        · rw [hpt]
          exact .inr ⟨rfl, hnew⟩
        · refine .inl (hrest path hpt ?_ ?_)
          · rintro rfl
            exact hpath h.staging
          · rintro rfl
            exact hpath harea
      simp only [h.moved, if_true]
      refine safe_perform (hbetween _ _ fun _ _ => rfl) ?_
      intro reply disk₂ hreply
      have hother := unlink_other hreply
      obtain ⟨hnew, hrest⟩ := hinstalled disk₂ hother
      exact safe_done (hbetween _ _ hother) (.committed rfl rfl rfl hnew ⟨_, hrest⟩)

/-- The middle of a commit: the target stays, or is now at the backup path. -/
theorem moveTarget_safe (h : Staged roots before s.writeContext content disk)
    (hsynced : disk.lookup s.writeContext.stagingPath = some (.file content true)) :
    Safe (Answers faulty) (Between roots faulty before s.writeContext.targetPath content)
      (fun trace result disk' =>
        (result.2.writeContext.targetPath = s.writeContext.targetPath ∧
          result.2.writeContext.stagingPath = s.writeContext.stagingPath ∧
          result.2.mounted = s.mounted) ∧
        disk'.lookup s.writeContext.stagingPath = some (.file content true) ∧
        (Staged roots before result.2.writeContext content disk' ∨ result.1 = true ∧
          Moved roots before result.2.writeContext disk' ∧ MovedAway roots trace))
      trace (moveTarget roots s) disk := by
  have hbetween : ∀ trace, Between roots faulty before s.writeContext.targetPath content trace
      disk := fun _ _ => .inr (h.installed (fun _ _ => rfl) _ _)
  rw [moveTarget]
  split_ifs
  · generalize hpath : makeStagingPath roots s "b" ".bak" = result
    obtain ⟨backup, s₁⟩ := result
    cases backup with
    | none =>
        obtain rfl := (Prod.mk.inj hpath).2
        exact safe_done (hbetween _) ⟨⟨rfl, rfl, rfl⟩, hsynced, .inl h⟩
    | some backup =>
        obtain ⟨harea, rfl⟩ := makeStagingPath_area hpath
        refine safe_perform (hbetween _) ?_
        intro reply disk₁ hreply
        cases reply with
        | error errno =>
            obtain ⟨rfl, -⟩ := hreply
            refine safe_done (hbetween _) ⟨⟨rfl, rfl, rfl⟩, hsynced, .inl ?_⟩
            exact ⟨h.active, h.notMoved, h.area, h.target, h.fresh, h.staged, h.other⟩
        | ok value =>
            obtain ⟨node, hnode, hfree, rfl⟩ := hreply
            have hlast : MovedAway roots
                (trace ++ [⟨.rename s.writeContext.targetPath backup, .ok value⟩]) :=
              ⟨s.writeContext.targetPath, by simp [renamedLast], h.target⟩
            have hold := h.other _ h.target_ne
            have hne : backup ≠ s.writeContext.stagingPath := by
              rintro rfl
              rw [hsynced] at hfree
              cases hfree
            have hbackup : backup ≠ s.writeContext.targetPath := by
              rintro rfl
              exact h.target harea
            refine safe_done (fun _ => .inl hlast) ⟨⟨rfl, rfl, rfl⟩, ?_, .inr ⟨rfl, ?_, hlast⟩⟩
            · rw [AList.lookup_erase_ne h.target_ne.symm, AList.lookup_insert_ne hne.symm, hsynced]
            · refine ⟨h.active, rfl, h.target, h.area, AList.lookup_erase _ _, ?_, ?_,
                hne, harea, ?_⟩
              · change AList.lookup backup _ = _
                rw [AList.lookup_erase_ne hbackup, AList.lookup_insert, ← hold, ← hnode]
              · rw [← hold]
                simp [hnode]
              · intro path hpt hps hpb
                rw [AList.lookup_erase_ne hpt, AList.lookup_insert_ne hpb, h.other path hps]
  · exact safe_done (hbetween _) ⟨⟨rfl, rfl, rfl⟩, hsynced, .inl h⟩

/-- A commit that is given up before anything was installed. -/
theorem abortImpl_outcome {error : Error} (herror : error ≠ .ok) {target staging : Path}
    {mounted : Bool} (h : Staged roots before s.writeContext content disk)
    (htarget : s.writeContext.targetPath = target) (hstaging : s.writeContext.stagingPath = staging)
    (hmounted : s.mounted = mounted) :
    Safe (Answers faulty) (Between roots faulty before target content)
      (fun trace result disk' => Outcome roots faulty before target staging mounted content trace
        result.1 result.2 disk')
      trace (abortImpl s >>= fun s' => pure (error, s')) disk := by
  subst htarget hstaging hmounted
  refine Safe.bind ((abortImpl_safe h fun trace disk' hother => ?_).mono (fun _ _ h => h) ?_)
  · exact fun _ => .inr (h.installed hother _ _)
  · rintro trace s' disk' ⟨rfl, hother⟩
    have hsame : ∀ path, path ≠ s.writeContext.stagingPath →
        disk'.lookup path = disk.lookup path := by
      intro path hne
      rw [hother path hne, h.other path hne]
    exact safe_done (fun _ => .inr (h.installed hsame _ _))
      (.failed herror rfl rfl (hother _ h.target_ne)
        ⟨s.writeContext.stagingPath, h.area, fun path _ hps _ => hother path hps⟩)

theorem commitImpl_safe (h : Staged roots before s.writeContext content disk)
    (hfd : s.writeContext.fd = some s.writeContext.stagingPath) :
    Safe (Answers faulty) (Between roots faulty before s.writeContext.targetPath content)
      (fun trace result disk' => Outcome roots faulty before s.writeContext.targetPath
        s.writeContext.stagingPath s.mounted content trace result.1 result.2 disk')
      trace (commitImpl roots s) disk := by
  have hbetween : ∀ trace, Between roots faulty before s.writeContext.targetPath content trace
      disk := fun _ _ => .inr (h.installed (fun _ _ => rfl) _ _)
  simp only [commitImpl, hfd]
  rw [if_neg (by simp [h.active])]
  refine safe_perform (hbetween _) ?_
  intro reply disk₁ hreply
  cases reply with
  | error errno =>
      obtain ⟨rfl, -⟩ := hreply
      refine abortImpl_outcome ?_ h rfl rfl rfl
      split_ifs <;> simp
  | ok value =>
      obtain ⟨content', synced, hfile, rfl⟩ := hreply
      obtain ⟨_, hstaged⟩ := h.staged
      obtain ⟨rfl, -⟩ : content = content' ∧ _ := by simpa using hstaged.symm.trans hfile
      have hstaged' : Staged roots before { s.writeContext with fd := none } content
          (disk.insert s.writeContext.stagingPath (.file content true)) := by
        refine ⟨h.active, h.notMoved, h.area, h.target, h.fresh, ⟨true, AList.lookup_insert _⟩, ?_⟩
        intro path hne
        rw [AList.lookup_insert_ne hne, h.other path hne]
      have hclosed : Staged roots before
          ({ s with writeContext := { s.writeContext with fd := none } } :
            StorageFatfs).writeContext
          content _ := hstaged'
      refine Safe.bind ((moveTarget_safe hclosed (AList.lookup_insert _)).mono (fun _ _ h => h) ?_)
      rintro trace ⟨moved, s'⟩ disk₂ ⟨⟨htarget, hstaging, hmounted⟩, hsynced, hcase⟩
      cases moved with
      | false =>
          rcases hcase with hcase | ⟨hcase, -⟩
          · exact abortImpl_outcome (by simp) hcase htarget hstaging hmounted
          · cases hcase
      | true =>
          simp only at htarget hstaging hmounted hsynced ⊢
          rw [← htarget, ← hstaging, ← hmounted]
          rw [← hstaging] at hsynced
          rcases hcase with hcase | ⟨-, hcase, hlast⟩
          · exact installStaging_new hcase hsynced
          · exact installStaging_over hcase hsynced hlast

end Session

section Writing

variable {roots : RootConfig} {before disk : Disk} {content : List UInt8} {faulty : Bool}
  {trace : Trace} {between : Trace → Disk → Prop}

theorem Staged.insert {ctx : WriteContext} (h : Staged roots before ctx content disk)
    (content' : List UInt8) (synced : Bool) :
    Staged roots before ctx content' (disk.insert ctx.stagingPath (.file content' synced)) := by
  refine ⟨h.active, h.notMoved, h.area, h.target, h.fresh, ⟨synced, AList.lookup_insert _⟩, ?_⟩
  intro path hne
  rw [AList.lookup_insert_ne hne, h.other path hne]

theorem writeFrom_safe {ctx : WriteContext} (rounds : Nat) {offset : Nat} {data : List UInt8}
    (hbetween : ∀ trace disk', (∃ content', Staged roots before ctx content' disk') →
      between trace disk')
    (h : Staged roots before ctx content disk) (hfits : offset + data.length ≤ content.length)
    (hrounds : data.length ≤ rounds) :
    Safe (Answers faulty) between (fun _ error disk' => ∃ content',
        Staged roots before ctx content' disk' ∧ content'.length = content.length ∧
          Written content offset data error content' ∧ (faulty = false → error = .ok))
      trace (writeFrom ctx.stagingPath rounds offset data) disk := by
  obtain ⟨synced, hstaged⟩ := h.staged
  induction rounds generalizing content offset data disk trace synced with
  | zero =>
      obtain rfl := List.length_eq_zero_iff.mp (Nat.le_zero.mp hrounds)
      exact safe_done (hbetween _ _ ⟨_, h⟩)
        ⟨content, h, rfl, written_nil (by simpa using hfits), fun _ => rfl⟩
  | succ rounds ih =>
      cases data with
      | nil =>
          exact safe_done (hbetween _ _ ⟨_, h⟩)
            ⟨content, h, rfl, written_nil (by simpa using hfits), fun _ => rfl⟩
      | cons byte rest =>
          refine ⟨hbetween _ _ ⟨_, h⟩, fun reply disk' hreply => ?_⟩
          cases reply with
          | error errno =>
              obtain ⟨rfl, hfails⟩ := hreply
              refine safe_done (hbetween _ _ ⟨_, h⟩)
                ⟨content, h, rfl, .refused (mapErrno_ne_ok errno true), ?_⟩
              rintro rfl
              simp [Fails, isFile, hstaged] at hfails
          | ok written =>
              obtain ⟨count, rfl⟩ : ∃ count : Nat, count = written := ⟨written, rfl⟩
              obtain ⟨hle, hsome, content', _, hfile, rfl⟩ := hreply
              replace hle : count ≤ (byte :: rest).length := hle
              obtain ⟨rfl, -⟩ : content = content' ∧ _ := by simpa using hstaged.symm.trans hfile
              have hpart : offset + ((byte :: rest).take count).length ≤ content.length := by
                rw [List.length_take_of_le hle]
                omega
              have hlength := length_overlay hpart
              have hpositive : count ≠ 0 := hsome (by simp)
              simp only [hpositive, if_false]
              refine (ih (h.insert _ false) ?_ ?_ false (AList.lookup_insert _)).mono
                (fun _ _ h => h) ?_
              · rw [hlength, List.length_drop]
                omega
              · rw [List.length_drop]
                omega
              · rintro _ error disk'' ⟨content'', hstaged'', hlength'', hwritten, hok⟩
                exact ⟨content'', hstaged'', hlength''.trans hlength, hwritten.after hle, hok⟩

theorem writeImpl_safe {s : StorageFatfs} {offset : UInt64} {data : List UInt8}
    (hbetween : ∀ trace disk', (∃ content', Staged roots before s.writeContext content' disk') →
      between trace disk')
    (h : Staged roots before s.writeContext content disk)
    (hfd : s.writeContext.fd = some s.writeContext.stagingPath)
    (hsize : content.length = s.writeContext.size.toNat) :
    Safe (Answers faulty) between (fun _ error disk' => ∃ content',
        Staged roots before s.writeContext content' disk' ∧
          content'.length = s.writeContext.size.toNat ∧
          Written content offset.toNat data error content' ∧
          (faulty = false → error ≠ .ok → content' = content))
      trace (writeImpl s offset data) disk := by
  simp only [writeImpl, hfd]
  rw [if_neg (by simp [h.active])]
  split_ifs with hrange
  · exact safe_done (hbetween _ _ ⟨_, h⟩)
      ⟨content, h, hsize, .refused (by simp), fun _ _ => rfl⟩
  · rw [not_or] at hrange
    obtain ⟨hoffset, hlength⟩ := hrange
    have hle : offset ≤ s.writeContext.size := UInt64.not_lt.mp hoffset
    rw [UInt64.toNat_sub_of_le _ _ hle] at hlength
    have hnat : offset.toNat ≤ s.writeContext.size.toNat := UInt64.le_iff_toNat_le.mp hle
    rw [← hsize]
    refine (writeFrom_safe _ hbetween h (by omega) le_rfl).mono (fun _ _ h => h) ?_
    rintro _ error disk' ⟨content', hstaged, hlength', hwritten, hok⟩
    exact ⟨content', hstaged, hlength', hwritten, fun hfaulty herror => absurd (hok hfaulty) herror⟩

end Writing

section Beginning

variable {roots : RootConfig} {disk : Disk} {faulty : Bool} {trace : Trace} {s : StorageFatfs}
  {between : Trace → Disk → Prop}

variable (roots) in
/-- The disk is as before but for one path in the staging directory. -/
def Scratch (before disk : Disk) : Prop :=
  ∃ staging, InStaging roots staging ∧
    ∀ path, path ≠ staging → disk.lookup path = before.lookup path

theorem createStaging_safe (attempts : Nat) (hbetween : ∀ trace disk', disk' = disk ∨
      (∃ staging, InStaging roots staging ∧ disk' = disk.insert staging (.file [] false)) →
        between trace disk') :
    Safe (Answers faulty) between (fun _ result disk' =>
        (∃ sequence, result.2 = { s with sequence := sequence }) ∧
        match result.1 with
        | .error error => error ≠ .ok ∧ disk' = disk
        | .ok staging => InStaging roots staging ∧ disk.lookup staging = none ∧
            disk' = disk.insert staging (.file [] false))
      trace (createStaging roots attempts s) disk := by
  have hnow : ∀ trace, between trace disk := fun _ => hbetween _ _ (.inl rfl)
  induction attempts generalizing s trace with
  | zero => exact safe_done (hnow _) ⟨⟨s.sequence, rfl⟩, by simp⟩
  | succ attempts ih =>
      rw [createStaging]
      generalize hpath : makeStagingPath roots s "s" ".tmp" = result
      obtain ⟨staging, s₁⟩ := result
      cases staging with
      | none =>
          obtain rfl := (Prod.mk.inj hpath).2
          exact safe_done (hnow _) ⟨⟨_, rfl⟩, by simp⟩
      | some staging =>
          obtain ⟨harea, rfl⟩ := makeStagingPath_area hpath
          refine ⟨hnow _, fun reply disk' hreply => ?_⟩
          cases reply with
          | ok value =>
              obtain ⟨hfree, rfl⟩ := hreply
              exact safe_done (hbetween _ _ (.inr ⟨staging, harea, rfl⟩))
                ⟨⟨_, rfl⟩, harea, hfree, rfl⟩
          | error errno =>
              obtain ⟨rfl, -⟩ := hreply
              simp only
              split
              · refine safe_done (hnow _) ⟨⟨_, rfl⟩, ?_, rfl⟩
                split_ifs
                · simp
                · exact mapErrno_ne_ok errno true
              · exact ih (s := { s with sequence := s.sequence + 1 })

/-- How `begin_write_impl` may end. -/
inductive Begun (roots : RootConfig) (before : Disk) (s : StorageFatfs) (target : Path)
    (size : UInt64) (error : Error) (s' : StorageFatfs) (disk : Disk) : Prop
  | opened (hok : error = .ok) (hmounted : s'.mounted = s.mounted)
      (hread : s'.readActive = s.readActive)
      (hfd : s'.writeContext.fd = some s'.writeContext.stagingPath)
      (htarget : s'.writeContext.targetPath = target) (hsize : s'.writeContext.size = size)
      (hstaged : Staged roots before s'.writeContext (List.replicate size.toNat 0) disk)
  | refused (herror : error ≠ .ok) (hcontext : ∃ sequence, s' = { s with sequence := sequence })
      (htarget : disk.lookup target = before.lookup target) (hscratch : Scratch roots before disk)

theorem scratch_refl (disk : Disk) : Scratch roots disk disk :=
  ⟨child roots.stagingRoot [], ⟨[], rfl⟩, fun _ _ => rfl⟩

theorem openSession_safe {target : Path} {size : UInt64} {targetExists : Bool}
    (htarget : ¬ InStaging roots target)
    (hbetween : ∀ trace disk', Scratch roots disk disk' → between trace disk') :
    Safe (Answers faulty) between
      (fun _ result disk' => Begun roots disk s target size result.1 result.2 disk')
      trace (openSession roots s target size targetExists) disk := by
  have hcreated : ∀ trace disk', disk' = disk ∨ (∃ staging, InStaging roots staging ∧
      disk' = disk.insert staging (.file [] false)) → between trace disk' := by
    rintro trace disk' (rfl | ⟨staging, harea, rfl⟩)
    · exact hbetween _ _ (scratch_refl disk')
    · exact hbetween _ _ ⟨staging, harea, fun path hne => AList.lookup_insert_ne hne⟩
  rw [openSession]
  refine Safe.bind ((createStaging_safe 32 hcreated).mono (fun _ _ h => h) ?_)
  rintro trace ⟨result, s₁⟩ disk₁ ⟨⟨sequence, hs⟩, hresult⟩
  simp only at hs
  subst hs
  cases result with
  | error error =>
      obtain ⟨herror, rfl⟩ := hresult
      exact safe_done (hbetween _ _ (scratch_refl _))
        (.refused herror ⟨_, rfl⟩ rfl (scratch_refl _))
  | ok staging =>
      obtain ⟨harea, hfree, rfl⟩ := hresult
      refine safe_perform (hcreated _ _ (.inr ⟨staging, harea, rfl⟩)) ?_
      intro reply disk₂ hreply
      cases reply with
      | error errno =>
          obtain ⟨rfl, -⟩ := hreply
          refine safe_perform (hcreated _ _ (.inr ⟨staging, harea, rfl⟩)) ?_
          intro reply disk₃ hreply
          have hother : ∀ path, path ≠ staging → disk₃.lookup path = disk.lookup path := by
            intro path hne
            rw [unlink_other hreply _ hne, AList.lookup_insert_ne hne]
          have hne : target ≠ staging := by
            rintro rfl
            exact htarget harea
          refine safe_done (hbetween _ _ ⟨staging, harea, hother⟩)
            (.refused ?_ ⟨_, rfl⟩ (hother _ hne) ⟨staging, harea, hother⟩)
          split_ifs
          · simp
          · exact mapErrno_ne_ok errno true
      | ok value =>
          obtain ⟨content, synced, hfile, rfl⟩ := hreply
          rw [AList.lookup_insert] at hfile
          obtain ⟨rfl, rfl⟩ : [] = content ∧ false = synced := by simpa using hfile
          have hother : ∀ path, path ≠ staging → ((disk.insert staging (.file [] false)).insert
              staging (.file (resize [] size.toNat) false)).lookup path = disk.lookup path := by
            intro path hne
            rw [AList.lookup_insert_ne hne, AList.lookup_insert_ne hne]
          refine safe_done (hbetween _ _ ⟨staging, harea, hother⟩)
            (.opened rfl rfl rfl rfl rfl rfl ⟨rfl, rfl, harea, htarget, hfree, ⟨false, ?_⟩, hother⟩)
          change AList.lookup staging _ = _
          rw [AList.lookup_insert]
          simp [resize]

theorem validatePath_head {path : Path} {allowRoot : Bool}
    (h : validatePath path allowRoot = true) : path.head? = some slash := by
  rw [validatePath] at h
  by_contra hhead
  rw [if_pos (.inr (.inr (.inl hhead)))] at h
  cases h

theorem validatePath_ne_root {path : Path} (h : validatePath path false = true) :
    path ≠ [slash] := by
  rintro rfl
  revert h
  decide

theorem parentIsDirectory_safe {path : Path} (hnow : ∀ trace, between trace disk) :
    Safe (Answers faulty) between (fun _ _ disk' => disk' = disk) trace
      (parentIsDirectory roots path) disk := by
  rw [parentIsDirectory]
  split
  · exact safe_done (hnow _) rfl
  · refine safe_perform (hnow _) ?_
    intro reply disk' hreply
    cases reply with
    | ok directory =>
        obtain ⟨rfl, -⟩ := hreply
        exact safe_done (hnow _) rfl
    | error errno =>
        obtain ⟨rfl, -⟩ := hreply
        exact safe_done (hnow _) rfl

theorem beginWriteImpl_safe (hroots : Separate roots) {path : Path} {size : UInt64} {replace : Bool}
    (hbetween : ∀ trace disk', Scratch roots disk disk' → between trace disk') :
    Safe (Answers faulty) between
      (fun _ result disk' => Begun roots disk s (roots.fileTransferRoot ++ path) size
        result.1 result.2 disk')
      trace (beginWriteImpl roots s path size replace) disk := by
  have hnow : ∀ trace, between trace disk := fun _ => hbetween _ _ (scratch_refl disk)
  have hrefused : ∀ trace error, error ≠ .ok → Safe (Answers faulty) between
      (fun _ (result : Error × StorageFatfs) disk' => Begun roots disk s
        (roots.fileTransferRoot ++ path) size result.1 result.2 disk')
      trace (.done (error, s)) disk :=
    fun _ _ herror => safe_done (hnow _) (.refused herror ⟨_, rfl⟩ rfl (scratch_refl disk))
  rw [beginWriteImpl]
  by_cases hvalid : validatePath path false = false
  · rw [if_pos hvalid]
    exact hrefused _ _ (by simp)
  rw [if_neg hvalid]
  rw [Bool.not_eq_false] at hvalid
  split
  · exact hrefused _ _ (by simp)
  split
  · exact hrefused _ _ (by simp)
  refine Safe.bind ((parentIsDirectory_safe hnow).mono (fun _ _ h => h) ?_)
  rintro trace parent disk' rfl
  split
  · exact hrefused _ _ (by simp)
  split
  · exact hrefused _ _ (by simp)
  rename_i target hphysical
  obtain rfl : roots.fileTransferRoot ++ path = target := by
    simp only [makePhysicalPath, if_neg (validatePath_ne_root hvalid)] at hphysical
    split at hphysical
    · cases hphysical
    · exact Option.some.inj hphysical
  have htarget := not_inStaging_target hroots (validatePath_head hvalid)
  refine safe_perform (hnow _) ?_
  intro reply disk' hreply
  cases reply with
  | error errno =>
      obtain ⟨rfl, -⟩ := hreply
      simp only
      split
      · exact hrefused _ _ (mapErrno_ne_ok errno true)
      · exact openSession_safe htarget hbetween
  | ok directory =>
      obtain ⟨rfl, -⟩ := hreply
      simp only
      split
      · exact hrefused _ _ (by simp)
      split
      · exact hrefused _ _ (by simp)
      · exact openSession_safe htarget hbetween

end Beginning

section WholeSession

/-- What the calls of a session returned. -/
structure Results where
  begun : Error
  written : List Error := []
  committed : Option Error := none
deriving DecidableEq, Repr

/-- Several calls of `write_impl`. -/
def writeAll (s : StorageFatfs) : List (UInt64 × List UInt8) → Code (List Error)
  | [] => .done []
  | (offset, data) :: rest => do
      let error ← writeImpl s offset data
      let errors ← writeAll s rest
      return error :: errors

/-- A commit that is followed by an abort when it failed. -/
def commitOrAbort (roots : RootConfig) (s : StorageFatfs) : Code (Error × StorageFatfs) := do
  let (error, s) ← commitImpl roots s
  if error = .ok then return (error, s)
  else
    let s ← abortImpl s
    return (error, s)

/-- A write session: some writes, then a commit or an abort. -/
def session (roots : RootConfig) (s : StorageFatfs) (path : Path) (size : UInt64) (replace : Bool)
    (writes : List (UInt64 × List UInt8)) (commits : Bool) : Code (Results × StorageFatfs) := do
  let (begun, s) ← beginWriteImpl roots s path size replace
  if begun ≠ .ok then return (⟨begun, [], none⟩, s)
  else
    let written ← writeAll s writes
    if commits then
      let (error, s) ← commitOrAbort roots s
      return (⟨begun, written, some error⟩, s)
    else
      let s ← abortImpl s
      return (⟨begun, written, none⟩, s)

variable {roots : RootConfig} {before disk : Disk} {content : List UInt8} {faulty : Bool}
  {trace : Trace} {between : Trace → Disk → Prop} {s : StorageFatfs}

theorem writeAll_safe {writes : List (UInt64 × List UInt8)}
    (hbetween : ∀ trace disk', (∃ content', Staged roots before s.writeContext content' disk') →
      between trace disk')
    (h : Staged roots before s.writeContext content disk)
    (hfd : s.writeContext.fd = some s.writeContext.stagingPath)
    (hsize : content.length = s.writeContext.size.toNat) :
    Safe (Answers faulty) between (fun _ errors disk' => ∃ content',
        Staged roots before s.writeContext content' disk' ∧ Writes content writes errors content')
      trace (writeAll s writes) disk := by
  induction writes generalizing content disk trace with
  | nil => exact safe_done (hbetween _ _ ⟨_, h⟩) ⟨content, h, .nil _⟩
  | cons write rest ih =>
      obtain ⟨offset, data⟩ := write
      refine Safe.bind ((writeImpl_safe hbetween h hfd hsize).mono (fun _ _ h => h) ?_)
      rintro trace error disk₁ ⟨content₁, hstaged, hlength, hwritten, -⟩
      refine Safe.bind ((ih hstaged hlength).mono (fun _ _ h => h) ?_)
      rintro trace errors disk₂ ⟨content₂, hstaged', hwrites⟩
      exact safe_done (hbetween _ _ ⟨_, hstaged'⟩) ⟨content₂, hstaged', .cons hwritten hwrites⟩

/-- A session has ended: the new file is installed, or the old one is kept. -/
structure Ended (roots : RootConfig) (before : Disk) (target staging : Path) (content : List UInt8)
    (trace : Trace) (committed : Bool) (s : StorageFatfs) (disk : Disk) : Prop where
  idle : s.writeContext.active = false
  area : InStaging roots staging
  kept : ∃ backup, Elsewhere roots before target staging backup disk ∧
    if committed then disk.lookup target = some (.file content true)
    else disk.lookup target = before.lookup target ∨
      disk.lookup backup = before.lookup target ∧
        ∃ errno, ⟨.rename backup target, .error errno⟩ ∈ trace

theorem abortImpl_ended (h : Staged roots before s.writeContext content disk)
    (content' : List UInt8) :
    Safe (Answers faulty) (fun _ _ => True) (fun trace s' disk' => Ended roots before
        s.writeContext.targetPath s.writeContext.stagingPath content' trace false s' disk')
      trace (abortImpl s) disk := by
  refine (abortImpl_safe h fun _ _ _ => trivial).mono (fun _ _ h => h) ?_
  rintro trace s' disk' ⟨rfl, hother⟩
  exact ⟨rfl, h.area, s.writeContext.stagingPath, ⟨h.area, fun path _ hps _ => hother path hps⟩,
    .inl (hother _ h.target_ne)⟩

theorem commitOrAbort_ended (h : Staged roots before s.writeContext content disk)
    (hfd : s.writeContext.fd = some s.writeContext.stagingPath) :
    Safe (Answers faulty) (fun _ _ => True) (fun trace result disk' => Ended roots before
        s.writeContext.targetPath s.writeContext.stagingPath content trace
        (decide (result.1 = .ok)) result.2 disk')
      trace (commitOrAbort roots s) disk := by
  refine Safe.bind ((commitImpl_safe h hfd).mono (fun _ _ _ => trivial) ?_)
  rintro trace ⟨error, s'⟩ disk' houtcome
  cases houtcome with
  | committed hok hclosed hmounted htarget helsewhere =>
      obtain ⟨backup, helsewhere⟩ := helsewhere
      simp only at hok hclosed
      subst hok
      refine safe_done trivial ⟨by rw [hclosed], h.area, backup, helsewhere, ?_⟩
      simpa using htarget
  | failed herror hclosed hmounted htarget helsewhere =>
      obtain ⟨backup, helsewhere⟩ := helsewhere
      simp only at herror hclosed
      have hidle : s'.writeContext.active = false := by rw [hclosed]
      simp only [herror, if_false, abortImpl, hidle, if_true]
      refine safe_done trivial ⟨hidle, h.area, backup, helsewhere, ?_⟩
      simpa [herror] using Or.inl htarget
  | stuck hfaulty herror hpaths hmoved hrestore =>
      obtain ⟨htarget, hstaging⟩ := hpaths
      simp only at herror htarget hstaging hmoved hrestore
      simp only [herror, if_false]
      refine Safe.bind ((abortImpl_moved hmoved).extends.mono (fun _ _ _ => trivial) ?_)
      rintro trace' s'' disk'' ⟨hextends, rfl, helsewhere, hrecovered⟩
      rw [htarget, hstaging] at helsewhere
      rw [htarget] at hrecovered
      refine safe_done trivial ⟨rfl, h.area, s'.writeContext.backupPath, helsewhere, ?_⟩
      obtain ⟨errno, hfailed⟩ := hrestore
      simp only [herror, decide_false, Bool.false_eq_true, if_false]
      exact hrecovered.imp_right fun hbackup => ⟨hbackup, errno, hextends.subset hfailed⟩

theorem session_ended (trace : Trace) (hroots : Separate roots)
    (hidle : s.writeContext.active = false)
    {path : Path} {size : UInt64} {replace : Bool} {writes : List (UInt64 × List UInt8)}
    {commits : Bool} :
    Safe (Answers faulty) (fun _ _ => True) (fun trace result disk' => ∃ staging content,
        Ended roots disk (roots.fileTransferRoot ++ path) staging content trace
          (decide (result.1.committed = some .ok)) result.2 disk' ∧
        (result.1.committed = some .ok →
          Writes (List.replicate size.toNat 0) writes result.1.written content))
      trace (session roots s path size replace writes commits) disk := by
  rw [session]
  refine Safe.bind ((beginWriteImpl_safe hroots fun _ _ _ => trivial).mono (fun _ _ h => h) ?_)
  rintro trace ⟨begun, s₁⟩ disk₁ hbegun
  cases hbegun with
  | refused herror hcontext htarget hscratch =>
      obtain ⟨sequence, rfl⟩ := hcontext
      obtain ⟨staging, harea, hother⟩ := hscratch
      simp only at herror ⊢
      rw [if_pos herror]
      refine safe_done trivial ⟨staging, [], ⟨hidle, harea, staging, ⟨harea, ?_⟩, ?_⟩, by simp⟩
      · exact fun path _ hps _ => hother path hps
      · simpa using Or.inl htarget
  | opened hok hmounted hread hfd htarget hsize hstaged =>
      simp only at hok ⊢
      rw [if_neg (by simp [hok])]
      refine Safe.bind ((writeAll_safe (fun _ _ _ => trivial) hstaged hfd
        (by rw [hsize, List.length_replicate])).mono (fun _ _ h => h) ?_)
      rintro trace written disk₂ ⟨content, hstaged', hwrites⟩
      split
      · refine Safe.bind ((commitOrAbort_ended hstaged' hfd).mono (fun _ _ h => h) ?_)
        rintro trace ⟨error, s₂⟩ disk₃ hended
        rw [htarget] at hended
        refine safe_done trivial ⟨s₁.writeContext.stagingPath, content, ?_, fun _ => hwrites⟩
        simpa using hended
      · refine Safe.bind ((abortImpl_ended hstaged' content).mono (fun _ _ h => h) ?_)
        rintro trace s₂ disk₃ hended
        rw [htarget] at hended
        refine safe_done trivial ⟨s₁.writeContext.stagingPath, content, ?_, fun _ => hwrites⟩
        simpa using hended

/-- A write session on a disk that may fail at every call: a commit that succeeded has
installed the staged content, otherwise the old file is at its path or, when putting it
back failed, at the backup path; nothing else has changed outside the session's own
files, and the next session can start. -/
theorem session_keeps_old_file (roots : RootConfig) (hroots : Separate roots) (s s' : StorageFatfs)
    (hidle : s.writeContext.active = false) (path : Path) (size : UInt64) (replace : Bool)
    (writes : List (UInt64 × List UInt8)) (commits : Bool) (disk disk' : Disk) (trace : Trace)
    (results : Results)
    (hrun : Run (Step (Answers true)) (session roots s path size replace writes commits, disk)
      trace (.done (results, s'), disk')) :
    s'.writeContext.active = false ∧
      ∃ staging backup, InStaging roots staging ∧ InStaging roots backup ∧
        (∀ other, other ≠ roots.fileTransferRoot ++ path → other ≠ staging → other ≠ backup →
          disk'.lookup other = disk.lookup other) ∧
        (results.committed = some .ok → ∃ content,
          Writes (List.replicate size.toNat 0) writes results.written content ∧
          disk'.lookup (roots.fileTransferRoot ++ path) = some (.file content true)) ∧
        (results.committed ≠ some .ok →
          disk'.lookup (roots.fileTransferRoot ++ path) =
            disk.lookup (roots.fileTransferRoot ++ path) ∨
          disk'.lookup backup = disk.lookup (roots.fileTransferRoot ++ path) ∧
            ∃ errno, ⟨.rename backup (roots.fileTransferRoot ++ path), .error errno⟩ ∈ trace) := by
  obtain ⟨staging, content, hended, hwrites⟩ := (session_ended [] hroots hidle).result hrun
  obtain ⟨backup, ⟨harea, hother⟩, hkept⟩ := hended.kept
  refine ⟨hended.idle, staging, backup, hended.area, harea, hother, ?_, ?_⟩
  · intro hok
    simp only [hok, decide_true, if_true] at hkept
    exact ⟨content, hwrites hok, hkept⟩
  · intro hfailed
    simpa only [hfailed, decide_false, Bool.false_eq_true, if_false, List.nil_append] using hkept

/-- Replacing a file of two bytes by one of three. -/
def replacedDisk : Disk :=
  [(bytesOf "/persist/files", .directory), (bytesOf "/persist/.np2-staging", .directory),
    (bytesOf "/persist/files/a", .file [1, 2] true)].foldl
      (fun disk entry => disk.insert entry.1 entry.2) ∅

def replacingSession : Code (Results × StorageFatfs) :=
  session kSpiNorRootConfig { mounted := true } (bytesOf "/a") 3 true [(0, [7, 8, 9])] true

theorem replacingSession_committed :
    (execute serve 20 (replacingSession, replacedDisk)).2.1.value?.map (·.1.committed) =
      some (some .ok) := by
  decide +kernel

theorem session_keeps_old_file_replacing : ∃ trace results s' disk',
    Run (Step (Answers true)) (replacingSession, replacedDisk) trace
      (.done (results, s'), disk') ∧ s'.writeContext.active = false ∧ ∃ content,
        Writes (List.replicate 3 0) [(0, [7, 8, 9])] results.written content ∧
        disk'.lookup (kSpiNorRootConfig.fileTransferRoot ++ bytesOf "/a") =
          some (.file content true) := by
  obtain ⟨⟨results, s'⟩, hvalue, hok⟩ := Option.map_eq_some_iff.mp replacingSession_committed
  have hrun := execute_result _ serve (answers_serve true) hvalue
  have hkept := session_keeps_old_file kSpiNorRootConfig separate_spiNor { mounted := true } s' rfl
    (bytesOf "/a") 3 true [(0, [7, 8, 9])] true replacedDisk _ _ results hrun
  obtain ⟨hidle, _, _, _, _, _, hinstalled, _⟩ := hkept
  exact ⟨_, results, s', _, hrun, hidle, hinstalled hok⟩

end WholeSession

end EspNp2.StorageBackend.FatfsReplacement
