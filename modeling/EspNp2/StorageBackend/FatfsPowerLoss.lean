import EspNp2.StorageBackend.FatfsReplacement

/-!
Power losses between the file system calls of `StorageFatfs`. A ledger keeps what the
completed sessions have committed; a commit may be interrupted before or after it takes
effect, but not between the two renames that replace an existing file.
-/

namespace EspNp2.StorageBackend.FatfsPowerLoss

open EspNp2.Library.CallProgram
open EspNp2.Library.LabelledRun
open EspNp2.StorageBackend.FatfsReplacement
open EspNp2.StorageBackend.FatfsStorage
open EspNp2.StorageBackend.FileSystem
open EspNp2.StorageBackend.StorageInterface (Path Error slash bytesOf parentOf)

inductive Operation where
  | mount
  | beginWrite (path : Path) (size : UInt64) (replace : Bool)
  | write (offset : UInt64) (data : List UInt8)
  | commit
  | abort
deriving DecidableEq, Repr

/-- An operation on the object `s`; the flag tells whether it succeeded. -/
def Operation.code (roots : RootConfig) (s : StorageFatfs) : Operation → Code (Bool × StorageFatfs)
  | .mount => FatfsStorage.mount roots s
  | .beginWrite path size replace => do
      let (error, s) ← beginWriteImpl roots s path size replace
      return (decide (error = .ok), s)
  | .write offset data => do
      let error ← writeImpl s offset data
      return (decide (error = .ok), s)
  | .commit => do
      let (error, s) ← commitImpl roots s
      return (decide (error = .ok), s)
  | .abort => do
      let s ← abortImpl s
      return (true, s)

section Machine

/-- What a power loss leaves of a disk: only content that was not synced may change. -/
def Survives (disk disk' : Disk) : Prop :=
  ∀ path, match disk.lookup path with
    | some (.file _ false) => ∃ content synced, disk'.lookup path = some (.file content synced)
    | node => disk'.lookup path = node

structure Machine where
  disk : Disk
  object : StorageFatfs := {}

/-- An operation with the calls it made: it returned, or the power was lost after
these calls. -/
inductive Event where
  | finished (operation : Operation) (trace : Trace) (success : Bool)
  | interrupted (operation : Operation) (trace : Trace)

/-- No call fails. A power loss leaves a disk and a new object. -/
inductive MachineStep (roots : RootConfig) : Machine → Event → Machine → Prop
  | finished {disk disk' : Disk} {s s' : StorageFatfs} {operation : Operation} {trace : Trace}
      {success : Bool}
      (hrun : Run (Step (Answers false)) (operation.code roots s, disk) trace
        (.done (success, s'), disk')) :
      MachineStep roots ⟨disk, s⟩ (.finished operation trace success) ⟨disk', s'⟩
  | interrupted {disk disk' disk'' : Disk} {s : StorageFatfs} {operation : Operation}
      {trace : Trace} {rest : Code (Bool × StorageFatfs)}
      (hrun : Run (Step (Answers false)) (operation.code roots s, disk) trace (rest, disk'))
      (hsurvives : Survives disk' disk'') :
      MachineStep roots ⟨disk, s⟩ (.interrupted operation trace) ⟨disk'', {}⟩

end Machine

section Ledger

/-- The nodes outside the staging directory, and the target and the content of the open
session. -/
structure Ledger where
  nodes : Path → Option Node
  session : Option (Path × List UInt8) := none

def rootPaths (roots : RootConfig) : List Path :=
  roots.fileTransferRoot :: roots.fixtureRoot.toList ++ [roots.stagingRoot]

/-- A mount may make the root directories. -/
def MakesRoots (roots : RootConfig) (nodes nodes' : Path → Option Node) : Prop :=
  ∀ path, nodes' path = nodes path ∨
    path ∈ rootPaths roots ∧ nodes path = none ∧ nodes' path = some .directory

/-- What the ledger becomes with an event. -/
inductive LedgerStep (roots : RootConfig) : Ledger → Event → Ledger → Prop
  | mount {ledger : Ledger} {nodes' : Path → Option Node} {trace : Trace} {success : Bool}
      (hnodes : MakesRoots roots ledger.nodes nodes') :
      LedgerStep roots ledger (.finished .mount trace success) { ledger with nodes := nodes' }
  | started {nodes : Path → Option Node} {path : Path} {size : UInt64} {replace : Bool}
      {trace : Trace} :
      LedgerStep roots ⟨nodes, none⟩ (.finished (.beginWrite path size replace) trace true)
        ⟨nodes, some (roots.fileTransferRoot ++ path, List.replicate size.toNat 0)⟩
  | startRefused {ledger : Ledger} {path : Path} {size : UInt64} {replace : Bool} {trace : Trace} :
      LedgerStep roots ledger (.finished (.beginWrite path size replace) trace false) ledger
  | write {nodes : Path → Option Node} {target : Path} {content data : List UInt8}
      {offset : UInt64} {trace : Trace} :
      LedgerStep roots ⟨nodes, some (target, content)⟩ (.finished (.write offset data) trace true)
        ⟨nodes, some (target, overlay content offset.toNat data)⟩
  | writeRefused {ledger : Ledger} {offset : UInt64} {data : List UInt8} {trace : Trace} :
      LedgerStep roots ledger (.finished (.write offset data) trace false) ledger
  | commit {nodes : Path → Option Node} {target : Path} {content : List UInt8} {trace : Trace} :
      LedgerStep roots ⟨nodes, some (target, content)⟩ (.finished .commit trace true)
        ⟨Function.update nodes target (some (.file content true)), none⟩
  | commitFailed {ledger : Ledger} {trace : Trace} :
      LedgerStep roots ledger (.finished .commit trace false) { ledger with session := none }
  | abort {ledger : Ledger} {trace : Trace} :
      LedgerStep roots ledger (.finished .abort trace true) { ledger with session := none }
  | mountInterrupted {ledger : Ledger} {nodes' : Path → Option Node} {trace : Trace}
      (hnodes : MakesRoots roots ledger.nodes nodes') :
      LedgerStep roots ledger (.interrupted .mount trace) ⟨nodes', none⟩
  | interrupted {ledger : Ledger} {operation : Operation} {trace : Trace} :
      LedgerStep roots ledger (.interrupted operation trace) { ledger with session := none }
  | commitInterrupted {nodes : Path → Option Node} {target : Path} {content : List UInt8}
      {trace : Trace} :
      LedgerStep roots ⟨nodes, some (target, content)⟩ (.interrupted .commit trace)
        ⟨Function.update nodes target (some (.file content true)), none⟩

/-- The ledger tells what the disk shows. -/
def Shows (roots : RootConfig) (ledger : Ledger) (disk : Disk) : Prop :=
  ∀ path, ¬ InStaging roots path → disk.lookup path = ledger.nodes path

end Ledger

section Mounting

variable {roots : RootConfig} {before disk : Disk} {faulty : Bool} {trace : Trace}

/-- Outside the staging directory a mount has only made root directories. -/
def Grown (roots : RootConfig) (before disk : Disk) : Prop :=
  ∀ path, ¬ InStaging roots path → disk.lookup path = before.lookup path ∨
    path ∈ rootPaths roots ∧ before.lookup path = none ∧ disk.lookup path = some .directory

theorem grown_refl (disk : Disk) : Grown roots disk disk := fun _ _ => .inl rfl

theorem Grown.insert (h : Grown roots before disk) {root : Path} (hroot : root ∈ rootPaths roots)
    (hnone : disk.lookup root = none) : Grown roots before (disk.insert root .directory) := by
  intro path hpath
  by_cases heq : path = root
  · subst heq
    refine .inr ⟨hroot, ?_, AList.lookup_insert _⟩
    rcases h path hpath with hsame | ⟨-, hbefore, -⟩
    · rw [← hsame, hnone]
    · exact hbefore
  · rw [AList.lookup_insert_ne heq]
    exact h path hpath

theorem ensureDirectory_safe (h : Grown roots before disk) {root : Path}
    (hroot : root ∈ rootPaths roots) :
    Safe (Answers faulty) (fun _ => Grown roots before) (fun _ _ => Grown roots before) trace
      (ensureDirectory root) disk := by
  rw [ensureDirectory]
  refine safe_perform h ?_
  intro reply disk₁ hreply
  cases reply with
  | ok directory =>
      obtain ⟨rfl, -⟩ := hreply
      exact safe_done h h
  | error errno =>
      obtain ⟨rfl, -⟩ := hreply
      simp only
      split
      · exact safe_done h h
      · refine safe_perform h ?_
        intro reply disk₂ hreply
        cases reply with
        | ok value =>
            obtain ⟨hnone, rfl⟩ := hreply
            exact safe_done (h.insert hroot hnone) (h.insert hroot hnone)
        | error errno =>
            obtain ⟨rfl, -⟩ := hreply
            exact safe_done h h

theorem ensureRoots_safe {paths : List Path} (h : Grown roots before disk)
    (hpaths : paths ⊆ rootPaths roots) :
    Safe (Answers faulty) (fun _ => Grown roots before) (fun _ _ => Grown roots before) trace
      (ensureRoots paths) disk := by
  induction paths generalizing disk trace with
  | nil => exact safe_done h h
  | cons root rest ih =>
      rw [List.cons_subset] at hpaths
      refine Safe.bind ((ensureDirectory_safe h hpaths.1).mono (fun _ _ h => h) ?_)
      intro trace made disk₁ hgrown
      split
      · exact ih hgrown hpaths.2
      · exact safe_done hgrown hgrown

theorem removeOrphans_safe {names : List Path} (h : Grown roots before disk) :
    Safe (Answers faulty) (fun _ => Grown roots before) (fun _ _ => Grown roots before) trace
      (removeOrphans roots names) disk := by
  induction names generalizing disk trace with
  | nil => exact safe_done h h
  | cons name rest ih =>
      rw [removeOrphans]
      split
      · split
        · exact safe_done h h
        · refine ⟨h, fun reply disk₁ hreply => ?_⟩
          have hgrown : Grown roots before disk₁ := by
            intro path hpath
            have hne : path ≠ child roots.stagingRoot name := by
              rintro rfl
              exact hpath ⟨name, rfl⟩
            rw [unlink_other hreply _ hne]
            exact h path hpath
          cases reply with
          | error errno => exact safe_done hgrown hgrown
          | ok value => exact ih hgrown
      · exact ih h

theorem mount_safe (s : StorageFatfs) (disk : Disk) :
    Safe (Answers faulty) (fun _ => Grown roots disk)
      (fun _ result disk' => Grown roots disk disk' ∧
        (s.mounted = true → disk' = disk) ∧ result.2.writeContext = s.writeContext ∧
        (s.mounted = true → result.2.mounted = true)) trace (FatfsStorage.mount roots s) disk := by
  have h : Grown roots disk disk := grown_refl disk
  rw [FatfsStorage.mount]
  split
  · rename_i hmounted
    exact safe_done h ⟨h, fun _ => rfl, rfl, fun _ => hmounted⟩
  · rename_i hmounted
    refine Safe.bind ((ensureRoots_safe h (List.Subset.refl _)).mono (fun _ _ h => h) ?_)
    intro trace made disk₁ hgrown
    split
    · refine safe_perform hgrown ?_
      intro reply disk₂ hreply
      cases reply with
      | error errno =>
          obtain ⟨rfl, -⟩ := hreply
          exact safe_done hgrown ⟨hgrown, fun hm => absurd hm hmounted, rfl, fun hm => hm⟩
      | ok names =>
          obtain ⟨rfl, -⟩ := hreply
          refine Safe.bind ((removeOrphans_safe hgrown).mono (fun _ _ h => h) ?_)
          intro trace removed disk₃ hgrown'
          split
          · exact safe_done hgrown' ⟨hgrown', fun hm => absurd hm hmounted, rfl, fun _ => rfl⟩
          · exact safe_done hgrown' ⟨hgrown', fun hm => absurd hm hmounted, rfl, fun hm => hm⟩
    · exact safe_done hgrown ⟨hgrown, fun hm => absurd hm hmounted, rfl, fun hm => hm⟩

end Mounting

section Invariant

/-- The files outside the staging directory survive a power loss. -/
def Durable (roots : RootConfig) (disk : Disk) : Prop :=
  ∀ path content, ¬ InStaging roots path → disk.lookup path ≠ some (.file content false)

/-- The object has the session of the ledger open. -/
def HasOpen (roots : RootConfig) (session : Option (Path × List UInt8)) (s : StorageFatfs)
    (disk : Disk) : Prop :=
  match session with
  | none => s.writeContext.active = false
  | some (target, content) => s.mounted = true ∧
      s.writeContext.fd = some s.writeContext.stagingPath ∧
      s.writeContext.targetPath = target ∧ content.length = s.writeContext.size.toNat ∧
      ∃ before, Staged roots before s.writeContext content disk

structure Consistent (roots : RootConfig) (ledger : Ledger) (m : Machine) : Prop where
  shown : Shows roots ledger m.disk
  durable : Durable roots m.disk
  session : HasOpen roots ledger.session m.object m.disk

/-- What a power loss may leave after the calls `trace` of an operation. -/
def Stopped (roots : RootConfig) (ledger : Ledger) (operation : Operation) (trace : Trace)
    (disk : Disk) : Prop :=
  ¬ MovedAway roots trace → ∃ nodes,
    LedgerStep roots ledger (.interrupted operation trace) ⟨nodes, none⟩ ∧
      Shows roots ⟨nodes, none⟩ disk ∧ Durable roots disk

def Returned (roots : RootConfig) (ledger : Ledger) (operation : Operation) (trace : Trace)
    (result : Bool × StorageFatfs) (disk : Disk) : Prop :=
  ∃ ledger', LedgerStep roots ledger (.finished operation trace result.1) ledger' ∧
    Consistent roots ledger' ⟨disk, result.2⟩

variable {roots : RootConfig} {ledger : Ledger} {disk disk' : Disk} {s : StorageFatfs}
  {trace : Trace}

/-- The disk outside the staging directory is the same. -/
theorem Consistent.unchanged (h : Consistent roots ledger ⟨disk, s⟩)
    (hsame : ∀ path, ¬ InStaging roots path → disk'.lookup path = disk.lookup path) :
    Shows roots ledger disk' ∧ Durable roots disk' := by
  constructor
  · intro path hpath
    rw [hsame path hpath]
    exact h.shown path hpath
  · intro path content hpath
    rw [hsame path hpath]
    exact h.durable path content hpath

theorem Consistent.stopped (h : Consistent roots ledger ⟨disk, s⟩) (operation : Operation)
    (hsame : ∀ path, ¬ InStaging roots path → disk'.lookup path = disk.lookup path) :
    Stopped roots ledger operation trace disk' := by
  intro _
  exact ⟨ledger.nodes, .interrupted, h.unchanged hsame⟩

theorem Consistent.still (h : Consistent roots ledger ⟨disk, s⟩) (operation : Operation) :
    Stopped roots ledger operation trace disk :=
  h.stopped operation fun _ _ => rfl

theorem Shows.survives (h : Shows roots ledger disk) (hdurable : Durable roots disk)
    (hsurvives : Survives disk disk') : Shows roots ledger disk' ∧ Durable roots disk' := by
  have hsame : ∀ path, ¬ InStaging roots path → disk'.lookup path = disk.lookup path := by
    intro path hpath
    have hpathSurvives := hsurvives path
    split at hpathSurvives
    · rename_i content hfile
      exact absurd hfile (hdurable path content hpath)
    · exact hpathSurvives
  constructor
  · intro path hpath
    rw [hsame path hpath]
    exact h path hpath
  · intro path content hpath
    rw [hsame path hpath]
    exact hdurable path content hpath

theorem Consistent.session_none (h : Consistent roots ledger ⟨disk, s⟩)
    (hidle : s.writeContext.active = false) : ledger.session = none := by
  obtain ⟨nodes, session⟩ := ledger
  cases session with
  | none => rfl
  | some session =>
      obtain ⟨_, _, _, _, _, hstaged⟩ := h.session
      exact absurd (hidle.symm.trans hstaged.active) (by simp)

theorem Staged.outside {before : Disk} {ctx : WriteContext} {content content' : List UInt8}
    (h : Staged roots before ctx content disk) (h' : Staged roots before ctx content' disk') :
    ∀ path, ¬ InStaging roots path → disk'.lookup path = disk.lookup path := by
  intro path hpath
  have hne : path ≠ ctx.stagingPath := by
    rintro rfl
    exact hpath h.area
  rw [h.other path hne, h'.other path hne]

theorem HasOpen.keep {session : Option (Path × List UInt8)} {s' : StorageFatfs}
    (h : HasOpen roots session s disk) (hcontext : s'.writeContext = s.writeContext)
    (hmounted : s.mounted = true → s'.mounted = true ∧ disk' = disk) :
    HasOpen roots session s' disk' := by
  cases session with
  | none =>
      change s'.writeContext.active = false
      rw [hcontext]
      exact h
  | some session =>
      obtain ⟨hwas, hrest⟩ := h
      obtain ⟨hstays, rfl⟩ := hmounted hwas
      refine ⟨hstays, ?_⟩
      rw [hcontext]
      exact hrest

theorem mount_stopped (h : Consistent roots ledger ⟨disk, s⟩) :
    Safe (Answers false) (Stopped roots ledger .mount) (Returned roots ledger .mount) trace
      (Operation.mount.code roots s) disk := by
  have hgrown : ∀ disk', Grown roots disk disk' → ∃ nodes, MakesRoots roots ledger.nodes nodes ∧
      Shows roots ⟨nodes, none⟩ disk' ∧ Durable roots disk' := by
    intro disk' hgrown
    classical
    refine ⟨fun path => if InStaging roots path then ledger.nodes path else disk'.lookup path,
      fun path => ?_, fun path hpath => (if_neg hpath).symm, fun path content hpath => ?_⟩
    · by_cases hpath : InStaging roots path
      · exact .inl (if_pos hpath)
      · simp only [if_neg hpath]
        rw [← h.shown path hpath]
        exact hgrown path hpath
    · rcases hgrown path hpath with hsame | ⟨-, -, hdirectory⟩
      · rw [hsame]
        exact h.durable path content hpath
      · simp [hdirectory]
  refine (mount_safe s disk).mono ?_ ?_
  · intro trace disk' hdisk _
    obtain ⟨nodes, hnodes, hshown, hdurable⟩ := hgrown disk' hdisk
    exact ⟨nodes, .mountInterrupted hnodes, hshown, hdurable⟩
  · rintro trace ⟨success, s'⟩ disk' ⟨hdisk, hsame, hcontext, hmounted⟩
    obtain ⟨nodes, hnodes, hshown, hdurable⟩ := hgrown disk' hdisk
    exact ⟨{ ledger with nodes := nodes }, .mount hnodes, hshown, hdurable,
      h.session.keep hcontext fun hwas => ⟨hmounted hwas, hsame hwas⟩⟩

theorem beginWriteImpl_refused {path : Path} {size : UInt64} {replace : Bool}
    (h : s.writeContext.active = true ∨ s.mounted = false) :
    ∃ error, error ≠ .ok ∧ beginWriteImpl roots s path size replace = .done (error, s) := by
  rw [beginWriteImpl]
  split
  · exact ⟨_, by simp, rfl⟩
  split
  · exact ⟨_, by simp, rfl⟩
  · rename_i hidle
    rcases h with hactive | hmounted
    · exact absurd (.inr hactive) hidle
    · exact ⟨_, by simp, if_pos hmounted⟩

theorem beginWrite_stopped (hroots : Separate roots) (h : Consistent roots ledger ⟨disk, s⟩)
    {path : Path} {size : UInt64} {replace : Bool} :
    Safe (Answers false) (Stopped roots ledger (.beginWrite path size replace))
      (Returned roots ledger (.beginWrite path size replace)) trace
      ((Operation.beginWrite path size replace).code roots s) disk := by
  have hscratch : ∀ disk', Scratch roots disk disk' →
      ∀ path, ¬ InStaging roots path → disk'.lookup path = disk.lookup path := by
    rintro disk' ⟨staging, harea, hother⟩ path hpath
    refine hother path ?_
    rintro rfl
    exact hpath harea
  by_cases hrefused : s.writeContext.active = true ∨ s.mounted = false
  · obtain ⟨error, herror, hbusy⟩ : ∃ error, error ≠ .ok ∧
        beginWriteImpl roots s path size replace = .done (error, s) :=
      beginWriteImpl_refused hrefused
    simp only [Operation.code, hbusy]
    refine safe_done (h.still _) ⟨ledger, ?_, h⟩
    simp only [herror, decide_false]
    exact .startRefused
  rw [not_or, Bool.not_eq_true, Bool.not_eq_false] at hrefused
  obtain ⟨hidle, hmounted⟩ := hrefused
  refine Safe.bind ((beginWriteImpl_safe hroots fun trace disk' hdisk =>
    h.stopped _ (hscratch disk' hdisk)).mono (fun _ _ h => h) ?_)
  rintro trace ⟨error, s'⟩ disk' hbegun
  cases hbegun with
  | refused herror hcontext htarget hdisk =>
      obtain ⟨sequence, rfl⟩ := hcontext
      obtain ⟨hshown, hdurable⟩ := h.unchanged (hscratch disk' hdisk)
      refine safe_done (h.stopped _ (hscratch disk' hdisk)) ⟨ledger, ?_, hshown, hdurable, ?_⟩
      · simp only [herror, decide_false]
        exact .startRefused
      · rw [h.session_none hidle]
        exact hidle
  | opened hok hmounted' hread hfd htarget hsize hstaged =>
      have hsame : ∀ path, ¬ InStaging roots path → disk'.lookup path = disk.lookup path :=
        fun path hpath => hstaged.other path (by rintro rfl; exact hpath hstaged.area)
      obtain ⟨hshown, hdurable⟩ := h.unchanged hsame
      obtain ⟨nodes, session⟩ := ledger
      obtain rfl : session = none := h.session_none hidle
      refine safe_done (h.stopped _ hsame) ⟨⟨nodes, some (roots.fileTransferRoot ++ path,
        List.replicate size.toNat 0)⟩, ?_, hshown, hdurable, ?_⟩
      · simp only at hok
        simp only [hok, decide_true]
        exact .started
      · simp only at hmounted' hfd htarget hsize hstaged
        exact ⟨hmounted'.trans hmounted, hfd, htarget, by simp [hsize], disk, hstaged⟩

theorem write_stopped (h : Consistent roots ledger ⟨disk, s⟩) {offset : UInt64}
    {data : List UInt8} : Safe (Answers false) (Stopped roots ledger (.write offset data))
      (Returned roots ledger (.write offset data)) trace
      ((Operation.write offset data).code roots s) disk := by
  obtain ⟨nodes, session⟩ := ledger
  cases session with
  | none =>
      have hrefused : writeImpl s offset data = .done .writeFailed := by
        rw [writeImpl]
        split
        · rfl
        · exact if_pos h.session
      simp only [Operation.code, hrefused]
      exact safe_done (h.still _) ⟨_, .writeRefused, h⟩
  | some session =>
      obtain ⟨hmounted, hfd, htarget, hlength, before, hstaged⟩ := h.session
      simp only at hmounted hfd htarget hlength hstaged
      have hbetween : ∀ trace disk',
        (∃ content', Staged roots before s.writeContext content' disk') →
          Stopped roots ⟨nodes, some session⟩ (.write offset data) trace disk' := by
        rintro trace disk' ⟨content', hstaged'⟩
        exact h.stopped _ (Staged.outside hstaged hstaged')
      refine Safe.bind ((writeImpl_safe hbetween hstaged hfd hlength).mono (fun _ _ h => h) ?_)
      rintro trace error disk' ⟨content', hstaged', hlength', hwritten, hrefused⟩
      obtain ⟨hshown, hdurable⟩ := h.unchanged (Staged.outside hstaged hstaged')
      refine safe_done (hbetween _ _ ⟨_, hstaged'⟩) ⟨⟨nodes, some (session.1, content')⟩, ?_,
        hshown, hdurable, hmounted, hfd, htarget, hlength', before, hstaged'⟩
      by_cases hok : error = .ok
      · cases hwritten with
        | all => exact .write
        | part herror => exact absurd hok herror
        | refused herror => exact absurd hok herror
      · obtain rfl := hrefused rfl hok
        simp only [hok, decide_false]
        exact .writeRefused

theorem abort_stopped (h : Consistent roots ledger ⟨disk, s⟩) :
    Safe (Answers false) (Stopped roots ledger .abort) (Returned roots ledger .abort) trace
      (Operation.abort.code roots s) disk := by
  obtain ⟨nodes, session⟩ := ledger
  cases session with
  | none =>
      have hidle : abortImpl s = .done s := if_pos h.session
      simp only [Operation.code, hidle]
      exact safe_done (h.still _) ⟨_, .abort, h⟩
  | some session =>
      obtain ⟨hmounted, hfd, htarget, hlength, before, hstaged⟩ := h.session
      simp only at hmounted hfd htarget hlength hstaged
      have hsame : ∀ disk' : Disk, (∀ path, path ≠ s.writeContext.stagingPath →
          disk'.lookup path = disk.lookup path) →
          ∀ path, ¬ InStaging roots path → disk'.lookup path = disk.lookup path :=
        fun disk' hother path hpath => hother path (by rintro rfl; exact hpath hstaged.area)
      refine Safe.bind ((abortImpl_safe hstaged fun trace disk' hother =>
        h.stopped _ (hsame disk' hother)).mono (fun _ _ h => h) ?_)
      rintro trace s' disk' ⟨rfl, hother⟩
      have houtside := hsame disk' fun path hne => by rw [hother path hne, hstaged.other path hne]
      obtain ⟨hshown, hdurable⟩ := h.unchanged houtside
      exact safe_done (h.stopped _ houtside) ⟨⟨nodes, none⟩, .abort, hshown, hdurable, rfl⟩

/-- A ledger entry that was installed, or not. -/
theorem Installed.nodes {before : Disk} {target : Path} {content : List UInt8}
    {nodes : Path → Option Node} (h : Installed roots before target content disk)
    (hbefore : ∀ path, ¬ InStaging roots path → before.lookup path = nodes path)
    (hdurable : ∀ path content, ¬ InStaging roots path → nodes path ≠ some (.file content false)) :
    Durable roots disk ∧ (Shows roots ⟨nodes, none⟩ disk ∨
      Shows roots ⟨Function.update nodes target (some (.file content true)), none⟩ disk) := by
  constructor
  · intro path content' hpath
    rcases h path hpath with hsame | ⟨-, hnew⟩
    · rw [hsame, hbefore path hpath]
      exact hdurable path content' hpath
    · simp [hnew]
  · by_cases hold : ∀ path, ¬ InStaging roots path → disk.lookup path = before.lookup path
    · exact .inl fun path hpath => (hold path hpath).trans (hbefore path hpath)
    · push Not at hold
      obtain ⟨changed, hchanged, hne⟩ := hold
      refine .inr fun path hpath => ?_
      rcases h changed hchanged with hsame | ⟨rfl, hnew⟩
      · exact absurd hsame hne
      · by_cases heq : path = changed
        · subst heq
          simp [hnew]
        · change disk.lookup path = Function.update nodes changed _ path
          rw [Function.update_of_ne heq]
          rcases h path hpath with hsame | ⟨heq', -⟩
          · exact hsame.trans (hbefore path hpath)
          · exact absurd heq' heq

theorem commit_stopped (h : Consistent roots ledger ⟨disk, s⟩) :
    Safe (Answers false) (Stopped roots ledger .commit) (Returned roots ledger .commit) trace
      (Operation.commit.code roots s) disk := by
  obtain ⟨nodes, session⟩ := ledger
  cases session with
  | none =>
      have hrefused : commitImpl roots s = .done (.commitFailed, s) := by
        rw [commitImpl]
        split
        · rfl
        · exact if_pos h.session
      simp only [Operation.code, hrefused]
      exact safe_done (h.still _) ⟨_, .commitFailed, h⟩
  | some session =>
      obtain ⟨target, content⟩ := session
      obtain ⟨hmounted, hfd, rfl, hlength, before, hstaged⟩ := h.session
      simp only at hmounted hfd hlength hstaged
      have hbefore : ∀ path, ¬ InStaging roots path → before.lookup path = nodes path := by
        intro path hpath
        rw [← hstaged.other path (by rintro rfl; exact hpath hstaged.area)]
        exact h.shown path hpath
      have hdurable : ∀ path content, ¬ InStaging roots path →
          nodes path ≠ some (.file content false) := by
        intro path content' hpath
        have hshown : disk.lookup path = nodes path := h.shown path hpath
        rw [← hshown]
        exact h.durable path content' hpath
      have hbetween : ∀ trace disk', Between roots false before s.writeContext.targetPath content
          trace disk' → Stopped roots ⟨nodes, some (s.writeContext.targetPath, content)⟩ .commit
            trace disk' := by
        intro trace disk' hdisk hlast
        rcases hdisk rfl with hmoved | hinstalled
        · exact absurd hmoved hlast
        · obtain ⟨hdurable', hshown | hshown⟩ := Installed.nodes hinstalled hbefore hdurable
          · exact ⟨_, .interrupted, hshown, hdurable'⟩
          · exact ⟨_, .commitInterrupted, hshown, hdurable'⟩
      have hkept : ∀ disk', (∃ backup, Elsewhere roots before s.writeContext.targetPath
          s.writeContext.stagingPath backup disk') → ∀ path, ¬ InStaging roots path →
          path ≠ s.writeContext.targetPath → disk'.lookup path = nodes path := by
        rintro disk' ⟨backup, harea, hother⟩ path hpath hne
        rw [← hbefore path hpath]
        refine hother path hne ?_ ?_
        · rintro rfl
          exact hpath hstaged.area
        · rintro rfl
          exact hpath harea
      refine Safe.bind ((commitImpl_safe hstaged hfd).ending.mono hbetween ?_)
      rintro trace ⟨error, s'⟩ disk' ⟨hstop, houtcome⟩
      refine safe_done (hbetween _ _ hstop) ?_
      cases houtcome with
      | committed hok hclosed hmounted htarget helsewhere =>
          simp only at hok hclosed
          subst hok
          have hidle : s'.writeContext.active = false := by rw [hclosed]
          have hshown : Shows roots ⟨Function.update nodes s.writeContext.targetPath
              (some (.file content true)), none⟩ disk' := by
            intro path hpath
            by_cases heq : path = s.writeContext.targetPath
            · subst heq
              simp [htarget]
            · change disk'.lookup path = Function.update nodes s.writeContext.targetPath _ path
              rw [Function.update_of_ne heq, hkept disk' helsewhere path hpath heq]
          refine ⟨_, .commit, hshown, ?_, hidle⟩
          intro path content' hpath
          by_cases heq : path = s.writeContext.targetPath
          · subst heq
            simp [htarget]
          · change disk'.lookup path ≠ _
            rw [hkept disk' helsewhere path hpath heq]
            exact hdurable path content' hpath
      | failed herror hclosed hmounted htarget helsewhere =>
          simp only at herror hclosed
          have hidle : s'.writeContext.active = false := by rw [hclosed]
          have hsame : ∀ path, ¬ InStaging roots path → disk'.lookup path = disk.lookup path := by
            intro path hpath
            have hshown : disk.lookup path = nodes path := h.shown path hpath
            by_cases heq : path = s.writeContext.targetPath
            · subst heq
              rw [htarget, hshown, hbefore _ hpath]
            · rw [hkept disk' helsewhere path hpath heq, hshown]
          obtain ⟨hshown, hdurable'⟩ := h.unchanged hsame
          simp only [herror, decide_false]
          exact ⟨⟨nodes, none⟩, .commitFailed, hshown, hdurable', hidle⟩
      | stuck hfaulty => cases hfaulty

end Invariant

section PowerLoss

variable {roots : RootConfig}

/-- The power is lost between the two renames that replace a file. -/
def LostBetweenRenames (roots : RootConfig) : Event → Prop
  | .finished .. => False
  | .interrupted _ trace => MovedAway roots trace

theorem operation_stopped (hroots : Separate roots) {ledger : Ledger} {disk : Disk}
    {s : StorageFatfs} (h : Consistent roots ledger ⟨disk, s⟩) (operation : Operation)
    (trace : Trace) :
    Safe (Answers false) (Stopped roots ledger operation) (Returned roots ledger operation) trace
      (operation.code roots s) disk := by
  cases operation with
  | mount => exact mount_stopped h
  | beginWrite path size replace => exact beginWrite_stopped hroots h
  | write offset data => exact write_stopped h
  | commit => exact commit_stopped h
  | abort => exact abort_stopped h

theorem step_consistent (hroots : Separate roots) {ledger : Ledger} {m m' : Machine} {event : Event}
    (h : Consistent roots ledger m) (hstep : MachineStep roots m event m')
    (hwhole : ¬ LostBetweenRenames roots event) :
    ∃ ledger', LedgerStep roots ledger event ledger' ∧ Consistent roots ledger' m' := by
  cases hstep with
  | finished hrun => exact (operation_stopped hroots h _ []).result hrun
  | interrupted hrun hsurvives =>
      obtain ⟨nodes, hstep, hshown, hdurable⟩ :=
        ((operation_stopped hroots h _ []).run hrun).stopped hwhole
      obtain ⟨hshown', hdurable'⟩ := hshown.survives hdurable hsurvives
      exact ⟨_, hstep, hshown', hdurable', rfl⟩

/-- Whenever the power is lost, but for one place in a commit, the disk shows what the
sessions have committed. -/
theorem replacement_atomic (roots : RootConfig) (hroots : Separate roots) (disk : Disk)
    (hdurable : Durable roots disk) (events : List Event) (m : Machine)
    (hrun : Run (MachineStep roots) ⟨disk, {}⟩ events m)
    (hwhole : ∀ event ∈ events, ¬ LostBetweenRenames roots event) :
    ∃ ledger, Run (LedgerStep roots) ⟨disk.lookup, none⟩ events ledger ∧
      Shows roots ledger m.disk := by
  have hconsistent : ∃ ledger, Run (LedgerStep roots) ⟨fun path => disk.lookup path, none⟩ events
      ledger ∧ Consistent roots ledger m := by
    refine hrun.invariant (P := fun events m => (∀ event ∈ events,
      ¬ LostBetweenRenames roots event) → ∃ ledger, Run (LedgerStep roots)
        ⟨fun path => disk.lookup path, none⟩ events ledger ∧ Consistent roots ledger m) ?_ ?_ hwhole
    · intro _
      exact ⟨_, .nil _, fun _ _ => rfl, hdurable, rfl⟩
    · intro events m event m' ih hstep hwhole
      obtain ⟨ledger, hledger, hconsistent⟩ := ih fun event hmem => hwhole event (by simp [hmem])
      obtain ⟨ledger', hnext, hconsistent'⟩ := step_consistent hroots hconsistent hstep
        (hwhole event (by simp))
      exact ⟨ledger', .snoc hledger hnext, hconsistent'⟩
  obtain ⟨ledger, hledger, hconsistent⟩ := hconsistent
  exact ⟨ledger, hledger, hconsistent.shown⟩

/-- The first calls of an operation, or all of them, on a disk that fails only when it
must and loses nothing. -/
def attempt (roots : RootConfig) (m : Machine) : Operation × Option Nat → Option (Machine × Event)
  | (operation, some calls) =>
      let reached := execute serve calls (operation.code roots m.object, m.disk)
      some (⟨reached.2.2, {}⟩, .interrupted operation reached.1)
  | (operation, none) =>
      let reached := execute serve 64 (operation.code roots m.object, m.disk)
      reached.2.1.value?.map fun result =>
        (⟨reached.2.2, result.2⟩, .finished operation reached.1 result.1)

def runScript (roots : RootConfig) (m : Machine) :
    List (Operation × Option Nat) → Option (Machine × List Event)
  | [] => some (m, [])
  | entry :: rest => do
      let (m, event) ← attempt roots m entry
      let (m, events) ← runScript roots m rest
      return (m, event :: events)

theorem survives_refl (disk : Disk) : Survives disk disk := by
  intro path
  split
  · rename_i content hfile
    exact ⟨content, false, hfile⟩
  · rfl

theorem attempt_step {m m' : Machine} {entry : Operation × Option Nat} {event : Event}
    (h : attempt roots m entry = some (m', event)) : MachineStep roots m event m' := by
  obtain ⟨operation, calls⟩ := entry
  cases calls with
  | some calls =>
      obtain ⟨rfl, rfl⟩ := Prod.mk.inj (Option.some.inj h)
      exact .interrupted (execute_run _ serve (answers_serve false) calls _) (survives_refl _)
  | none =>
      obtain ⟨⟨success, s'⟩, hvalue, hresult⟩ := Option.map_eq_some_iff.mp h
      obtain ⟨rfl, rfl⟩ := Prod.mk.inj hresult
      exact .finished (execute_result _ serve (answers_serve false) hvalue)

theorem runScript_run {m m' : Machine} {script : List (Operation × Option Nat)}
    {events : List Event} (h : runScript roots m script = some (m', events)) :
    Run (MachineStep roots) m events m' := by
  induction script generalizing m events with
  | nil =>
      obtain ⟨rfl, rfl⟩ := Prod.mk.inj (Option.some.inj h)
      exact .nil m
  | cons entry rest ih =>
      obtain ⟨⟨m₁, event⟩, hfirst, hafter⟩ := Option.bind_eq_some_iff.mp h
      obtain ⟨⟨m₂, events'⟩, hrest, hresult⟩ := Option.bind_eq_some_iff.mp hafter
      obtain ⟨rfl, rfl⟩ := Prod.mk.inj (Option.some.inj hresult)
      exact run_cons_iff.mpr ⟨m₁, attempt_step hfirst, ih hrest⟩

/-- The replacement of a file, interrupted after `calls` calls of its commit. -/
def interruptedScript (calls : Nat) : List (Operation × Option Nat) :=
  [(.mount, none), (.beginWrite (bytesOf "/a") 3 true, none), (.write 0 [7, 8, 9], none),
    (.commit, some calls), (.mount, none)]

def isSynced : Node → Bool
  | .directory => true
  | .file _ synced => synced

theorem durable_of_entries {disk : Disk} (h : ∀ entry ∈ disk.entries, isSynced entry.2 = true) :
    Durable roots disk := by
  intro path content _ hfile
  have hentry := h _ (List.of_mem_dlookup hfile)
  cases hentry

theorem durable_replacedDisk : Durable kSpiNorRootConfig replacedDisk :=
  durable_of_entries (by decide +kernel)

theorem interruptedScript_installed :
    (runScript kSpiNorRootConfig ⟨replacedDisk, {}⟩ (interruptedScript 3)).map (fun reached =>
      (reached.1.object.mounted, reached.2.all fun
        | .finished .. => true
        | .interrupted _ trace => (renamedLast trace).all
            (kSpiNorRootConfig.stagingRoot ++ [slash]).isPrefixOf)) = some (true, true) := by
  decide +kernel

theorem inStaging_of_isPrefixOf {path : Path}
    (h : (roots.stagingRoot ++ [slash]).isPrefixOf path = true) : InStaging roots path := by
  obtain ⟨name, hname⟩ := List.isPrefixOf_iff_prefix.mp h
  exact ⟨name, by rw [← hname, child, List.append_assoc, List.singleton_append]⟩

theorem replacement_atomic_installed : ∃ events m ledger,
    Run (MachineStep kSpiNorRootConfig) ⟨replacedDisk, {}⟩ events m ∧ m.object.mounted = true ∧
      Run (LedgerStep kSpiNorRootConfig) ⟨replacedDisk.lookup, none⟩ events ledger ∧
      Shows kSpiNorRootConfig ledger m.disk := by
  obtain ⟨⟨m, events⟩, hscript, hchecks⟩ := Option.map_eq_some_iff.mp interruptedScript_installed
  obtain ⟨hmounted, hstaged⟩ := Prod.mk.inj hchecks
  have hrun := runScript_run hscript
  have hwhole : ∀ event ∈ events, ¬ LostBetweenRenames kSpiNorRootConfig event := by
    intro event hmem hlost
    have hevent := List.all_eq_true.mp hstaged event hmem
    cases event with
    | finished operation trace success => exact hlost
    | interrupted operation trace =>
        obtain ⟨source, hsource, houtside⟩ := hlost
        simp only [hsource, Option.all_some] at hevent
        exact houtside (inStaging_of_isPrefixOf hevent)
  obtain ⟨ledger, hledger, hshown⟩ := replacement_atomic kSpiNorRootConfig separate_spiNor
    replacedDisk durable_replacedDisk events m hrun hwhole
  exact ⟨events, m, ledger, hrun, hmounted, hledger, hshown⟩

/-- Every path that was in use stays in use. -/
theorem LedgerStep.keeps {ledger ledger' : Ledger} {event : Event} {path : Path}
    (h : LedgerStep roots ledger event ledger') (hpath : ledger.nodes path ≠ none) :
    ledger'.nodes path ≠ none := by
  have hroots : ∀ nodes', MakesRoots roots ledger.nodes nodes' → nodes' path ≠ none := by
    intro nodes' hnodes
    rcases hnodes path with hsame | ⟨-, hnone, -⟩
    · rwa [hsame]
    · exact absurd hnone hpath
  have hupdate : ∀ target content, Function.update ledger.nodes target
      (some (Node.file content true)) path ≠ none := by
    intro target content
    by_cases heq : path = target
    · simp [heq]
    · rwa [Function.update_of_ne heq]
  cases h with
  | mount hnodes => exact hroots _ hnodes
  | mountInterrupted hnodes => exact hroots _ hnodes
  | commit => exact hupdate _ _
  | commitInterrupted => exact hupdate _ _
  | started => exact hpath
  | startRefused => exact hpath
  | write => exact hpath
  | writeRefused => exact hpath
  | commitFailed => exact hpath
  | abort => exact hpath
  | interrupted => exact hpath

theorem interruptedScript_lost :
    (runScript kSpiNorRootConfig ⟨replacedDisk, {}⟩ (interruptedScript 2)).map (fun reached =>
      (reached.1.object.mounted, reached.1.disk.lookup (bytesOf "/persist/files/a"))) =
      some (true, none) := by
  decide +kernel

theorem replacement_loses_target : ∃ events m,
    Run (MachineStep kSpiNorRootConfig) ⟨replacedDisk, {}⟩ events m ∧ m.object.mounted = true ∧
      ∀ ledger, Run (LedgerStep kSpiNorRootConfig) ⟨replacedDisk.lookup, none⟩ events ledger →
        ¬ Shows kSpiNorRootConfig ledger m.disk := by
  obtain ⟨⟨m, events⟩, hscript, hlost⟩ := Option.map_eq_some_iff.mp interruptedScript_lost
  obtain ⟨hmounted, hnone⟩ := Prod.mk.inj hlost
  refine ⟨events, m, runScript_run hscript, hmounted, fun ledger hledger hshown => ?_⟩
  have hkept : ledger.nodes (bytesOf "/persist/files/a") ≠ none := by
    refine hledger.invariant (P := fun _ ledger => ledger.nodes (bytesOf "/persist/files/a") ≠ none)
      ?_ fun _ _ _ _ hkept hstep => hstep.keeps hkept
    decide +kernel
  have houtside : ¬ InStaging kSpiNorRootConfig (bytesOf "/persist/files/a") := by
    have htarget : ¬ InStaging kSpiNorRootConfig
        (kSpiNorRootConfig.fileTransferRoot ++ bytesOf "/a") :=
      not_inStaging_target separate_spiNor (by decide +kernel)
    rwa [show bytesOf "/persist/files/a" = kSpiNorRootConfig.fileTransferRoot ++ bytesOf "/a" by
      decide +kernel]
  rw [← hshown _ houtside, hnone] at hkept
  exact hkept rfl

end PowerLoss

end EspNp2.StorageBackend.FatfsPowerLoss
