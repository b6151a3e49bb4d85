import EspNp2.FileTransfer.EndpointContract

/-!
The file service, the transfer manager and the RAM backend together, under every
sequence of requests, frames, polls and aborts: the files change only when a session
commits, and then to the file its stream stands for.
-/

namespace EspNp2.FileTransfer.ServiceAtomicity

open EspNp2.BinaryDataPlane
open EspNp2.BinaryDataPlane.Transfer (Device Direction OutputSink EndpointResult)
open EspNp2.BinaryDataPlane.TransferContract
open EspNp2.FileTransfer.EndpointContract
open EspNp2.FileTransfer.EndpointPhases
open EspNp2.FileTransfer.Service
open EspNp2.FileTransfer.StorageHistory
open EspNp2.Library.LabelledRun
open EspNp2.StorageBackend
open EspNp2.StorageBackend.RamStorage (StorageRam)
open EspNp2.StorageBackend.RamVisibility (visible staged Storable)
open EspNp2.StorageBackend.StorageInterface (Path slash)

variable {O C : Type}

/-- What can happen to a device that runs the service. -/
inductive Operation where
  | stat (path : Path)
  | listPage (path cursor : Path) (limit : Nat)
  | beginRead (path : Path) (offset : UInt64) (length : Option UInt64)
  | beginWrite (path : Path) (options : WriteOptions)
  | status (transferId : UInt32)
  | sha256 (path : Path)
  | abort (transferId : UInt32)
  | poll (nowMs : UInt32)
  | handleDecodedFrame (decoded : List UInt8) (nowMs : UInt32)

def perform (hash : Sha256 C) (d : Device (World Observed O)) :
    Operation → Device (World Observed O)
  | .stat path => (stat observedApi d path).2
  | .listPage path cursor limit => (listPage observedApi d path cursor limit).2
  | .beginRead path offset length => (beginRead observedApi observedEndpoint d path offset length).2
  | .beginWrite path options => (beginWrite observedApi observedEndpoint d path options).2
  | .status _ => d
  | .sha256 path => (sha256 observedApi hash d path).2
  | .abort transferId => (Transfer.abort d transferId).2
  | .poll nowMs => Transfer.poll d nowMs
  | .handleDecodedFrame decoded nowMs => Transfer.handleDecodedFrame d decoded nowMs

def performAll (hash : Sha256 C) (d : Device (World Observed O)) (ops : List Operation) :
    Device (World Observed O) :=
  ops.foldl (perform hash) d

/-- A device whose manager and service were just initialised. -/
def boot (nextTransferId : UInt32) (write : Option (O → List UInt8 → Bool × O)) (output : O)
    (maxFileBytes : UInt64) : Device (World Observed O) where
  manager := Transfer.init nextTransferId (outputSink write)
  world :=
    { storage := { ram := RamStorage.init }
      output := output
      maxFileBytes := maxFileBytes }

variable {start : StorageRam} {write : Option (O → List UInt8 → Bool × O)}
  {d : Device (World Observed O)}

theorem holds_withWorld (h : Holds (endpointContract start write) d)
    (hidle : d.manager.active = false) {w : World Observed O} {closing : Option Closing}
    (hclosed : Closed start w closing) :
    Holds (endpointContract start write) { d with world := w } :=
  ⟨h.output, fun hactive => by simp [hidle] at hactive, fun _ => ⟨closing, hclosed⟩⟩

section Queries

theorem stat_snd (d : Device (World Observed O)) (path : Path) :
    (stat observedApi d path).2 = d := by
  rw [stat]
  split_ifs
  · rfl
  · rfl

theorem statFile_snd (d : Device (World Observed O)) (path : Path) :
    (statFile observedApi d path).2 = d := by
  have hstat := stat_snd d path
  rw [statFile]
  split
  · rename_i heq
    rw [heq] at hstat
    split_ifs
    · exact hstat
    · exact hstat
  · exact hstat

theorem listPage_snd (d : Device (World Observed O)) (path cursor : Path) (limit : Nat) :
    (listPage observedApi d path cursor limit).2 = d := by
  rw [listPage]
  split_ifs
  · rfl
  · rfl
  · rfl

end Queries

section Synchronous

variable {w : World Observed O} {closing : Option Closing}

theorem reported_cleared (history : List Moment) : Reported history {} := by
  intro hvalid
  cases hvalid

theorem holds_touchFile (h : Holds (endpointContract start write) d)
    (hidle : d.manager.active = false) (path : Path) :
    Holds (endpointContract start write) (touchFile observedApi d path).2 ∧
      (touchFile observedApi d path).2.manager = d.manager := by
  obtain ⟨closing, hclosed⟩ := h.inactive hidle
  simp only [touchFile, observedApi]
  rcases hbegin : RamStorage.beginReadImpl d.world.storage.ram path with ⟨error, ram⟩
  by_cases herror : error = .ok
  · subst herror
    obtain ⟨hexplains, hreported, hreading⟩ := Closed.beginRead hclosed hbegin
    obtain ⟨hquiet, hvisible⟩ := RamVisibility.closeRead_quiet hreading
    simp only [ne_eq, not_true_eq_false, if_false]
    exact ⟨holds_withWorld h hidle (w := closeSession observedApi _)
      ⟨hexplains.record hvisible .close, hreported.record (by simp), hquiet⟩, trivial⟩
  · simp only [ne_eq, herror, not_false_eq_true, if_true]
    exact ⟨holds_withWorld h hidle (Closed.beginReadFailed hclosed herror hbegin), trivial⟩

/-- A write of no bytes commits an empty file. -/
theorem holds_writeEmpty (h : Holds (endpointContract start write) d)
    (hidle : d.manager.active = false) {path : Path} (hpath : Storable path)
    (options : WriteOptions) :
    Holds (endpointContract start write) (writeEmpty observedApi d path options).2 := by
  obtain ⟨closing, hclosed⟩ := h.inactive hidle
  simp only [writeEmpty, observedApi]
  rcases hbegin : RamStorage.beginWriteImpl d.world.storage.ram path 0 options.replace with
    ⟨error, ram⟩
  by_cases herror : error = .ok
  · subst herror
    obtain ⟨hexplains, hreported, hwriting⟩ := Closed.beginWrite hclosed hpath hbegin
    obtain ⟨ram', hcommit, hquiet, hvisible⟩ := RamVisibility.commitImpl_ok hwriting
    have hempty : staged ram = [] := by
      rw [← List.length_eq_zero_iff]
      exact RamVisibility.staged_length hwriting
    have hstep : Step ⟨visible ram, .writing path 0 none [] [], closing⟩
        ⟨.commit .ok, visible ram'⟩ ⟨visible ram', .idle, some (.committed 0 none [])⟩ := by
      rw [hvisible, hempty]
      exact .commit ⟨rfl, rfl, rfl⟩
    simp only [Observed.record, hcommit, ne_eq, not_true_eq_false, if_false]
    exact holds_withWorld h hidle
      ⟨⟨.snoc hexplains.run hstep, rfl⟩, reported_cleared _, hquiet⟩
  · simp only [ne_eq, herror, not_false_eq_true, if_true]
    exact holds_withWorld h hidle (Closed.beginWriteFailed hclosed herror hbegin)

end Synchronous

section Paths

open EspNp2.FileTransfer.PathValidation

theorem not_mem_of_validComponent {value : Path} (h : validComponent value = true) :
    (0 : UInt8) ∉ value := by
  rw [validComponent] at h
  split_ifs at h
  intro hzero
  have hall := List.all_eq_true.mp h 0 hzero
  revert hall
  decide

theorem mem_component_or_rest {c : UInt8} (hc : c ≠ slash) {rest : Path} (h : c ∈ rest) :
    c ∈ rest.takeWhile (· != slash) ∨
      c ∈ rest.drop ((rest.takeWhile (· != slash)).length + 1) := by
  induction rest with
  | nil => cases h
  | cons first rest ih =>
      by_cases hfirst : first = slash
      · subst hfirst
        right
        simpa [hc] using h
      · have hkeep : (first != slash) = true := by simpa using hfirst
        rw [List.takeWhile_cons, if_pos hkeep, List.length_cons, List.drop_succ_cons]
        rcases List.mem_cons.mp h with rfl | hrest
        · exact .inl (by simp)
        · rcases ih hrest with hcomponent | hlater
          · exact .inl (by simp [hcomponent])
          · exact .inr hlater

theorem not_mem_of_validateFrom {rounds : Nat} {rest : Path}
    (h : validateFrom rounds rest = true) : (0 : UInt8) ∉ rest := by
  induction rounds generalizing rest with
  | zero =>
      cases rest with
      | nil => simp
      | cons c rest => cases h
  | succ rounds ih =>
      cases rest with
      | nil => simp
      | cons c rest =>
          rw [validateFrom] at h
          split_ifs at h with hcomponent
          · intro hzero
            rcases mem_component_or_rest (by decide) hzero with hin | hlater
            · exact not_mem_of_validComponent (by simpa using hcomponent) hin
            · exact ih h hlater
          · simp

/-- The service hands only paths to the backend that its entries can hold. -/
theorem storable_of_validate {path : Path} {allowRoot : Bool}
    (h : ¬ validate path allowRoot = false) : Storable path := by
  rw [Bool.not_eq_false, validate] at h
  split_ifs at h with hbad hroot hlast
  · rw [hroot]
    decide
  · refine ⟨by omega, fun hzero => ?_⟩
    cases path with
    | nil => cases hzero
    | cons c rest =>
        rcases List.mem_cons.mp hzero with rfl | hrest
        · exact hbad (.inr (.inr (.inl (by simp [slash]))))
        · exact not_mem_of_validateFrom h hrest

end Paths

section Transfers

/-- What the service records of a transfer it has begun leaves its phase. -/
theorem holds_copyCurrent (h : Holds (endpointContract start write) d) (path : Path)
    (direction : Direction) (encoding : Encoding) (logicalSize wireSize : UInt64)
    (transferId : UInt32) :
    Holds (endpointContract start write) { d with
      world := copyCurrent d.world path direction encoding logicalSize wireSize transferId } := by
  refine ⟨h.output, ?_, ?_⟩
  · intro hactive
    obtain ⟨hlive, hconsistent, hpositioned, hrunning⟩ := h.active hactive
    refine ⟨hlive, hconsistent, hpositioned, hrunning.1, ?_⟩
    rcases hrunning.2 with ⟨accepted, hwriter, hopen, hcodec, hstaging⟩ | ⟨hreader, hopen⟩
    · exact .inl ⟨accepted, hwriter, { hopen with reported := reported_cleared _ },
        hcodec, hstaging⟩
    · exact .inr ⟨hreader, { hopen with reported := reported_cleared _ }⟩
  · intro hidle
    obtain ⟨closing, hclosed⟩ := h.inactive hidle
    exact ⟨closing, { hclosed with reported := reported_cleared _ }⟩

theorem holds_startWrite (h : Holds (endpointContract start write) d)
    (hidle : d.manager.active = false) {path : Path} (hpath : Storable path)
    {options : WriteOptions}
    (hsizes : options.encoding = .raw → options.logicalSizeBytes = options.wireSizeBytes) :
    Holds (endpointContract start write) (startWrite observedEndpoint d path options).2 := by
  obtain ⟨closing, hclosed⟩ := h.inactive hidle
  rw [startWrite]
  generalize hcontext : ({ write := true
                           replace := options.replace
                           logicalSize := options.logicalSizeBytes
                           wireSize := options.wireSizeBytes
                           encoding := options.encoding
                           path := path } : EndpointContext) = context
  have hwrite : context.write = true := by rw [← hcontext]
  have hwire : context.wireSize = options.wireSizeBytes := by rw [← hcontext]
  have hstorable : Storable context.path := by
    rw [← hcontext]
    exact hpath
  have hfresh : Fresh context := by
    rw [← hcontext]
    exact ⟨rfl, rfl, hsizes⟩
  have hclosed' := hclosed.withEndpoint context
  have hprepared := holds_withWorld h hidle hclosed'
  have hbegun : Holds (endpointContract start write)
      (Transfer.beginRx { d with world := { d.world with endpoint := context } }
        options.wireSizeBytes observedEndpoint
        { transport := options.transport, windowFrames := options.windowFrames }).2 := by
    refine holds_beginCommon_of hprepared ?_ ?_
    · intro begin world _ hbegin hresult _ _
      obtain rfl := Option.some.inj hbegin
      rcases endpointBegin_write hclosed' hwrite .hostToDevice options.wireSizeBytes with
        ⟨ram, hram, hopened⟩ | ⟨w', hfailed, -⟩
      · obtain ⟨hwrite', -, -, hwire', -, hcodec, -, -⟩ := openedContext_fields context
        simp only [hopened, if_true, Prod.mk.injEq, true_and] at hresult
        obtain rfl := hresult
        refine ⟨rfl, .inl ⟨[], ⟨hwrite'.trans hwrite, rfl, ?_, rfl⟩,
          begin_write hclosed' hfresh hstorable hram, hcodec.trans hfresh.codecError,
          staging_openedContext hfresh _⟩⟩
        exact (hwire'.trans hwire).symm
      · simp only [hfailed, reduceCtorEq, if_false, Prod.mk.injEq, false_and] at hresult
    · intro begin world _ hbegin hresult
      obtain rfl := Option.some.inj hbegin
      rcases endpointBegin_write hclosed' hwrite .hostToDevice options.wireSizeBytes with
        ⟨ram, hram, hopened⟩ | ⟨w', hfailed, hstill⟩
      · simp only [hopened, if_true, Prod.mk.injEq, reduceCtorEq, false_and] at hresult
      · simp only [hfailed, reduceCtorEq, if_false, Prod.mk.injEq, true_and] at hresult
        obtain rfl := hresult
        exact ⟨closing, hstill⟩
  generalize Transfer.beginRx { d with world := { d.world with endpoint := context } }
    options.wireSizeBytes observedEndpoint
    { transport := options.transport, windowFrames := options.windowFrames } = result at hbegun
  obtain ⟨outcome, device⟩ := result
  cases outcome with
  | error error => exact hbegun
  | ok info => exact holds_copyCurrent hbegun _ _ _ _ _ _

theorem holds_beginWrite (h : Holds (endpointContract start write) d) (path : Path)
    (options : WriteOptions) :
    Holds (endpointContract start write)
      (beginWrite observedApi observedEndpoint d path options).2 := by
  rw [beginWrite]
  split_ifs with hpath hbusy hwindow hlarge hempty hsizes hzero
  · exact h
  · exact h
  · exact h
  · exact h
  · exact h
  · exact h
  · exact holds_writeEmpty h (by simpa using hbusy) (storable_of_validate hpath) options
  · refine holds_startWrite h (by simpa using hbusy) (storable_of_validate hpath) fun hraw => ?_
    by_contra hne
    exact hsizes ⟨hraw, hne⟩

theorem holds_startRead (h : Holds (endpointContract start write) d)
    (hidle : d.manager.active = false) (path : Path) (offset selected : UInt64) :
    Holds (endpointContract start write) (startRead observedEndpoint d path offset selected).2 := by
  obtain ⟨closing, hclosed⟩ := h.inactive hidle
  rw [startRead]
  generalize hcontext : ({ write := false
                           fileOffset := offset
                           logicalSize := selected
                           wireSize := selected
                           encoding := .raw
                           path := path } : EndpointContext) = context
  have hwrite : context.write = false := by rw [← hcontext]
  have hwire : context.wireSize = selected := by rw [← hcontext]
  have hfresh : Fresh context := by
    rw [← hcontext]
    exact ⟨rfl, rfl, fun _ => rfl⟩
  have hclosed' := hclosed.withEndpoint context
  have hprepared := holds_withWorld h hidle hclosed'
  have hbegun : Holds (endpointContract start write)
      (Transfer.beginTx { d with world := { d.world with endpoint := context } } selected
        observedEndpoint).2 := by
    refine holds_beginCommon_of hprepared ?_ ?_
    · intro begin world _ hbegin hresult _ _
      obtain rfl := Option.some.inj hbegin
      rcases endpointBegin_read hclosed' hwrite hfresh .deviceToHost selected with
        ⟨w', hopened, hopen, hread, hwire'⟩ | ⟨w', hfailed, -⟩
      · simp only [hopened, if_true, Prod.mk.injEq, true_and] at hresult
        obtain rfl := hresult
        exact ⟨rfl, .inr ⟨⟨hread, rfl, (hwire'.trans hwire).symm⟩, hopen⟩⟩
      · simp only [hfailed, reduceCtorEq, if_false, Prod.mk.injEq, false_and] at hresult
    · intro begin world _ hbegin hresult
      obtain rfl := Option.some.inj hbegin
      rcases endpointBegin_read hclosed' hwrite hfresh .deviceToHost selected with
        ⟨w', hopened, hopen, hread, hwire'⟩ | ⟨w', hfailed, hstill⟩
      · simp only [hopened, if_true, Prod.mk.injEq, reduceCtorEq, false_and] at hresult
      · simp only [hfailed, reduceCtorEq, if_false, Prod.mk.injEq, true_and] at hresult
        obtain rfl := hresult
        exact ⟨closing, hstill⟩
  generalize Transfer.beginTx { d with world := { d.world with endpoint := context } } selected
    observedEndpoint = result at hbegun
  obtain ⟨outcome, device⟩ := result
  cases outcome with
  | error error => exact hbegun
  | ok info => exact holds_copyCurrent hbegun _ _ _ _ _ _

/-- The transfer or the empty read that follows a successful `stat`. -/
theorem holds_beginRead (h : Holds (endpointContract start write) d) (path : Path)
    (offset : UInt64) (length : Option UInt64) :
    Holds (endpointContract start write)
      (beginRead observedApi observedEndpoint d path offset length).2 := by
  rw [beginRead]
  split_ifs with hpath hbusy
  · exact h
  · exact h
  · have hidle : d.manager.active = false := by simpa using hbusy
    have hstat := statFile_snd d path
    split
    · rename_i metadata device heq
      obtain rfl : device = d := by simpa [heq] using hstat
      simp only
      split_ifs
      · exact h
      · exact h
      · obtain ⟨htouched, hmanager⟩ := holds_touchFile h hidle path
        split
        · rename_i touched htouch
          rw [htouch] at htouched hmanager
          have hidle' : touched.manager.active = false := by
            rw [show touched.manager = _ from hmanager]
            exact hidle
          obtain ⟨closing, hclosed⟩ := htouched.inactive hidle'
          exact holds_withWorld htouched hidle' { hclosed with reported := reported_cleared _ }
        · rename_i htouch
          rw [htouch] at htouched
          exact htouched
      · exact holds_startRead h hidle path offset _
    · rename_i heq
      rw [heq] at hstat
      rw [show _ = d from hstat]
      exact h

end Transfers

section Hashing

variable (hash : Sha256 C)

/-- Reading the file for its digest leaves the backend as it is. -/
theorem hashLoop_storage (size : UInt64) (rounds : Nat) (storage : Observed) (context : C)
    (offset : UInt64) :
    (hashLoop hash (fun s offset requested => (RamStorage.readImpl s.ram offset requested, s))
      size rounds storage context offset).2 = storage := by
  induction rounds generalizing context offset with
  | zero => rfl
  | succ rounds ih =>
      rw [hashLoop]
      simp only
      split_ifs
      · rfl
      · rfl
      · split
        · rfl
        · exact ih _ _
      · rfl

theorem hashSession_storage (storage : Observed) (size : UInt64) :
    (hashSession observedApi hash storage size).2 = storage := by
  simp only [hashSession, observedApi, Option.isNone_some, Bool.false_eq_true, if_false]
  split
  · rfl
  · rename_i context _
    have hloop := hashLoop_storage hash size size.toNat storage context 0
    split
    · rename_i heq
      rw [heq] at hloop
      split
      · exact hloop
      · exact hloop
    · rename_i heq
      rw [heq] at hloop
      exact hloop

theorem holds_sha256 (h : Holds (endpointContract start write) d) (path : Path) :
    Holds (endpointContract start write) (sha256 observedApi hash d path).2 := by
  rw [sha256]
  split_ifs with hpath hbusy
  · exact h
  · exact h
  · exact h
  · have hidle : d.manager.active = false := by simpa using hbusy
    obtain ⟨closing, hclosed⟩ := h.inactive hidle
    have hstat := statFile_snd d path
    split
    · exact h
    · rename_i beginRead hread
      obtain rfl := Option.some.inj hread
      split
      · rename_i metadata device heq
        obtain rfl : device = d := by simpa [heq] using hstat
        simp only
        rcases hbegin : RamStorage.beginReadImpl device.world.storage.ram path with ⟨error, ram⟩
        by_cases herror : error = .ok
        · subst herror
          obtain ⟨hexplains, hreported, hreading⟩ := Closed.beginRead hclosed hbegin
          obtain ⟨hquiet, hvisible⟩ := RamVisibility.closeRead_quiet hreading
          simp only [ne_eq, not_true_eq_false, if_false, hashSession_storage]
          have hdone : Holds (endpointContract start write) { device with
              world := closeSession observedApi { device.world with
                storage := device.world.storage.record ram (.beginRead path .ok) } } :=
            holds_withWorld h hidle (w := closeSession observedApi _)
              ⟨hexplains.record hvisible .close, hreported.record (by simp), hquiet⟩
          split_ifs
          · exact hdone
          · exact hdone
        · simp only [ne_eq, herror, not_false_eq_true, if_true]
          exact holds_withWorld h hidle (Closed.beginReadFailed hclosed herror hbegin)
      · rename_i heq
        rw [heq] at hstat
        rw [show _ = d from hstat]
        exact h

end Hashing

section Runs

variable (hash : Sha256 C)

theorem perform_preserves (h : Holds (endpointContract start write) d) (op : Operation) :
    Holds (endpointContract start write) (perform hash d op) := by
  cases op with
  | stat path =>
      rw [perform, stat_snd]
      exact h
  | listPage path cursor limit =>
      rw [perform, listPage_snd]
      exact h
  | beginRead path offset length => exact holds_beginRead h path offset length
  | beginWrite path options => exact holds_beginWrite h path options
  | status transferId => exact h
  | sha256 path => exact holds_sha256 hash h path
  | abort transferId => exact holds_abort h transferId
  | poll nowMs => exact holds_poll h nowMs
  | handleDecodedFrame decoded nowMs =>
      exact holds_handleDecodedFrame h (fun _ _ _ => trivial) nowMs

theorem performAll_preserves (h : Holds (endpointContract start write) d) (ops : List Operation) :
    Holds (endpointContract start write) (performAll hash d ops) := by
  induction ops generalizing d with
  | nil => exact h
  | cons op ops ih => exact ih (perform_preserves hash h op)

theorem holds_boot (nextTransferId : UInt32) (output : O) (maxFileBytes : UInt64) :
    Holds (endpointContract RamStorage.init write)
      (boot nextTransferId write output maxFileBytes) :=
  holds_init (endpointContract RamStorage.init write) nextTransferId
    ⟨none, ⟨⟨.nil _, rfl⟩, reported_cleared _, RamVisibility.quiet_init⟩⟩

/-- Over every run of the service, the manager and the RAM backend, the history of
the backend is a sequence of sessions, each closed once before the next is opened.
What a reader finds changes only when a session commits, at its path, and to the file
its accepted stream stands for. Each terminal summary tells how the session of its
transfer was closed, and a session is open exactly while the manager is active. -/
theorem service_atomic (nextTransferId : UInt32) (write : Option (O → List UInt8 → Bool × O))
    (output : O) (maxFileBytes : UInt64) (ops : List Operation) :
    ∃ observer,
      Run Step { visible := visible RamStorage.init }
        (performAll hash (boot nextTransferId write output maxFileBytes) ops).world.storage.history
        observer ∧
      observer.visible =
        visible (performAll hash (boot nextTransferId write output maxFileBytes)
          ops).world.storage.ram ∧
      (observer.session = .idle ↔
        (performAll hash (boot nextTransferId write output maxFileBytes)
          ops).manager.active = false) ∧
      Reported
        (performAll hash (boot nextTransferId write output maxFileBytes) ops).world.storage.history
        (performAll hash (boot nextTransferId write output maxFileBytes) ops).world.terminal := by
  have hboot : Holds (endpointContract RamStorage.init write)
      (boot nextTransferId write output maxFileBytes) :=
        holds_boot nextTransferId output maxFileBytes
  have h := performAll_preserves hash hboot ops
  generalize performAll hash (boot nextTransferId write output maxFileBytes) ops = d at h
  cases hactive : d.manager.active with
  | false =>
      obtain ⟨closing, hclosed⟩ := h.inactive hactive
      exact ⟨_, hclosed.explains.run, rfl, by simp, hclosed.reported⟩
  | true =>
      obtain ⟨-, -, -, hrunning⟩ := h.active hactive
      rcases hrunning.2 with ⟨accepted, hwriter, hopen, -⟩ | ⟨hreader, hopen⟩
      · obtain ⟨last, hexplains⟩ := hopen.explains
        exact ⟨_, hexplains.run, rfl, by simp, hopen.reported⟩
      · obtain ⟨path, last, hexplains⟩ := hopen.explains
        exact ⟨_, hexplains.run, rfl, by simp, hopen.reported⟩

end Runs

end EspNp2.FileTransfer.ServiceAtomicity
