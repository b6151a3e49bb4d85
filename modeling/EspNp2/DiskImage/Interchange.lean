import EspNp2.DiskImage.Dosio

/-!
The two kinds of disk image against one read-only file. The file has its content and, when it is
open, a position that is never past the end; an image in memory and an image in the VFS both
show it, call after call.
-/

namespace EspNp2.DiskImage.Interchange

open Dosio

section Reference

/-- The position of an open file, from its start to its end. -/
abbrev Position (content : List UInt8) : Type := Option (Fin (content.length + 1))

def seekPosition (size : ℕ) (pointer method : ℤ) : Option (Fin (size + 1)) :=
  if h : method = seekSet ∧ 0 ≤ pointer ∧ pointer ≤ size then
    some ⟨pointer.toNat, by omega⟩
  else if h : method = seekEnd ∧ -(size : ℤ) ≤ pointer ∧ pointer ≤ 0 then
    some ⟨(size + pointer).toNat, by omega⟩
  else
    none

def available (content : List UInt8) (position : Fin (content.length + 1)) (length : ℕ) : ℕ :=
  min length (content.length - position)

def advance (content : List UInt8) (position : Fin (content.length + 1)) (length : ℕ) :
    Fin (content.length + 1) :=
  ⟨position + available content position length, by rw [available]; omega⟩

variable {largeHdd : Bool} (path : Path) (content : List UInt8)

/-- A call of the reference file. -/
def referenceCall : FileCall largeHdd → Position content → FileResult × Position content
  | .openRb _, some position => (.handle .invalid, some position)
  | .openRb wanted, none =>
      if wanted = some path then (.handle .fixture, some 0) else (.handle .invalid, none)
  | .seek .fixture pointer method, some position =>
      match seekPosition content.length pointer.val method with
      | some target => (.position (target : ℕ), some target)
      | none => (.position (-1), some position)
  | .seek _ _ _, position => (.position (-1), position)
  | .read .fixture length, some position =>
      (.bytes ((content.drop position).take (available content position length.toNat)),
        some (advance content position length.toNat))
  | .read _ _, position => (.bytes [], position)
  | .getsize .fixture, some position => (.size content.length, some position)
  | .getsize _, position => (.size 0, position)
  | .close .fixture, some _ => (.status 0, none)
  | .close .invalid, position => (.status 0, position)
  | .close _, position => (.status (-1), position)

def referenceCalls : List (FileCall largeHdd) → Position content →
    List FileResult × Position content
  | [], position => ([], position)
  | call :: calls, position =>
      let (result, position) := referenceCall path content call position
      let (results, position) := referenceCalls calls position
      (result :: results, position)

end Reference

section Seek

variable {largeHdd : Bool}

theorem posLimit_bounds (largeHdd : Bool) : 0 < posLimit largeHdd ∧ posLimit largeHdd ≤ 2 ^ 63 := by
  cases largeHdd with
  | true => exact ⟨by decide, by decide⟩
  | false => exact ⟨by decide, by decide⟩

theorem wrapPos_eq (value : ℤ) (hlow : -posLimit largeHdd ≤ value)
    (hhigh : value < posLimit largeHdd) : wrapPos largeHdd value = value := by
  rw [wrapPos, Int.emod_eq_of_lt (by omega) (by omega)]
  omega

theorem uintmax_eq (value : ℤ) (hlow : 0 ≤ value) (hhigh : value < 2 ^ 64) :
    uintmax value = value :=
  Int.emod_eq_of_lt hlow hhigh

/-- The magnitude of a negative offset, the smallest one included. -/
theorem magnitude_eq {pointer : ℤ} (hlow : -posLimit largeHdd ≤ pointer) (hnegative : pointer < 0) :
    uintmax (uintmax (wrapPos largeHdd (-wrapPos largeHdd (pointer + 1))) + 1) = -pointer := by
  obtain ⟨hpositive, hlimit⟩ := posLimit_bounds largeHdd
  rw [wrapPos_eq (pointer + 1) (by omega) (by omega),
    wrapPos_eq (-(pointer + 1)) (by omega) (by omega),
    uintmax_eq (-(pointer + 1)) (by omega) (by omega), uintmax_eq _ (by omega) (by omega)]
  omega

/-- The arithmetic of a seek is exact. -/
theorem seekTarget_eq {size : ℕ} (hsize : (size : ℤ) < posLimit largeHdd)
    (pointer : FilePos largeHdd) (method : ℤ) :
    seekTarget largeHdd size pointer.val method =
      (seekPosition size pointer.val method).map fun target : Fin (size + 1) =>
        ((target : ℕ) : ℤ) := by
  obtain ⟨pointer, hlow, hhigh⟩ := pointer
  obtain ⟨hpositive, hlimit⟩ := posLimit_bounds largeHdd
  have hfile : uintmax size = size := uintmax_eq _ (by omega) (by omega)
  dsimp only
  rw [seekTarget, hfile]
  split
  · rename_i hset
    subst hset
    split
    · rename_i hout
      rw [seekPosition, dif_neg, dif_neg]
      · rfl
      · rintro ⟨hend, -⟩
        cases hend
      · rintro ⟨-, hle, hsmall⟩
        rw [uintmax_eq _ hle (by omega)] at hout
        omega
    · rename_i hin
      rw [not_or, not_lt, not_lt] at hin
      rw [uintmax_eq _ hin.1 (by omega)] at hin
      rw [seekPosition, dif_pos ⟨rfl, hin⟩, Option.map_some, Int.toNat_of_nonneg hin.1]
  · rename_i hnotSet
    rw [seekPosition, dif_neg fun h => hnotSet h.1]
    split
    · rename_i hnotEnd
      rw [dif_neg fun h => hnotEnd h.1]
      rfl
    · rename_i hend
      rw [ne_eq, not_not] at hend
      subst hend
      split
      · rename_i hnonneg
        split
        · rename_i hnonzero
          rw [dif_neg fun h => hnonzero (by omega)]
          rfl
        · rename_i hzero
          rw [not_not] at hzero
          subst hzero
          rw [dif_pos ⟨rfl, by omega, le_rfl⟩, Option.map_some]
          simp
      · rename_i hnegative
        dsimp only
        rw [magnitude_eq hlow (by omega)]
        split
        · rename_i hlarge
          rw [dif_neg fun h => by omega]
          rfl
        · rename_i hin
          rw [uintmax_eq _ (by omega) (by omega), wrapPos_eq _ (by omega) (by omega),
            dif_pos ⟨rfl, by omega, by omega⟩, Option.map_some]
          congr 1
          dsimp only
          omega

end Seek

section Reads

variable {content : List UInt8} {kernel : Kernel} {fd position : ℕ}

/-- The kernel has the file, and the descriptor stands at a position. -/
structure OpenAt (content : List UInt8) (kernel : Kernel) (fd position : ℕ) : Prop where
  content : kernel.content = content
  offset : kernel.offsets fd = some position

theorem setOffset_openAt (hcontent : kernel.content = content) :
    OpenAt content (kernel.setOffset fd (some position)) fd position where
  content := hcontent
  offset := if_pos rfl

/-- A read of bytes that are there gives some of them, or it is interrupted. -/
theorem read_openAt (h : OpenAt content kernel fd position) {requested : ℕ}
    (hpositive : 0 < requested) (hthere : position + requested ≤ content.length) :
    ∃ kernel', (kernel.read fd requested = (.error .interrupted, kernel') ∧
        OpenAt content kernel' fd position) ∨
      ∃ count, 0 < count ∧ count ≤ requested ∧
        kernel.read fd requested = (.ok ((content.drop position).take count), kernel') ∧
        OpenAt content kernel' fd (position + count) := by
  have htransfer (count : ℕ) (hcount : count ≤ requested) :
      (kernel.transfer fd position count).1 = (content.drop position).take count ∧
      OpenAt content (kernel.transfer fd position count).2 fd (position + count) := by
    have hlength : ((content.drop position).take count).length = count := by
      rw [List.length_take, List.length_drop]
      omega
    rw [Kernel.transfer, h.content]
    dsimp only
    rw [hlength]
    exact ⟨rfl, setOffset_openAt h.content⟩
  cases hreads : kernel.reads with
  | nil =>
      obtain ⟨hdata, hopen⟩ := htransfer requested le_rfl
      refine ⟨(kernel.transfer fd position requested).2, Or.inr ⟨requested, hpositive, le_rfl, ?_,
        hopen⟩⟩
      rw [Kernel.read, h.offset, hreads]
      dsimp only
      rw [hdata]
  | cons reply reads =>
      cases reply with
      | interrupted =>
          refine ⟨{ kernel with reads := reads }, Or.inl ⟨?_, ⟨h.content, h.offset⟩⟩⟩
          rw [Kernel.read, h.offset, hreads]
      | amount count =>
          obtain ⟨hdata, hopen⟩ := htransfer (min (max 1 count) requested) (Nat.min_le_right _ _)
          refine ⟨{ (kernel.transfer fd position (min (max 1 count) requested)).2 with
            reads := reads }, Or.inr ⟨min (max 1 count) requested, by omega,
            Nat.min_le_right _ _, ?_, ⟨hopen.content, hopen.offset⟩⟩⟩
          rw [Kernel.read, h.offset, hreads]
          dsimp only
          rw [hdata]

/-- Short and interrupted reads add up to the whole length. -/
theorem readLoop_openAt {length : ℕ} {vfs : VfsHandle} {kernel : Kernel} {bytes : List UInt8}
    {position : ℕ} (h : OpenAt content kernel vfs.fd position) (hposition : vfs.position = position)
    (hbytes : bytes.length ≤ length)
    (hthere : position + (length - bytes.length) ≤ content.length) :
    ∃ vfs' kernel', readLoop length vfs kernel bytes =
        (bytes ++ (content.drop position).take (length - bytes.length), vfs', kernel') ∧
      vfs'.fd = vfs.fd ∧ vfs'.size = vfs.size ∧
      vfs'.position = (position + (length - bytes.length) : ℕ) ∧
      OpenAt content kernel' vfs.fd (position + (length - bytes.length)) := by
  fun_induction readLoop length vfs kernel bytes generalizing position with
  | case1 vfs kernel bytes hlt kernel' hread =>
      obtain ⟨next, ⟨herror, -⟩ | ⟨count, hcount, hle, hdata, -⟩⟩ :=
        read_openAt h (by omega) hthere
      · rw [hread] at herror
        cases herror
      · rw [hread] at hdata
        have hempty : (content.drop position).take count = [] := by
          injection hdata with hfirst
          injection hfirst with hfirst
          exact hfirst.symm
        have hlength := congrArg List.length hempty
        rw [List.length_take, List.length_drop, List.length_nil] at hlength
        omega
  | case2 vfs kernel bytes hlt byte rest kernel' hread ih =>
      obtain ⟨next, ⟨herror, -⟩ | ⟨count, hcount, hle, hdata, hopen⟩⟩ :=
        read_openAt h (by omega) hthere
      · rw [hread] at herror
        cases herror
      · rw [hread] at hdata
        injection hdata with hfirst hkernel
        injection hfirst with hfirst
        have hlength : (byte :: rest).length = count := by
          rw [hfirst, List.length_take, List.length_drop]
          omega
        subst hkernel
        have hsum : (bytes ++ byte :: rest).length = bytes.length + count := by
          rw [List.length_append, hlength]
        obtain ⟨vfs', kernel'', hloop, hfd, hsize, hfinal, hopen'⟩ :=
          ih hopen (by rw [hposition, hlength]; push_cast; rfl) (by omega) (by omega)
        have hleft : length - (bytes ++ byte :: rest).length = length - bytes.length - count := by
          omega
        have hend : position + count + (length - bytes.length - count) =
            position + (length - bytes.length) := by
          omega
        rw [hleft, hend] at hopen'
        rw [hleft, hend] at hfinal
        refine ⟨vfs', kernel'', ?_, hfd, hsize, hfinal, hopen'⟩
        have hsplit : (content.drop position).take (length - bytes.length) =
            (content.drop position).take count ++
              (content.drop (position + count)).take (length - bytes.length - count) := by
          rw [← List.drop_drop, ← List.take_add]
          congr 1
          omega
        rw [hloop, hleft, List.append_assoc, hfirst, hsplit]
  | case3 vfs kernel bytes hlt kernel' hread ih =>
      obtain ⟨next, ⟨herror, hopen⟩ | ⟨count, -, -, hdata, -⟩⟩ :=
        read_openAt h (by omega) hthere
      · rw [hread] at herror
        injection herror with hfirst hkernel
        subst hkernel
        exact ih hopen hposition hbytes hthere
      · rw [hread] at hdata
        cases hdata
  | case4 vfs kernel bytes hlt errno kernel' hother hread =>
      obtain ⟨next, ⟨herror, -⟩ | ⟨count, -, -, hdata, -⟩⟩ :=
        read_openAt h (by omega) hthere
      · rw [hread] at herror
        injection herror with hfirst hkernel
        injection hfirst with hfirst
        exact absurd hfirst hother
      · rw [hread] at hdata
        cases hdata
  | case5 vfs kernel bytes hlt =>
      have hzero : length - bytes.length = 0 := by omega
      refine ⟨vfs, kernel, ?_, rfl, rfl, ?_, ?_⟩
      · rw [hzero, List.take_zero, List.append_nil]
      · rw [hzero, hposition, Nat.add_zero]
      · rw [hzero, Nat.add_zero]
        exact h

end Reads

section Refinement

variable {largeHdd : Bool} {path : Path} {content : List UInt8}

/-- The handle of an image in memory. -/
def rawHandle (content : List UInt8) : Position content → Handle
  | none => {}
  | some position =>
      { kind := .rawMemory, active := true, raw := ⟨content, content.length, position⟩ }

/-- The image in memory shows the file. -/
structure RawShows (path : Path) (content : List UInt8) (dosio : DosioState)
    (position : Position content) : Prop where
  kind : dosio.backendKind = .rawMemory
  logical : dosio.fixturePath = path
  data : dosio.fixtureData = content
  size : dosio.fixtureSize = content.length
  handle : dosio.handle = rawHandle content position

/-- The handle of an image in the VFS stands where the descriptor of the kernel stands. -/
def VfsHandleAt (content : List UInt8) (handle : Handle) (kernel : Kernel) :
    Position content → Prop
  | none => handle = {}
  | some position => handle.kind = .vfsFile ∧ handle.active = true ∧
      handle.vfs.size = content.length ∧ handle.vfs.position = (position : ℕ) ∧
      OpenAt content kernel handle.vfs.fd position

/-- The image in the VFS shows the file. -/
structure VfsShows (path : Path) (content : List UInt8) (dosio : DosioState) (kernel : Kernel)
    (position : Position content) : Prop where
  kind : dosio.backendKind = .vfsFile
  logical : dosio.vfsLogicalPath = path
  file : kernel.content = content
  handle : VfsHandleAt content dosio.handle kernel position

theorem uintTruncate_eq {value : ℤ} (hlow : 0 ≤ value) (hhigh : value < 2 ^ 32) :
    uintTruncate value = value.toNat := by
  rw [uintTruncate, Int.emod_eq_of_lt hlow hhigh]

/-- The length of a read is cut at the end of the file. -/
theorem length_raw (position : Fin (content.length + 1)) (length : UInt32) :
    (if length.toNat > content.length - position then
      uintTruncate ((content.length - position : ℕ) : ℤ) else length.toNat) =
        available content position length.toNat := by
  have hword := length.toNat_lt
  rw [available]
  split
  · rw [uintTruncate_eq (by omega) (by omega)]
    omega
  · omega

theorem length_vfs (hsize : (content.length : ℤ) < posLimit largeHdd)
    (position : Fin (content.length + 1)) (length : UInt32) :
    (if (length.toNat : ℤ) > uintmax ((content.length : ℤ) - (position : ℕ)) then
      uintTruncate ((content.length : ℤ) - (position : ℕ)) else length.toNat) =
        available content position length.toNat := by
  have hword := length.toNat_lt
  have hlimit := (posLimit_bounds largeHdd).2
  have hposition := position.isLt
  rw [available, uintmax_eq _ (by omega) (by omega)]
  split
  · rw [uintTruncate_eq (by omega) (by omega)]
    omega
  · omega

/-- What the call of a backend gives is what the reference gives. -/
def Agrees (path : Path) (content : List UInt8) (call : FileCall largeHdd)
    (position : Position content) (outcome : FileResult × DosioState × Kernel)
    (shows : DosioState → Kernel → Position content → Prop) : Prop :=
  outcome.1 = (referenceCall path content call position).1 ∧
    shows outcome.2.1 outcome.2.2 (referenceCall path content call position).2

def callHandle : FileCall largeHdd → Option FileHandle
  | .openRb _ => none
  | .seek handle _ _ => some handle
  | .read handle _ => some handle
  | .getsize handle => some handle
  | .close handle => some handle

/-- A call with a handle that does not stand for the open file. -/
theorem agrees_of_invalid {shows : DosioState → Kernel → Position content → Prop}
    {call : FileCall largeHdd} {handle : FileHandle} {dosio : DosioState} {kernel : Kernel}
    {position : Position content} (h : shows dosio kernel position)
    (hcall : callHandle call = some handle) (hinvalid : validHandle dosio handle = false)
    (hclosed : handle = .fixture → position = none) :
    Agrees path content call position (call.run dosio kernel) shows := by
  have hcase : (!validHandle dosio handle) = true := by
    rw [hinvalid]
    rfl
  cases call with
  | openRb wanted => cases hcall
  | seek handle' pointer method =>
      obtain rfl : handle' = handle := Option.some.inj hcall
      rw [Agrees, FileCall.run, fileSeek, if_pos hcase]
      cases handle' with
      | fixture =>
          rw [hclosed rfl] at h ⊢
          exact ⟨rfl, h⟩
      | invalid => exact ⟨rfl, h⟩
      | other address => exact ⟨rfl, h⟩
  | read handle' length =>
      obtain rfl : handle' = handle := Option.some.inj hcall
      rw [Agrees, FileCall.run, fileRead, if_pos hcase]
      cases handle' with
      | fixture =>
          rw [hclosed rfl] at h ⊢
          exact ⟨rfl, h⟩
      | invalid => exact ⟨rfl, h⟩
      | other address => exact ⟨rfl, h⟩
  | getsize handle' =>
      obtain rfl : handle' = handle := Option.some.inj hcall
      rw [Agrees, FileCall.run, fileGetsize, if_pos hcase]
      cases handle' with
      | fixture =>
          rw [hclosed rfl] at h ⊢
          exact ⟨rfl, h⟩
      | invalid => exact ⟨rfl, h⟩
      | other address => exact ⟨rfl, h⟩
  | close handle' =>
      obtain rfl : handle' = handle := Option.some.inj hcall
      rw [Agrees, FileCall.run, fileClose, if_pos hcase]
      cases handle' with
      | fixture =>
          rw [hclosed rfl] at h ⊢
          exact ⟨rfl, h⟩
      | invalid => exact ⟨rfl, h⟩
      | other address => exact ⟨rfl, h⟩

/-- A second open is refused. -/
theorem agrees_of_open {shows : DosioState → Kernel → Position content → Prop}
    {wanted : Option Path} {dosio : DosioState} {kernel : Kernel}
    {position : Fin (content.length + 1)} (h : shows dosio kernel (some position))
    (hactive : dosio.handle.active = true) :
    Agrees path content (.openRb wanted : FileCall largeHdd) (some position)
      ((FileCall.openRb wanted : FileCall largeHdd).run dosio kernel) shows := by
  rw [Agrees, FileCall.run, fileOpenRb, if_pos hactive]
  exact ⟨rfl, h⟩

/-- A handle value that is not the one of the open file. -/
theorem validHandle_eq_false {dosio : DosioState} {handle : FileHandle}
    (h : handle ≠ .fixture ∨ dosio.handle.active = false) : validHandle dosio handle = false := by
  rw [validHandle]
  rcases h with hhandle | hactive
  · rw [beq_eq_false_iff_ne.mpr hhandle, Bool.false_and, Bool.false_and]
  · rw [hactive, Bool.and_false, Bool.false_and]

theorem validHandle_fixture {dosio : DosioState} (hactive : dosio.handle.active = true)
    (hkind : dosio.handle.kind ≠ .none) : (!validHandle dosio .fixture) = false := by
  rw [validHandle, hactive, bne_iff_ne.mpr hkind]
  rfl

/-- The calls that a kind of image has to answer as the file does. -/
structure Backend (largeHdd : Bool) (path : Path) (content : List UInt8)
    (shows : DosioState → Kernel → Position content → Prop) : Prop where
  closed : ∀ dosio kernel, shows dosio kernel none → dosio.handle.active = false
  active : ∀ dosio kernel position, shows dosio kernel (some position) →
    dosio.handle.active = true
  openRb : ∀ dosio kernel, shows dosio kernel none → ∀ wanted,
    Agrees path content (.openRb wanted : FileCall largeHdd) none
      ((FileCall.openRb wanted : FileCall largeHdd).run dosio kernel) shows
  valid : ∀ dosio kernel position, shows dosio kernel (some position) →
    ∀ call : FileCall largeHdd, callHandle call = some .fixture →
      Agrees path content call (some position) (call.run dosio kernel) shows

variable {shows : DosioState → Kernel → Position content → Prop}

theorem Backend.call (h : Backend largeHdd path content shows) {dosio : DosioState}
    {kernel : Kernel} {position : Position content} (hshows : shows dosio kernel position)
    (call : FileCall largeHdd) :
    Agrees path content call position (call.run dosio kernel) shows := by
  cases hcall : callHandle call with
  | none =>
      cases call with
      | openRb wanted =>
          cases position with
          | none => exact h.openRb dosio kernel hshows wanted
          | some position =>
              exact agrees_of_open hshows (h.active dosio kernel position hshows)
      | seek handle pointer method => cases hcall
      | read handle length => cases hcall
      | getsize handle => cases hcall
      | close handle => cases hcall
  | some handle =>
      by_cases hfixture : handle = .fixture
      · cases position with
        | none =>
            exact agrees_of_invalid hshows hcall
              (validHandle_eq_false (Or.inr (h.closed dosio kernel hshows))) fun _ => rfl
        | some position =>
            rw [hfixture] at hcall
            exact h.valid dosio kernel position hshows call hcall
      · exact agrees_of_invalid hshows hcall (validHandle_eq_false (Or.inl hfixture))
          fun hsame => absurd hsame hfixture

theorem Backend.calls (h : Backend largeHdd path content shows) {dosio : DosioState}
    {kernel : Kernel} {position : Position content} (hshows : shows dosio kernel position)
    (calls : List (FileCall largeHdd)) :
    (runCalls calls dosio kernel).1 = (referenceCalls path content calls position).1 ∧
      shows (runCalls calls dosio kernel).2.1 (runCalls calls dosio kernel).2.2
        (referenceCalls path content calls position).2 := by
  induction calls generalizing dosio kernel position with
  | nil => exact ⟨rfl, hshows⟩
  | cons call calls ih =>
      obtain ⟨hresult, hnext⟩ := h.call hshows call
      obtain ⟨hresults, hfinal⟩ := ih hnext
      exact ⟨congrArg₂ List.cons hresult hresults, hfinal⟩

end Refinement

section Raw

variable {largeHdd : Bool} {path : Path} {content : List UInt8} {dosio : DosioState}
  {kernel : Kernel}

theorem raw_openRb (hpath : path ≠ []) (h : RawShows path content dosio none)
    (wanted : Option Path) :
    Agrees path content (.openRb wanted : FileCall largeHdd) none
      ((FileCall.openRb wanted : FileCall largeHdd).run dosio kernel)
      fun dosio _ position => RawShows path content dosio position := by
  have hinactive : ¬ dosio.handle.active = true := by
    rw [h.handle]
    nofun
  have hnotVfs : (!isVfsPath dosio wanted) = true := by
    cases wanted with
    | none => rfl
    | some wanted =>
        rw [isVfsPath, h.kind]
        rfl
  have hfixture : isFixturePath dosio wanted = decide (wanted = some path) := by
    cases wanted with
    | none => rfl
    | some wanted =>
        rw [isFixturePath, h.kind, h.logical, List.isEmpty_eq_false_iff.mpr hpath]
        rw [Bool.eq_iff_iff]
        simp
  rw [Agrees, FileCall.run, fileOpenRb, if_neg hinactive, hfixture, if_pos hnotVfs]
  by_cases hsame : wanted = some path
  · rw [if_pos (decide_eq_true hsame), referenceCall, if_pos hsame]
    refine ⟨rfl, h.kind, h.logical, h.data, h.size, ?_⟩
    dsimp only
    rw [h.data, h.size]
    rfl
  · rw [if_neg (by simpa using hsame), referenceCall, if_neg hsame]
    exact ⟨rfl, h⟩

theorem raw_valid (hsize : (content.length : ℤ) < posLimit largeHdd)
    {position : Fin (content.length + 1)} (h : RawShows path content dosio (some position))
    {call : FileCall largeHdd} (hcall : callHandle call = some .fixture) :
    Agrees path content call (some position) (call.run dosio kernel)
      fun dosio _ position => RawShows path content dosio position := by
  have hvalid : ¬ (!validHandle dosio .fixture) = true := by
    rw [validHandle_fixture (by rw [h.handle]; rfl) (by rw [h.handle]; nofun)]
    nofun
  have hraw : dosio.handle.kind = .rawMemory := by
    rw [h.handle]
    rfl
  have hwrap : wrapPos largeHdd (content.length : ℤ) = content.length :=
    wrapPos_eq _ (by have := (posLimit_bounds largeHdd).1; omega) hsize
  have hfields : dosio.handle.raw = ⟨content, content.length, position⟩ := by
    rw [h.handle]
    rfl
  cases call with
  | openRb wanted => cases hcall
  | seek handle pointer method =>
      obtain rfl : handle = .fixture := Option.some.inj hcall
      rw [Agrees, FileCall.run, fileSeek, if_neg hvalid, if_pos hraw, hfields, hwrap,
        seekTarget_eq hsize, referenceCall]
      cases seekPosition content.length pointer.val method with
      | none => exact ⟨rfl, h⟩
      | some target =>
          refine ⟨rfl, h.kind, h.logical, h.data, h.size, ?_⟩
          dsimp only
          rw [h.handle]
          rfl
  | read handle length =>
      obtain rfl : handle = .fixture := Option.some.inj hcall
      rw [Agrees, FileCall.run, fileRead, if_neg hvalid, if_pos hraw, hfields, referenceCall]
      dsimp only
      rw [length_raw]
      refine ⟨rfl, h.kind, h.logical, h.data, h.size, ?_⟩
      dsimp only
      rw [h.handle]
      rfl
  | getsize handle =>
      obtain rfl : handle = .fixture := Option.some.inj hcall
      rw [Agrees, FileCall.run, fileGetsize, if_neg hvalid, if_pos hraw, hfields, hwrap,
        referenceCall]
      exact ⟨rfl, h⟩
  | close handle =>
      obtain rfl : handle = .fixture := Option.some.inj hcall
      rw [Agrees, FileCall.run, fileClose, if_neg hvalid, if_neg (by rw [hraw]; nofun),
        referenceCall]
      exact ⟨rfl, h.kind, h.logical, h.data, h.size, rfl⟩

theorem raw_backend (hpath : path ≠ []) (hsize : (content.length : ℤ) < posLimit largeHdd) :
    Backend largeHdd path content fun dosio _ position => RawShows path content dosio position where
  closed := fun _ _ h => by rw [h.handle]; rfl
  active := fun _ _ _ h => by rw [h.handle]; rfl
  openRb := fun _ _ h wanted => raw_openRb hpath h wanted
  valid := fun _ _ _ h _ hcall => raw_valid hsize h hcall

end Raw

section Vfs

variable {largeHdd : Bool} {path : Path} {content : List UInt8} {dosio : DosioState}
  {kernel : Kernel}

theorem vfs_openRb (hpath : path ≠ []) (hsize : (content.length : ℤ) < posLimit largeHdd)
    (h : VfsShows path content dosio kernel none) (wanted : Option Path) :
    Agrees path content (.openRb wanted : FileCall largeHdd) none
      ((FileCall.openRb wanted : FileCall largeHdd).run dosio kernel)
      (VfsShows path content) := by
  have hhandle : dosio.handle = {} := h.handle
  have hinactive : ¬ dosio.handle.active = true := by
    rw [hhandle]
    nofun
  have hnotFixture : ¬ isFixturePath dosio wanted = true := by
    cases wanted with
    | none => nofun
    | some wanted =>
        rw [isFixturePath, h.kind]
        nofun
  have hvfs : isVfsPath dosio wanted = decide (wanted = some path) := by
    cases wanted with
    | none => rfl
    | some wanted =>
        rw [isVfsPath, h.kind, h.logical, List.isEmpty_eq_false_iff.mpr hpath]
        rw [Bool.eq_iff_iff]
        simp
  have hfits : fileSize largeHdd content.length = some (content.length : ℤ) := by
    rw [fileSize, if_neg (by omega)]
  rw [Agrees, FileCall.run, fileOpenRb, if_neg hinactive, if_neg hnotFixture, hvfs]
  by_cases hsame : wanted = some path
  · have hcontent : kernel.openRead.2.content = content := h.file
    rw [if_neg (by simpa using hsame), referenceCall, if_pos hsame]
    dsimp only
    rw [hcontent, hfits]
    refine ⟨rfl, h.kind, h.logical, h.file, rfl, rfl, rfl, rfl, ?_⟩
    exact ⟨h.file, if_pos rfl⟩
  · rw [if_pos (by simpa using hsame), referenceCall, if_neg hsame]
    exact ⟨rfl, h⟩

theorem vfs_valid (hsize : (content.length : ℤ) < posLimit largeHdd)
    {position : Fin (content.length + 1)} (h : VfsShows path content dosio kernel (some position))
    {call : FileCall largeHdd} (hcall : callHandle call = some .fixture) :
    Agrees path content call (some position) (call.run dosio kernel)
      (VfsShows path content) := by
  obtain ⟨hkind, hactive, hlength, hposition, hopen⟩ := h.handle
  have hvalid : ¬ (!validHandle dosio .fixture) = true := by
    rw [validHandle_fixture hactive (by rw [hkind]; nofun)]
    nofun
  have hnotRaw : ¬ dosio.handle.kind = .rawMemory := by
    rw [hkind]
    nofun
  have hdescriptor : (kernel.offsets dosio.handle.vfs.fd).isSome = true := by
    rw [hopen.offset]
    rfl
  cases call with
  | openRb wanted => cases hcall
  | seek handle pointer method =>
      obtain rfl : handle = .fixture := Option.some.inj hcall
      rw [Agrees, FileCall.run, fileSeek, if_neg hvalid, if_neg hnotRaw, hlength,
        seekTarget_eq hsize, referenceCall]
      cases seekPosition content.length pointer.val method with
      | none => exact ⟨rfl, h⟩
      | some target =>
          dsimp only [Option.map_some]
          rw [Kernel.lseek, if_pos hdescriptor]
          refine ⟨rfl, h.kind, h.logical, h.file, hkind, hactive, hlength, rfl, ?_⟩
          exact setOffset_openAt h.file
  | read handle length =>
      obtain rfl : handle = .fixture := Option.some.inj hcall
      have hbound := position.isLt
      obtain ⟨vfs', kernel', hloop, hfd, hsame, hfinal, hopen'⟩ :=
        @readLoop_openAt content (available content position length.toNat) dosio.handle.vfs kernel
          [] position hopen hposition (Nat.zero_le _) (by
            rw [List.length_nil, available]
            omega)
      rw [List.length_nil, Nat.sub_zero] at hloop hfinal hopen'
      rw [Agrees, FileCall.run, fileRead, if_neg hvalid, if_neg hnotRaw]
      dsimp only
      rw [hlength, hposition, length_vfs hsize, referenceCall, hloop]
      refine ⟨rfl, h.kind, h.logical, hopen'.content, hkind, hactive, hsame.trans hlength, hfinal,
        ?_⟩
      dsimp only
      rw [hfd]
      exact hopen'
  | getsize handle =>
      obtain rfl : handle = .fixture := Option.some.inj hcall
      rw [Agrees, FileCall.run, fileGetsize, if_neg hvalid, if_neg hnotRaw, hlength, referenceCall]
      exact ⟨rfl, h⟩
  | close handle =>
      obtain rfl : handle = .fixture := Option.some.inj hcall
      rw [Agrees, FileCall.run, fileClose, if_neg hvalid, if_pos hkind, Kernel.close,
        if_pos hdescriptor, referenceCall]
      exact ⟨rfl, h.kind, h.logical, h.file, rfl⟩

theorem vfs_backend (hpath : path ≠ []) (hsize : (content.length : ℤ) < posLimit largeHdd) :
    Backend largeHdd path content (VfsShows path content) where
  closed := by
    intro dosio kernel h
    have hhandle : dosio.handle = {} := h.handle
    rw [hhandle]
  active := fun _ _ _ h => h.handle.2.1
  openRb := fun _ _ h wanted => vfs_openRb hpath hsize h wanted
  valid := fun _ _ _ h _ hcall => vfs_valid hsize h hcall

end Vfs

section Interchange

variable {path physicalPath : Path} {content : List UInt8} {kernel : Kernel}

theorem copyPath_eq {copied : Path} (h : copyPath (some path) = some copied) :
    copied = path ∧ path ≠ [] := by
  rw [copyPath] at h
  split at h
  · cases h
  · rename_i hempty
    split at h
    · cases h
    · refine ⟨(Option.some.inj h).symm, ?_⟩
      rintro rfl
      exact hempty rfl

theorem raw_attached (h : (attachFixture (some path) (some content) {}).1 = true) :
    path ≠ [] ∧ RawShows path content (attachFixture (some path) (some content) {}).2 none := by
  have hidle : ¬ (({} : DosioState).backendKind ≠ .none ∨ ({} : DosioState).handle.active) := by
    decide
  unfold attachFixture at h ⊢
  rw [if_neg hidle] at h ⊢
  cases hcopy : copyPath (some path) with
  | none =>
      rw [hcopy] at h
      cases h
  | some copied =>
      obtain ⟨rfl, hpath⟩ := copyPath_eq hcopy
      rw [hcopy] at h
      dsimp only at h ⊢
      split at h
      · cases h
      · rename_i hlength
        rw [if_neg hlength]
        exact ⟨hpath, rfl, rfl, rfl, rfl, rfl⟩

theorem vfs_attached (h : (attachVfsFile (some path) (some physicalPath) {}).1 = true)
    (hfile : kernel.content = content) :
    VfsShows path content (attachVfsFile (some path) (some physicalPath) {}).2 kernel none := by
  have hidle : ¬ (({} : DosioState).backendKind ≠ .none ∨ ({} : DosioState).handle.active) := by
    decide
  unfold attachVfsFile at h ⊢
  rw [if_neg hidle] at h ⊢
  cases hcopy : copyPath (some path) with
  | none =>
      rw [hcopy] at h
      cases h
  | some copied =>
      obtain ⟨rfl, -⟩ := copyPath_eq hcopy
      rw [hcopy] at h
      cases hphysical : copyPath (some physicalPath) with
      | none =>
          rw [hphysical] at h
          cases h
      | some physical => exact ⟨rfl, rfl, hfile, rfl⟩

/-- Both images answer every sequence of calls as the file does, and the position of the open
handle is the one of the file. -/
theorem backends_interchangeable (largeHdd : Bool) (path physicalPath : Path)
    (content : List UInt8) (hsize : (content.length : ℤ) < posLimit largeHdd)
    (hraw : (attachFixture (some path) (some content) {}).1 = true)
    (hvfs : (attachVfsFile (some path) (some physicalPath) {}).1 = true)
    (kernel kernel' : Kernel) (hfile : kernel'.content = content)
    (calls : List (FileCall largeHdd)) :
    let raw := runCalls calls (attachFixture (some path) (some content) {}).2 kernel
    let vfs := runCalls calls (attachVfsFile (some path) (some physicalPath) {}).2 kernel'
    let file := referenceCalls path content calls none
    (raw.1 = file.1 ∧ RawShows path content raw.2.1 file.2) ∧
      vfs.1 = file.1 ∧ VfsShows path content vfs.2.1 vfs.2.2 file.2 := by
  obtain ⟨hpath, hrawShows⟩ := raw_attached hraw
  have hvfsShows := vfs_attached hvfs hfile
  exact ⟨(raw_backend hpath hsize).calls hrawShows calls,
    (vfs_backend hpath hsize).calls hvfsShows calls⟩

/-- An image of five bytes, read from its second byte with an interrupted and a short read. -/
theorem backends_interchangeable_short :
    let calls : List (FileCall false) :=
      [.openRb (some [100]), .openRb (some [100]), .seek .fixture ⟨-4, by decide⟩ seekEnd,
        .seek .fixture ⟨-2 ^ 31, by decide⟩ seekEnd, .read .fixture 10, .close .fixture]
    let kernel : Kernel :=
      { content := [1, 2, 3, 4, 5], reads := [.interrupted, .amount 2, .interrupted] }
    let results : List FileResult := [.handle .fixture, .handle .invalid, .position 1,
      .position (-1), .bytes [2, 3, 4, 5], .status 0]
    (runCalls calls (attachFixture (some [100]) (some [1, 2, 3, 4, 5]) {}).2 kernel).1 = results ∧
      (runCalls calls (attachVfsFile (some [100]) (some [47, 100]) {}).2 kernel).1 = results := by
  intro calls kernel results
  obtain ⟨⟨hraw, -⟩, hvfs, -⟩ := backends_interchangeable false [100] [47, 100] [1, 2, 3, 4, 5]
    (by decide) (by decide) (by decide) kernel kernel rfl calls
  exact ⟨hraw.trans rfl, hvfs.trans rfl⟩

end Interchange

end EspNp2.DiskImage.Interchange
