import Mathlib.Algebra.Order.Ring.Int
import Mathlib.Data.List.Basic

/-!
The read-only disk image of the firmware, `dosio_esp.c`. One image is attached, as memory or as
a file of the VFS; one handle is open at most. The kernel keeps the offset of an open file; its
reads may be short or interrupted.
-/

namespace EspNp2.DiskImage.Dosio

section Kernel

/-- What a read of the kernel does: it is interrupted, or it gives at most that many bytes and
one byte at least. -/
inductive ReadReply where
  | interrupted
  | amount (count : ℕ)
deriving DecidableEq, Repr

inductive Errno where
  | interrupted
  | badDescriptor
deriving DecidableEq, Repr

/-- The file behind the physical path and its open descriptors, with what the next reads do;
the reads after them give all they can. -/
structure Kernel where
  content : List UInt8
  offsets : ℕ → Option ℕ := fun _ => none
  nextDescriptor : ℕ := 3
  reads : List ReadReply := []

def Kernel.setOffset (kernel : Kernel) (fd : ℕ) (offset : Option ℕ) : Kernel :=
  { kernel with offsets := fun other => if other = fd then offset else kernel.offsets other }

def Kernel.openRead (kernel : Kernel) : ℕ × Kernel :=
  (kernel.nextDescriptor,
    { kernel.setOffset kernel.nextDescriptor (some 0) with
      nextDescriptor := kernel.nextDescriptor + 1 })

def Kernel.lseek (kernel : Kernel) (fd : ℕ) (target : ℕ) : Bool × Kernel :=
  if (kernel.offsets fd).isSome then (true, kernel.setOffset fd (some target)) else (false, kernel)

def Kernel.close (kernel : Kernel) (fd : ℕ) : Bool × Kernel :=
  if (kernel.offsets fd).isSome then (true, kernel.setOffset fd none) else (false, kernel)

/-- The bytes from an offset, at most `count` of them. -/
def Kernel.transfer (kernel : Kernel) (fd offset count : ℕ) : List UInt8 × Kernel :=
  let data := (kernel.content.drop offset).take count
  (data, kernel.setOffset fd (some (offset + data.length)))

def Kernel.read (kernel : Kernel) (fd requested : ℕ) : Except Errno (List UInt8) × Kernel :=
  match kernel.offsets fd with
  | none => (.error .badDescriptor, kernel)
  | some offset =>
      match kernel.reads with
      | .interrupted :: reads => (.error .interrupted, { kernel with reads := reads })
      | .amount count :: reads =>
          let (data, kernel) := kernel.transfer fd offset (min (max 1 count) requested)
          (.ok data, { kernel with reads := reads })
      | [] =>
          let (data, kernel) := kernel.transfer fd offset requested
          (.ok data, kernel)

end Kernel

section Types

/-- `FILEPOS` and `FILELEN` have 64 bits with `SUPPORT_LARGE_HDD` and 32 bits without. -/
def posLimit (largeHdd : Bool) : ℤ := if largeHdd then 2 ^ 63 else 2 ^ 31

/-- A value of `FILEPOS`. -/
def FilePos (largeHdd : Bool) : Type :=
  { value : ℤ // -posLimit largeHdd ≤ value ∧ value < posLimit largeHdd }

/-- The conversion to `FILEPOS` wraps. -/
def wrapPos (largeHdd : Bool) (value : ℤ) : ℤ :=
  (value + posLimit largeHdd) % (2 * posLimit largeHdd) - posLimit largeHdd

def uintmax (value : ℤ) : ℤ := value % 2 ^ 64

/-- A value of `FILEH`: no handle, the one handle there is, or any other pointer. -/
inductive FileHandle where
  | invalid
  | fixture
  | other (address : ℕ)
deriving DecidableEq, Repr

abbrev Path := List UInt8

inductive HandleKind where
  | none
  | rawMemory
  | vfsFile
deriving DecidableEq, Repr

structure RawHandle where
  data : List UInt8 := []
  size : ℕ := 0
  position : ℕ := 0
deriving DecidableEq, Repr

structure VfsHandle where
  fd : ℕ := 0
  size : ℤ := 0
  position : ℤ := 0
  lastError : Option Errno := none
deriving DecidableEq, Repr

structure Handle where
  kind : HandleKind := .none
  active : Bool := false
  raw : RawHandle := {}
  vfs : VfsHandle := {}
deriving DecidableEq, Repr

structure DosioState where
  backendKind : HandleKind := .none
  fixturePath : Path := []
  fixtureData : List UInt8 := []
  fixtureSize : ℕ := 0
  vfsLogicalPath : Path := []
  vfsPhysicalPath : Path := []
  handle : Handle := {}
deriving DecidableEq, Repr

end Types

section Attach

def maxPath : ℕ := 4096

def copyPath : Option Path → Option Path
  | none => none
  | some source =>
      if source.isEmpty then none
      else if source.length ≥ maxPath then none
      else some source

def attachFixture (path : Option Path) (data : Option (List UInt8)) (dosio : DosioState) :
    Bool × DosioState :=
  if dosio.backendKind ≠ .none ∨ dosio.handle.active then
    (false, dosio)
  else
    match data, copyPath path with
    | some data, some path =>
        if data.length = 0 then
          (false, dosio)
        else
          (true, { dosio with
            fixturePath := path
            fixtureData := data
            fixtureSize := data.length
            backendKind := .rawMemory })
    | _, _ => (false, dosio)

/-- The logical path stays copied when the physical path is refused. -/
def attachVfsFile (logicalPath physicalPath : Option Path) (dosio : DosioState) :
    Bool × DosioState :=
  if dosio.backendKind ≠ .none ∨ dosio.handle.active then
    (false, dosio)
  else
    match copyPath logicalPath with
    | none => (false, dosio)
    | some logical =>
        let dosio := { dosio with vfsLogicalPath := logical }
        match copyPath physicalPath with
        | none => (false, dosio)
        | some physical =>
            (true, { dosio with vfsPhysicalPath := physical, backendKind := .vfsFile })

def isFixturePath (dosio : DosioState) : Option Path → Bool
  | none => false
  | some path => dosio.backendKind == .rawMemory && !dosio.fixturePath.isEmpty &&
      path == dosio.fixturePath

def isVfsPath (dosio : DosioState) : Option Path → Bool
  | none => false
  | some path => dosio.backendKind == .vfsFile && !dosio.vfsLogicalPath.isEmpty &&
      path == dosio.vfsLogicalPath

end Attach

section Calls

variable (largeHdd : Bool)

/-- A handle value that stands for the open handle. -/
def validHandle (dosio : DosioState) (handle : FileHandle) : Bool :=
  handle == .fixture && dosio.handle.active && dosio.handle.kind != .none

/-- The size of the file, when `FILEPOS` has it. -/
def fileSize (stSize : ℕ) : Option ℤ :=
  if (stSize : ℤ) > posLimit largeHdd - 1 then none else some stSize

def fileOpenRb (path : Option Path) (dosio : DosioState) (kernel : Kernel) :
    FileHandle × DosioState × Kernel :=
  if dosio.handle.active then
    (.invalid, dosio, kernel)
  else if isFixturePath dosio path then
    (.fixture, { dosio with
      handle := {
        kind := .rawMemory
        active := true
        raw := { data := dosio.fixtureData, size := dosio.fixtureSize, position := 0 } } },
      kernel)
  else if !isVfsPath dosio path then
    (.invalid, dosio, kernel)
  else
    let (fd, kernel) := kernel.openRead
    match fileSize largeHdd kernel.content.length with
    | none => (.invalid, dosio, (kernel.close fd).2)
    | some size =>
        (.fixture, { dosio with
          handle := {
            kind := .vfsFile
            active := true
            vfs := { fd := fd, size := size, position := 0, lastError := none } } },
          kernel)

def seekSet : ℤ := 0

def seekEnd : ℤ := 2

def seekTarget (size pointer method : ℤ) : Option ℤ :=
  let fileSize := uintmax size
  if method = seekSet then
    if pointer < 0 ∨ uintmax pointer > fileSize then none else some pointer
  else if method ≠ seekEnd then
    none
  else if pointer ≥ 0 then
    if pointer ≠ 0 then none else some size
  else
    let magnitude := uintmax (wrapPos largeHdd (-wrapPos largeHdd (pointer + 1)))
    let magnitude := uintmax (magnitude + 1)
    if magnitude > fileSize then none
    else some (wrapPos largeHdd (uintmax (fileSize - magnitude)))

def fileSeek (handle : FileHandle) (pointer : FilePos largeHdd) (method : ℤ) (dosio : DosioState)
    (kernel : Kernel) : ℤ × DosioState × Kernel :=
  if !validHandle dosio handle then
    (-1, dosio, kernel)
  else if dosio.handle.kind = .rawMemory then
    match seekTarget largeHdd (wrapPos largeHdd dosio.handle.raw.size) pointer.val method with
    | none => (-1, dosio, kernel)
    | some target =>
        (target, { dosio with
          handle := { dosio.handle with
            raw := { dosio.handle.raw with position := target.toNat } } }, kernel)
  else
    match seekTarget largeHdd dosio.handle.vfs.size pointer.val method with
    | none => (-1, dosio, kernel)
    | some target =>
        let (sought, kernel) := kernel.lseek dosio.handle.vfs.fd target.toNat
        if sought then
          (target, { dosio with
            handle := { dosio.handle with
              vfs := { dosio.handle.vfs with position := target } } }, kernel)
        else
          (-1, dosio, kernel)

theorem length_transfer_le (kernel : Kernel) (fd offset count : ℕ) :
    (kernel.transfer fd offset count).1.length ≤ count :=
  List.length_take_le _ _

/-- A read that gives bytes gives no more than it was asked for; an interrupted one has used a
reply. -/
theorem read_progress (kernel : Kernel) (fd requested : ℕ) :
    (kernel.read fd requested).2.reads.length ≤ kernel.reads.length ∧
      ((kernel.read fd requested).1 = .error .interrupted →
        (kernel.read fd requested).2.reads.length < kernel.reads.length) ∧
      ∀ data, (kernel.read fd requested).1 = .ok data → data.length ≤ requested := by
  unfold Kernel.read
  split
  · exact ⟨le_rfl, nofun, nofun⟩
  · split
    · rename_i hreads
      rw [hreads]
      exact ⟨Nat.le_succ _, fun _ => Nat.lt_succ_self _, nofun⟩
    · rename_i hreads
      rw [hreads]
      refine ⟨Nat.le_succ _, nofun, ?_⟩
      rintro data ⟨⟩
      exact (length_transfer_le kernel fd _ _).trans (Nat.min_le_right _ _)
    · refine ⟨le_rfl, nofun, ?_⟩
      rintro data ⟨⟩
      exact length_transfer_le kernel fd _ _

/-- The reads of the kernel until the length is there, or one of them gives nothing. -/
def readLoop (length : ℕ) (vfs : VfsHandle) (kernel : Kernel) (bytes : List UInt8) :
    List UInt8 × VfsHandle × Kernel :=
  if bytes.length < length then
    match _hread : kernel.read vfs.fd (length - bytes.length) with
    | (.ok [], kernel') => (bytes, vfs, kernel')
    | (.ok (byte :: rest), kernel') =>
        readLoop length { vfs with position := vfs.position + (byte :: rest).length } kernel'
          (bytes ++ byte :: rest)
    | (.error .interrupted, kernel') => readLoop length vfs kernel' bytes
    | (.error errno, kernel') => (bytes, { vfs with lastError := some errno }, kernel')
  else
    (bytes, vfs, kernel)
termination_by (length - bytes.length) + kernel.reads.length
decreasing_by
  · have hprogress := read_progress kernel vfs.fd (length - bytes.length)
    rw [_hread] at hprogress
    have hreads : kernel'.reads.length ≤ kernel.reads.length := hprogress.1
    rw [List.length_append, List.length_cons]
    omega
  · have hprogress := read_progress kernel vfs.fd (length - bytes.length)
    rw [_hread] at hprogress
    have hreads : kernel'.reads.length < kernel.reads.length := hprogress.2.1 rfl
    omega

def uintTruncate (value : ℤ) : ℕ := (value % 2 ^ 32).toNat

def fileRead (handle : FileHandle) (length : UInt32) (dosio : DosioState) (kernel : Kernel) :
    List UInt8 × DosioState × Kernel :=
  if !validHandle dosio handle then
    ([], dosio, kernel)
  else if dosio.handle.kind = .rawMemory then
    let raw := dosio.handle.raw
    let remaining := raw.size - raw.position
    let length := if length.toNat > remaining then uintTruncate remaining else length.toNat
    ((raw.data.drop raw.position).take length,
      { dosio with
        handle := { dosio.handle with raw := { raw with position := raw.position + length } } },
      kernel)
  else
    let vfs := dosio.handle.vfs
    let remaining := vfs.size - vfs.position
    let length :=
      if (length.toNat : ℤ) > uintmax remaining then uintTruncate remaining else length.toNat
    let (bytes, vfs, kernel) := readLoop length vfs kernel []
    (bytes, { dosio with handle := { dosio.handle with vfs := vfs } }, kernel)

/-- The handle is reset also when the kernel cannot close its file. -/
def fileClose (handle : FileHandle) (dosio : DosioState) (kernel : Kernel) :
    ℤ × DosioState × Kernel :=
  if !validHandle dosio handle then
    (if handle = .invalid then 0 else -1, dosio, kernel)
  else if dosio.handle.kind = .vfsFile then
    let (closed, kernel) := kernel.close dosio.handle.vfs.fd
    (if closed then 0 else -1, { dosio with handle := {} }, kernel)
  else
    (0, { dosio with handle := {} }, kernel)

def fileGetsize (handle : FileHandle) (dosio : DosioState) : ℤ :=
  if !validHandle dosio handle then 0
  else if dosio.handle.kind = .rawMemory then wrapPos largeHdd dosio.handle.raw.size
  else dosio.handle.vfs.size

end Calls

section Sequences

/-- A call of the file interface. -/
inductive FileCall (largeHdd : Bool) where
  | openRb (path : Option Path)
  | seek (handle : FileHandle) (pointer : FilePos largeHdd) (method : ℤ)
  | read (handle : FileHandle) (length : UInt32)
  | getsize (handle : FileHandle)
  | close (handle : FileHandle)

inductive FileResult where
  | handle (value : FileHandle)
  | position (value : ℤ)
  | bytes (data : List UInt8)
  | size (value : ℤ)
  | status (value : ℤ)
deriving DecidableEq, Repr

def FileCall.run {largeHdd : Bool} : FileCall largeHdd → DosioState → Kernel →
    FileResult × DosioState × Kernel
  | .openRb path, dosio, kernel =>
      let (handle, dosio, kernel) := fileOpenRb largeHdd path dosio kernel
      (.handle handle, dosio, kernel)
  | .seek handle pointer method, dosio, kernel =>
      let (target, dosio, kernel) := fileSeek largeHdd handle pointer method dosio kernel
      (.position target, dosio, kernel)
  | .read handle length, dosio, kernel =>
      let (data, dosio, kernel) := fileRead handle length dosio kernel
      (.bytes data, dosio, kernel)
  | .getsize handle, dosio, kernel => (.size (fileGetsize largeHdd handle dosio), dosio, kernel)
  | .close handle, dosio, kernel =>
      let (status, dosio, kernel) := fileClose handle dosio kernel
      (.status status, dosio, kernel)

def runCalls {largeHdd : Bool} : List (FileCall largeHdd) → DosioState → Kernel →
    List FileResult × DosioState × Kernel
  | [], dosio, kernel => ([], dosio, kernel)
  | call :: calls, dosio, kernel =>
      let (result, dosio, kernel) := call.run dosio kernel
      let (results, dosio, kernel) := runCalls calls dosio kernel
      (result :: results, dosio, kernel)

end Sequences

end EspNp2.DiskImage.Dosio
