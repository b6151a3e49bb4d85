import EspNp2.FileTransfer.PathValidation
import EspNp2.StorageBackend.FileSystem

/-!
The persistent backend `StorageFatfs`, without its test hooks. Every operation is a
program over the calls of the file system, so that it can be stopped between any two
of them.
-/

namespace EspNp2.StorageBackend.FatfsStorage

open EspNp2.FileTransfer.PathValidation (validUtf8)
open EspNp2.Library.CallProgram
open EspNp2.StorageBackend.FileSystem
open EspNp2.StorageBackend.StorageInterface (Path Error kMaxPathBytes kMaxComponentBytes slash
  bytesOf parentOf)

def kPhysicalPathBytes : Nat := kMaxPathBytes + 32

structure RootConfig where
  fileTransferRoot : Path
  stagingRoot : Path
  fixtureRoot : Option Path
deriving DecidableEq, Repr

def kSpiNorRootConfig : RootConfig where
  fileTransferRoot := bytesOf "/persist/files"
  stagingRoot := bytesOf "/persist/.np2-staging"
  fixtureRoot := some (bytesOf "/persist/fixtures")

def kSdmmcRootConfig : RootConfig where
  fileTransferRoot := bytesOf "/sdcard/files"
  stagingRoot := bytesOf "/sdcard/.np2-staging"
  fixtureRoot := some (bytesOf "/sdcard/files/np2-fixtures")

/-- `fd` is the path of the open staging file. -/
structure WriteContext where
  fd : Option Path := none
  size : UInt64 := 0
  targetExists : Bool := false
  targetMoved : Bool := false
  active : Bool := false
  stagingPath : Path := []
  targetPath : Path := []
  backupPath : Path := []
deriving DecidableEq, Repr

/-- The object with the flag of its mount provider and that of its read session. -/
structure StorageFatfs where
  mounted : Bool := false
  sequence : UInt32 := 1
  readActive : Bool := false
  writeContext : WriteContext := {}
deriving DecidableEq, Repr

def mapErrno (error : Errno) (writeOperation : Bool) : Error :=
  match error with
  | .enoent => .notFound
  | .eexist => .alreadyExists
  | .enotdir => .notADirectory
  | .eisdir => .notAFile
  | .efbig | .enospc => .noSpace
  | .ebusy => .busy
  | .einval | .enametoolong => .invalidPath
  | .eacces | .erofs | .eio | .other => if writeOperation then .writeFailed else .readFailed

section Paths

def isFatInvalid (value : UInt8) : Bool :=
  value ∈ [0x3a, 0x2a, 0x3f, 0x22, 0x3c, 0x3e, 0x7c]

def validComponent (value : Path) : Bool :=
  if value = [] ∨ value.length > kMaxComponentBytes ∨ validUtf8 value = false ∨
      value = [0x2e] ∨ value = [0x2e, 0x2e] then false
  else value.all fun c => !(c == slash || c == 0x5c || c < 0x20 || c == 0x7f || isFatInvalid c)

/-- The loop of `validate_path` over the components it has left. -/
def validateFrom : Nat → Path → Bool
  | _, [] => true
  | 0, _ :: _ => false
  | rounds + 1, rest =>
      let component := rest.takeWhile (· != slash)
      if validComponent component = false then false
      else validateFrom rounds (rest.drop (component.length + 1))

def validatePath (path : Path) (allowRoot : Bool) : Bool :=
  if path = [] ∨ path.length > kMaxPathBytes ∨ path.head? ≠ some slash ∨
      validUtf8 path = false then false
  else if path = [slash] then allowRoot
  else if path.getLast? = some slash then false
  else validateFrom path.length (path.drop 1)

def makePhysicalPath (roots : RootConfig) (path : Path) : Option Path :=
  let physical := if path = [slash] then roots.fileTransferRoot else roots.fileTransferRoot ++ path
  if physical.length ≥ kPhysicalPathBytes then none else some physical

def hexDigit (nibble : UInt32) : UInt8 :=
  if nibble < 10 then 0x30 + nibble.toUInt8 else 0x57 + nibble.toUInt8

/-- The format `%08lx`. -/
def hexDigits (value : UInt32) : Path :=
  ([28, 24, 20, 16, 12, 8, 4, 0] : List UInt32).map fun shift => hexDigit (value >>> shift &&& 0xf)

def makeStagingPath (roots : RootConfig) (s : StorageFatfs) (tag extension : String) :
    Option Path × StorageFatfs :=
  let path := child roots.stagingRoot (bytesOf tag ++ hexDigits s.sequence ++ bytesOf extension)
  (if path.length < kPhysicalPathBytes then some path else none,
    { s with sequence := s.sequence + 1 })

end Paths

def resetWriteContext (s : StorageFatfs) : StorageFatfs := { s with writeContext := {} }

def succeeded {α : Type} : Except Errno α → Bool
  | .ok _ => true
  | .error _ => false

section Write

variable (roots : RootConfig)

def parentIsDirectory (path : Path) : Code Bool :=
  match makePhysicalPath roots (parentOf path) with
  | none => .done false
  | some physical => do
      match ← perform (.stat physical) with
      | .ok directory => return directory
      | .error _ => return false

/-- The attempts of `begin_write_impl` to create a staging file. -/
def createStaging : Nat → StorageFatfs → Code (Except Error Path × StorageFatfs)
  | 0, s => .done (.error .noSpace, s)
  | attempts + 1, s =>
      match makeStagingPath roots s "s" ".tmp" with
      | (none, s) => .done (.error .writeFailed, s)
      | (some staging, s) => .call (.create staging) fun
          | .ok _ => .done (.ok staging, s)
          | .error errno =>
              if errno ≠ .eexist then
                .done (.error (if errno = .eio then .noSpace else mapErrno errno true), s)
              else createStaging attempts s

/-- The end of `begin_write_impl`: a staging file of the right size. The copies of the
two paths into the context always fit. -/
def openSession (s : StorageFatfs) (target : Path) (size : UInt64) (targetExists : Bool) :
    Code (Error × StorageFatfs) := do
  match ← createStaging roots 32 s with
  | (.error error, s) => return (error, s)
  | (.ok staging, s) =>
      match ← perform (.ftruncate staging size.toNat) with
      | .error errno =>
          let _ ← perform (.unlink staging)
          return (if errno = .eio then .noSpace else mapErrno errno true, s)
      | .ok _ =>
          return (.ok, { s with writeContext :=
            { fd := some staging
              size := size
              targetExists := targetExists
              active := true
              stagingPath := staging
              targetPath := target } })

def beginWriteImpl (s : StorageFatfs) (path : Path) (size : UInt64) (replace : Bool) :
    Code (Error × StorageFatfs) :=
  if validatePath path false = false then .done (.invalidPath, s)
  else if s.readActive ∨ s.writeContext.active then .done (.busy, s)
  else if s.mounted = false then .done (.writeFailed, s)
  else do
    if (← parentIsDirectory roots path) = false then return (.parentNotFound, s)
    else
      match makePhysicalPath roots path with
      | none => return (.invalidPath, s)
      | some target =>
          match ← perform (.stat target) with
          | .error errno =>
              if errno ≠ .enoent then return (mapErrno errno true, s)
              else openSession roots s target size false
          | .ok directory =>
              if directory then return (.notAFile, s)
              else if replace = false then return (.alreadyExists, s)
              else openSession roots s target size true

/-- The loop of `write_impl`; every round writes at least a byte. -/
def writeFrom (fd : Path) : Nat → Nat → List UInt8 → Code Error
  | _, _, [] => .done .ok
  | 0, _, _ :: _ => .done .writeFailed
  | rounds + 1, offset, data => .call (.pwrite fd offset data) fun
      | .error errno => .done (mapErrno errno true)
      | .ok written =>
          if written = 0 then .done .writeFailed
          else writeFrom fd rounds (offset + written) (data.drop written)

def writeImpl (s : StorageFatfs) (offset : UInt64) (data : List UInt8) : Code Error :=
  match s.writeContext.fd with
  | none => .done .writeFailed
  | some fd =>
      if s.writeContext.active = false then .done .writeFailed
      else if offset > s.writeContext.size ∨
          data.length > (s.writeContext.size - offset).toNat then .done .outOfRange
      else writeFrom fd data.length offset.toNat data

/-- The part of `abort_impl` that puts a moved target back. -/
def restoreTarget (ctx : WriteContext) : Code Unit :=
  if ctx.targetMoved then do
    match ← perform (.stat ctx.targetPath) with
    | .ok _ => return ()
    | .error errno =>
        if errno = .enoent then
          let _ ← perform (.rename ctx.backupPath ctx.targetPath)
          return ()
        else return ()
  else .done ()

def abortImpl (s : StorageFatfs) : Code StorageFatfs :=
  if s.writeContext.active = false then .done s
  else do
    let _ ← perform (.unlink s.writeContext.stagingPath)
    restoreTarget s.writeContext
    return resetWriteContext s

/-- The end of `commit_impl`, once the target is out of the way. -/
def installStaging (s : StorageFatfs) : Code (Error × StorageFatfs) := do
  let ctx := s.writeContext
  match ← perform (.rename ctx.stagingPath ctx.targetPath) with
  | .ok _ =>
      if ctx.targetMoved then
        let _ ← perform (.unlink ctx.backupPath)
        return (.ok, resetWriteContext s)
      else return (.ok, resetWriteContext s)
  | .error _ =>
      if ctx.targetMoved then
        match ← perform (.rename ctx.backupPath ctx.targetPath) with
        | .error _ => return (.commitFailed, s)
        | .ok _ =>
            let _ ← perform (.unlink ctx.stagingPath)
            return (.commitFailed, resetWriteContext s)
      else
        let _ ← perform (.unlink ctx.stagingPath)
        return (.commitFailed, resetWriteContext s)

/-- The middle of `commit_impl`: an existing target is moved to a backup. -/
def moveTarget (s : StorageFatfs) : Code (Bool × StorageFatfs) :=
  if s.writeContext.targetExists then
    match makeStagingPath roots s "b" ".bak" with
    | (none, s) => .done (false, s)
    | (some backup, s) => do
        let s := { s with writeContext := { s.writeContext with backupPath := backup } }
        match ← perform (.rename s.writeContext.targetPath backup) with
        | .error _ => return (false, s)
        | .ok _ =>
            return (true, { s with writeContext := { s.writeContext with targetMoved := true } })
  else .done (true, s)

def commitImpl (s : StorageFatfs) : Code (Error × StorageFatfs) :=
  match s.writeContext.fd with
  | none => .done (.commitFailed, s)
  | some fd =>
      if s.writeContext.active = false then .done (.commitFailed, s)
      else do
        match ← perform (.fsync fd) with
        | .error errno =>
            let s ← abortImpl s
            return (if mapErrno errno true = .writeFailed then .writeFailed else .commitFailed, s)
        | .ok _ =>
            let s := { s with writeContext := { s.writeContext with fd := none } }
            match ← moveTarget roots s with
            | (false, s) =>
                let s ← abortImpl s
                return (.commitFailed, s)
            | (true, s) => installStaging s

end Write

section Mount

variable (roots : RootConfig)

def ensureDirectory (path : Path) : Code Bool := do
  match ← perform (.stat path) with
  | .ok directory => return directory
  | .error errno =>
      if errno ≠ .enoent then return false
      else return succeeded (← perform (.mkdir path))

/-- The roots of a mount, in order. -/
def ensureRoots : List Path → Code Bool
  | [] => .done true
  | root :: rest => do
      if ← ensureDirectory root then ensureRoots rest else return false

def isOrphan (name : Path) : Bool :=
  name.length ≥ 5 && name.drop (name.length - 4) == bytesOf ".tmp"

/-- The loop of `mount` over the names in the staging directory. -/
def removeOrphans : List Path → Code Bool
  | [] => .done true
  | name :: rest =>
      if isOrphan name then
        if (child roots.stagingRoot name).length ≥ kPhysicalPathBytes then .done false
        else .call (.unlink (child roots.stagingRoot name)) fun
          | .error _ => .done false
          | .ok _ => removeOrphans rest
      else removeOrphans rest

/-- `mount` on a partition that its provider can mount; the flag tells whether it
returned `ESP_OK`. -/
def mount (s : StorageFatfs) : Code (Bool × StorageFatfs) :=
  if s.mounted then .done (false, s)
  else do
    if ← ensureRoots (roots.fileTransferRoot :: roots.fixtureRoot.toList ++
      [roots.stagingRoot]) then
      match ← perform (.entries roots.stagingRoot) with
      | .error _ => return (false, s)
      | .ok names =>
          if ← removeOrphans roots names then return (true, { s with mounted := true })
          else return (false, s)
    else return (false, s)

end Mount

end EspNp2.StorageBackend.FatfsStorage
