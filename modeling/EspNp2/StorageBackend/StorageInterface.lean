import Mathlib.Init

/-!
The storage interface of `storage.hpp`. A backend is a state `S` with callbacks that
read and replace it; a null callback is `none`. The callbacks of a session are part
of the backend: every backend hands out the same ones with each session it opens.
-/

namespace EspNp2.StorageBackend.StorageInterface

def kMaxPathBytes : Nat := 192
def kMaxComponentBytes : Nat := 128

/-- The bytes of a path or of a name. -/
abbrev Path := List UInt8

def slash : UInt8 := 0x2f

def bytesOf (text : String) : Path := text.toUTF8.data.toList

/-- The part of a path before its last slash. -/
def parentOf (path : Path) : Path :=
  match (List.range path.length).reverse.find? fun i => path[i]? == some slash with
  | none => path
  | some 0 => [slash]
  | some last => path.take last

inductive Error where
  | ok
  | notFound
  | alreadyExists
  | invalidPath
  | notAFile
  | notADirectory
  | parentNotFound
  | noSpace
  | readFailed
  | writeFailed
  | commitFailed
  | busy
  | outOfRange
  | unsupported
deriving DecidableEq, Repr

inductive EntryType where
  | file
  | directory
deriving DecidableEq, Repr

structure Metadata where
  type : EntryType := .file
  sizeBytes : UInt64 := 0
deriving DecidableEq, Repr

structure DirectoryEntry where
  name : Path := []
  metadata : Metadata := {}
deriving DecidableEq, Repr

structure Storage (S : Type) where
  stat : Option (S → Path → (Error × Metadata) × S)
  listPage : Option (S → Path → Path → Nat → Nat → (Error × List DirectoryEntry × Bool) × S)
  beginRead : Option (S → Path → Error × S)
  beginWrite : Option (S → Path → UInt64 → Bool → Error × S)
  /-- `ReadSession::read`: the bytes it stored in the buffer. -/
  read : Option (S → UInt64 → Nat → (Error × List UInt8) × S)
  close : Option (S → S)
  write : Option (S → UInt64 → List UInt8 → Error × S)
  commit : Option (S → Error × S)
  abort : Option (S → S)

end EspNp2.StorageBackend.StorageInterface
