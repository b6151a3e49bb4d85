import EspNp2.Library.CallProgram
import EspNp2.StorageBackend.StorageInterface
import Mathlib.Data.List.AList

/-!
The file system calls of `storage_fatfs.cpp` and what they may do to a disk. A disk is
a map from paths to files and directories; every call is atomic. An open file stands
for the path it was opened at, since the code closes it before it renames it, and
`close` changes nothing.
-/

namespace EspNp2.StorageBackend.FileSystem

open EspNp2.Library.CallProgram
open EspNp2.StorageBackend.StorageInterface (Path slash)

inductive Errno where
  | enoent
  | eexist
  | enotdir
  | eisdir
  | efbig
  | enospc
  | ebusy
  | einval
  | enametoolong
  | eacces
  | erofs
  | eio
  | other
deriving DecidableEq, Repr

/-- A file is synced when its content would survive a power loss. -/
inductive Node where
  | directory
  | file (content : List UInt8) (synced : Bool)
deriving DecidableEq, Repr

abbrev Disk := AList fun _ : Path => Node

inductive Call where
  | stat (path : Path)
  /-- `open` with `O_CREAT | O_EXCL`. -/
  | create (path : Path)
  | ftruncate (path : Path) (size : Nat)
  | pwrite (path : Path) (offset : Nat) (data : List UInt8)
  | fsync (path : Path)
  | rename (source dest : Path)
  | unlink (path : Path)
  | mkdir (path : Path)
  /-- `opendir`, every `readdir` and `closedir`. -/
  | entries (path : Path)
deriving DecidableEq, Repr

/-- What a call returns; `stat` tells whether the path is a directory. -/
abbrev Value : Call → Type
  | .stat _ => Bool
  | .pwrite .. => Nat
  | .entries _ => List Path
  | .create _ | .ftruncate .. | .fsync _ | .rename .. | .unlink _ | .mkdir _ => Unit

abbrev Reply (call : Call) : Type := Except Errno (Value call)

abbrev Code (α : Type) := Program Call Reply α

def isFile (disk : Disk) (path : Path) : Bool :=
  match disk.lookup path with
  | some (.file ..) => true
  | _ => false

/-- The content of a file after `ftruncate`. -/
def resize (content : List UInt8) (size : Nat) : List UInt8 :=
  content.take size ++ List.replicate (size - content.length) 0

/-- The content of a file after `pwrite`. -/
def overlay (content : List UInt8) (offset : Nat) (data : List UInt8) : List UInt8 :=
  (resize content (max content.length offset)).take offset ++ data ++
    content.drop (offset + data.length)

/-- The entry `name` of the directory `path`. -/
def child (path name : Path) : Path := path ++ slash :: name

/-- The names in the directory `path`. -/
def children (disk : Disk) (path : Path) : List Path :=
  disk.keys.filterMap fun key =>
    match (path ++ [slash]).isPrefixOf? key with
    | some name => if name = [] ∨ slash ∈ name then none else some name
    | none => none

/-- What a call that succeeds does. -/
def Succeeds (disk : Disk) : (call : Call) → Value call → Disk → Prop
  | .stat path, directory, disk' => disk' = disk ∧
      ∃ node, disk.lookup path = some node ∧ directory = decide (node = .directory)
  | .create path, (), disk' =>
      disk.lookup path = none ∧ disk' = disk.insert path (.file [] false)
  | .ftruncate path size, (), disk' =>
      ∃ content synced, disk.lookup path = some (.file content synced) ∧
        disk' = disk.insert path (.file (resize content size) false)
  | .pwrite path offset data, written, disk' =>
      written ≤ data.length ∧ (data ≠ [] → written ≠ 0) ∧
        ∃ content synced, disk.lookup path = some (.file content synced) ∧
          disk' = disk.insert path (.file (overlay content offset (data.take written)) false)
  | .fsync path, (), disk' => ∃ content synced, disk.lookup path = some (.file content synced) ∧
      disk' = disk.insert path (.file content true)
  | .rename source dest, (), disk' => ∃ node, disk.lookup source = some node ∧
      disk.lookup dest = none ∧ disk' = (disk.insert dest node).erase source
  | .unlink path, (), disk' => isFile disk path = true ∧ disk' = disk.erase path
  | .mkdir path, (), disk' => disk.lookup path = none ∧ disk' = disk.insert path .directory
  | .entries path, names, disk' => disk' = disk ∧ disk.lookup path = some .directory ∧
      names.Perm (children disk path)

/-- The calls that fail of themselves, with the error they report where the code looks
at it. -/
def Fails (disk : Disk) : Call → Errno → Prop
  | .stat path, errno => disk.lookup path = none ∧ errno = .enoent
  | .create path, errno => disk.lookup path ≠ none ∧ errno = .eexist
  | .ftruncate path _, _ | .pwrite path _ _, _ | .fsync path, _ | .unlink path, _ =>
      isFile disk path = false
  | .rename source dest, _ => disk.lookup source = none ∨ disk.lookup dest ≠ none
  | .mkdir path, _ => disk.lookup path ≠ none
  | .entries path, _ => disk.lookup path ≠ some .directory

/-- A disk answers a call. A failing call leaves it as it is; a faulty disk may fail at
any call, with any error. -/
def Answers (faulty : Bool) (disk : Disk) (call : Call) : Reply call → Disk → Prop
  | .ok value, disk' => Succeeds disk call value disk'
  | .error errno, disk' => disk' = disk ∧ (faulty = true ∨ Fails disk call errno)

section Serve

/-- A disk that fails only when it must. -/
def serve (disk : Disk) : (call : Call) → Reply call × Disk
  | .stat path =>
      match disk.lookup path with
      | none => (.error .enoent, disk)
      | some node => (.ok (decide (node = .directory)), disk)
  | .create path =>
      match disk.lookup path with
      | none => (.ok (), disk.insert path (.file [] false))
      | some _ => (.error .eexist, disk)
  | .ftruncate path size =>
      match disk.lookup path with
      | some (.file content _) =>
          (.ok (), disk.insert path (.file (resize content size) false))
      | _ => (.error .eio, disk)
  | .pwrite path offset data =>
      match disk.lookup path with
      | some (.file content _) => (.ok data.length,
          disk.insert path (.file (overlay content offset data) false))
      | _ => (.error .eio, disk)
  | .fsync path =>
      match disk.lookup path with
      | some (.file content _) =>
          (.ok (), disk.insert path (.file content true))
      | _ => (.error .eio, disk)
  | .rename source dest =>
      match disk.lookup source, disk.lookup dest with
      | some node, none => (.ok (), (disk.insert dest node).erase source)
      | _, _ => (.error .eio, disk)
  | .unlink path =>
      if isFile disk path then (.ok (), disk.erase path) else (.error .eio, disk)
  | .mkdir path =>
      match disk.lookup path with
      | none => (.ok (), disk.insert path .directory)
      | some _ => (.error .eexist, disk)
  | .entries path =>
      if disk.lookup path = some .directory then (.ok (children disk path), disk)
      else (.error .eio, disk)

theorem isFile_eq_false {disk : Disk} {path : Path}
    (h : ∀ content synced, disk.lookup path ≠ some (.file content synced)) :
    isFile disk path = false := by
  rw [isFile]
  split
  · rename_i content synced hfile
    exact absurd hfile (h content synced)
  · rfl

theorem answers_serve (faulty : Bool) (disk : Disk) (call : Call) :
    Answers faulty disk call (serve disk call).1 (serve disk call).2 := by
  cases call with
  | stat path =>
      rw [serve]
      split
      · rename_i hnone
        exact ⟨rfl, .inr ⟨hnone, rfl⟩⟩
      · rename_i node hnode
        exact ⟨rfl, node, hnode, rfl⟩
  | create path =>
      rw [serve]
      split
      · rename_i hnone
        exact ⟨hnone, rfl⟩
      · rename_i node hnode
        exact ⟨rfl, .inr ⟨by simp [hnode], rfl⟩⟩
  | ftruncate path size =>
      rw [serve]
      split
      · rename_i content synced hfile
        exact ⟨content, synced, hfile, rfl⟩
      · rename_i hother
        exact ⟨rfl, .inr (isFile_eq_false hother)⟩
  | pwrite path offset data =>
      rw [serve]
      split
      · rename_i content synced hfile
        refine ⟨le_rfl, fun hdata => ?_, content, synced, hfile, by rw [List.take_length]⟩
        exact fun hzero => hdata (List.length_eq_zero_iff.mp hzero)
      · rename_i hother
        exact ⟨rfl, .inr (isFile_eq_false hother)⟩
  | fsync path =>
      rw [serve]
      split
      · rename_i content synced hfile
        exact ⟨content, synced, hfile, rfl⟩
      · rename_i hother
        exact ⟨rfl, .inr (isFile_eq_false hother)⟩
  | rename source dest =>
      rw [serve]
      split
      · rename_i node hfrom hto
        exact ⟨node, hfrom, hto, rfl⟩
      · rename_i hother
        refine ⟨rfl, .inr ?_⟩
        by_cases hfrom : disk.lookup source = none
        · exact .inl hfrom
        · obtain ⟨node, hnode⟩ := Option.ne_none_iff_exists'.mp hfrom
          exact .inr fun hto => hother node hnode hto
  | unlink path =>
      rw [serve]
      split_ifs with hfile
      · exact ⟨hfile, rfl⟩
      · exact ⟨rfl, .inr (by simpa [Fails] using hfile)⟩
  | mkdir path =>
      rw [serve]
      split
      · rename_i hnone
        exact ⟨hnone, rfl⟩
      · rename_i node hnode
        exact ⟨rfl, .inr (by simp [Fails, hnode])⟩
  | entries path =>
      rw [serve]
      split_ifs with hdirectory
      · exact ⟨rfl, hdirectory, .refl _⟩
      · exact ⟨rfl, .inr hdirectory⟩

end Serve

end EspNp2.StorageBackend.FileSystem
