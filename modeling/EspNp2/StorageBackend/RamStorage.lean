import EspNp2.StorageBackend.BlockAllocator
import EspNp2.StorageBackend.StorageInterface

/-!
The RAM backend `StorageRam`. Index -1 of an entry or of a block is `none`; the
arena is the function from its addresses to their bytes.
-/

namespace EspNp2.StorageBackend.RamStorage

open EspNp2.StorageBackend.BlockAllocator
open EspNp2.StorageBackend.StorageInterface

def kMaxEntries : Nat := 32
def kMaxFileBytes : UInt64 := 192 * 1024

structure Entry where
  used : Bool := false
  committed : Bool := false
  type : EntryType := .file
  path : Path := []
  size : UInt64 := 0
  block : Option (Fin kMaxBlocks) := none
deriving DecidableEq, Repr

/-- `owner` tells whether the pointer of that name is set. -/
structure ReadContext where
  owner : Bool := false
  entry : Option (Fin kMaxEntries) := none
deriving DecidableEq, Repr

structure WriteContext where
  owner : Bool := false
  staging : Option (Fin kMaxEntries) := none
  target : Option (Fin kMaxEntries) := none
  committed : Bool := false
deriving DecidableEq, Repr

structure StorageRam where
  entries : Fin kMaxEntries → Entry := fun _ => {}
  blocks : Blocks := fun _ => {}
  arena : Nat → UInt8 := fun _ => 0
  readContext : ReadContext := {}
  writeContext : WriteContext := {}

def setEntry (s : StorageRam) (index : Fin kMaxEntries) (entry : Entry) : StorageRam :=
  { s with entries := Function.update s.entries index entry }

/-- `memcpy` into the arena. -/
def copyIn (arena : Nat → UInt8) (base : Nat) (data : List UInt8) : Nat → UInt8 :=
  fun address =>
    if base ≤ address ∧ address < base + data.length then data.getD (address - base) 0
    else arena address

/-- `memcpy` out of the arena. -/
def copyOut (arena : Nat → UInt8) (base length : Nat) : List UInt8 :=
  (List.range length).map fun k => arena (base + k)

def find (s : StorageRam) (path : Path) : Option (Fin kMaxEntries) :=
  (List.finRange kMaxEntries).find? fun i =>
    (s.entries i).used && (s.entries i).committed && (s.entries i).path == path

def findFreeEntry (s : StorageRam) : Option (Fin kMaxEntries) :=
  (List.finRange kMaxEntries).find? fun i => !(s.entries i).used

def parentExists (s : StorageRam) (path : Path) : Bool :=
  if path = [slash] then false
  else
    match find s (parentOf path) with
    | none => false
    | some index => (s.entries index).type = .directory

/-- `copy_path`, with what is read of the copy later: it ends at the first NUL. -/
def copyPath (path : Path) : Option Path :=
  if path = [] ∨ path.length > kMaxPathBytes then none else some (path.takeWhile (· != 0))

def addEntry (s : StorageRam) (path : Path) (type : EntryType) :
    Option (Fin kMaxEntries) × StorageRam :=
  match findFreeEntry s with
  | none => (none, s)
  | some index =>
      match copyPath path with
      | none => (none, s)
      | some copy =>
          (some index,
            setEntry s index { used := true, committed := true, type := type, path := copy })

/-- A file of `init` with the bytes it is filled with. -/
def addFile (s : StorageRam) (path : Path) (data : List UInt8) : StorageRam :=
  match addEntry s path .file with
  | (none, s) => s
  | (some index, s) =>
      let entry := { s.entries index with size := UInt64.ofNat data.length }
      match allocateBlock s.blocks data.length with
      | none => setEntry s index entry
      | some (block, blocks) =>
          { setEntry s index { entry with block := some block } with
            blocks := blocks
            arena := copyIn s.arena (blocks block).offset data }

section Seeds

def digits (page : Nat) : String := toString (page / 10) ++ toString (page % 10)

def pagePath (page : Nat) : Path := bytesOf ("/seed/page-" ++ digits page ++ ".bin")

def longPath (page : Nat) : Path :=
  bytesOf ("/long/" ++ digits page ++ "-abcdefghijklmnopqrstuvwxyz-ABCDEFGHIJKLMNOPQRSTUVWXYZ.bin")

/-- The bytes of a seeded file count up from its first one. -/
def seedBytes (first length : Nat) : List UInt8 :=
  (List.range length).map fun i => UInt8.ofNat (first + i)

def init : StorageRam :=
  let s : StorageRam :=
    { blocks := fun i => if i.val = 0 then { size := kArenaBytes } else {} }
  let s := ["/", "/seed", "/upload", "/long"].foldl
    (fun s path => (addEntry s (bytesOf path) .directory).2) s
  let s := addFile s (bytesOf "/seed/existing.bin") (seedBytes 0xa0 37)
  let s := (List.range 12).foldl
    (fun s page => addFile s (pagePath page) (seedBytes (page * 17) (16 + page))) s
  (List.range 6).foldl (fun s page => (addEntry s (longPath page) .file).2) s

end Seeds

def metadataOf (entry : Entry) : Metadata :=
  { type := entry.type, sizeBytes := if entry.type = .file then entry.size else 0 }

def statImpl (s : StorageRam) (path : Path) : Error × Metadata :=
  match find s path with
  | none => (.notFound, {})
  | some index => (.ok, metadataOf (s.entries index))

section List

/-- The byte order of `std::string_view`. -/
def nameLe : Path → Path → Bool
  | [], _ => true
  | _ :: _, [] => false
  | a :: left, b :: right => a < b || (a == b && nameLe left right)

/-- The name of an entry below `prefix_`, when it is a direct child after `cursor`. -/
def childName (prefix_ cursor : Path) (entry : Entry) : Option Path :=
  if entry.used = false ∨ entry.committed = false ∨ entry.path = [] then none
  else if ¬prefix_.isPrefixOf entry.path ∨ entry.path.length ≤ prefix_.length then none
  else
    let remainder := entry.path.drop prefix_.length
    if slash ∈ remainder ∨ (cursor ≠ [] ∧ nameLe remainder cursor) ∨
        remainder.length > kMaxComponentBytes then none
    else some remainder

/-- One round of the insertion sort. The sorted part is the list from its end, where
the search for the place of `value` begins. -/
def insertChild (sorted : List DirectoryEntry) (value : DirectoryEntry) : List DirectoryEntry :=
  match sorted with
  | [] => [value]
  | previous :: rest =>
      if nameLe previous.name value.name then value :: previous :: rest
      else previous :: insertChild rest value

def listImpl (s : StorageRam) (path cursor : Path) (limit capacity : Nat) :
    Error × List DirectoryEntry × Bool :=
  if capacity = 0 then (.invalidPath, [], false)
  else
    match find s path with
    | none => (.notFound, [], false)
    | some parent =>
        if (s.entries parent).type ≠ .directory then (.notADirectory, [], false)
        else if limit = 0 then (.invalidPath, [], false)
        else
          let prefix_ := if path = [slash] then [slash] else path ++ [slash]
          if prefix_.length > kMaxPathBytes + 1 then (.invalidPath, [], false)
          else
            let candidates := (List.finRange kMaxEntries).filterMap fun i =>
              (childName prefix_ cursor (s.entries i)).map fun name =>
                { name := name, metadata := metadataOf (s.entries i) : DirectoryEntry }
            let sorted := (candidates.foldl insertChild []).reverse
            let count := min sorted.length (min capacity limit)
            (.ok, sorted.take count, count < sorted.length)

end List

def beginReadImpl (s : StorageRam) (path : Path) : Error × StorageRam :=
  if s.readContext.owner then (.busy, s)
  else
    match find s path with
    | none => (.notFound, s)
    | some index =>
        if (s.entries index).type ≠ .file then (.notAFile, s)
        else (.ok, { s with readContext := { owner := true, entry := some index } })

/-- The staging entry of `begin_write_impl` with the block it was given. A path that
`copy_path` does not take leaves the entry without one. -/
def openStaging (s : StorageRam) (path : Path) (size : UInt64) (target : Option (Fin kMaxEntries))
    (staging : Fin kMaxEntries) (block : Option (Fin kMaxBlocks)) : StorageRam :=
  { setEntry s staging
      { used := true, path := (copyPath path).getD [], size := size, block := block } with
    writeContext := { owner := true, staging := some staging, target := target } }

/-- The second half of `begin_write_impl`: find a free entry and a block. -/
def stageFile (s : StorageRam) (path : Path) (size : UInt64) (target : Option (Fin kMaxEntries)) :
    Error × StorageRam :=
  match findFreeEntry s with
  | none => (.noSpace, s)
  | some staging =>
      if size = 0 then (.ok, openStaging s path size target staging none)
      else
        match allocateBlock s.blocks size.toNat with
        | none => (.noSpace, s)
        | some (block, blocks) =>
            (.ok, openStaging { s with blocks := blocks } path size target staging (some block))

def beginWriteImpl (s : StorageRam) (path : Path) (size : UInt64) (replace : Bool) :
    Error × StorageRam :=
  if s.writeContext.owner then (.busy, s)
  else if size > kMaxFileBytes then (.noSpace, s)
  else if parentExists s path = false then (.parentNotFound, s)
  else
    let target := find s path
    if target.any (fun index => (s.entries index).type ≠ .file) then (.notAFile, s)
    else if target.isSome ∧ replace = false then (.alreadyExists, s)
    else stageFile s path size target

def readImpl (s : StorageRam) (offset : UInt64) (requested : Nat) : Error × List UInt8 :=
  match s.readContext.entry with
  | none => (.readFailed, [])
  | some index =>
      let entry := s.entries index
      if offset > entry.size then (.outOfRange, [])
      else
        let amount := min requested (entry.size - offset).toNat
        if amount = 0 then (.ok, [])
        else
          match entry.block with
          | none => (.readFailed, [])
          | some block => (.ok, copyOut s.arena ((s.blocks block).offset + offset.toNat) amount)

def writeImpl (s : StorageRam) (offset : UInt64) (data : List UInt8) : Error × StorageRam :=
  match s.writeContext.staging with
  | none => (.writeFailed, s)
  | some staging =>
      let entry := s.entries staging
      if offset > entry.size ∨ data.length > (entry.size - offset).toNat then (.outOfRange, s)
      else if data.length = 0 then (.ok, s)
      else
        match entry.block with
        | none => (.outOfRange, s)
        | some block =>
            (.ok, { s with
              arena := copyIn s.arena ((s.blocks block).offset + offset.toNat) data })

/-- The branch of `commit_impl` for a file that is there. -/
def commitOver (s : StorageRam) (index target : Fin kMaxEntries) : StorageRam :=
  let staging := s.entries index
  let s := { s with blocks := releaseBlock s.blocks (s.entries target).block }
  let s := setEntry s target { s.entries target with block := staging.block, size := staging.size }
  let s := setEntry s index { s.entries index with block := none, used := false }
  { s with writeContext := {} }

def commitImpl (s : StorageRam) : Error × StorageRam :=
  match s.writeContext.staging with
  | none => (.commitFailed, s)
  | some index =>
      if s.writeContext.owner = false ∨ s.writeContext.committed then (.commitFailed, s)
      else
        match s.writeContext.target with
        | some target => (.ok, commitOver s index target)
        | none =>
            (.ok, { setEntry s index { s.entries index with committed := true } with
              writeContext := {} })

def abortImpl (s : StorageRam) : StorageRam :=
  if s.writeContext.owner = false then s
  else
    let s :=
      match s.writeContext.staging with
      | none => s
      | some index =>
          if (s.entries index).used then
            setEntry { s with blocks := releaseBlock s.blocks (s.entries index).block } index {}
          else s
    { s with writeContext := {} }

def closeRead (s : StorageRam) : StorageRam :=
  if s.readContext.owner then { s with readContext := {} } else s

/-- `StorageRam::api`. A call on a session that is over reaches the source through a null owner
and leaves no state there; the calls here answer an error to it. -/
def api : Storage StorageRam where
  stat := some fun s path => (statImpl s path, s)
  listPage := some fun s path cursor limit capacity => (listImpl s path cursor limit capacity, s)
  beginRead := some beginReadImpl
  beginWrite := some beginWriteImpl
  read := some fun s offset requested => (readImpl s offset requested, s)
  close := some closeRead
  write := some writeImpl
  commit := some commitImpl
  abort := some abortImpl

end EspNp2.StorageBackend.RamStorage
