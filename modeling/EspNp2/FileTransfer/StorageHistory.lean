import EspNp2.FileTransfer.Service
import EspNp2.Library.LabelledRun
import EspNp2.StorageBackend.RamVisibility

/-!
The history of the RAM backend under the service: every call that may change it,
each with what a reader would find at every path right after it, and the events of
the transfer that a session serves. `Step` is what a history may hold: sessions open
one after the other, each is closed once, and only a commit changes what is visible.
-/

namespace EspNp2.FileTransfer.StorageHistory

open EspNp2.BinaryDataPlane.Transfer
open EspNp2.FileTransfer.Service
open EspNp2.FileTransfer.ZeroRleFormat (ZeroRle Malformed)
open EspNp2.Library.LabelledRun
open EspNp2.StorageBackend
open EspNp2.StorageBackend.RamStorage (StorageRam)
open EspNp2.StorageBackend.RamVisibility (FileView visible)
open EspNp2.StorageBackend.StorageInterface (Path Storage)

inductive Call where
  | beginRead (path : Path) (error : StorageInterface.Error)
  | beginWrite (path : Path) (size : UInt64) (error : StorageInterface.Error)
  | write (offset : UInt64) (data : List UInt8) (error : StorageInterface.Error)
  | commit (error : StorageInterface.Error)
  | abort
  | close
  /-- A transfer began to use the write session. -/
  | start (encoding : Encoding) (wireSize : UInt64)
  /-- The endpoint took the payload of a DATA frame. -/
  | accept (payload : List UInt8)
  /-- The endpoint failed on the payload of a DATA frame. -/
  | refuse (payload : List UInt8)
  /-- The endpoint stored the terminal summary. -/
  | terminal (summary : Summary)
deriving DecidableEq, Repr

structure Moment where
  call : Call
  visible : Path → Option FileView

/-- The backend with its history. -/
structure Observed where
  ram : StorageRam
  history : List Moment := []

def Observed.record (s : Observed) (ram : StorageRam) (call : Call) : Observed :=
  { ram := ram, history := s.history ++ [{ call := call, visible := visible ram }] }

/-- `StorageRam::api` under observation. -/
def observedApi : Storage Observed where
  stat := some fun s path => (RamStorage.statImpl s.ram path, s)
  listPage := some fun s path cursor limit capacity =>
    (RamStorage.listImpl s.ram path cursor limit capacity, s)
  beginRead := some fun s path =>
    let (error, ram) := RamStorage.beginReadImpl s.ram path
    (error, s.record ram (.beginRead path error))
  beginWrite := some fun s path size replace =>
    let (error, ram) := RamStorage.beginWriteImpl s.ram path size replace
    (error, s.record ram (.beginWrite path size error))
  read := some fun s offset requested => (RamStorage.readImpl s.ram offset requested, s)
  close := some fun s => s.record (RamStorage.closeRead s.ram) .close
  write := some fun s offset data =>
    let (error, ram) := RamStorage.writeImpl s.ram offset data
    (error, s.record ram (.write offset data error))
  commit := some fun s =>
    let (error, ram) := RamStorage.commitImpl s.ram
    (error, s.record ram (.commit error))
  abort := some fun s => s.record (RamStorage.abortImpl s.ram) .abort

variable {O : Type}

def note (w : World Observed O) (call : Call) : World Observed O :=
  { w with storage := w.storage.record w.storage.ram call }

/-- The endpoint of the service under observation. -/
def observedEndpoint : TransferEndpoint (World Observed O) where
  context := some 0
  begin := some fun w direction size =>
    let (result, w) := endpointBegin observedApi w direction size
    if result = .ok then
      (result, note w (.start w.endpoint.encoding w.endpoint.wireSize))
    else (result, w)
  consume := some fun w offset data =>
    let (result, w) := endpointConsume observedApi w offset data
    (result, note w (if result = .ok then .accept data else .refuse data))
  produce := some (endpointProduce observedApi)
  finish := some (endpointFinish observedApi)
  abort := some (endpointAbort observedApi)
  terminal := some fun w info reason =>
    let w := endpointTerminal w info reason
    note w (.terminal w.terminal)

/-- The transfer a session serves: its encoding and its wire size. -/
abbrev Plan := Encoding × UInt64

/-- The open session. `offered` is what reached the endpoint, `accepted` the part of
it that the endpoint took. -/
inductive Session where
  | idle
  | writing (path : Path) (size : UInt64) (plan : Option Plan) (accepted offered : List UInt8)
  | reading (path : Path) (plan : Option Plan)

/-- How the last session was closed. -/
inductive Closing where
  | committed (size : UInt64) (plan : Option Plan) (accepted : List UInt8)
  | aborted (size : UInt64) (plan : Option Plan) (accepted offered : List UInt8)
  | closed (plan : Option Plan)

structure Observer where
  visible : Path → Option FileView
  session : Session := .idle
  /-- The closing that no summary has reported. -/
  last : Option Closing := none

/-- The file that a session's stream stands for. A session without a transfer writes
an empty file. -/
def Carries (size : UInt64) (plan : Option Plan) (accepted content : List UInt8) : Prop :=
  content.length = size.toNat ∧
    match plan with
    | none => accepted = [] ∧ content = []
    | some (.raw, wireSize) => accepted.length = wireSize.toNat ∧ content = accepted
    | some (.zeroRleV1, wireSize) => accepted.length = wireSize.toNat ∧ ZeroRle accepted content

/-- A terminal summary tells how the session of its transfer was closed. -/
def Truthful : Closing → Summary → Prop
  | .committed size plan accepted, summary =>
      summary.fileState = .completed ∧ summary.codecError = .none ∧ summary.storageError = .ok ∧
        plan = some (summary.encoding, summary.wireSizeBytes) ∧ summary.sizeBytes = size ∧
        summary.wireTransferredBytes.toNat = accepted.length ∧ summary.transferredBytes = size
  | .aborted size plan accepted offered, summary =>
      summary.fileState ≠ .completed ∧ plan = some (summary.encoding, summary.wireSizeBytes) ∧
        summary.sizeBytes = size ∧ summary.wireTransferredBytes.toNat = accepted.length ∧
        (summary.codecError = .malformedEncoding → summary.encoding = .zeroRleV1 ∧
          Malformed size.toNat summary.wireSizeBytes.toNat offered)
  | .closed plan, summary =>
      plan = some (summary.encoding, summary.wireSizeBytes) ∧ summary.codecError = .none ∧
        (summary.fileState = .completed ↔ summary.wireTransferredBytes = summary.wireSizeBytes)

inductive Step : Observer → Moment → Observer → Prop
  | beginRead {v last path} :
      Step ⟨v, .idle, last⟩ ⟨.beginRead path .ok, v⟩ ⟨v, .reading path none, last⟩
  | beginReadFailed {v last path error} (herror : error ≠ .ok) :
      Step ⟨v, .idle, last⟩ ⟨.beginRead path error, v⟩ ⟨v, .idle, last⟩
  | beginWrite {v last path size} :
      Step ⟨v, .idle, last⟩ ⟨.beginWrite path size .ok, v⟩ ⟨v, .writing path size none [] [], last⟩
  | beginWriteFailed {v last path size error} (herror : error ≠ .ok) :
      Step ⟨v, .idle, last⟩ ⟨.beginWrite path size error, v⟩ ⟨v, .idle, last⟩
  | start {v last path size encoding wireSize} :
      Step ⟨v, .writing path size none [] [], last⟩ ⟨.start encoding wireSize, v⟩
        ⟨v, .writing path size (some (encoding, wireSize)) [] [], last⟩
  | startRead {v last path encoding wireSize} :
      Step ⟨v, .reading path none, last⟩ ⟨.start encoding wireSize, v⟩
        ⟨v, .reading path (some (encoding, wireSize)), last⟩
  | write {v last path size plan accepted offered offset data error} :
      Step ⟨v, .writing path size plan accepted offered, last⟩ ⟨.write offset data error, v⟩
        ⟨v, .writing path size plan accepted offered, last⟩
  | accept {v last path size plan accepted payload} :
      Step ⟨v, .writing path size (some plan) accepted accepted, last⟩ ⟨.accept payload, v⟩
        ⟨v, .writing path size (some plan) (accepted ++ payload) (accepted ++ payload), last⟩
  | refuse {v last path size plan accepted payload} :
      Step ⟨v, .writing path size (some plan) accepted accepted, last⟩ ⟨.refuse payload, v⟩
        ⟨v, .writing path size (some plan) accepted (accepted ++ payload), last⟩
  | commit {v last path size plan accepted content}
    (hcarries : Carries size plan accepted content) :
      Step ⟨v, .writing path size plan accepted accepted, last⟩
        ⟨.commit .ok, Function.update v path (some ⟨.file, size, content⟩)⟩
        ⟨Function.update v path (some ⟨.file, size, content⟩), .idle,
          some (.committed size plan accepted)⟩
  | abort {v last path size plan accepted offered} :
      Step ⟨v, .writing path size plan accepted offered, last⟩ ⟨.abort, v⟩
        ⟨v, .idle, some (.aborted size plan accepted offered)⟩
  | close {v last path plan} :
      Step ⟨v, .reading path plan, last⟩ ⟨.close, v⟩ ⟨v, .idle, some (.closed plan)⟩
  | terminal {v closing summary} (htruthful : Truthful closing summary) :
      Step ⟨v, .idle, some closing⟩ ⟨.terminal summary, v⟩ ⟨v, .idle, none⟩

/-- The observer has followed the history and sees what the backend shows. -/
structure Explains (start : StorageRam) (s : Observed) (o : Observer) : Prop where
  run : Run Step { visible := visible start } s.history o
  visible_eq : o.visible = visible s.ram

/-- A call that leaves what is visible. -/
theorem Explains.record {start ram : StorageRam} {s : Observed} {v : Path → Option FileView}
    {session session' : Session} {last last' : Option Closing} {call : Call}
    (h : Explains start s ⟨v, session, last⟩) (hvisible : visible ram = visible s.ram)
    (hstep : Step ⟨v, session, last⟩ ⟨call, v⟩ ⟨v, session', last'⟩) :
    Explains start (s.record ram call) ⟨visible ram, session', last'⟩ := by
  obtain rfl : v = visible ram := h.visible_eq.trans hvisible.symm
  exact ⟨.snoc h.run hstep, rfl⟩

/-- The summary in force is the last one that was stored. -/
def Reported (history : List Moment) (summary : Summary) : Prop :=
  summary.valid = true → ∃ before after v, history = before ++ ⟨.terminal summary, v⟩ :: after ∧
    ∀ moment ∈ after, ∀ other, moment.call ≠ .terminal other

theorem Reported.record {s : Observed} {summary : Summary} {ram : StorageRam} {call : Call}
    (h : Reported s.history summary) (hcall : ∀ other, call ≠ .terminal other) :
    Reported (s.record ram call).history summary := by
  intro hvalid
  obtain ⟨before, after, v, hhistory, hlater⟩ := h hvalid
  refine ⟨before, after ++ [⟨call, visible ram⟩], v, ?_, ?_⟩
  · simp [Observed.record, hhistory]
  · intro moment hmoment
    rw [List.mem_append, List.mem_singleton] at hmoment
    rcases hmoment with hmoment | rfl
    · exact hlater moment hmoment
    · exact hcall

theorem reported_terminal (s : Observed) (ram : StorageRam) (summary : Summary) :
    Reported (s.record ram (.terminal summary)).history summary :=
  fun _ => ⟨s.history, [], visible ram, rfl, by simp⟩

end EspNp2.FileTransfer.StorageHistory
