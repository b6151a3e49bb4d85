import EspNp2.BinaryDataPlane.TransferContract
import EspNp2.FileTransfer.StorageHistory

/-!
The phases of a file transfer, as the endpoint of the service sees them over the
RAM backend, and what each of its callbacks does in them.
-/

namespace EspNp2.FileTransfer.EndpointPhases

open EspNp2.BinaryDataPlane.Transfer
open EspNp2.BinaryDataPlane.TransferContract
open EspNp2.FileTransfer.Service
open EspNp2.FileTransfer.StorageHistory
open EspNp2.FileTransfer.ZeroRleDecoder (Emitted Refused Refines)
open EspNp2.FileTransfer.ZeroRleFormat (ZeroRle Malformed parseByte zeroRle_of_run run_produced
  malformed_of_failed run_zeroRle)
open EspNp2.Library.Transducer
open EspNp2.StorageBackend
open EspNp2.StorageBackend.RamStorage (StorageRam writeImpl)
open EspNp2.StorageBackend.RamVisibility

variable {O : Type}

/-- The bytes the byte machine puts out for a stream, and where it stands then. -/
def decoded (logicalSize : UInt64) (accepted : List UInt8) : ZeroRleFormat.Parse × List UInt8 :=
  run (parseByte logicalSize.toNat) {} accepted

/-- What the staging file holds of the stream that was accepted. -/
def Staging (ctx : EndpointContext) (accepted bytes : List UInt8) : Prop :=
  match ctx.encoding with
  | .raw => ctx.logicalSize = ctx.wireSize ∧ bytes.take accepted.length = accepted
  | .zeroRleV1 =>
      ctx.decoderInitialized = true ∧ ctx.decoder.logicalSize = ctx.logicalSize.toNat ∧
        ctx.decoder.wireSize = ctx.wireSize.toNat ∧ ctx.decoder.wireConsumed = accepted.length ∧
        Refines ctx.decoder (decoded ctx.logicalSize accepted).1 ∧
        bytes.take (decoded ctx.logicalSize accepted).2.length =
          (decoded ctx.logicalSize accepted).2

def planOf (ctx : EndpointContext) : Option Plan := some (ctx.encoding, ctx.wireSize)

variable (start : StorageRam)

/-- The write session of a transfer is open. -/
structure WriteOpen (w : World Observed O) (accepted offered : List UInt8) : Prop where
  explains : ∃ last, Explains start w.storage
    ⟨visible w.storage.ram,
      .writing w.endpoint.path w.endpoint.logicalSize (planOf w.endpoint) accepted offered, last⟩
  reported : Reported w.storage.history w.terminal
  writing : Writing w.storage.ram w.endpoint.path w.endpoint.logicalSize
  sessionOpen : w.endpoint.sessionOpen = true
  finishSucceeded : w.endpoint.finishSucceeded = false

/-- The read session of a transfer is open. -/
structure ReadOpen (w : World Observed O) : Prop where
  explains : ∃ path last, Explains start w.storage
    ⟨visible w.storage.ram, .reading path (planOf w.endpoint), last⟩
  reported : Reported w.storage.history w.terminal
  reading : Reading w.storage.ram
  sessionOpen : w.endpoint.sessionOpen = true
  finishSucceeded : w.endpoint.finishSucceeded = false
  codecError : w.endpoint.codecError = .none

/-- No session is open, and the last one was closed as `closing` tells. -/
structure Closed (w : World Observed O) (closing : Option Closing) : Prop where
  explains : Explains start w.storage ⟨visible w.storage.ram, .idle, closing⟩
  reported : Reported w.storage.history w.terminal
  quiet : Quiet w.storage.ram

/-- The transfer of the manager is the write that the context describes. -/
structure Writer (p : Progress (World Observed O)) (ctx : EndpointContext) (accepted : List UInt8) :
    Prop where
  write : ctx.write = true
  direction : p.direction = .hostToDevice
  total : p.totalBytes = ctx.wireSize
  accepted : accepted.length = p.transferredBytes.toNat

structure Reader (p : Progress (World Observed O)) (ctx : EndpointContext) : Prop where
  write : ctx.write = false
  direction : p.direction = .deviceToHost
  total : p.totalBytes = ctx.wireSize

/-- A malformed encoding is reported only for a stream that no valid one begins with. -/
def Blamed (ctx : EndpointContext) (offered : List UInt8) : Prop :=
  ctx.codecError = .malformedEncoding → ctx.encoding = .zeroRleV1 ∧
    Malformed ctx.logicalSize.toNat ctx.wireSize.toNat offered

def Running (p : Progress (World Observed O)) (w : World Observed O) : Prop :=
  p.endpoint = observedEndpoint ∧
    ((∃ accepted, Writer p w.endpoint accepted ∧ WriteOpen start w accepted accepted ∧
        w.endpoint.codecError = .none ∧
        Staging w.endpoint accepted (staged w.storage.ram)) ∨
      Reader p w.endpoint ∧ ReadOpen start w)

def Aborted (p : Progress (World Observed O)) (w : World Observed O) : Prop :=
  p.endpoint = observedEndpoint ∧ w.endpoint.finishSucceeded = false ∧
    ((∃ accepted offered, Writer p w.endpoint accepted ∧ Blamed w.endpoint offered ∧
        Closed start w
          (some (.aborted w.endpoint.logicalSize (planOf w.endpoint) accepted offered))) ∨
      Reader p w.endpoint ∧ w.endpoint.codecError = .none ∧
        p.transferredBytes ≠ p.totalBytes ∧
        Closed start w (some (.closed (planOf w.endpoint))))

/-- The transfer has failed; its session is open, or was closed when it did not
finish. -/
def Failing (p : Progress (World Observed O)) (w : World Observed O) : Prop :=
  p.endpoint = observedEndpoint ∧
    ((∃ accepted offered, Writer p w.endpoint accepted ∧ Blamed w.endpoint offered ∧
        WriteOpen start w accepted offered) ∨
      Reader p w.endpoint ∧ p.transferredBytes ≠ p.totalBytes ∧ ReadOpen start w ∨
      w.endpoint.sessionOpen = false ∧ Aborted start p w)

def Finished (p : Progress (World Observed O)) (w : World Observed O) : Prop :=
  p.endpoint = observedEndpoint ∧ w.endpoint.finishSucceeded = true ∧
    w.endpoint.codecError = .none ∧ w.endpoint.storageError = .ok ∧
    ((∃ accepted, Writer p w.endpoint accepted ∧
        logicalTransferred w.endpoint.encoding w.endpoint w.endpoint.wireSize =
          w.endpoint.logicalSize ∧
        Closed start w (some (.committed w.endpoint.logicalSize (planOf w.endpoint) accepted))) ∨
      Reader p w.endpoint ∧ Closed start w (some (.closed (planOf w.endpoint))))

def Idle (w : World Observed O) : Prop := ∃ closing, Closed start w closing

variable {start} {w w' : World Observed O} {accepted offered : List UInt8}

section Writing

/-- The write callback of the observed backend. -/
def observedWrite (s : Observed) (offset : UInt64) (data : List UInt8) :
    StorageInterface.Error × Observed :=
  let (error, ram) := writeImpl s.ram offset data
  (error, s.record ram (.write offset data error))

/-- A write to the open session. -/
theorem WriteOpen.writeSession (h : WriteOpen start w accepted offered) (offset : UInt64)
    (data : List UInt8) :
    (∃ ram, writeImpl w.storage.ram offset data = (.ok, ram) ∧
      writeSession observedWrite w offset data =
        (true, { w with storage := w.storage.record ram (.write offset data .ok) }) ∧
      WriteOpen start { w with storage := w.storage.record ram (.write offset data .ok) }
        accepted offered) ∨
    ∃ error storage, writeSession observedWrite w offset data =
        (false, { w with
          storage := storage
          endpoint := { w.endpoint with storageError := error, failed := true } }) ∧
      WriteOpen start
        { w with
          storage := storage
          endpoint := { w.endpoint with storageError := error, failed := true } }
        accepted offered := by
  obtain ⟨last, hexplains⟩ := h.explains
  rw [Service.writeSession, observedWrite]
  cases hwrite : writeImpl w.storage.ram offset data with
  | mk error ram =>
      by_cases herror : error = .ok
      · subst herror
        obtain ⟨hwriting, hvisible, -⟩ := writeImpl_ok h.writing hwrite
        refine .inl
          ⟨ram, rfl, by simp, ⟨⟨last, ?_⟩, ?_, hwriting, h.sessionOpen, h.finishSucceeded⟩⟩
        · exact hexplains.record hvisible .write
        · exact h.reported.record (by simp)
      · obtain rfl := writeImpl_failed herror hwrite
        refine .inr ⟨error, w.storage.record w.storage.ram (.write offset data error),
          by simp [herror], ⟨⟨last, ?_⟩, ?_, h.writing, h.sessionOpen, h.finishSucceeded⟩⟩
        · exact hexplains.record rfl .write
        · exact h.reported.record (by simp)

theorem decoderEmit_eq (h : WriteOpen start w accepted offered) (offset : Nat)
    (data : List UInt8) :
    decoderEmit observedApi w offset data =
      Service.writeSession observedWrite w (UInt64.ofNat offset) data := by
  simp only [decoderEmit, observedApi, h.sessionOpen, Bool.true_eq_false, if_false]
  rfl

/-- The decoder's output goes to the open session. -/
theorem WriteOpen.emitted {offset : Nat} {out : List UInt8}
    (h : WriteOpen start w accepted offered)
    (hemitted : Emitted (decoderEmit observedApi) w offset out w') :
    WriteOpen start w' accepted offered ∧ w'.endpoint = w.endpoint := by
  induction hemitted with
  | nil w offset => exact ⟨h, rfl⟩
  | @cons w next last offset data rest hemit _ ih =>
      rw [decoderEmit_eq h] at hemit
      rcases h.writeSession (UInt64.ofNat offset) data with
        ⟨ram, -, hresult, hnext⟩ | ⟨error, storage, hresult, -⟩
      · rw [hresult] at hemit
        obtain rfl := (Prod.mk.inj hemit).2
        exact ih hnext
      · rw [hresult] at hemit
        cases hemit

/-- The decoder's output lands in the staging file, in order. -/
theorem WriteOpen.emitted_staged {offset : Nat} {out prior : List UInt8}
    (h : WriteOpen start w accepted offered)
    (hemitted : Emitted (decoderEmit observedApi) w offset out w')
    (hfits : offset + out.length ≤ w.endpoint.logicalSize.toNat)
    (hprior : (staged w.storage.ram).take offset = prior) :
    (staged w'.storage.ram).take (offset + out.length) = prior ++ out := by
  induction hemitted generalizing prior with
  | nil w offset => simpa using hprior
  | @cons w next last offset data rest hemit _ ih =>
      rw [decoderEmit_eq h] at hemit
      rw [List.length_append] at hfits
      have hoffset : (UInt64.ofNat offset).toNat = offset := by
        have hsize := w.endpoint.logicalSize.toNat_lt
        exact UInt64.toNat_ofNat_of_lt' (show offset < 2 ^ 64 by omega)
      rcases h.writeSession (UInt64.ofNat offset) data with
        ⟨ram, hwrite, hresult, hnext⟩ | ⟨error, storage, hresult, -⟩
      · rw [hresult] at hemit
        obtain rfl := (Prod.mk.inj hemit).2
        obtain ⟨-, -, -, hstaged⟩ := writeImpl_ok h.writing hwrite
        rw [hoffset, hprior] at hstaged
        have hall := ih hnext (by simp only; omega) hstaged
        rw [List.length_append, ← Nat.add_assoc, ← List.append_assoc]
        exact hall
      · rw [hresult] at hemit
        cases hemit

theorem WriteOpen.refused {offset : Nat} (h : WriteOpen start w accepted offered)
    (hrefused : Refused (decoderEmit observedApi) w offset w') :
    WriteOpen start w' accepted offered ∧ ∃ error,
      w'.endpoint = { w.endpoint with storageError := error, failed := true } := by
  obtain ⟨done, middle, data, hdone, hemit⟩ := hrefused
  obtain ⟨hmiddle, hendpoint⟩ := h.emitted hdone
  rw [decoderEmit_eq hmiddle] at hemit
  rcases hmiddle.writeSession (UInt64.ofNat (offset + done.length)) data with
    ⟨ram, -, hresult, -⟩ | ⟨error, storage, hresult, hlast⟩
  · rw [hresult] at hemit
    cases hemit
  · rw [hresult] at hemit
    obtain rfl := (Prod.mk.inj hemit).2
    exact ⟨hlast, error, by rw [hendpoint]⟩

/-- The payload of a DATA frame is written to the session, or handed to the decoder
that writes what it stands for. -/
theorem WriteOpen.note (h : WriteOpen start w accepted offered) {call : Call}
    {accepted' offered' : List UInt8} (hcall : ∀ other, call ≠ .terminal other)
    (hstep : ∀ v path size plan last,
      Step ⟨v, .writing path size (some plan) accepted offered, last⟩ ⟨call, v⟩
        ⟨v, .writing path size (some plan) accepted' offered', last⟩) :
    WriteOpen start (note w call) accepted' offered' := by
  obtain ⟨last, hexplains⟩ := h.explains
  exact ⟨⟨last, hexplains.record rfl (hstep _ _ _ _ _)⟩, h.reported.record hcall, h.writing,
    h.sessionOpen, h.finishSucceeded⟩

theorem endpointConsume_raw {offset : UInt64} {data : List UInt8}
    (h : WriteOpen start w accepted offered) (hraw : w.endpoint.encoding = .raw) :
    endpointConsume observedApi w offset data =
      (if (writeSession observedWrite w offset data).1 then .ok else .failed,
        (writeSession observedWrite w offset data).2) := by
  simp only [endpointConsume, observedApi, h.sessionOpen, Bool.true_eq_false, if_false, hraw]
  rfl

theorem endpointConsume_zeroRle {offset : UInt64} {data : List UInt8}
    (h : WriteOpen start w accepted offered) (hzero : w.endpoint.encoding = .zeroRleV1)
    (hinitialized : w.endpoint.decoderInitialized = true)
    (hoffset : offset.toNat = w.endpoint.decoder.wireConsumed) :
    endpointConsume observedApi w offset data =
      consumeResult (ZeroRleDecoder.consume (decoderEmit observedApi) w.endpoint.decoder w
        w.endpoint.decoder.wireConsumed data) := by
  simp only [endpointConsume, h.sessionOpen, Bool.true_eq_false, if_false, hzero, hinitialized,
    hoffset, ne_eq, not_true_eq_false, or_self]
  rfl

/-- What the endpoint may make of a payload. -/
def Consumed (start : StorageRam) (p : Progress (World Observed O)) (accepted data : List UInt8)
    (result : EndpointResult × World Observed O) : Prop :=
  WriteOpen start result.2 accepted accepted ∧ Writer p result.2.endpoint accepted ∧
    (result.1 = .ok ∧ result.2.endpoint.codecError = .none ∧
        Staging result.2.endpoint (accepted ++ data) (staged result.2.storage.ram) ∨
      result.1 = .failed ∧ Blamed result.2.endpoint (accepted ++ data))

theorem Writer.congr {p : Progress (World Observed O)} {ctx ctx' : EndpointContext}
    (h : Writer p ctx accepted) (hwrite : ctx'.write = ctx.write)
    (hsize : ctx'.wireSize = ctx.wireSize) : Writer p ctx' accepted :=
  ⟨hwrite.trans h.write, h.direction, h.total.trans hsize.symm, h.accepted⟩

theorem blamed_of_none {ctx : EndpointContext} (h : ctx.codecError = .none)
    (offered : List UInt8) : Blamed ctx offered := by
  intro hcodec
  rw [h] at hcodec
  cases hcodec

theorem consumed_raw {p : Progress (World Observed O)} {offset : UInt64} {data : List UInt8}
    (hwriter : Writer p w.endpoint accepted) (h : WriteOpen start w accepted accepted)
    (hcodec : w.endpoint.codecError = .none) (hraw : w.endpoint.encoding = .raw)
    (hstaging : Staging w.endpoint accepted (staged w.storage.ram))
    (hoffset : offset.toNat = accepted.length) :
    Consumed start p accepted data (endpointConsume observedApi w offset data) := by
  simp only [Staging, hraw] at hstaging
  rw [endpointConsume_raw h hraw]
  rcases h.writeSession offset data with ⟨ram, hwrite, hresult, hopen⟩ |
    ⟨error, storage, hresult, hopen⟩
  · rw [hresult]
    refine ⟨hopen, hwriter, .inl ⟨rfl, hcodec, ?_⟩⟩
    obtain ⟨-, -, -, hstaged⟩ := writeImpl_ok h.writing hwrite
    rw [hoffset, hstaging.2] at hstaged
    simp only [Staging, hraw]
    rw [List.length_append]
    exact ⟨hstaging.1, hstaged⟩
  · rw [hresult]
    exact ⟨hopen, hwriter.congr rfl rfl, .inr ⟨rfl, blamed_of_none hcodec _⟩⟩

/-- An update of the flags that a session does not rest on. -/
theorem WriteOpen.withEndpoint {ctx : EndpointContext} (h : WriteOpen start w accepted offered)
    (hpath : ctx.path = w.endpoint.path) (hsize : ctx.logicalSize = w.endpoint.logicalSize)
    (hplan : planOf ctx = planOf w.endpoint) (hopen : ctx.sessionOpen = w.endpoint.sessionOpen)
    (hfinish : ctx.finishSucceeded = w.endpoint.finishSucceeded) :
    WriteOpen start { w with endpoint := ctx } accepted offered := by
  refine ⟨?_, h.reported, ?_, hopen.trans h.sessionOpen, hfinish.trans h.finishSucceeded⟩
  · simp only [hpath, hsize, hplan]
    exact h.explains
  · simp only [hpath, hsize]
    exact h.writing

theorem consumed_zeroRle {p : Progress (World Observed O)} {offset : UInt64} {data : List UInt8}
    (hwriter : Writer p w.endpoint accepted) (h : WriteOpen start w accepted accepted)
    (hcodec : w.endpoint.codecError = .none) (hzero : w.endpoint.encoding = .zeroRleV1)
    (hstaging : Staging w.endpoint accepted (staged w.storage.ram))
    (hoffset : offset.toNat = accepted.length)
    (hfits : accepted.length + data.length ≤ w.endpoint.wireSize.toNat) :
    Consumed start p accepted data (endpointConsume observedApi w offset data) := by
  simp only [Staging, hzero] at hstaging
  obtain ⟨hinitialized, hlogical, hwire, hconsumed, hrefines, hfront⟩ := hstaging
  have hrun : decoded w.endpoint.logicalSize (accepted ++ data) =
      ((run (parseByte w.endpoint.decoder.logicalSize) (decoded w.endpoint.logicalSize accepted).1
          data).1,
        (decoded w.endpoint.logicalSize accepted).2 ++
          (run (parseByte w.endpoint.decoder.logicalSize)
            (decoded w.endpoint.logicalSize accepted).1 data).2) := by
    rw [hlogical]
    exact run_append _ _ accepted data
  have hproduced : (decoded w.endpoint.logicalSize accepted).2.length =
      w.endpoint.decoder.logicalProduced := by
    have hcount : (decoded w.endpoint.logicalSize accepted).1.produced =
        0 + (decoded w.endpoint.logicalSize accepted).2.length := run_produced {} accepted
    rw [← hrefines.produced, hcount, Nat.zero_add]
  rw [endpointConsume_zeroRle h hzero hinitialized (hoffset.trans hconsumed.symm)]
  have houtcome : ZeroRleDecoder.Outcome (decoderEmit observedApi) w.endpoint.decoder w data.length
      _ _ (ZeroRleDecoder.consume (decoderEmit observedApi) w.endpoint.decoder w
        w.endpoint.decoder.wireConsumed data) :=
    ZeroRleDecoder.consume_outcome hrefines (by omega)
  generalize ZeroRleDecoder.consume (decoderEmit observedApi) w.endpoint.decoder w
    w.endpoint.decoder.wireConsumed data = result at houtcome
  cases houtcome with
  | @accepted d' w' hsizes hconsumed' hrefines' hemitted =>
      obtain ⟨hopen, hendpoint⟩ := h.emitted hemitted
      have hnext : (decoded w.endpoint.logicalSize (accepted ++ data)).1.produced =
          0 + (decoded w.endpoint.logicalSize (accepted ++ data)).2.length :=
        run_produced {} (accepted ++ data)
      have hbounded := hrefines'.bounded
      rw [← hrefines'.produced, ← congrArg Prod.fst hrun, hnext, hsizes.logicalSize, hlogical,
        Nat.zero_add, congrArg Prod.snd hrun, List.length_append, hproduced] at hbounded
      rw [hproduced] at hfront
      have hstaged := h.emitted_staged hemitted hbounded hfront
      refine ⟨hopen.withEndpoint rfl rfl rfl rfl rfl, hwriter.congr ?_ ?_, .inl ⟨rfl, ?_, ?_⟩⟩
      · simp only [consumeResult, hendpoint]
      · simp only [consumeResult, hendpoint]
      · simp only [consumeResult, hendpoint, hcodec]
      · simp only [consumeResult, Staging, hendpoint, hzero]
        refine ⟨hinitialized, hsizes.logicalSize.trans hlogical,
          hsizes.wireSize.trans hwire, ?_, ?_, ?_⟩
        · rw [hconsumed', hconsumed, List.length_append]
        · rw [hrun]
          exact hrefines'
        · rw [hrun, List.length_append, hproduced]
          exact hstaged
  | @malformed d' w' hsizes hfailed hstate herror hemitted =>
      obtain ⟨hopen, hendpoint⟩ := h.emitted hemitted
      refine ⟨hopen.withEndpoint rfl rfl rfl rfl rfl, hwriter.congr ?_ ?_,
        .inr ⟨rfl, fun _ => ?_⟩⟩
      · simp only [consumeResult, hendpoint]
      · simp only [consumeResult, hendpoint]
      · simp only [consumeResult, hendpoint]
        refine ⟨hzero, malformed_of_failed ?_⟩
        rw [← hfailed]
        exact congrArg (fun r => r.1.phase) hrun
  | @refused d' w' hsizes hstate herror hrefused =>
      obtain ⟨hopen, error, hendpoint⟩ := h.refused hrefused
      refine ⟨hopen.withEndpoint rfl rfl rfl rfl rfl, hwriter.congr ?_ ?_,
        .inr ⟨rfl, blamed_of_none ?_ _⟩⟩
      · simp only [consumeResult, hendpoint]
      · simp only [consumeResult, hendpoint]
      · simp only [consumeResult, hendpoint, hcodec]

end Writing

section Finishing

/-- A commit closes the session and shows the file. -/
theorem WriteOpen.commitSession (h : WriteOpen start w accepted accepted)
    (hcarries : Carries w.endpoint.logicalSize (planOf w.endpoint) accepted
      (staged w.storage.ram)) :
    ∃ w', commitSession observedApi w = (.ok, w') ∧
      w'.endpoint = { w.endpoint with
        sessionOpen := false
        storageError := .ok
        failed := false
        finishSucceeded := true } ∧
      Closed start w' (some (.committed w.endpoint.logicalSize (planOf w.endpoint) accepted)) := by
  obtain ⟨last, hexplains⟩ := h.explains
  obtain ⟨ram, hcommit, hquiet, hvisible⟩ := commitImpl_ok h.writing
  have hsession : Service.commitSession observedApi w =
      closeFinished { w with storage := w.storage.record ram (.commit .ok) } .ok := by
    simp only [Service.commitSession, observedApi, hcommit, ne_eq, not_true_eq_false, if_false]
  have hstep : Step
      ⟨visible w.storage.ram, .writing w.endpoint.path w.endpoint.logicalSize (planOf w.endpoint)
        accepted accepted, last⟩ ⟨.commit .ok, visible ram⟩
      ⟨visible ram, .idle,
        some (.committed w.endpoint.logicalSize (planOf w.endpoint) accepted)⟩ := by
    rw [hvisible]
    exact .commit hcarries
  exact ⟨_, hsession, rfl, ⟨⟨.snoc hexplains.run hstep, rfl⟩, h.reported.record (by simp), hquiet⟩⟩

/-- An abort closes the session and leaves the files. -/
theorem WriteOpen.abortSession (h : WriteOpen start w accepted offered) :
    Closed start (abortSession observedApi w)
        (some (.aborted w.endpoint.logicalSize (planOf w.endpoint) accepted offered)) ∧
      (abortSession observedApi w).endpoint = w.endpoint := by
  obtain ⟨last, hexplains⟩ := h.explains
  obtain ⟨hquiet, hvisible⟩ := abortImpl_quiet h.writing
  exact ⟨⟨hexplains.record hvisible .abort, h.reported.record (by simp), hquiet⟩, rfl⟩

theorem ReadOpen.closeSession (h : ReadOpen start w) :
    Closed start (closeSession observedApi w) (some (.closed (planOf w.endpoint))) ∧
      (closeSession observedApi w).endpoint = w.endpoint := by
  obtain ⟨path, last, hexplains⟩ := h.explains
  obtain ⟨hquiet, hvisible⟩ := closeRead_quiet h.reading
  exact ⟨⟨hexplains.record hvisible .close, h.reported.record (by simp), hquiet⟩, rfl⟩

theorem Closed.withEndpoint {closing : Option Closing} (h : Closed start w closing)
    (ctx : EndpointContext) : Closed start { w with endpoint := ctx } closing :=
  ⟨h.explains, h.reported, h.quiet⟩

/-- A raw stream of full length is the staging file. -/
theorem carries_raw (h : WriteOpen start w accepted offered) (hraw : w.endpoint.encoding = .raw)
    (hstaging : Staging w.endpoint accepted (staged w.storage.ram))
    (hfull : accepted.length = w.endpoint.wireSize.toNat) :
    Carries w.endpoint.logicalSize (planOf w.endpoint) accepted (staged w.storage.ram) := by
  simp only [Staging, hraw] at hstaging
  have hlength := staged_length h.writing
  refine ⟨hlength, ?_⟩
  simp only [planOf, hraw]
  refine ⟨hfull, ?_⟩
  have hfront := hstaging.2
  rwa [hfull, ← hstaging.1, ← hlength, List.take_length] at hfront

/-- A complete encoded stream stands for the staging file. -/
theorem carries_zeroRle (h : WriteOpen start w accepted offered)
    (hzero : w.endpoint.encoding = .zeroRleV1)
    (hstaging : Staging w.endpoint accepted (staged w.storage.ram))
    (hfull : accepted.length = w.endpoint.wireSize.toNat)
    (hdone : (decoded w.endpoint.logicalSize accepted).1 =
      { produced := w.endpoint.logicalSize.toNat }) :
    Carries w.endpoint.logicalSize (planOf w.endpoint) accepted (staged w.storage.ram) := by
  simp only [Staging, hzero] at hstaging
  obtain ⟨-, -, -, -, -, hfront⟩ := hstaging
  have hlength := staged_length h.writing
  have hcount : (decoded w.endpoint.logicalSize accepted).1.produced =
      0 + (decoded w.endpoint.logicalSize accepted).2.length := run_produced {} accepted
  rw [hdone, Nat.zero_add] at hcount
  rw [← hcount, ← hlength, List.take_length] at hfront
  refine ⟨hlength, ?_⟩
  simp only [planOf, hzero]
  refine ⟨hfull, ?_⟩
  rw [hfront]
  exact zeroRle_of_run rfl (by rw [show (run _ _ _).1 = _ from hdone])

/-- A stream of full length that the decoder does not finish is malformed. -/
theorem malformed_of_unfinished (hfull : accepted.length = w.endpoint.wireSize.toNat)
    (hunfinished : (decoded w.endpoint.logicalSize accepted).1 ≠
      { produced := w.endpoint.logicalSize.toNat }) :
    Malformed w.endpoint.logicalSize.toNat w.endpoint.wireSize.toNat accepted := by
  intro rest logical hvalid hwire hlogical
  rw [List.length_append, hfull, Nat.add_eq_left, List.length_eq_zero_iff] at hwire
  subst hwire
  rw [List.append_nil] at hvalid
  have hgood : run (parseByte w.endpoint.logicalSize.toNat) { produced := 0 } accepted = _ :=
    run_zeroRle hvalid (by omega : 0 + logical.length ≤ w.endpoint.logicalSize.toNat)
  rw [hlogical, Nat.zero_add] at hgood
  exact hunfinished (congrArg Prod.fst hgood)

/-- `endpoint_finish` of a write commits the file, or drops a malformed one. -/
theorem endpointFinish_write {p : Progress (World Observed O)}
    (hendpoint : p.endpoint = observedEndpoint) (hwriter : Writer p w.endpoint accepted)
    (h : WriteOpen start w accepted accepted) (hcodec : w.endpoint.codecError = .none)
    (hstaging : Staging w.endpoint accepted (staged w.storage.ram))
    (hfull : p.transferredBytes = p.totalBytes) :
    (∃ w', endpointFinish observedApi w = (.ok, w') ∧ Finished start p w') ∨
      ∃ w', endpointFinish observedApi w = (.failed, w') ∧ Failing start p w' := by
  have hlength : accepted.length = w.endpoint.wireSize.toNat := by
    rw [hwriter.accepted, hfull, hwriter.total]
  rw [endpointFinish]
  simp only [h.sessionOpen, Bool.true_eq_false, if_false, hwriter.write, if_true]
  cases hencoding : w.endpoint.encoding with
  | raw =>
      obtain ⟨w', hcommit, hctx, hclosed⟩ :=
        h.commitSession (carries_raw h hencoding hstaging hlength)
      rw [if_neg (by simp), hcommit]
      simp only [Staging, hencoding] at hstaging
      refine .inl ⟨w', rfl, hendpoint, by rw [hctx], by rw [hctx]; exact hcodec, by rw [hctx],
        .inl ⟨accepted, ?_, ?_, ?_⟩⟩
      · rw [hctx]
        exact hwriter.congr rfl rfl
      · rw [hctx]
        simp [logicalTransferred, hencoding, hstaging.1]
      · rw [hctx]
        exact hclosed
  | zeroRleV1 =>
      have hstaging' := hstaging
      simp only [Staging, hencoding] at hstaging
      obtain ⟨hinitialized, hlogical, hwire, hconsumed, hrefines, hfront⟩ := hstaging
      rw [if_pos ⟨rfl, hinitialized⟩]
      rcases ZeroRleDecoder.finish_cases (decoderEmit observedApi) w hrefines with
        ⟨hfinish, hdone, -⟩ | ⟨error, hfinish, hunfinished⟩
      · rw [hlogical] at hdone
        obtain ⟨w', hcommit, hctx, hclosed⟩ :=
          h.commitSession (carries_zeroRle h hencoding hstaging' hlength hdone)
        rw [hfinish]
        simp only
        refine .inl ⟨w', hcommit, hendpoint, by rw [hctx], by rw [hctx]; exact hcodec, by rw [hctx],
          .inl ⟨accepted, ?_, ?_, ?_⟩⟩
        · rw [hctx]
          exact hwriter.congr rfl rfl
        · have hproduced := hrefines.produced
          rw [hdone] at hproduced
          rw [hctx]
          simp [logicalTransferred, hencoding, hinitialized, ← hproduced]
        · rw [hctx]
          exact hclosed
      · obtain ⟨hclosed, hctx⟩ := h.abortSession
        have hmalformed : Malformed w.endpoint.logicalSize.toNat w.endpoint.wireSize.toNat
          accepted := by
          refine malformed_of_unfinished hlength fun hdone => hunfinished ⟨?_, ?_⟩
          · rw [hdone, hlogical]
          · rw [hconsumed, hwire, hlength]
        rw [hfinish]
        simp only [ZeroRleDecoder.fail]
        refine .inr ⟨_, rfl, hendpoint, .inr (.inr ⟨rfl, hendpoint, rfl, .inl ⟨accepted, accepted,
          hwriter.congr ?_ ?_, fun _ => ⟨?_, ?_⟩, ?_⟩⟩)⟩
        · simp only [hctx]
        · simp only [hctx]
        · simp only [hctx, hencoding]
        · simp only [hctx]
          exact hmalformed
        · simp only [hctx]
          exact hclosed.withEndpoint _

end Finishing

end EspNp2.FileTransfer.EndpointPhases
