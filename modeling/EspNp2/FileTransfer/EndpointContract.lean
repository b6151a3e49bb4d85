import EspNp2.FileTransfer.EndpointPhases

/-!
The callbacks of the service's endpoint keep the phases of a file transfer, so the
transfer manager keeps them over every frame, poll and abort.
-/

namespace EspNp2.FileTransfer.EndpointContract

open EspNp2.BinaryDataPlane.BinaryCodec (ParsedFrame)
open EspNp2.BinaryDataPlane.Transfer
open EspNp2.BinaryDataPlane.TransferContract
open EspNp2.FileTransfer.EndpointPhases
open EspNp2.FileTransfer.Service
open EspNp2.FileTransfer.StorageHistory
open EspNp2.StorageBackend
open EspNp2.StorageBackend.RamStorage (StorageRam)
open EspNp2.StorageBackend.RamVisibility (visible staged Writing Storable)

variable {O : Type} {start : StorageRam} {p : Progress (World Observed O)}
  {w : World Observed O} {accepted : List UInt8}

section Callbacks

theorem Writer.advance {ctx : EndpointContext} {frame : ParsedFrame}
    (h : Writer p ctx accepted) (hframe : Acceptable p frame) :
    Writer (p.advance frame.payloadLength) ctx (accepted ++ frame.payload) := by
  refine ⟨h.write, h.direction, h.total, ?_⟩
  have hfits := hframe.fits
  rw [← hframe.payloadLength] at hfits
  rw [List.length_append, h.accepted, ← hframe.payloadLength]
  exact (toNat_advance hfits).symm

theorem Running.writer (h : Running start p w) (hdirection : p.direction = .hostToDevice) :
    ∃ accepted, Writer p w.endpoint accepted ∧ WriteOpen start w accepted accepted ∧
      w.endpoint.codecError = .none ∧ Staging w.endpoint accepted (staged w.storage.ram) := by
  rcases h.2 with hwriter | ⟨hreader, -⟩
  · exact hwriter
  · rw [hreader.direction] at hdirection
    cases hdirection

theorem Running.reader (h : Running start p w) (hdirection : p.direction = .deviceToHost) :
    Reader p w.endpoint ∧ ReadOpen start w := by
  rcases h.2 with ⟨accepted, hwriter, -⟩ | hreader
  · rw [hwriter.direction] at hdirection
    cases hdirection
  · exact hreader

/-- The endpoint takes a payload whole, or the transfer fails on it. -/
theorem consumed {frame : ParsedFrame} (hwriter : Writer p w.endpoint accepted)
    (h : WriteOpen start w accepted accepted) (hcodec : w.endpoint.codecError = .none)
    (hstaging : Staging w.endpoint accepted (staged w.storage.ram)) (hpositioned : Positioned p)
    (hframe : Acceptable p frame) :
    Consumed start p accepted frame.payload
      (endpointConsume observedApi w frame.offset frame.payload) := by
  have hoffset : frame.offset.toNat = accepted.length := by
    rw [hframe.offset, hpositioned.offset_eq, hwriter.accepted]
  cases hencoding : w.endpoint.encoding with
  | raw => exact consumed_raw hwriter h hcodec hencoding hstaging hoffset
  | zeroRleV1 =>
      refine consumed_zeroRle hwriter h hcodec hencoding hstaging hoffset ?_
      rw [hwriter.accepted, ← hwriter.total]
      exact hframe.fits

theorem Consumed.running {frame : ParsedFrame} {result : EndpointResult × World Observed O}
    (h : Consumed start p accepted frame.payload result) (hendpoint : p.endpoint = observedEndpoint)
    (hframe : Acceptable p frame) (hok : result.1 = .ok) :
    Running start (p.advance frame.payloadLength) (note result.2 (.accept frame.payload)) := by
  obtain ⟨hopen, hwriter, ⟨-, hcodec, hstaging⟩ | ⟨hfailed, -⟩⟩ := h
  · refine ⟨hendpoint, .inl ⟨_, Writer.advance hwriter hframe, hopen.note (by simp) ?_, hcodec,
      hstaging⟩⟩
    intro v path size plan last
    exact .accept
  · rw [hok] at hfailed
    cases hfailed

theorem Consumed.failing {frame : ParsedFrame} {result : EndpointResult × World Observed O}
    (h : Consumed start p accepted frame.payload result) (hendpoint : p.endpoint = observedEndpoint)
    (hfailed : result.1 = .failed) :
    Failing start p (note result.2 (.refuse frame.payload)) := by
  obtain ⟨hopen, hwriter, ⟨hok, -⟩ | ⟨-, hblamed⟩⟩ := h
  · rw [hfailed] at hok
    cases hok
  · refine ⟨hendpoint, .inl ⟨accepted, _, hwriter, hblamed, hopen.note (by simp) ?_⟩⟩
    intro v path size plan last
    exact .refuse

theorem Running.fail (h : Running start p w) (hpositioned : Positioned p) : Failing start p w := by
  refine ⟨h.1, ?_⟩
  rcases h.2 with ⟨accepted, hwriter, hopen, hcodec, -⟩ | ⟨hreader, hopen⟩
  · exact .inl ⟨accepted, accepted, hwriter, blamed_of_none hcodec _, hopen⟩
  · exact .inr (.inl ⟨hreader, hpositioned.unfilled, hopen⟩)

/-- An update of the flags that a read session does not rest on. -/
theorem ReadOpen.withEndpoint {ctx : EndpointContext} (h : ReadOpen start w)
    (hplan : planOf ctx = planOf w.endpoint) (hopen : ctx.sessionOpen = w.endpoint.sessionOpen)
    (hfinish : ctx.finishSucceeded = w.endpoint.finishSucceeded)
    (hcodec : ctx.codecError = w.endpoint.codecError) :
    ReadOpen start { w with endpoint := ctx } where
  explains := by
    rw [hplan]
    exact h.explains
  reported := h.reported
  reading := h.reading
  sessionOpen := hopen.trans h.sessionOpen
  finishSucceeded := hfinish.trans h.finishSucceeded
  codecError := hcodec.trans h.codecError

/-- A read leaves the backend as it is. -/
theorem endpointProduce_cases (h : ReadOpen start w) (offset : UInt64) (requested : Nat) :
    (∃ bytes, endpointProduce observedApi w offset requested = ((.ok, bytes), w)) ∨
      ∃ bytes error, endpointProduce observedApi w offset requested =
        ((.failed, bytes), { w with endpoint := { w.endpoint with
          storageError := error
          failed := true } }) := by
  have hopen : ¬ w.endpoint.sessionOpen = false := by simp [h.sessionOpen]
  simp only [endpointProduce, observedApi]
  rw [if_neg hopen]
  split
  · exact .inr ⟨_, _, rfl⟩
  · exact .inl ⟨_, rfl⟩

/-- `endpoint_finish` of a read closes the session. -/
theorem endpointFinish_read (hendpoint : p.endpoint = observedEndpoint)
    (hreader : Reader p w.endpoint) (h : ReadOpen start w) :
    ∃ w', endpointFinish observedApi w = (.ok, w') ∧ Finished start p w' := by
  obtain ⟨hclosed, hctx⟩ := h.closeSession
  have hfinish : endpointFinish observedApi w =
      closeFinished (closeSession observedApi w) .ok := by
    simp [endpointFinish, h.sessionOpen, hreader.write]
  refine ⟨_, hfinish, hendpoint, rfl, ?_, rfl, .inr ⟨⟨?_, hreader.direction, ?_⟩, ?_⟩⟩
  · simp only [hctx, h.codecError]
  · simp only [hctx, hreader.write]
  · simp only [hctx, hreader.total]
  · exact hclosed.withEndpoint _

theorem endpointFinish_cases (h : Running start p w) (hfull : p.transferredBytes = p.totalBytes) :
    (∃ w', endpointFinish observedApi w = (.ok, w') ∧ Finished start p w') ∨
      ∃ w', endpointFinish observedApi w = (.failed, w') ∧ Failing start p w' := by
  rcases h.2 with ⟨accepted, hwriter, hopen, hcodec, hstaging⟩ | ⟨hreader, hopen⟩
  · exact endpointFinish_write h.1 hwriter hopen hcodec hstaging hfull
  · exact .inl (endpointFinish_read h.1 hreader hopen)

/-- The end of `endpoint_abort` changes no flag that tells how the session closed. -/
theorem endpointAbort_closed (hclosed : w.endpoint.sessionOpen = false) (reason : TerminalReason) :
    ∃ error, Service.endpointAbort observedApi w reason =
      { w with endpoint := { w.endpoint with storageError := error } } := by
  have hsame : ¬ w.endpoint.sessionOpen = true := by simp [hclosed]
  rw [Service.endpointAbort, if_neg hsame]
  simp only
  split_ifs
  · exact ⟨w.endpoint.storageError, rfl⟩
  · exact ⟨_, rfl⟩

theorem Aborted.withStorageError (h : Aborted start p w) (error : StorageInterface.Error) :
    Aborted start p { w with endpoint := { w.endpoint with storageError := error } } := by
  refine ⟨h.1, h.2.1, ?_⟩
  rcases h.2.2 with ⟨accepted, offered, hwriter, hblamed, hclosed⟩ |
    ⟨hreader, hcodec, hpart, hclosed⟩
  · exact .inl ⟨accepted, offered, hwriter.congr rfl rfl, hblamed, hclosed.withEndpoint _⟩
  · exact .inr ⟨⟨hreader.write, hreader.direction, hreader.total⟩, hcodec, hpart,
      hclosed.withEndpoint _⟩

/-- An abort closes the session that a failed transfer left open. -/
theorem Failing.abort (h : Failing start p w) (reason : TerminalReason) :
    Aborted start p (Service.endpointAbort observedApi w reason) := by
  rcases h.2 with ⟨accepted, offered, hwriter, hblamed, hopen⟩ | ⟨hreader, hpart, hopen⟩ |
    ⟨hsession, haborted⟩
  · obtain ⟨hclosed, hctx⟩ := hopen.abortSession
    have habort : Service.endpointAbort observedApi w reason = Service.endpointAbort observedApi
        { abortSession observedApi w with endpoint := { w.endpoint with sessionOpen := false } }
        reason := by
      simp [Service.endpointAbort, hopen.sessionOpen, hwriter.write, hctx]
    rw [habort]
    obtain ⟨error, herror⟩ := endpointAbort_closed (w := { abortSession observedApi w with
      endpoint := { w.endpoint with sessionOpen := false } }) rfl reason
    have haborted : Aborted start p { abortSession observedApi w with
        endpoint := { w.endpoint with sessionOpen := false } } :=
      ⟨h.1, hopen.finishSucceeded, .inl ⟨accepted, offered, hwriter.congr rfl rfl, hblamed,
        hclosed.withEndpoint _⟩⟩
    rw [herror]
    exact Aborted.withStorageError haborted error
  · obtain ⟨hclosed, hctx⟩ := hopen.closeSession
    have habort : Service.endpointAbort observedApi w reason = Service.endpointAbort observedApi
        { closeSession observedApi w with endpoint := { w.endpoint with sessionOpen := false } }
        reason := by
      simp [Service.endpointAbort, hopen.sessionOpen, hreader.write, hctx]
    rw [habort]
    obtain ⟨error, herror⟩ := endpointAbort_closed (w := { closeSession observedApi w with
      endpoint := { w.endpoint with sessionOpen := false } }) rfl reason
    have haborted : Aborted start p { closeSession observedApi w with
        endpoint := { w.endpoint with sessionOpen := false } } :=
      ⟨h.1, hopen.finishSucceeded, .inr ⟨⟨hreader.write, hreader.direction, hreader.total⟩,
        hopen.codecError, hpart, hclosed.withEndpoint _⟩⟩
    rw [herror]
    exact Aborted.withStorageError haborted error
  · obtain ⟨error, herror⟩ := endpointAbort_closed hsession reason
    rw [herror]
    exact Aborted.withStorageError haborted error

/-- The summary that the endpoint stores is the one the history reports. -/
theorem closed_terminal {closing : Closing} (h : Closed start w (some closing))
    {info : TransferInfo} {reason : TerminalReason}
    (htruthful : Truthful closing (endpointTerminal w info reason).terminal) :
    Closed start (note (endpointTerminal w info reason)
      (.terminal (endpointTerminal w info reason).terminal)) none :=
  ⟨h.explains.record rfl (.terminal htruthful), reported_terminal _ _ _, h.quiet⟩

theorem terminalFileState_aborted {ctx : EndpointContext} {reason : TerminalReason}
    (hfinish : ctx.finishSucceeded = false) (hreason : reason ≠ .completed) :
    terminalFileState ctx reason ≠ .completed := by
  rw [terminalFileState, if_neg (by simp [hfinish])]
  split
  · simp
  · simp

theorem Aborted.terminal (h : Aborted start p w) {info : TransferInfo} {reason : TerminalReason}
    (hreports : Reports p .aborted info) (hreason : reason ≠ .completed) :
    Closed start (note (endpointTerminal w info reason)
      (.terminal (endpointTerminal w info reason).terminal)) none := by
  have hstate := terminalFileState_aborted h.2.1 hreason
  rcases h.2.2 with ⟨accepted, offered, hwriter, hblamed, hclosed⟩ |
    ⟨hreader, hcodec, hpart, hclosed⟩
  · refine closed_terminal hclosed ⟨hstate, rfl, rfl, ?_, hblamed⟩
    rw [hwriter.accepted, ← hreports.transferredBytes]
    rfl
  · refine closed_terminal hclosed ⟨rfl, hcodec, ?_⟩
    constructor
    · intro hcompleted
      exact absurd hcompleted hstate
    · intro hfull
      refine absurd ?_ hpart
      rw [hreader.total, ← hreports.transferredBytes]
      exact hfull

theorem Finished.terminal (h : Finished start p w) {info : TransferInfo}
    (hfull : p.transferredBytes = p.totalBytes) (hreports : Reports p .completed info) :
    Closed start (note (endpointTerminal w info .completed)
      (.terminal (endpointTerminal w info .completed).terminal)) none := by
  obtain ⟨-, hfinish, hcodec, hstorage, hsession⟩ := h
  have hstate : terminalFileState w.endpoint .completed = .completed := by
    rw [terminalFileState, if_pos hfinish]
  rcases hsession with ⟨accepted, hwriter, hlogical, hclosed⟩ | ⟨hreader, hclosed⟩
  · have hwire : info.transferredBytes = w.endpoint.wireSize := by
      rw [hreports.transferredBytes, hfull, hwriter.total]
    refine closed_terminal hclosed ⟨hstate, hcodec, hstorage, rfl, rfl, ?_, ?_⟩
    · rw [hwriter.accepted, ← hreports.transferredBytes]
      rfl
    · simp only [endpointTerminal]
      rw [hwire, hlogical]
  · refine closed_terminal hclosed ⟨rfl, hcodec, ?_⟩
    have hwire : info.transferredBytes = w.endpoint.wireSize := by
      rw [hreports.transferredBytes, hfull, hreader.total]
    constructor
    · intro _
      exact hwire
    · intro _
      exact hstate

end Callbacks

section Sessions

variable {closing : Option Closing}

/-- A write session that no transfer uses yet. -/
theorem Closed.beginWrite (h : Closed start w closing) {path : StorageInterface.Path}
    {size : UInt64} {replace : Bool} {ram : StorageRam} (hpath : Storable path)
    (hbegin : RamStorage.beginWriteImpl w.storage.ram path size replace = (.ok, ram)) :
    Explains start (w.storage.record ram (.beginWrite path size .ok))
        ⟨visible ram, .writing path size none [] [], closing⟩ ∧
      Reported (w.storage.record ram (.beginWrite path size .ok)).history w.terminal ∧
      Writing ram path size := by
  obtain ⟨hwriting, hvisible⟩ := RamVisibility.beginWriteImpl_ok h.quiet hpath hbegin
  exact ⟨h.explains.record hvisible .beginWrite, h.reported.record (by simp), hwriting⟩

theorem Closed.beginWriteFailed (h : Closed start w closing) {path : StorageInterface.Path}
    {size : UInt64} {replace : Bool} {ram : StorageRam} {error : StorageInterface.Error}
    (herror : error ≠ .ok)
    (hbegin : RamStorage.beginWriteImpl w.storage.ram path size replace = (error, ram)) :
    Closed start { w with storage := w.storage.record ram (.beginWrite path size error) }
      closing := by
  obtain rfl := RamVisibility.beginWriteImpl_failed herror hbegin
  exact ⟨h.explains.record rfl (.beginWriteFailed herror), h.reported.record (by simp), h.quiet⟩

theorem Closed.beginRead (h : Closed start w closing) {path : StorageInterface.Path}
    {ram : StorageRam} (hbegin : RamStorage.beginReadImpl w.storage.ram path = (.ok, ram)) :
    Explains start (w.storage.record ram (.beginRead path .ok))
        ⟨visible ram, .reading path none, closing⟩ ∧
      Reported (w.storage.record ram (.beginRead path .ok)).history w.terminal ∧
      RamVisibility.Reading ram := by
  obtain ⟨hreading, hvisible⟩ := RamVisibility.beginReadImpl_ok h.quiet hbegin
  exact ⟨h.explains.record hvisible .beginRead, h.reported.record (by simp), hreading⟩

theorem Closed.beginReadFailed (h : Closed start w closing) {path : StorageInterface.Path}
    {ram : StorageRam} {error : StorageInterface.Error} (herror : error ≠ .ok)
    (hbegin : RamStorage.beginReadImpl w.storage.ram path = (error, ram)) :
    Closed start { w with storage := w.storage.record ram (.beginRead path error) } closing := by
  obtain rfl := RamVisibility.beginReadImpl_failed herror hbegin
  exact ⟨h.explains.record rfl (.beginReadFailed herror), h.reported.record (by simp), h.quiet⟩

/-- The context that `begin_read` and `begin_write` prepare. -/
structure Fresh (ctx : EndpointContext) : Prop where
  codecError : ctx.codecError = .none
  finishSucceeded : ctx.finishSucceeded = false
  sizes : ctx.encoding = .raw → ctx.logicalSize = ctx.wireSize

/-- The context of a write session that has just been opened. -/
def openedContext (ctx : EndpointContext) : EndpointContext :=
  let ctx := { ctx with storageError := .ok, sessionOpen := true }
  if ctx.encoding = .zeroRleV1 then
    { ctx with
      decoder := ZeroRleDecoder.init ctx.logicalSize.toNat ctx.wireSize.toNat kZeroRunBufferBytes
      decoderInitialized := true }
  else ctx

theorem endpointBegin_write (h : Closed start w closing) (hwrite : w.endpoint.write = true)
    (direction : Direction) (size : UInt64) :
    (∃ ram, RamStorage.beginWriteImpl w.storage.ram w.endpoint.path w.endpoint.logicalSize
        w.endpoint.replace = (.ok, ram) ∧
      endpointBegin observedApi w direction size = (.ok, { w with
        storage := w.storage.record ram (.beginWrite w.endpoint.path w.endpoint.logicalSize .ok)
        endpoint := openedContext w.endpoint })) ∨
    ∃ w', endpointBegin observedApi w direction size = (.failed, w') ∧ Closed start w' closing := by
  rw [endpointBegin]
  simp only [hwrite, if_true, observedApi]
  rcases hbegin : RamStorage.beginWriteImpl w.storage.ram w.endpoint.path w.endpoint.logicalSize
    w.endpoint.replace with ⟨error, ram⟩
  by_cases herror : error = .ok
  · subst herror
    refine .inl ⟨ram, rfl, ?_⟩
    simp only [toResult, if_true, openedContext, decide_true, true_and, hwrite]
  · have hclosed := (Closed.beginWriteFailed h herror hbegin).withEndpoint
      { w.endpoint with storageError := error, sessionOpen := false }
    refine .inr ⟨_, ?_, hclosed⟩
    simp [toResult, herror, hwrite]

/-- The fields of the context that opening a session leaves. -/
theorem openedContext_fields (ctx : EndpointContext) :
    (openedContext ctx).write = ctx.write ∧ (openedContext ctx).path = ctx.path ∧
      (openedContext ctx).logicalSize = ctx.logicalSize ∧
      (openedContext ctx).wireSize = ctx.wireSize ∧
      (openedContext ctx).encoding = ctx.encoding ∧
      (openedContext ctx).codecError = ctx.codecError ∧
      (openedContext ctx).finishSucceeded = ctx.finishSucceeded ∧
      (openedContext ctx).sessionOpen = true := by
  rw [openedContext]
  simp only
  split <;> exact ⟨rfl, rfl, rfl, rfl, rfl, rfl, rfl, rfl⟩

/-- Nothing has been accepted when a session opens. -/
theorem staging_openedContext {ctx : EndpointContext} (h : Fresh ctx) (bytes : List UInt8) :
    Staging (openedContext ctx) [] bytes := by
  rw [Staging, openedContext]
  cases hencoding : ctx.encoding with
  | raw => simpa [hencoding] using h.sizes hencoding
  | zeroRleV1 =>
      simp only [if_true, true_and]
      exact ⟨rfl, rfl, rfl, ZeroRleDecoder.refines_init (by decide), rfl⟩

/-- The begin callback of a write opens the session that the transfer then uses. -/
theorem begin_write (h : Closed start w closing) (hfresh : Fresh w.endpoint)
    (hstorable : Storable w.endpoint.path) {ram : StorageRam}
    (hbegin : RamStorage.beginWriteImpl w.storage.ram w.endpoint.path w.endpoint.logicalSize
      w.endpoint.replace = (.ok, ram)) :
    WriteOpen start
      (note { w with
          storage := w.storage.record ram (.beginWrite w.endpoint.path w.endpoint.logicalSize .ok)
          endpoint := openedContext w.endpoint }
        (.start (openedContext w.endpoint).encoding (openedContext w.endpoint).wireSize)) []
          [] := by
  obtain ⟨hexplains, hreported, hwriting⟩ := Closed.beginWrite h hstorable hbegin
  obtain ⟨-, hpath, hsize, -, -, -, hfinish, hopen⟩ := openedContext_fields w.endpoint
  refine ⟨⟨closing, ?_⟩, hreported.record (by simp), ?_, hopen,
    hfinish.trans hfresh.finishSucceeded⟩
  · simp only [note, hpath, hsize]
    exact hexplains.record rfl .start
  · simp only [note, hpath, hsize]
    exact hwriting

/-- The begin callback of a read opens the session that the transfer then uses. -/
theorem endpointBegin_read (h : Closed start w closing) (hwrite : w.endpoint.write = false)
    (hfresh : Fresh w.endpoint) (direction : Direction) (size : UInt64) :
    (∃ w', endpointBegin observedApi w direction size = (.ok, w') ∧
      ReadOpen start (note w' (.start w'.endpoint.encoding w'.endpoint.wireSize)) ∧
      w'.endpoint.write = false ∧ w'.endpoint.wireSize = w.endpoint.wireSize) ∨
    ∃ w', endpointBegin observedApi w direction size = (.failed, w') ∧ Closed start w' closing := by
  rw [endpointBegin]
  simp only [hwrite, Bool.false_eq_true, if_false, observedApi]
  rcases hbegin : RamStorage.beginReadImpl w.storage.ram w.endpoint.path with ⟨error, ram⟩
  by_cases herror : error = .ok
  · subst herror
    obtain ⟨hexplains, hreported, hreading⟩ := Closed.beginRead h hbegin
    refine .inl ⟨_, rfl, ⟨⟨w.endpoint.path, closing, hexplains.record rfl .startRead⟩,
      hreported.record (by simp), hreading, ?_, ?_, ?_⟩, rfl, rfl⟩
    · simp [note]
    · exact hfresh.finishSucceeded
    · exact hfresh.codecError
  · have hclosed := (Closed.beginReadFailed h herror hbegin).withEndpoint
      { w.endpoint with storageError := error, sessionOpen := false }
    refine .inr ⟨_, ?_, hclosed⟩
    simp [toResult, herror, hwrite]

end Sessions

/-- A machine output that is no part of the service or its backend. -/
def outputSink (write : Option (O → List UInt8 → Bool × O)) : OutputSink (World Observed O) where
  write := write.map fun write w wire =>
    ((write w.output wire).1, { w with output := (write w.output wire).2 })

section Output

variable {write : Option (O → List UInt8 → Bool × O)}
  {write' : World Observed O → List UInt8 → Bool × World Observed O}

/-- A write to the machine output changes nothing else. -/
theorem outputSink_write (hwrite : (outputSink write).write = some write') {wire : List UInt8}
    {written : Bool} {w w' : World Observed O} (hresult : write' w wire = (written, w')) :
    ∃ output, w' = { w with output := output } := by
  cases write with
  | none => cases hwrite
  | some write =>
      obtain rfl := Option.some.inj hwrite
      exact ⟨_, (Prod.mk.inj hresult).2.symm⟩

theorem Running.withOutput (h : Running start p w) (output : O) :
    Running start p { w with output := output } := by
  refine ⟨h.1, ?_⟩
  rcases h.2 with ⟨accepted, hwriter, hopen, hcodec, hstaging⟩ | ⟨hreader, hopen⟩
  · exact .inl ⟨accepted, hwriter, { hopen with }, hcodec, hstaging⟩
  · exact .inr ⟨hreader, { hopen with }⟩

theorem Running.withOutstanding (h : Running start p w)
    (outstanding : Option (List UInt8 × Nat)) :
    Running start (p.withOutstanding outstanding) w := by
  refine ⟨h.1, ?_⟩
  rcases h.2 with ⟨accepted, hwriter, hopen⟩ | ⟨hreader, hopen⟩
  · exact .inl ⟨accepted, ⟨hwriter.write, hwriter.direction, hwriter.total, hwriter.accepted⟩,
      hopen⟩
  · exact .inr ⟨⟨hreader.write, hreader.direction, hreader.total⟩, hopen⟩

end Output

theorem consume_eq {consume : World Observed O → UInt64 → List UInt8 →
      EndpointResult × World Observed O} (hendpoint : p.endpoint = observedEndpoint)
    (hconsume : p.endpoint.consume = some consume) (offset : UInt64) (data : List UInt8) :
    consume w offset data =
      ((endpointConsume observedApi w offset data).1,
        note (endpointConsume observedApi w offset data).2
          (if (endpointConsume observedApi w offset data).1 = .ok then .accept data
            else .refuse data)) := by
  rw [hendpoint] at hconsume
  obtain rfl := Option.some.inj hconsume
  rfl

/-- The observed endpoint behind the transfer manager. Transfers are begun by the
service, which prepares the context first, so the contract admits no other begin. -/
def endpointContract (start : StorageRam) (write : Option (O → List UInt8 → Bool × O)) :
    Contract (World Observed O) where
  sink := outputSink write
  Admissible _ := False
  Incoming _ := True
  Running := Running start
  Failing := Failing start
  Aborted := Aborted start
  Finished := Finished start
  Idle _ _ w := Idle start w
  begin_ok hadmissible := hadmissible.elim
  begin_failed hadmissible := hadmissible.elim
  consume_ok := by
    intro p consume frame w w' hdirection hconsume h hpositioned _ hframe hresult
    obtain ⟨accepted, hwriter, hopen, hcodec, hstaging⟩ := Running.writer h hdirection
    rw [consume_eq h.1 hconsume] at hresult
    obtain ⟨hok, rfl⟩ := Prod.mk.inj hresult
    rw [if_pos hok]
    exact Consumed.running (consumed hwriter hopen hcodec hstaging hpositioned hframe)
      h.1 hframe hok
  consume_failed := by
    intro p consume frame w w' hdirection hconsume h hpositioned _ hframe hresult
    obtain ⟨accepted, hwriter, hopen, hcodec, hstaging⟩ := Running.writer h hdirection
    rw [consume_eq h.1 hconsume] at hresult
    obtain ⟨hfailed, rfl⟩ := Prod.mk.inj hresult
    rw [if_neg (by rw [hfailed]; simp)]
    exact Consumed.failing (consumed hwriter hopen hcodec hstaging hpositioned hframe) h.1 hfailed
  produce_ok := by
    intro p produce bytes w w' hdirection hproduce _ h hpositioned hresult _
    obtain ⟨hreader, hopen⟩ := Running.reader h hdirection
    rw [h.1] at hproduce
    obtain rfl := Option.some.inj hproduce
    rcases endpointProduce_cases hopen p.expectedOffset p.chunk with ⟨_, hread⟩ | ⟨_, _, hread⟩
    · rw [hread] at hresult
      obtain ⟨-, rfl⟩ := Prod.mk.inj hresult
      exact Running.withOutstanding h _
    · rw [hread] at hresult
      cases hresult
  produce_failed := by
    intro p produce result bytes w w' hdirection hproduce _ h hpositioned hresult _
    obtain ⟨hreader, hopen⟩ := Running.reader h hdirection
    rw [h.1] at hproduce
    obtain rfl := Option.some.inj hproduce
    rcases endpointProduce_cases hopen p.expectedOffset p.chunk with ⟨_, hread⟩ | ⟨_, _, hread⟩
    · rw [hread] at hresult
      obtain ⟨-, rfl⟩ := Prod.mk.inj hresult
      exact Running.fail h hpositioned
    · rw [hread] at hresult
      obtain ⟨-, rfl⟩ := Prod.mk.inj hresult
      exact ⟨h.1, .inr (.inl ⟨⟨hreader.write, hreader.direction, hreader.total⟩,
        hpositioned.unfilled, ReadOpen.withEndpoint hopen rfl rfl rfl rfl⟩)⟩
  send_ok := by
    intro p write' bytes count w w' hwrite _ _ _ _ h _ hresult
    obtain ⟨output, rfl⟩ := outputSink_write hwrite hresult
    exact Running.withOutput (Running.withOutstanding h _) output
  send_failed := by
    intro p write' bytes count w w' hwrite _ _ _ _ h hpositioned hresult
    obtain ⟨output, rfl⟩ := outputSink_write hwrite hresult
    exact Running.fail (Running.withOutput h output) hpositioned
  acknowledge := by
    intro p bytes count w hdirection _ _ h _
    obtain ⟨hreader, hopen⟩ := Running.reader h hdirection
    exact ⟨h.1, .inr ⟨⟨hreader.write, hreader.direction, hreader.total⟩, hopen⟩⟩
  finish_ok := by
    intro p finish w w' hfinish hfull _ h hresult
    rw [h.1] at hfinish
    obtain rfl := Option.some.inj hfinish
    rcases endpointFinish_cases h hfull with ⟨w'', hdone, hfinished⟩ | ⟨w'', hdone, -⟩
    · rw [hdone] at hresult
      obtain ⟨-, rfl⟩ := Prod.mk.inj hresult
      exact hfinished
    · rw [hdone] at hresult
      cases hresult
  finish_failed := by
    intro p finish w w' hfinish hfull _ h hresult
    rw [h.1] at hfinish
    obtain rfl := Option.some.inj hfinish
    rcases endpointFinish_cases h hfull with ⟨w'', hdone, -⟩ | ⟨w'', hdone, hfailing⟩
    · rw [hdone] at hresult
      cases hresult
    · rw [hdone] at hresult
      obtain ⟨-, rfl⟩ := Prod.mk.inj hresult
      exact hfailing
  write_ok := by
    intro p write' wire w w' hwrite h _ _ hresult
    obtain ⟨output, rfl⟩ := outputSink_write hwrite hresult
    exact Running.withOutput h output
  write_failed := by
    intro p write' wire w w' hwrite h hpositioned _ hresult
    obtain ⟨output, rfl⟩ := outputSink_write hwrite hresult
    exact Running.fail (Running.withOutput h output) hpositioned
  fail h hpositioned := Running.fail h hpositioned
  abort := by
    intro p abort w reason habort h
    rw [h.1] at habort
    obtain rfl := Option.some.inj habort
    exact Failing.abort h reason
  terminal_aborted := by
    intro p terminal info replay w reason hterminal h hreports _ hreason
    rw [h.1] at hterminal
    obtain rfl := Option.some.inj hterminal
    exact ⟨none, Aborted.terminal h hreports hreason⟩
  terminal_finished := by
    intro p terminal info replay w hterminal hfull h hreports _
    rw [h.1] at hterminal
    obtain rfl := Option.some.inj hterminal
    exact ⟨none, Finished.terminal h hfull hreports⟩
  replay := by
    intro info replay write' written w w' hwrite h _ _ hresult
    obtain ⟨output, rfl⟩ := outputSink_write hwrite hresult
    obtain ⟨closing, hclosed⟩ := h
    exact ⟨closing, { hclosed with }⟩

end EspNp2.FileTransfer.EndpointContract
