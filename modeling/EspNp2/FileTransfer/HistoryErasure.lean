import EspNp2.FileTransfer.StorageHistory

/-!
The history is beside the backend. Without it the observed backend and the observed endpoint do
what `StorageRam::api` and the endpoint of the service do.
-/

namespace EspNp2.FileTransfer.HistoryErasure

open EspNp2.BinaryDataPlane.Transfer
open EspNp2.FileTransfer.Service
open EspNp2.FileTransfer.StorageHistory
open EspNp2.FileTransfer.ZeroRleDecoder (Decoder Emit Result emitBytes emitZeroesLoop emitZeroes
  consumeLoop finishChecks)
open EspNp2.StorageBackend
open EspNp2.StorageBackend.RamStorage (StorageRam)
open EspNp2.StorageBackend.StorageInterface (Storage)

section Decoder

variable {V W : Type} {f : V → W} {emit : Emit V} {emit' : Emit W}

/-- Two output callbacks that do the same, up to a map of the states they work on. -/
def Commutes (f : V → W) (emit : Emit V) (emit' : Emit W) : Prop :=
  ∀ v offset data, emit' (f v) offset data = Prod.map id f (emit v offset data)

def mapState (f : V → W) (result : Result × Decoder × V) : Result × Decoder × W :=
  (result.1, result.2.1, f result.2.2)

theorem emitBytes_map (h : Commutes f emit emit') (d : Decoder) (v : V) (data : List UInt8) :
    emitBytes emit' d (f v) data = mapState f (emitBytes emit d v data) := by
  unfold emitBytes
  rw [h]
  split
  · rfl
  · rcases emit v d.logicalProduced data with ⟨_ | _, v'⟩
    · rfl
    · rfl

theorem emitZeroesLoop_map (h : Commutes f emit emit') (rounds : ℕ) (d : Decoder) (v : V) :
    emitZeroesLoop emit' rounds d (f v) = mapState f (emitZeroesLoop emit rounds d v) := by
  induction rounds generalizing d v with
  | zero => rfl
  | succ rounds ih =>
      unfold emitZeroesLoop
      dsimp only
      rw [emitBytes_map h]
      split
      · rcases emitBytes emit d v _ with ⟨_ | _ | _, d', v'⟩
        · exact ih _ _
        · rfl
        · rfl
      · rfl

theorem emitZeroes_map (h : Commutes f emit emit') (d : Decoder) (v : V) :
    emitZeroes emit' d (f v) = mapState f (emitZeroes emit d v) := by
  unfold emitZeroes
  rw [emitZeroesLoop_map h]
  split
  · rfl
  · rfl

theorem consumeLoop_map (h : Commutes f emit emit') (rounds : ℕ) (d : Decoder) (v : V)
    (encoded : List UInt8) :
    consumeLoop emit' rounds d (f v) encoded =
      mapState f (consumeLoop emit rounds d v encoded) := by
  induction rounds generalizing d v encoded with
  | zero =>
      cases encoded with
      | nil =>
          simp only [consumeLoop, emitZeroes_map h]
          split
          · rfl
          · rfl
      | cons byte rest => rfl
  | succ rounds ih =>
      cases encoded with
      | nil =>
          simp only [consumeLoop, emitZeroes_map h]
          split
          · rfl
          · rfl
      | cons byte rest =>
          unfold consumeLoop
          dsimp only
          rw [emitBytes_map h, emitZeroes_map h]
          split
          · rcases emitZeroes emit d v with ⟨_ | _ | _, d', v'⟩
            · exact ih _ _ _
            · rfl
            · rfl
          · split
            · rfl
            · exact ih _ _ _
          · split
            · exact ih _ _ _
            · split
              · rfl
              · split
                · rfl
                · exact ih _ _ _
          · rcases emitBytes emit d v _ with ⟨_ | _ | _, d', v'⟩
            · exact ih _ _ _
            · rfl
            · rfl
          · rfl

theorem consume_map (h : Commutes f emit emit') (d : Decoder) (v : V) (wireOffset : ℕ)
    (encoded : List UInt8) :
    ZeroRleDecoder.consume emit' d (f v) wireOffset encoded =
      mapState f (ZeroRleDecoder.consume emit d v wireOffset encoded) := by
  unfold ZeroRleDecoder.consume
  rw [consumeLoop_map h]
  split
  · rfl
  · split
    · rfl
    · split
      · rfl
      · rfl

theorem finishChecks_map (d : Decoder) (v : V) :
    finishChecks d (f v) = mapState f (finishChecks d v) := by
  unfold finishChecks
  split
  · rfl
  · split
    · rfl
    · split
      · rfl
      · rfl

theorem finish_map (h : Commutes f emit emit') (d : Decoder) (v : V) :
    ZeroRleDecoder.finish emit' d (f v) = mapState f (ZeroRleDecoder.finish emit d v) := by
  unfold ZeroRleDecoder.finish
  rw [emitZeroes_map h]
  split
  · rfl
  · split
    · rcases emitZeroes emit d v with ⟨_ | _ | _, d', v'⟩
      · exact finishChecks_map d' v'
      · rfl
      · rfl
    · exact finishChecks_map d v

end Decoder

section Endpoint

variable {O : Type}

/-- The world of the service without the history of its backend. -/
def plain (w : World Observed O) : World StorageRam O where
  storage := w.storage.ram
  output := w.output
  maxFileBytes := w.maxFileBytes
  current := w.current
  terminal := w.terminal
  endpoint := w.endpoint

theorem writeSession_plain (w : World Observed O) (offset : UInt64) (data : List UInt8) :
    writeSession RamStorage.writeImpl (plain w) offset data = Prod.map id plain
      (writeSession (fun s offset data =>
        ((RamStorage.writeImpl s.ram offset data).1,
          s.record (RamStorage.writeImpl s.ram offset data).2
            (.write offset data (RamStorage.writeImpl s.ram offset data).1))) w offset data) := by
  unfold writeSession
  dsimp only [plain]
  split
  · rfl
  · rfl

theorem decoderEmit_plain :
    Commutes (@plain O) (decoderEmit observedApi) (decoderEmit RamStorage.api) := by
  intro w offset data
  unfold decoderEmit
  dsimp only [observedApi, RamStorage.api]
  rw [writeSession_plain]
  change (if w.endpoint.sessionOpen = false then _ else _) = _
  split
  · rfl
  · rfl

theorem endpointBegin_plain (w : World Observed O) (direction : Direction) (size : UInt64) :
    endpointBegin RamStorage.api (plain w) direction size =
      Prod.map id plain (endpointBegin observedApi w direction size) := by
  unfold endpointBegin
  dsimp only [observedApi, RamStorage.api, plain]
  split
  · rfl
  · rfl

theorem consumeResult_plain (result : Result × Decoder × World Observed O) :
    consumeResult (mapState plain result) = Prod.map id plain (consumeResult result) := by
  rcases result with ⟨_ | _ | _, d, w⟩
  · rfl
  · rfl
  · rfl

theorem endpointConsume_plain (w : World Observed O) (offset : UInt64) (data : List UInt8) :
    endpointConsume RamStorage.api (plain w) offset data =
      Prod.map id plain (endpointConsume observedApi w offset data) := by
  unfold endpointConsume
  rw [show (plain w).endpoint = w.endpoint from rfl, consume_map decoderEmit_plain,
    consumeResult_plain]
  dsimp only [observedApi, RamStorage.api]
  rw [writeSession_plain]
  split
  · rfl
  · split
    · split
      · rfl
      · rfl
    · rfl

theorem endpointProduce_plain (w : World Observed O) (offset : UInt64) (requested : ℕ) :
    endpointProduce RamStorage.api (plain w) offset requested =
      Prod.map id plain (endpointProduce observedApi w offset requested) := by
  unfold endpointProduce
  rw [show (plain w).endpoint = w.endpoint from rfl]
  dsimp only [observedApi, RamStorage.api, plain]
  split
  · rfl
  · split
    · rfl
    · rfl

theorem abortSession_plain (w : World Observed O) :
    abortSession RamStorage.api (plain w) = plain (abortSession observedApi w) := rfl

theorem closeSession_plain (w : World Observed O) :
    closeSession RamStorage.api (plain w) = plain (closeSession observedApi w) := rfl

theorem commitSession_plain (w : World Observed O) :
    commitSession RamStorage.api (plain w) =
      Prod.map id plain (commitSession observedApi w) := by
  unfold commitSession
  dsimp only [observedApi, RamStorage.api, plain]
  split
  · rfl
  · rfl

theorem endpointFinish_plain (w : World Observed O) :
    endpointFinish RamStorage.api (plain w) =
      Prod.map id plain (endpointFinish observedApi w) := by
  unfold endpointFinish
  rw [show (plain w).endpoint = w.endpoint from rfl, finish_map decoderEmit_plain]
  split
  · rfl
  · split
    · split
      · rcases ZeroRleDecoder.finish (decoderEmit observedApi) w.endpoint.decoder w with
          ⟨_ | _ | _, d, w'⟩
        · exact commitSession_plain { w' with endpoint := { w'.endpoint with decoder := d } }
        · rfl
        · rfl
      · exact commitSession_plain w
    · rfl

theorem endpointAbort_plain (w : World Observed O) (reason : TerminalReason) :
    Service.endpointAbort RamStorage.api (plain w) reason =
      plain (Service.endpointAbort observedApi w reason) := by
  have hcleared : ∀ v : World Observed O,
      (if (plain v).endpoint.failed then plain v
        else { plain v with endpoint := { (plain v).endpoint with storageError := .ok } }) =
      plain (if v.endpoint.failed then v
        else { v with endpoint := { v.endpoint with storageError := .ok } }) := by
    intro v
    rw [show (plain v).endpoint = v.endpoint from rfl]
    split
    · rfl
    · rfl
  unfold Service.endpointAbort
  rw [show (plain w).endpoint = w.endpoint from rfl, abortSession_plain, closeSession_plain,
    ← apply_ite plain]
  by_cases hopen : w.endpoint.sessionOpen = true
  · rw [if_pos hopen, if_pos hopen]
    exact hcleared { (if w.endpoint.write then abortSession observedApi w
      else closeSession observedApi w) with
        endpoint := { (if w.endpoint.write then abortSession observedApi w
          else closeSession observedApi w).endpoint with sessionOpen := false } }
  · rw [if_neg hopen, if_neg hopen]
    exact hcleared w

/-- The callbacks of an endpoint do the same without the history. -/
structure Erases (observed : TransferEndpoint (World Observed O))
    (endpoint : TransferEndpoint (World StorageRam O)) : Prop where
  context : endpoint.context = observed.context
  begin : Option.Rel (fun f g => ∀ w direction size,
    g (plain w) direction size = Prod.map id plain (f w direction size))
      observed.begin endpoint.begin
  consume : Option.Rel (fun f g => ∀ w offset data,
    g (plain w) offset data = Prod.map id plain (f w offset data))
      observed.consume endpoint.consume
  produce : Option.Rel (fun f g => ∀ w offset requested,
    g (plain w) offset requested = Prod.map id plain (f w offset requested))
      observed.produce endpoint.produce
  finish : Option.Rel (fun f g => ∀ w, g (plain w) = Prod.map id plain (f w))
    observed.finish endpoint.finish
  abort : Option.Rel (fun f g => ∀ w reason, g (plain w) reason = plain (f w reason))
    observed.abort endpoint.abort
  terminal : Option.Rel (fun f g => ∀ w info reason,
    g (plain w) info reason = plain (f w info reason)) observed.terminal endpoint.terminal

/-- Without the history the observed endpoint is the endpoint that the service makes. -/
theorem observedEndpoint_erases :
    Erases (@observedEndpoint O) (makeEndpoint RamStorage.api) where
  context := rfl
  begin := by
    refine .some fun w direction size => ?_
    rw [endpointBegin_plain]
    dsimp only
    split
    · rfl
    · rfl
  consume := .some fun w offset data => endpointConsume_plain w offset data
  produce := .some endpointProduce_plain
  finish := .some endpointFinish_plain
  abort := .some endpointAbort_plain
  terminal := .some fun _ _ _ => rfl

end Endpoint

end EspNp2.FileTransfer.HistoryErasure
