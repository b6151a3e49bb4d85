import EspNp2.BinaryDataPlane.TransferTrace

/-!
The device-to-host side of the manager, over every run: which payloads it asks
its endpoint for, which DATA frames it writes and how often, and what moves its
acknowledged position.
-/

namespace EspNp2.BinaryDataPlane.TransmitLifecycle

open EspNp2.Library.LabelledRun
open EspNp2.BinaryDataPlane.BinaryCodec
open EspNp2.BinaryDataPlane.FrameRoundTrip
open EspNp2.BinaryDataPlane.Transfer
open EspNp2.BinaryDataPlane.TransferContract
open EspNp2.BinaryDataPlane.TransferTrace

variable {W : Type}

def isProduce : Event → Bool
  | .produce .. => true
  | _ => false

/-- A write of the DATA frame number `index`. -/
def isDataWrite (index : Nat) : Event → Bool
  | .write wire _ =>
      (wireFrame wire).any fun frame => frame.type = .data ∧ frame.sequence.toNat = index
  | _ => false

/-- The calls of a sending transfer up to the next one that starts. -/
structure SendSafe (context : Option Nat) (calls : List Event) : Prop where
  endpoint : ∀ call ∈ calls, isCallback call = true → calledOn call = context
  produce_in_order : ∀ before offset requested result bytes after,
    calls = before ++ .produce context offset requested result bytes :: after →
    offset.toNat = kMaxPayloadBytes * before.countP isProduce
  data_frame : ∀ before wire written after frame,
    calls = before ++ .write wire written :: after → wireFrame wire = some frame →
    frame.type = .data →
    frame.offset.toNat = kMaxPayloadBytes * frame.sequence.toNat ∧
      .produce context frame.offset frame.payload.length .ok frame.payload ∈ before
  data_identical : ∀ wire wire' written written' frame frame',
    .write wire written ∈ calls → .write wire' written' ∈ calls →
    wireFrame wire = some frame → wireFrame wire' = some frame' →
    frame.type = .data → frame'.type = .data → frame.sequence = frame'.sequence → wire = wire'
  data_count : ∀ index, calls.countP (isDataWrite index) ≤ 1 + kMaxRetransmissions.toNat

/-- A payload that frame number `index` of a transfer can carry. -/
structure Fits (index : Nat) (bytes : List UInt8) : Prop where
  nonempty : 0 < bytes.length
  length : bytes.length ≤ kMaxPayloadBytes
  room : kMaxPayloadBytes * index < kMaxTransferBytes.toNat

/-- What a call of a sending transfer may be, given the calls before it. -/
def SendAllowed (context : Option Nat) (transferId : UInt32) (before : List Event) :
    Event → Prop
  | .begin .. => True
  | .consume .. => False
  | .produce context' offset _ _ _ =>
      context' = context ∧ offset.toNat = kMaxPayloadBytes * before.countP isProduce
  | .finish context' _ | .abort context' _ | .terminal context' _ _ => context' = context
  | .write wire _ => isDataWire wire = true → ∃ index bytes, Fits index bytes ∧
      wire = dataWire transferId index bytes ∧
      .produce context (UInt64.ofNat (kMaxPayloadBytes * index)) bytes.length .ok bytes ∈ before

/-- The frames produced so far account for the DATA frames written. -/
structure Accounts (context : Option Nat) (transferId : UInt32) (calls : List Event)
    (frames : List (List UInt8 × Nat)) : Prop where
  produced : ∀ {index bytes count}, frames[index]? = some (bytes, count) → Fits index bytes ∧
    .produce context (UInt64.ofNat (kMaxPayloadBytes * index)) bytes.length .ok bytes ∈ calls
  written : ∀ {wire written}, .write wire written ∈ calls → isDataWire wire = true →
    ∃ index bytes count, frames[index]? = some (bytes, count) ∧
      wire = dataWire transferId index bytes
  count_le : ∀ index, calls.countP (isDataWrite index) ≤ 1 + kMaxRetransmissions.toNat

/-- What the calls of a sending transfer amount to in each phase. -/
def SendLedger (context : Option Nat) (transferId : UInt32) (size : Nat) (calls : List Event)
    (frames : List (List UInt8 × Nat)) : Phase → Prop
  | .sending context' transferId' size' frames' =>
      context' = context ∧ transferId' = transferId ∧ size' = size ∧ frames' = frames ∧
        calls.countP isProduce = frames.length ∧
        ∀ index, calls.countP (isDataWrite index) = (frames[index]?.map Prod.snd).getD 0
  | .failing context' size' | .aborted context' size' => context' = context ∧ size' = size
  | .finished context' size' =>
      context' = context ∧ size' = size ∧ .finish context .ok ∈ calls
  | .idle => ∃ info, (calls.filterMap terminalInfo).getLast? = some info ∧
      (info.state = .completed → .finish context .ok ∈ calls ∧
        info.transferredBytes = info.totalBytes ∧ info.totalBytes.toNat = size)
  | .receiving .. => False

structure SendCycle (context : Option Nat) (transferId : UInt32) (size : Nat)
    (calls : List Event) (phase : Phase) : Prop where
  id_ne_zero : transferId ≠ 0
  bounded : size ≤ kMaxTransferBytes.toNat
  allowed : AtEach (SendAllowed context transferId) calls
  ledger : ∃ frames, Accounts context transferId calls frames ∧
    SendLedger context transferId size calls frames phase

section Frames

variable {transferId : UInt32} {index : Nat} {bytes : List UInt8}

theorem Fits.index_lt (h : Fits index bytes) : index < 2 ^ 32 := by
  have hroom := h.room
  have hmax : kMaxTransferBytes.toNat = 1024 * (2 ^ 32 - 1) := rfl
  simp only [kMaxPayloadBytes] at hroom
  omega

theorem wireFrame_dataWire (hid : transferId ≠ 0) (h : Fits index bytes) :
    wireFrame (dataWire transferId index bytes) =
      some (imageFrame .data transferId (UInt32.ofNat index)
        (UInt64.ofNat (kMaxPayloadBytes * index)) 0 bytes) := by
  have hpos := h.nonempty
  have hlength := h.length
  refine wireFrame_frameWire .data _ _ hid hlength ?_
  simp only [hasValidTypeFields, beq_self_eq_true, Bool.and_true, bne_iff_ne, ne_eq]
  intro hzero
  have hnat := congrArg UInt16.toNat hzero
  simp only [kMaxPayloadBytes] at hlength
  rw [UInt16.toNat_ofNat', UInt16.toNat_zero] at hnat
  omega

theorem toNat_ofNat_index (h : Fits index bytes) : (UInt32.ofNat index).toNat = index := by
  have hlt := h.index_lt
  rw [UInt32.toNat_ofNat']
  omega

theorem toNat_ofNat_offset (h : Fits index bytes) :
    (UInt64.ofNat (kMaxPayloadBytes * index)).toNat = kMaxPayloadBytes * index := by
  have hlt := h.index_lt
  simp only [kMaxPayloadBytes]
  rw [UInt64.toNat_ofNat']
  omega

theorem isDataWrite_dataWire (hid : transferId ≠ 0) (h : Fits index bytes) (written : Bool)
    (other : Nat) :
    isDataWrite other (.write (dataWire transferId index bytes) written) = true ↔
      index = other := by
  simp [isDataWrite, wireFrame_dataWire hid h, imageFrame, toNat_ofNat_index h]

theorem isDataWrite_control {wire : List UInt8} (h : isDataWire wire = false) (written : Bool)
    (index : Nat) : isDataWrite index (.write wire written) = false := by
  cases hframe : wireFrame wire with
  | none => simp [isDataWrite, hframe]
  | some frame =>
      have htype : ¬ frame.type = .data := by simpa [isDataWire, hframe] using h
      simp [isDataWrite, hframe, htype]

end Frames

section Cycle

variable {context : Option Nat} {transferId : UInt32} {size : Nat} {calls : List Event}
  {phase next : Phase} {frames : List (List UInt8 × Nat)}

/-- A call that is neither a successful `produce` nor a DATA frame keeps the
account. -/
theorem Accounts.snoc (h : Accounts context transferId calls frames) {call : Event}
    (hwrite : ∀ index, isDataWrite index call = false)
    (hcontrol : ∀ wire written, call = .write wire written → isDataWire wire = false) :
    Accounts context transferId (calls ++ [call]) frames := by
  refine ⟨fun hframe => ?_, fun hmem hdata => ?_, fun index => ?_⟩
  · exact ⟨(h.produced hframe).1, List.mem_append_left _ (h.produced hframe).2⟩
  · rcases List.mem_append.mp hmem with hbefore | hlast
    · exact h.written hbefore hdata
    · have := hcontrol _ _ (List.mem_singleton.mp hlast).symm
      simp [this] at hdata
  · simp only [List.countP_append, List.countP_singleton, hwrite, Bool.false_eq_true, if_false]
    exact h.count_le index

theorem getElem?_snoc_frames {frame : List UInt8 × Nat} {index : Nat}
    {entry : List UInt8 × Nat} (hentry : (frames ++ [frame])[index]? = some entry) :
    frames[index]? = some entry ∨ index = frames.length ∧ entry = frame := by
  rcases Nat.lt_trichotomy index frames.length with hlt | rfl | hgt
  · left
    rwa [List.getElem?_append_left hlt] at hentry
  · right
    simp at hentry
    exact ⟨rfl, hentry.symm⟩
  · rw [List.getElem?_append_right hgt.le,
      List.getElem?_eq_none (by simp; omega)] at hentry
    simp at hentry

theorem getElem?_append_frames {index : Nat} {entry : List UInt8 × Nat}
    (hentry : frames[index]? = some entry) (more : List (List UInt8 × Nat)) :
    (frames ++ more)[index]? = some entry := by
  obtain ⟨hlt, -⟩ := List.getElem?_eq_some_iff.mp hentry
  rw [List.getElem?_append_left hlt, hentry]

/-- The account after a payload was produced. -/
theorem Accounts.produce (h : Accounts context transferId calls frames) {offset : UInt64}
    {bytes : List UInt8} (hfits : Fits frames.length bytes)
    (hoffset : offset = UInt64.ofNat (kMaxPayloadBytes * frames.length)) :
    Accounts context transferId
      (calls ++ [.produce context offset bytes.length .ok bytes]) (frames ++ [(bytes, 0)]) := by
  refine ⟨fun hframe => ?_, fun hmem hdata => ?_, fun index => ?_⟩
  · rcases getElem?_snoc_frames hframe with hold | ⟨rfl, hnew⟩
    · exact ⟨(h.produced hold).1, List.mem_append_left _ (h.produced hold).2⟩
    · obtain ⟨rfl, -⟩ := Prod.mk.inj hnew
      exact ⟨hfits, by simp [hoffset]⟩
  · obtain ⟨index, bytes, count, hframe, rfl⟩ := h.written (by simpa using hmem) hdata
    exact ⟨index, bytes, count, getElem?_append_frames hframe _, rfl⟩
  · simpa [List.countP_append, isDataWrite] using h.count_le index

/-- The account after a DATA frame was written, successfully or not. -/
theorem Accounts.send (hid : transferId ≠ 0) {bytes : List UInt8} {count : Nat}
    (h : Accounts context transferId calls (frames ++ [(bytes, count)]))
    (hcount : calls.countP (isDataWrite frames.length) ≤ kMaxRetransmissions.toNat)
    (count' : Nat) (written : Bool) :
    Accounts context transferId
      (calls ++ [.write (dataWire transferId frames.length bytes) written])
      (frames ++ [(bytes, count')]) := by
  have hlast : (frames ++ [(bytes, count)])[frames.length]? = some (bytes, count) := by simp
  obtain ⟨hfits, hproduced⟩ := h.produced hlast
  refine ⟨fun hframe => ?_, fun hmem hdata => ?_, fun index => ?_⟩
  · rcases getElem?_snoc_frames hframe with hold | ⟨rfl, hnew⟩
    · have hprevious := h.produced (getElem?_append_frames hold _)
      exact ⟨hprevious.1, List.mem_append_left _ hprevious.2⟩
    · obtain ⟨rfl, -⟩ := Prod.mk.inj hnew
      exact ⟨hfits, List.mem_append_left _ hproduced⟩
  · rcases List.mem_append.mp hmem with hbefore | hwritten
    · obtain ⟨index, other, otherCount, hframe, rfl⟩ := h.written hbefore hdata
      rcases getElem?_snoc_frames hframe with hold | ⟨rfl, hnew⟩
      · exact ⟨index, other, otherCount, getElem?_append_frames hold _, rfl⟩
      · obtain ⟨rfl, -⟩ := Prod.mk.inj hnew
        exact ⟨frames.length, other, count', by simp, rfl⟩
    · obtain ⟨rfl, -⟩ := Event.write.inj (List.mem_singleton.mp hwritten)
      exact ⟨frames.length, bytes, count', by simp, rfl⟩
  · have hold := h.count_le index
    rw [List.countP_append, List.countP_singleton]
    by_cases hindex : frames.length = index
    · subst hindex
      rw [if_pos ((isDataWrite_dataWire hid hfits written frames.length).mpr rfl)]
      omega
    · rw [if_neg (fun hdata => hindex ((isDataWrite_dataWire hid hfits written index).mp hdata))]
      exact hold

theorem SendCycle.snoc (h : SendCycle context transferId size calls phase) {call : Event}
    (hallowed : SendAllowed context transferId calls call)
    (hledger : ∃ frames, Accounts context transferId (calls ++ [call]) frames ∧
      SendLedger context transferId size (calls ++ [call]) frames next) :
    SendCycle context transferId size (calls ++ [call]) next :=
  ⟨h.id_ne_zero, h.bounded, atEach_snoc_iff.mpr ⟨h.allowed, hallowed⟩, hledger⟩

theorem sendAllowed_control {wire : List UInt8} (hcontrol : isDataWire wire = false)
    (written : Bool) : SendAllowed context transferId calls (.write wire written) := by
  intro hdata
  simp [hcontrol] at hdata

theorem Accounts.control (h : Accounts context transferId calls frames) {wire : List UInt8}
    (hcontrol : isDataWire wire = false) (written : Bool) :
    Accounts context transferId (calls ++ [.write wire written]) frames :=
  h.snoc (isDataWrite_control hcontrol written) fun _ _ heq => by
    obtain ⟨rfl, -⟩ := Event.write.inj heq
    exact hcontrol

/-- An endpoint callback other than `produce` keeps the account. -/
theorem Accounts.callback (h : Accounts context transferId calls frames) {call : Event}
    (hcallback : isCallback call = true) :
    Accounts context transferId (calls ++ [call]) frames := by
  cases call <;> simp [isCallback] at hcallback <;> exact h.snoc (fun _ => rfl) (by simp)

theorem sendAllowed_send (h : Accounts context transferId calls (frames ++ [(bytes, count)]))
    (written : Bool) : SendAllowed context transferId calls
      (.write (dataWire transferId frames.length bytes) written) := by
  intro _
  have hlast : (frames ++ [(bytes, count)])[frames.length]? = some (bytes, count) := by simp
  obtain ⟨hfits, hproduced⟩ := h.produced hlast
  exact ⟨_, _, hfits, rfl, hproduced⟩

theorem sendCycle_produce {frames' : List (List UInt8 × Nat)} {offset : UInt64}
    {bytes : List UInt8} {context' : Option Nat} {transferId' : UInt32} {size' : Nat}
    (h : SendCycle context transferId size calls (.sending context' transferId' size' frames'))
    (hoffset : offset.toNat = kMaxPayloadBytes * frames'.length)
    (hnonempty : 0 < bytes.length) (hlength : bytes.length ≤ kMaxPayloadBytes)
    (hroom : offset.toNat + bytes.length ≤ size') :
    SendCycle context transferId size
      (calls ++ [.produce context' offset bytes.length .ok bytes])
      (.sending context' transferId' size' (frames' ++ [(bytes, 0)])) := by
  obtain ⟨frames, haccounts, rfl, rfl, rfl, rfl, hproduced, hcounts⟩ := h.ledger
  have hbounded := h.bounded
  have hfits : Fits frames'.length bytes := ⟨hnonempty, hlength, by omega⟩
  refine h.snoc ⟨rfl, by rw [hproduced, hoffset]⟩ ⟨frames' ++ [(bytes, 0)],
    haccounts.produce hfits (by rw [← hoffset, UInt64.ofNat_toNat]), rfl, rfl, rfl, rfl, ?_, ?_⟩
  · simp [List.countP_append, isProduce, hproduced]
  · intro index
    have hcount := hcounts index
    simp only [List.countP_append, List.countP_singleton, isDataWrite, Bool.false_eq_true,
      if_false, Nat.add_zero, hcount]
    rcases Nat.lt_trichotomy index frames'.length with hlt | rfl | hgt
    · rw [List.getElem?_append_left hlt]
    · simp
    · rw [List.getElem?_eq_none hgt.le, List.getElem?_eq_none (by simp; omega)]

theorem sendCycle_send {frames' : List (List UInt8 × Nat)} {bytes : List UInt8} {count : Nat}
    {context' : Option Nat} {transferId' : UInt32} {size' : Nat}
    (h : SendCycle context transferId size calls
      (.sending context' transferId' size' (frames' ++ [(bytes, count)])))
    (hcount : count ≤ kMaxRetransmissions.toNat) :
    SendCycle context transferId size
      (calls ++ [.write (dataWire transferId' frames'.length bytes) true])
      (.sending context' transferId' size' (frames' ++ [(bytes, count + 1)])) := by
  obtain ⟨frames, haccounts, rfl, rfl, rfl, rfl, hproduced, hcounts⟩ := h.ledger
  have hlast : (frames' ++ [(bytes, count)])[frames'.length]? = some (bytes, count) := by simp
  have hfits := (haccounts.produced hlast).1
  have hlastCount : calls.countP (isDataWrite frames'.length) = count := by
    rw [hcounts, hlast]
    rfl
  refine h.snoc (sendAllowed_send haccounts true) ⟨frames' ++ [(bytes, count + 1)],
    haccounts.send h.id_ne_zero (by omega) _ true, rfl, rfl, rfl, rfl, ?_, ?_⟩
  · simpa [List.countP_append, isProduce] using hproduced
  · intro index
    rw [List.countP_append, List.countP_singleton]
    by_cases hindex : frames'.length = index
    · subst hindex
      rw [if_pos ((isDataWrite_dataWire h.id_ne_zero hfits true _).mpr rfl), hlastCount]
      simp
    · rw [if_neg (fun hdata => hindex
        ((isDataWrite_dataWire h.id_ne_zero hfits true index).mp hdata)), hcounts index]
      simp only [List.getElem?_append]
      split_ifs with hlt
      · rfl
      · rw [List.getElem?_eq_none (by simp; omega), List.getElem?_eq_none (by simp; omega)]
        rfl

theorem sendCycle_sendFailed {frames' : List (List UInt8 × Nat)} {bytes : List UInt8}
    {count : Nat} {context' : Option Nat} {transferId' : UInt32} {size' : Nat}
    (h : SendCycle context transferId size calls
      (.sending context' transferId' size' (frames' ++ [(bytes, count)])))
    (hcount : count ≤ kMaxRetransmissions.toNat) :
    SendCycle context transferId size
      (calls ++ [.write (dataWire transferId' frames'.length bytes) false])
      (.failing context' size') := by
  obtain ⟨frames, haccounts, rfl, rfl, rfl, rfl, hproduced, hcounts⟩ := h.ledger
  have hlast : (frames' ++ [(bytes, count)])[frames'.length]? = some (bytes, count) := by simp
  have hlastCount : calls.countP (isDataWrite frames'.length) = count := by
    rw [hcounts, hlast]
    rfl
  exact h.snoc (sendAllowed_send haccounts false) ⟨frames' ++ [(bytes, count)],
    haccounts.send h.id_ne_zero (by omega) _ false, rfl, rfl⟩

/-- One step of the life cycle of a sending transfer. -/
theorem sendCycle_step {event : Event} (h : SendCycle context transferId size calls phase)
    (hstep : Step phase event next) (hrest : startsTransfer event = false) :
    SendCycle context transferId size (calls ++ [event]) next := by
  obtain ⟨frames, haccounts, hledger⟩ := h.ledger
  cases hstep with
  | beginRx => simp [startsTransfer] at hrest
  | beginTx _ _ _ => simp [startsTransfer] at hrest
  | beginFailed =>
      obtain ⟨info, hinfo, hcompleted⟩ := hledger
      refine h.snoc trivial ⟨frames, haccounts.snoc (fun _ => rfl) (by simp), info, ?_, ?_⟩
      · simpa [terminalInfo] using hinfo
      · simpa using hcompleted
  | consume _ _ _ => exact hledger.elim
  | consumeFailed _ _ _ => exact hledger.elim
  | produce hoffset hnonempty hlength hfits _ =>
      exact sendCycle_produce h hoffset hnonempty hlength hfits
  | produceFailed hoffset hfailed =>
      obtain ⟨rfl, rfl, rfl, rfl, hproduced, -⟩ := hledger
      exact h.snoc ⟨rfl, by rw [hproduced, hoffset]⟩
        ⟨_, haccounts.callback rfl, rfl, rfl⟩
  | send hcount => exact sendCycle_send h hcount
  | sendFailed hcount => exact sendCycle_sendFailed h hcount
  | controlRx _ => exact hledger.elim
  | controlRxFailed _ => exact hledger.elim
  | controlTx hcontrol =>
      obtain ⟨rfl, rfl, rfl, rfl, hproduced, hcounts⟩ := hledger
      refine h.snoc (sendAllowed_control hcontrol true)
        ⟨_, haccounts.control hcontrol true, rfl, rfl, rfl, rfl, ?_, ?_⟩
      · simpa [List.countP_append, isProduce] using hproduced
      · intro index
        simpa [List.countP_append, isDataWrite_control hcontrol] using hcounts index
  | controlTxFailed hcontrol =>
      obtain ⟨rfl, rfl, rfl, rfl, -⟩ := hledger
      exact h.snoc (sendAllowed_control hcontrol false)
        ⟨_, haccounts.control hcontrol false, rfl, rfl⟩
  | finishRx => exact hledger.elim
  | finishRxFailed => exact hledger.elim
  | finishTx _ =>
      obtain ⟨rfl, rfl, rfl, rfl, -⟩ := hledger
      exact h.snoc rfl ⟨_, haccounts.callback rfl, rfl, rfl, by simp⟩
  | finishTxFailed _ =>
      obtain ⟨rfl, rfl, rfl, rfl, -⟩ := hledger
      exact h.snoc rfl ⟨_, haccounts.callback rfl, rfl, rfl⟩
  | abortRx => exact hledger.elim
  | abortTx =>
      obtain ⟨rfl, rfl, rfl, rfl, -⟩ := hledger
      exact h.snoc rfl ⟨_, haccounts.callback rfl, rfl, rfl⟩
  | abortFailing =>
      obtain ⟨rfl, rfl⟩ := hledger
      exact h.snoc rfl ⟨_, haccounts.callback rfl, rfl, rfl⟩
  | @terminalAborted _ _ info _ hstate =>
      obtain ⟨rfl, rfl⟩ := hledger
      refine h.snoc rfl ⟨_, haccounts.callback rfl, info, by simp [terminalInfo], fun hdone => ?_⟩
      simp [hstate] at hdone
  | @terminalFinished _ _ info hstate htotal hfull =>
      obtain ⟨rfl, rfl, hok⟩ := hledger
      exact h.snoc rfl ⟨_, haccounts.callback rfl, info, by simp [terminalInfo], fun _ =>
        ⟨List.mem_append_left _ hok, hfull, htotal⟩⟩
  | replay hcontrol =>
      obtain ⟨info, hinfo, hcompleted⟩ := hledger
      refine h.snoc (sendAllowed_control hcontrol _)
        ⟨frames, haccounts.control hcontrol _, info, ?_, ?_⟩
      · simpa [terminalInfo] using hinfo
      · simpa using hcompleted

/-- The calls of a sending transfer until the next transfer starts. -/
theorem sendCycle_run {events : List Event} (hid : transferId ≠ 0)
    (hbounded : size ≤ kMaxTransferBytes.toNat)
    (hrun : Run Step (.sending context transferId size []) events phase)
    (hrest : ∀ event ∈ events, startsTransfer event = false) :
    SendCycle context transferId size events phase := by
  have hstart : SendCycle context transferId size [] (.sending context transferId size []) :=
    ⟨hid, hbounded, atEach_nil _, [], ⟨by simp, by simp, by simp⟩, rfl, rfl, rfl, rfl, rfl,
      by simp⟩
  refine hrun.invariant (P := fun events phase =>
    (∀ event ∈ events, startsTransfer event = false) →
      SendCycle context transferId size events phase) (fun _ => hstart) ?_ hrest
  intro events phase event next ih hstep hrest
  exact sendCycle_step (ih fun other hother => hrest other (by simp [hother])) hstep
    (hrest event (by simp))

theorem SendCycle.sendSafe (h : SendCycle context transferId size calls phase) :
    SendSafe context calls := by
  obtain ⟨frames, haccounts, -⟩ := h.ledger
  refine ⟨fun call hcall hcallback => ?_, fun before offset requested result bytes after hsplit =>
    (h.allowed _ _ _ hsplit).2, fun before wire written after frame hsplit hframe htype => ?_,
    fun wire wire' written written' frame frame' hmem hmem' hframe hframe' htype htype' hsame => ?_,
    haccounts.count_le⟩
  · obtain ⟨before, after, hsplit⟩ := List.append_of_mem hcall
    have hallowed := h.allowed _ _ _ hsplit
    cases call <;> simp_all [isCallback, SendAllowed, calledOn]
  · have hdata : isDataWire wire = true := by simp [isDataWire, hframe, htype]
    obtain ⟨index, bytes, hfits, rfl, hproduced⟩ := h.allowed _ _ _ hsplit hdata
    rw [wireFrame_dataWire h.id_ne_zero hfits] at hframe
    obtain rfl := Option.some.inj hframe
    simp only [imageFrame, toNat_ofNat_offset hfits, toNat_ofNat_index hfits, true_and]
    exact hproduced
  · have hdata : isDataWire wire = true := by simp [isDataWire, hframe, htype]
    have hdata' : isDataWire wire' = true := by simp [isDataWire, hframe', htype']
    obtain ⟨index, bytes, count, hentry, rfl⟩ := haccounts.written hmem hdata
    obtain ⟨index', bytes', count', hentry', rfl⟩ := haccounts.written hmem' hdata'
    have hfits := (haccounts.produced hentry).1
    have hfits' := (haccounts.produced hentry').1
    rw [wireFrame_dataWire h.id_ne_zero hfits] at hframe
    rw [wireFrame_dataWire h.id_ne_zero hfits'] at hframe'
    obtain rfl := Option.some.inj hframe
    obtain rfl := Option.some.inj hframe'
    have hindex : index = index' := by
      have hnat := congrArg UInt32.toNat hsame
      simpa only [imageFrame, toNat_ofNat_index hfits, toNat_ofNat_index hfits'] using hnat
    subst hindex
    rw [hentry] at hentry'
    obtain ⟨rfl, -⟩ := Prod.mk.inj (Option.some.inj hentry')
    rfl

end Cycle

end EspNp2.BinaryDataPlane.TransmitLifecycle
