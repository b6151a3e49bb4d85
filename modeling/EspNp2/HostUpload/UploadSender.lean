import EspNp2.HostUpload.UploadReceiver

/-!
The host's side of an upload: what its variables mean in terms of the payloads
handed out, kept by every reaction of both send loops.
-/

namespace EspNp2.HostUpload.UploadSender

open EspNp2.BinaryDataPlane.BinaryCodec
open EspNp2.HostUpload.HostWire
open EspNp2.HostUpload.UploadClient
open EspNp2.HostUpload.UploadReceiver

variable {P : Type} {plan : UploadPlan} {handed : List (List UInt8)}

/-- A retained frame is frame number `index`. -/
structure Retained (plan : UploadPlan) (handed : List (List UInt8)) (index : Nat)
    (frame : RetainedDataFrame) : Prop where
  sequence : frame.sequence = index
  offset : frame.offset = frontier handed index
  endSequence : frame.endSequence = index + 1
  endOffset : frame.endOffset = frontier handed (index + 1)
  wire : Handed plan handed index frame.wireFrame

/-- The window holds the frames after the `retired` ones, and its boundaries are
the frontiers so far. -/
structure WindowInv (plan : UploadPlan) (handed : List (List UInt8)) (retired : Nat)
    (w : Windowed) : Prop where
  nonempty : ∀ payload ∈ handed, payload ≠ []
  nextSequence : w.nextSequence = handed.length
  nextOffset : w.nextOffset = frontier handed handed.length
  boundaryCount : w.boundaryCount = handed.length + 1
  boundaries : ∀ key position, w.boundaries key = some position ↔
    position ≤ handed.length ∧ key = (position, frontier handed position)
  retained : w.outstanding.length + retired = handed.length
  frames : ∀ i frame, w.outstanding[i]? = some frame →
    Retained plan handed (retired + i) frame

/-- The current frame of the stop-and-wait loop is the last one handed out. -/
structure CurrentInv (plan : UploadPlan) (handed : List (List UInt8)) (retired : Nat)
    (s : StopAndWait) : Prop where
  sequence : s.sequence = retired
  offset : s.offset = frontier handed retired
  length : handed.length = retired + 1
  payload : handed[retired]? = some s.payload
  wire : Handed plan handed retired s.frame

def HostInv (plan : UploadPlan) (host : Host P) : Prop :=
  match host.sender with
  | .stopAndWait s => CurrentInv plan host.handed host.retired s
  | .windowed w => WindowInv plan host.handed host.retired w ∧ w.outstanding ≠ []
  | .finished => host.retired = host.handed.length ∧
      plan.wireSize ≤ frontier host.handed host.handed.length
  | .failed _ => True

/-- A reaction keeps the host's invariant and sends only frames with handed-out
payloads. -/
structure ReactionOk (plan : UploadPlan) (host : Host P) (reaction : Reaction P) : Prop where
  inv : HostInv plan reaction.1
  grows : host.handed <+: reaction.1.handed
  sent : ∀ wire ∈ reaction.2, ∃ index, Handed plan reaction.1.handed index wire

theorem CurrentInv.nonempty {retired : Nat} {s : StopAndWait}
    (h : CurrentInv plan handed retired s) : ∀ payload ∈ handed, payload ≠ [] := by
  intro payload hmem
  obtain ⟨other, hother, hpos, -⟩ := h.wire.exists_payload
  have hall : handed = handed.take retired ++ [other] := by
    obtain ⟨hlt, rfl⟩ := List.getElem?_eq_some_iff.mp hother
    rw [← List.take_succ_eq_append_getElem hlt, List.take_of_length_le h.length.le]
  rw [hall] at hmem
  rcases List.mem_append.mp hmem with hfront | hlast
  · exact h.wire.nonempty payload hfront
  · rw [List.mem_singleton.mp hlast]
    exact List.length_pos_iff.mp hpos

theorem CurrentInv.end_offset {retired : Nat} {s : StopAndWait}
    (h : CurrentInv plan handed retired s) :
    s.offset + s.payload.length = frontier handed (retired + 1) := by
  rw [h.offset, frontier_succ h.payload]

/-- Frontiers in front of the current frame, and behind it. -/
theorem CurrentInv.frontier_lt_offset {retired : Nat} {s : StopAndWait}
    (h : CurrentInv plan handed retired s) {index : Nat} (hindex : index < retired) :
    frontier handed index < s.offset := by
  rw [h.offset]
  exact frontier_lt hindex (by rw [h.length]; omega)
    fun payload hmem => h.nonempty payload (List.mem_of_mem_take hmem)

theorem CurrentInv.offset_lt_end {retired : Nat} {s : StopAndWait}
    (h : CurrentInv plan handed retired s) : s.offset < frontier handed (retired + 1) := by
  rw [h.offset]
  exact frontier_lt (Nat.lt_succ_self _) h.length.ge
    fun payload hmem => h.nonempty payload (List.mem_of_mem_take hmem)

theorem ReactionOk.fail {host : Host P} {host' : Host P}
    (hgrows : host.handed <+: host'.handed) (error : UploadError) :
    ReactionOk plan host (host'.fail error, []) :=
  ⟨trivial, hgrows, by simp⟩

/-- What `readFrame` leaves of the host. -/
theorem readFrame_ok {producer : Producer P} {host host' : Host P} {payload frame : List UInt8}
    (hnonempty : ∀ payload ∈ host.handed, payload ≠ [])
    (hread : readFrame producer plan host host.handed.length
      (frontier host.handed host.handed.length) = .ok (host', payload, frame)) :
    host'.handed = host.handed ++ [payload] ∧ host'.retired = host.retired ∧ payload ≠ [] ∧
      Handed plan host'.handed host.handed.length frame := by
  unfold readFrame at hread
  cases hproduced : producer.read host.source (min kMaxPayloadBytes
      (plan.wireSize - frontier host.handed host.handed.length)) with
  | none => simp [hproduced] at hread
  | some result =>
      obtain ⟨produced, source⟩ := result
      simp only [hproduced] at hread
      split_ifs at hread with hempty
      cases hbuild : buildFrame .data plan.transferId host.handed.length
          (frontier host.handed host.handed.length) 0 produced with
      | none => simp [hbuild] at hread
      | some built =>
          simp only [hbuild, Except.ok.injEq, Prod.mk.injEq] at hread
          obtain ⟨rfl, rfl, rfl⟩ := hread
          obtain ⟨hwire, hpos, hlength, hsequence, hoffset⟩ := frameWire_of_buildFrame hbuild
          have hfrontier := frontier_append host.handed [produced] le_rfl
          refine ⟨rfl, rfl, hempty, ⟨produced, by simp, hpos, hlength, ?_⟩, ?_, hsequence, ?_⟩
          · rw [handedWire, hfrontier]
            exact hwire
          · rw [List.take_left]
            exact hnonempty
          · rw [hfrontier]
            exact hoffset

/-- The host's own source or frame counter gave out. -/
inductive SourceGone : UploadError → Prop
  | producerFailed : SourceGone .producerFailed
  | sourceChanged : SourceGone .sourceChanged
  | badFrame : SourceGone .badFrame

theorem readFrame_error {producer : Producer P} {host host' : Host P} {sequence offset : Nat}
    (hread : readFrame producer plan host sequence offset = .error host') :
    ∃ error middle, host' = Host.fail middle error ∧ host.handed <+: middle.handed ∧
      middle.retired = host.retired ∧ SourceGone error := by
  unfold readFrame at hread
  cases hproduced : producer.read host.source
      (min kMaxPayloadBytes (plan.wireSize - offset)) with
  | none =>
      simp only [hproduced, Except.error.injEq] at hread
      exact ⟨_, host, hread.symm, List.prefix_rfl, rfl, .producerFailed⟩
  | some result =>
      obtain ⟨produced, source⟩ := result
      simp only [hproduced] at hread
      split_ifs at hread with hempty
      · exact ⟨_, _, (Except.error.inj hread).symm, List.prefix_append _ _, rfl, .sourceChanged⟩
      · cases hbuild : buildFrame .data plan.transferId sequence offset 0 produced with
        | none =>
            simp only [hbuild, Except.error.injEq] at hread
            exact ⟨_, _, hread.symm, List.prefix_append _ _, rfl, .badFrame⟩
        | some built => simp [hbuild] at hread

/-- Starting the next round of the stop-and-wait loop. -/
theorem reactionOk_sendNext (plan : UploadPlan) (producer : Producer P) (host : Host P)
    (hretired : host.retired = host.handed.length)
    (hnonempty : ∀ payload ∈ host.handed, payload ≠ []) :
    ReactionOk plan host (sendNext producer plan host host.handed.length
      (frontier host.handed host.handed.length)) := by
  rw [sendNext]
  split_ifs with hmore
  · cases hread : readFrame producer plan host host.handed.length
        (frontier host.handed host.handed.length) with
    | error host' =>
        obtain ⟨error, middle, rfl, hgrows, -⟩ := readFrame_error hread
        exact .fail hgrows error
    | ok result =>
        obtain ⟨host', payload, frame⟩ := result
        obtain ⟨hhanded, hsame, -, hframe⟩ := readFrame_ok hnonempty hread
        have hfrontier := frontier_append host.handed [payload] le_rfl
        refine ⟨?_, ?_, ?_⟩
        · simp only [HostInv, hhanded, hsame, hretired]
          rw [hhanded] at hframe
          exact ⟨rfl, hfrontier.symm, by simp, by simp, hframe⟩
        · simp only [hhanded]
          exact List.prefix_append _ _
        · intro wire hwire
          obtain rfl := List.mem_singleton.mp hwire
          exact ⟨_, hframe⟩
  · exact ⟨⟨hretired, Nat.le_of_not_lt hmore⟩, List.prefix_rfl, by simp⟩

/-- A retained frame keeps its number when more payloads are handed out. -/
theorem Retained.mono {index : Nat} {frame : RetainedDataFrame}
    (h : Retained plan handed index frame) (hindex : index < handed.length)
    {longer : List (List UInt8)} (hfront : handed <+: longer) :
    Retained plan longer index frame := by
  obtain ⟨more, rfl⟩ := hfront
  refine ⟨h.sequence, ?_, h.endSequence, ?_, h.wire.mono (List.prefix_append _ _)⟩
  · rw [frontier_append handed more hindex.le]
    exact h.offset
  · rw [frontier_append handed more hindex]
    exact h.endOffset

theorem WindowInv.retain {retired : Nat} {w : Windowed} (h : WindowInv plan handed retired w)
    {payload frame : List UInt8} (hpayload : payload ≠ [])
    (hframe : Handed plan (handed ++ [payload]) handed.length frame) :
    WindowInv plan (handed ++ [payload]) retired (w.retain payload frame) := by
  have hlast : (handed ++ [payload])[handed.length]? = some payload := by simp
  have hfrontier := frontier_append handed [payload] le_rfl
  have hend : frontier (handed ++ [payload]) (handed.length + 1) =
      frontier handed handed.length + payload.length := by
    rw [frontier_succ hlast, hfrontier]
  have hkey : (w.nextSequence + 1, w.nextOffset + payload.length) =
      (handed.length + 1, frontier (handed ++ [payload]) (handed.length + 1)) := by
    rw [h.nextSequence, h.nextOffset, hend]
  have hfresh : w.boundaries (handed.length + 1,
      frontier (handed ++ [payload]) (handed.length + 1)) = none := by
    rw [Option.eq_none_iff_forall_ne_some]
    intro position hposition
    obtain ⟨hle, heq⟩ := (h.boundaries _ _).mp hposition
    have := congrArg Prod.fst heq
    simp only at this
    omega
  refine
    { nonempty := ?_
      nextSequence := by simp [Windowed.retain, h.nextSequence]
      nextOffset := ?_
      boundaryCount := ?_
      boundaries := fun key position => ?_
      retained := ?_
      frames := fun i retained hretained => ?_ }
  · intro other hother
    rcases List.mem_append.mp hother with hold | hnew
    · exact h.nonempty other hold
    · rw [List.mem_singleton.mp hnew]
      exact hpayload
  · simp only [Windowed.retain, h.nextOffset, List.length_append, List.length_singleton, hend]
  · simp only [Windowed.retain, Windowed.addBoundary, hkey, hfresh, Option.isSome_none,
      Bool.false_eq_true, if_false, h.boundaryCount, List.length_append, List.length_singleton]
  · simp only [Windowed.retain, Windowed.addBoundary, hkey, List.length_append,
      List.length_singleton, h.boundaryCount]
    split_ifs with hsame
    · subst hsame
      constructor
      · rintro hposition
        obtain rfl := Option.some.inj hposition
        exact ⟨le_rfl, rfl⟩
      · rintro ⟨-, heq⟩
        rw [(Prod.mk.inj heq).1]
    · rw [h.boundaries]
      constructor
      · rintro ⟨hle, rfl⟩
        exact ⟨by omega, by rw [frontier_append handed [payload] hle]⟩
      · rintro ⟨hle, rfl⟩
        have hlt : position ≤ handed.length := by
          by_contra hgt
          exact hsame (by rw [show position = handed.length + 1 by omega])
        exact ⟨hlt, by rw [frontier_append handed [payload] hlt]⟩
  · have hretained := h.retained
    simp only [Windowed.retain, List.length_append, List.length_singleton]
    omega
  · have hretainedLength := h.retained
    rcases Nat.lt_or_ge i w.outstanding.length with hlt | hge
    · simp only [Windowed.retain] at hretained
      rw [List.getElem?_append_left hlt] at hretained
      exact (h.frames i retained hretained).mono (by omega) (List.prefix_append _ _)
    · simp only [Windowed.retain] at hretained
      rw [List.getElem?_append_right hge] at hretained
      obtain ⟨hi, hretained⟩ := List.getElem?_eq_some_iff.mp hretained
      simp only [List.length_singleton] at hi
      have hindex : retired + i = handed.length := by omega
      have hzero : i - w.outstanding.length = 0 := by omega
      simp only [hzero, List.getElem_cons_zero] at hretained
      subst hretained
      rw [hindex]
      exact
        { sequence := h.nextSequence
          offset := h.nextOffset.trans hfrontier.symm
          endSequence := by simp only [h.nextSequence]
          endOffset := by simp only [h.nextOffset, hend]
          wire := hframe }

/-- `fill_window` keeps the window's invariant. -/
theorem reactionOk_fillWindow (producer : Producer P) (rounds : Nat) (host : Host P)
    (w : Windowed) (sent : List (List UInt8))
    (hwindow : WindowInv plan host.handed host.retired w)
    (hrounds : dataWindowFrames ≤ rounds + w.outstanding.length)
    (hsent : ∀ wire ∈ sent, ∃ index, Handed plan host.handed index wire) :
    ReactionOk plan host (fillWindow producer plan rounds host w sent) ∧
      (fillWindow producer plan rounds host w sent).1.retired = host.retired := by
  induction rounds generalizing host w sent with
  | zero =>
      have hsome : w.outstanding ≠ [] := by
        intro hnil
        simp [hnil, dataWindowFrames] at hrounds
      rw [fillWindow, settle, if_neg hsome]
      exact ⟨⟨⟨hwindow, hsome⟩, List.prefix_rfl, hsent⟩, rfl⟩
  | succ rounds ih =>
      rw [fillWindow]
      split_ifs with hmore
      · rw [hwindow.nextSequence, hwindow.nextOffset]
        cases hread : readFrame producer plan host host.handed.length
            (frontier host.handed host.handed.length) with
        | error host' =>
            obtain ⟨error, middle, rfl, hgrows, hretired, -⟩ := readFrame_error hread
            refine ⟨⟨trivial, hgrows, fun wire hwire => ?_⟩, hretired⟩
            obtain ⟨index, hhanded⟩ := hsent wire hwire
            exact ⟨index, hhanded.mono hgrows⟩
        | ok result =>
            obtain ⟨host', payload, frame⟩ := result
            obtain ⟨hhanded, hretired, hpayload, hframe⟩ := readFrame_ok hwindow.nonempty hread
            have hgrows : host.handed <+: host'.handed := by
              rw [hhanded]
              exact List.prefix_append _ _
            have hnext : WindowInv plan host'.handed host'.retired (w.retain payload frame) := by
              rw [hhanded] at hframe
              rw [hhanded, hretired]
              exact hwindow.retain hpayload hframe
            obtain ⟨hok, hsame⟩ := ih host' (w.retain payload frame) (sent ++ [frame]) hnext
              (by simp only [Windowed.retain, List.length_append, List.length_singleton]; omega)
              (by
                intro wire hwire
                rcases List.mem_append.mp hwire with hold | hnew
                · obtain ⟨index, hindex⟩ := hsent wire hold
                  exact ⟨index, hindex.mono hgrows⟩
                · rw [List.mem_singleton.mp hnew]
                  exact ⟨_, hframe⟩)
            exact ⟨⟨hok.inv, hgrows.trans hok.grows, hok.sent⟩, hsame.trans hretired⟩
      · rw [settle]
        split_ifs with hnil
        · have hretained := hwindow.retained
          simp only [hnil, List.length_nil, dataWindowFrames] at hmore hretained
          refine ⟨⟨⟨by simpa using hretained, ?_⟩, List.prefix_rfl, hsent⟩, rfl⟩
          rw [hwindow.nextOffset] at hmore
          simp only
          omega
        · exact ⟨⟨⟨hwindow, hnil⟩, List.prefix_rfl, hsent⟩, rfl⟩

theorem dropWhile_eq_drop {α : Type} {p : α → Bool} {items : List α} {count : Nat}
    (h : ∀ i item, items[i]? = some item → (p item = true ↔ i < count)) :
    items.dropWhile p = items.drop count := by
  induction items generalizing count with
  | nil => simp
  | cons item items ih =>
      have hhead := h 0 item rfl
      cases count with
      | zero =>
          have hfalse : p item = false := by simpa using hhead
          rw [List.dropWhile_cons_of_neg (by simp [hfalse]), List.drop_zero]
      | succ count =>
          rw [List.dropWhile_cons_of_pos (hhead.mpr (Nat.succ_pos _)), List.drop_succ_cons]
          refine ih fun i other hother => ?_
          rw [h (i + 1) other hother]
          exact Nat.succ_lt_succ_iff

section Window

variable {retired : Nat} {w : Windowed}

theorem WindowInv.position_frontier (h : WindowInv plan handed retired w) {index : Nat}
    (hindex : index ≤ handed.length) : w.position (index, frontier handed index) = index := by
  rw [Windowed.position, (h.boundaries _ _).mpr ⟨hindex, rfl⟩, Option.getD_some]

theorem WindowInv.base_eq (h : WindowInv plan handed retired w) (hsome : w.outstanding ≠ []) :
    w.base = (retired, frontier handed retired) := by
  rw [Windowed.base]
  cases houtstanding : w.outstanding with
  | nil => exact absurd houtstanding hsome
  | cons oldest rest =>
      have holdest := h.frames 0 oldest (by rw [houtstanding]; rfl)
      exact Prod.ext holdest.sequence holdest.offset

theorem WindowInv.position_base (h : WindowInv plan handed retired w)
    (hsome : w.outstanding ≠ []) : w.position w.base = retired := by
  have hretained := h.retained
  rw [h.base_eq hsome, h.position_frontier (by omega)]

/-- Retiring to a later frontier drops exactly the frames in front of it. -/
theorem WindowInv.retireTo (h : WindowInv plan handed retired w) {target : Nat}
    (hfrom : retired ≤ target) (hto : target ≤ handed.length) :
    w.retireTo target =
        ({ w with outstanding := w.outstanding.drop (target - retired) }, target - retired) ∧
      WindowInv plan handed target
        { w with outstanding := w.outstanding.drop (target - retired) } := by
  have hretained := h.retained
  have hdrop : w.outstanding.dropWhile (fun frame =>
      decide (w.position (frame.endSequence, frame.endOffset) ≤ target)) =
      w.outstanding.drop (target - retired) := by
    apply dropWhile_eq_drop
    intro i frame hframe
    obtain ⟨hi, -⟩ := List.getElem?_eq_some_iff.mp hframe
    have hnumber := h.frames i frame hframe
    rw [hnumber.endSequence, hnumber.endOffset, h.position_frontier (by omega),
      decide_eq_true_iff]
    omega
  constructor
  · simp only [Windowed.retireTo, hdrop, List.length_drop]
    congr 1
    omega
  · exact
      { h with
        retained := by simp only [List.length_drop]; omega
        frames := fun i frame hframe => by
          rw [List.getElem?_drop] at hframe
          have hnumber := h.frames _ frame hframe
          rwa [show retired + (target - retired + i) = target + i by omega] at hnumber }

end Window

/-- A response that names frontier number `index`. -/
structure Names (handed : List (List UInt8)) (index : Nat) (response : ParsedFrame) : Prop where
  le : index ≤ handed.length
  sequence : response.sequence = UInt32.ofNat index
  offset : response.offset.toNat = frontier handed index

theorem Names.eq_of_offset {index other : Nat} {response : ParsedFrame}
    (h : Names handed index response) (hnonempty : ∀ payload ∈ handed, payload ≠ [])
    (hother : other ≤ handed.length) (hoffset : response.offset.toNat = frontier handed other) :
    index = other :=
  frontier_inj h.le hother (fun payload hmem => hnonempty payload (List.mem_of_mem_take hmem))
    (h.offset.symm.trans hoffset)

section Reactions

variable {producer : Producer P} {host : Host P}

theorem ReactionOk.refl (h : HostInv plan host) : ReactionOk plan host (host, []) :=
  ⟨h, List.prefix_rfl, by simp⟩

theorem sendNext_retired (host : Host P) (sequence offset : Nat) :
    (sendNext producer plan host sequence offset).1.retired = host.retired := by
  rw [sendNext]
  split_ifs
  · cases hread : readFrame producer plan host sequence offset with
    | error host' =>
        obtain ⟨error, middle, rfl, -, hretired, -⟩ := readFrame_error hread
        exact hretired
    | ok result =>
        obtain ⟨host', payload, frame⟩ := result
        unfold readFrame at hread
        split at hread
        · simp at hread
        · simp only at hread
          split_ifs at hread
          split at hread
          · simp at hread
          · simp only [Except.ok.injEq, Prod.mk.injEq] at hread
            obtain ⟨rfl, -, -⟩ := hread
            rfl
  · rfl

/-- Accepting the current frame of the stop-and-wait loop. -/
theorem reactionOk_accept {s : StopAndWait} (h : CurrentInv plan host.handed host.retired s) :
    ReactionOk plan host (sendNext producer plan { host with retired := host.retired + 1 }
      (s.sequence + 1) (s.offset + s.payload.length)) := by
  have hsequence : s.sequence + 1 = host.handed.length := by
    rw [h.sequence, h.length]
  have hoffset : s.offset + s.payload.length = frontier host.handed host.handed.length := by
    rw [h.length, h.end_offset]
  rw [hsequence, hoffset]
  have hok := reactionOk_sendNext plan producer { host with retired := host.retired + 1 }
    h.length.symm h.nonempty
  exact ⟨hok.inv, hok.grows, hok.sent⟩

theorem reactionOk_resend {s : StopAndWait} (h : CurrentInv plan host.handed host.retired s)
    (error : UploadError) : ReactionOk plan host (resend host s error) := by
  rw [resend]
  split_ifs
  · exact .fail List.prefix_rfl error
  · refine ⟨{ h with }, List.prefix_rfl, fun wire hwire => ?_⟩
    obtain rfl := List.mem_singleton.mp hwire
    exact ⟨_, h.wire⟩

theorem reactionOk_receiveStopAndWait {s : StopAndWait} (hinv : HostInv plan host)
    (h : CurrentInv plan host.handed host.retired s) (response : ParsedFrame) :
    ReactionOk plan host (receiveStopAndWait producer plan host s response) := by
  rw [receiveStopAndWait]
  by_cases hid : response.transferId ≠ plan.transferId
  · rw [if_pos hid]
    exact .refl hinv
  · rw [if_neg hid]
    by_cases hcrc : response.crcValid ≠ true
    · rw [if_pos hcrc]
      exact .refl hinv
    · rw [if_neg hcrc]
      cases response.type with
      | ack =>
          simp only
          split_ifs
          · exact .fail List.prefix_rfl _
          · exact reactionOk_accept h
          · exact .refl hinv
          · exact .fail List.prefix_rfl _
      | nack =>
          simp only
          split_ifs
          · exact .fail List.prefix_rfl _
          · exact reactionOk_resend h _
          · exact .refl hinv
          · exact .fail List.prefix_rfl _
      | data => exact .fail List.prefix_rfl _

theorem resend_retired (host : Host P) (s : StopAndWait) (error : UploadError) :
    (resend host s error).1.retired = host.retired := by
  rw [resend]
  split_ifs <;> rfl

/-- The stop-and-wait loop accepts a frame only on a response past it. -/
theorem retired_receiveStopAndWait {s : StopAndWait}
    (h : CurrentInv plan host.handed host.retired s) {response : ParsedFrame} {index : Nat}
    (hnames : response.transferId = plan.transferId → response.crcValid = true →
      Names host.handed index response) :
    (receiveStopAndWait producer plan host s response).1.retired ≤ max host.retired index := by
  have hkeep := le_max_left host.retired index
  rw [receiveStopAndWait]
  by_cases hid : response.transferId ≠ plan.transferId
  · rw [if_pos hid]
    exact hkeep
  · rw [if_neg hid]
    by_cases hcrc : response.crcValid ≠ true
    · rw [if_pos hcrc]
      exact hkeep
    · rw [if_neg hcrc]
      have hnamed := hnames (by simpa using hid) (by simpa using hcrc)
      cases response.type with
      | ack =>
          simp only
          split_ifs with hinvalid hexact hstale
          · exact hkeep
          · have hindex : index = host.retired + 1 := by
              refine hnamed.eq_of_offset h.nonempty h.length.ge ?_
              rw [hexact.2, h.end_offset]
            rw [sendNext_retired, hindex]
            exact le_max_right _ _
          · exact hkeep
          · exact hkeep
      | nack =>
          simp only
          split_ifs
          · exact hkeep
          · rw [resend_retired]
            exact hkeep
          · exact hkeep
          · exact hkeep
      | data => exact hkeep

theorem reactionOk_retransmitAll (plan : UploadPlan) (host : Host P) (w : Windowed)
    (h : WindowInv plan host.handed host.retired w) (hsome : w.outstanding ≠ []) :
    ReactionOk plan host (retransmitAll host w) := by
  rw [retransmitAll]
  split_ifs
  · exact .fail List.prefix_rfl _
  · refine ⟨⟨{ h with }, hsome⟩, List.prefix_rfl, fun wire hwire => ?_⟩
    obtain ⟨frame, hframe, rfl⟩ := List.mem_map.mp hwire
    obtain ⟨i, hi⟩ := List.getElem?_of_mem hframe
    exact ⟨_, (h.frames i frame hi).wire⟩

theorem retransmitAll_retired (host : Host P) (w : Windowed) :
    (retransmitAll host w).1.retired = host.retired := by
  rw [retransmitAll]
  split_ifs <;> rfl

/-- The ACK branch of the windowed loop retires up to its boundary. -/
theorem reactionOk_acceptAck (producer : Producer P) {w : Windowed}
    (h : WindowInv plan host.handed host.retired w) {target : Nat}
    (hfrom : host.retired ≤ target) (hto : target ≤ host.handed.length) :
    ReactionOk plan host (acceptAck producer plan host w target) ∧
      (acceptAck producer plan host w target).1.retired ≤ target := by
  obtain ⟨hretire, hwindow⟩ := h.retireTo hfrom hto
  simp only [acceptAck, hretire]
  split_ifs with hnone
  · exact ⟨.fail List.prefix_rfl _, hfrom⟩
  · have hretired : host.retired + (target - host.retired) = target := by omega
    rw [hretired]
    obtain ⟨hok, hsame⟩ := reactionOk_fillWindow producer dataWindowFrames
      { host with retired := target }
      { w with
        outstanding := w.outstanding.drop (target - host.retired)
        retryRounds := 0
        lastNackRetryBase := none } [] { hwindow with } (by omega) (by simp)
    exact ⟨⟨hok.inv, hok.grows, hok.sent⟩, hsame.le⟩

/-- The NACK branch retires up to its boundary and retransmits the rest. -/
theorem reactionOk_acceptNack {w : Windowed} (h : WindowInv plan host.handed host.retired w)
    (hsome : w.outstanding ≠ []) {target : Nat} (hfrom : host.retired ≤ target)
    (hto : target ≤ host.handed.length) :
    ReactionOk plan host (acceptNack host w target) ∧
      (acceptNack host w target).1.retired ≤ target := by
  obtain ⟨hretire, hwindow⟩ := h.retireTo hfrom hto
  have hretired : host.retired + (target - host.retired) = target := by omega
  simp only [acceptNack, hretire, hretired]
  split_ifs with hagain hempty hcount
  · exact ⟨⟨⟨h, hsome⟩, List.prefix_rfl, by simp⟩, hfrom⟩
  · exact ⟨⟨trivial, List.prefix_rfl, by simp⟩, le_rfl⟩
  · have hok := reactionOk_retransmitAll plan { host with retired := target }
      { w with
        outstanding := w.outstanding.drop (target - host.retired)
        retryRounds := 0
        lastNackRetryBase := none } { hwindow with } hempty
    exact ⟨⟨hok.inv, hok.grows, hok.sent⟩, (retransmitAll_retired _ _).le⟩
  · have hok := reactionOk_retransmitAll plan { host with retired := target } _ hwindow hempty
    exact ⟨⟨hok.inv, hok.grows, hok.sent⟩, (retransmitAll_retired _ _).le⟩

theorem reactionOk_receiveWindowed {w : Windowed} (hinv : HostInv plan host)
    (h : WindowInv plan host.handed host.retired w) (hsome : w.outstanding ≠ [])
    (response : ParsedFrame) :
    ReactionOk plan host (receiveWindowed producer plan host w response) ∧
      ∀ index, (response.transferId = plan.transferId → response.crcValid = true →
          Names host.handed index response) →
        (receiveWindowed producer plan host w response).1.retired ≤ max host.retired index := by
  have hkeep : ∀ index, host.retired ≤ max host.retired index := fun index => le_max_left _ _
  rw [receiveWindowed]
  by_cases hid : response.transferId ≠ plan.transferId
  · rw [if_pos hid]
    exact ⟨.refl hinv, fun index _ => hkeep index⟩
  · rw [if_neg hid]
    by_cases hcrc : response.crcValid ≠ true
    · rw [if_pos hcrc]
      exact ⟨.refl hinv, fun index _ => hkeep index⟩
    · rw [if_neg hcrc]
      cases responseFault response with
      | some fault => exact ⟨.fail List.prefix_rfl _, fun index _ => hkeep index⟩
      | none =>
          simp only
          cases hboundary : w.boundaries (response.sequence.toNat, response.offset.toNat) with
          | none => exact ⟨.fail List.prefix_rfl _, fun index _ => hkeep index⟩
          | some target =>
              obtain ⟨hto, hkey⟩ := (h.boundaries _ _).mp hboundary
              have hoffset : response.offset.toNat = frontier host.handed target :=
                congrArg Prod.snd hkey
              have hbound : ∀ index, (response.transferId = plan.transferId →
                  response.crcValid = true → Names host.handed index response) →
                  target ≤ max host.retired index := by
                intro index hnames
                have hnamed := hnames (by simpa using hid) (by simpa using hcrc)
                rw [hnamed.eq_of_offset h.nonempty hto hoffset]
                exact le_max_right _ _
              simp only [h.position_base hsome]
              split_ifs with hfuture hstale hack
              · exact ⟨.fail List.prefix_rfl _, fun index _ => hkeep index⟩
              · exact ⟨.refl hinv, fun index _ => hkeep index⟩
              · have hfrom : host.retired ≤ target := by
                  by_contra hlt
                  exact hstale (.inl (by omega))
                obtain ⟨hok, hle⟩ := reactionOk_acceptAck producer h hfrom hto
                exact ⟨hok, fun index hnames => hle.trans (hbound index hnames)⟩
              · have hfrom : host.retired ≤ target := by
                  by_contra hlt
                  exact hstale (.inl (by omega))
                obtain ⟨hok, hle⟩ := reactionOk_acceptNack h hsome hfrom hto
                exact ⟨hok, fun index hnames => hle.trans (hbound index hnames)⟩

/-- Every reaction to a response. -/
theorem reactionOk_receiveResponse (producer : Producer P) (hinv : HostInv plan host)
    (response : ParsedFrame) :
    ReactionOk plan host (receiveResponse producer plan host response) ∧
      ∀ index, (response.transferId = plan.transferId → response.crcValid = true →
          Names host.handed index response) →
        (receiveResponse producer plan host response).1.retired ≤ max host.retired index := by
  rw [receiveResponse]
  cases hsender : host.sender with
  | stopAndWait s =>
      have hcurrent := hinv
      simp only [HostInv, hsender] at hcurrent
      exact ⟨reactionOk_receiveStopAndWait hinv hcurrent response,
        fun index hnames => retired_receiveStopAndWait hcurrent hnames⟩
  | windowed w =>
      have hwindow := hinv
      simp only [HostInv, hsender] at hwindow
      exact reactionOk_receiveWindowed hinv hwindow.1 hwindow.2 response
  | finished => exact ⟨.refl hinv, fun index _ => le_max_left _ _⟩
  | failed error => exact ⟨.refl hinv, fun index _ => le_max_left _ _⟩

theorem reactionOk_responseTimeout (hinv : HostInv plan host) :
    ReactionOk plan host (responseTimeout host) ∧
      (responseTimeout host).1.retired = host.retired := by
  rw [responseTimeout]
  cases hsender : host.sender with
  | stopAndWait s =>
      have hcurrent := hinv
      simp only [HostInv, hsender] at hcurrent
      exact ⟨reactionOk_resend hcurrent _, resend_retired _ _ _⟩
  | windowed w =>
      have hwindow := hinv
      simp only [HostInv, hsender] at hwindow
      exact ⟨reactionOk_retransmitAll plan host w hwindow.1 hwindow.2, retransmitAll_retired _ _⟩
  | finished => exact ⟨.refl hinv, rfl⟩
  | failed error => exact ⟨.refl hinv, rfl⟩

theorem reactionOk_serialError (hinv : HostInv plan host) :
    HostInv plan (serialError host) ∧ (serialError host).handed = host.handed ∧
      (serialError host).retired = host.retired := by
  rw [serialError]
  cases hsender : host.sender with
  | stopAndWait s => exact ⟨trivial, rfl, rfl⟩
  | windowed w => exact ⟨trivial, rfl, rfl⟩
  | finished => exact ⟨hinv, rfl, rfl⟩
  | failed error => exact ⟨hinv, rfl, rfl⟩

end Reactions

theorem windowInv_start (plan : UploadPlan) : WindowInv plan [] 0 Windowed.start where
  nonempty := by simp
  nextSequence := rfl
  nextOffset := rfl
  boundaryCount := rfl
  boundaries := by
    intro key position
    simp only [Windowed.start, List.length_nil, Nat.le_zero]
    constructor
    · intro hposition
      split_ifs at hposition with hkey
      obtain rfl := Option.some.inj hposition
      exact ⟨rfl, hkey⟩
    · rintro ⟨rfl, rfl⟩
      rfl
  retained := rfl
  frames := by simp [Windowed.start]

/-- Entering the send loop. -/
theorem reactionOk_startUpload (plan : UploadPlan) (producer : Producer P) (mode : UploadMode)
    (source : P) :
    let reaction := startUpload producer plan mode source
    HostInv plan reaction.1 ∧ reaction.1.retired = 0 ∧
      ∀ wire ∈ reaction.2, ∃ index, Handed plan reaction.1.handed index wire := by
  cases mode with
  | stopAndWait =>
      have hok := reactionOk_sendNext plan producer
        { source := source, handed := [], retired := 0, sender := .finished } rfl (by simp)
      exact ⟨hok.inv, sendNext_retired _ _ _, hok.sent⟩
  | windowed =>
      obtain ⟨hok, hretired⟩ := reactionOk_fillWindow producer dataWindowFrames
        { source := source, handed := [], retired := 0, sender := .finished } Windowed.start []
        (windowInv_start plan) (by simp) (by simp)
      exact ⟨hok.inv, hretired, hok.sent⟩

end EspNp2.HostUpload.UploadSender
