import EspNp2.FileTransfer.ZeroRleDecoder

/-!
The decoder accepts exactly the streams of the format, however they are cut into calls of
`consume`.
-/

namespace EspNp2.FileTransfer.ZeroRleChunking

open EspNp2.Library.Transducer
open EspNp2.FileTransfer.ZeroRleFormat
open EspNp2.FileTransfer.ZeroRleDecoder

section Journal

/-- An emitted block: its logical offset and its bytes. -/
abbrev Block := Nat × List UInt8

/-- The output callback that keeps every block. -/
def journal : Emit (List Block) := fun blocks offset data => (true, blocks ++ [(offset, data)])

/-- The bytes of the blocks. -/
def blockBytes (blocks : List Block) : List UInt8 := blocks.flatMap Prod.snd

/-- Every block begins where the one before it ends. -/
def Contiguous : Nat → List Block → Prop
  | _, [] => True
  | offset, block :: blocks => block.1 = offset ∧ Contiguous (offset + block.2.length) blocks

theorem emitted_journal {blocks last : List Block} {offset : Nat} {data : List UInt8}
    (h : Emitted journal blocks offset data last) :
    ∃ more, last = blocks ++ more ∧ Contiguous offset more ∧ blockBytes more = data := by
  induction h with
  | nil blocks offset => exact ⟨[], (List.append_nil blocks).symm, trivial, rfl⟩
  | @cons blocks next last offset data rest hemit _ ih =>
      obtain ⟨more, rfl, hcontiguous, rfl⟩ := ih
      obtain rfl : blocks ++ [(offset, data)] = next := congrArg Prod.snd hemit
      refine ⟨(offset, data) :: more, ?_, ⟨rfl, hcontiguous⟩, ?_⟩
      · rw [List.append_assoc, List.singleton_append]
      · simp [blockBytes]

theorem not_refused_journal {blocks last : List Block} {offset : Nat} :
    ¬Refused journal blocks offset last := by
  rintro ⟨done, middle, data, -, hrefused⟩
  exact Bool.noConfusion (congrArg Prod.fst hrefused)

end Journal

section Bounds

variable {logicalSize : Nat}

/-- What the reader has produced, and what it still expects of a literal, fits. -/
def Fits (logicalSize : Nat) (p : Parse) : Prop :=
  match p.phase with
  | .readLiteral remaining => 0 < remaining ∧ p.produced + remaining ≤ logicalSize
  | _ => p.produced ≤ logicalSize

theorem Fits.produced_le {p : Parse} (h : Fits logicalSize p) : p.produced ≤ logicalSize := by
  unfold Fits at h
  split at h <;> omega

theorem fits_step (p : Parse) (byte : UInt8) (h : Fits logicalSize p) :
    Fits logicalSize (parseByte logicalSize p byte).1 := by
  have hproduced := h.produced_le
  unfold parseByte
  cases hphase : p.phase with
  | expectTag =>
      dsimp only
      split_ifs <;> exact hproduced
  | readLength literal bytes =>
      dsimp only
      split_ifs
      · unfold openRecord
        split_ifs
        · exact hproduced
        · rename_i hfits _
          rw [not_or] at hfits
          exact ⟨Nat.pos_of_ne_zero hfits.1, by dsimp only; omega⟩
        · rename_i hfits _
          change p.produced + _ ≤ logicalSize
          omega
      · exact hproduced
  | readLiteral remaining =>
      rw [Fits, hphase] at h
      obtain ⟨hpos, hfits⟩ := h
      dsimp only
      split_ifs
      · change p.produced + 1 ≤ logicalSize
        omega
      · rename_i hmore
        exact ⟨by omega, by dsimp only; omega⟩
  | failed =>
      rw [Fits, hphase]
      exact hproduced

theorem run_length_le (wire : List UInt8) :
    (run (parseByte logicalSize) {} wire).2.length ≤ logicalSize := by
  have hstart : Fits logicalSize {} := Nat.zero_le _
  have hfits := (run_invariant (parseByte logicalSize) fits_step hstart wire).produced_le
  rwa [run_produced, Nat.zero_add] at hfits

end Bounds

section Chunks

variable {d : Decoder} {p : Parse}

/-- What a decoder makes of the rest of its stream, in any pieces. -/
structure Decides (d : Decoder) (p : Parse) (blocks : List Block) (wire : List UInt8)
    (result : Result × Decoder × List Block) : Prop where
  answered : result.1 ≠ .outputFailed
  emitted : ∃ done, Emitted journal blocks d.logicalProduced done result.2.2 ∧
    done <+: (run (parseByte d.logicalSize) p wire).2 ∧
    (result.1 = .ok → done = (run (parseByte d.logicalSize) p wire).2)
  accepted : result.1 = .ok ↔ d.wireConsumed + wire.length = d.wireSize ∧
    (run (parseByte d.logicalSize) p wire).1 = { produced := d.logicalSize }

theorem decides_finish (h : Refines d p) (blocks : List Block) :
    Decides d p blocks [] (finish journal d blocks) := by
  rcases finish_cases journal blocks h with ⟨hfinish, hdone, hwire⟩ | ⟨error, hfinish, hnot⟩
  · rw [hfinish]
    exact ⟨nofun, ⟨[], .nil _ _, List.prefix_rfl, fun _ => rfl⟩, fun _ => ⟨hwire, hdone⟩,
      fun _ => rfl⟩
  · rw [hfinish]
    refine ⟨nofun, ⟨[], .nil _ _, List.prefix_rfl, nofun⟩, nofun, ?_⟩
    rintro ⟨hwire, hdone⟩
    exact absurd ⟨hdone, hwire⟩ hnot

/-- A call that wants more than the announced wire size. -/
theorem decides_overrun (h : Refines d p) (blocks : List Block) {encoded : List UInt8}
    (rest : List UInt8)
    (hover : d.wireSize < d.wireConsumed + encoded.length) :
    Decides d p blocks (encoded ++ rest) (consume journal d blocks d.wireConsumed encoded) := by
  rw [consume, if_neg h.state_ne.2, if_neg (by simp), if_pos (by omega)]
  refine ⟨(by rintro ⟨⟩), ⟨[], .nil _ _, List.nil_prefix, (by rintro ⟨⟩)⟩, (by rintro ⟨⟩), ?_⟩
  rintro ⟨hwire, -⟩
  rw [List.length_append] at hwire
  omega

theorem decides_malformed {blocks blocks' : List Block} {d' : Decoder} {encoded rest : List UInt8}
    (hphase : (run (parseByte d.logicalSize) p encoded).1.phase = .failed)
    (hemitted : Emitted journal blocks d.logicalProduced (run (parseByte d.logicalSize) p encoded).2
      blocks') :
    Decides d p blocks (encoded ++ rest) (.malformed, d', blocks') := by
  have hlast : (run (parseByte d.logicalSize) p (encoded ++ rest)).1.phase = .failed := by
    rw [run_append]
    generalize (run (parseByte d.logicalSize) p encoded).1 = middle at hphase
    obtain ⟨phase, produced⟩ := middle
    obtain rfl : phase = .failed := hphase
    rw [run_failed]
  refine ⟨nofun, ⟨_, hemitted, ?_, nofun⟩, nofun, ?_⟩
  · rw [run_append]
    exact List.prefix_append _ _
  · rintro ⟨-, hdone⟩
    rw [hdone] at hlast
    cases hlast

/-- A call that was accepted, and what follows it. -/
theorem Decides.after {blocks blocks' : List Block} {d' : Decoder} {encoded rest : List UInt8}
    {result : Result × Decoder × List Block} (hsizes : SameSizes d d')
    (hwire : d'.wireConsumed = d.wireConsumed + encoded.length)
    (hproduced : d'.logicalProduced =
      d.logicalProduced + (run (parseByte d.logicalSize) p encoded).2.length)
    (hemitted : Emitted journal blocks d.logicalProduced (run (parseByte d.logicalSize) p encoded).2
      blocks')
    (h : Decides d' (run (parseByte d.logicalSize) p encoded).1 blocks' rest result) :
    Decides d p blocks (encoded ++ rest) result := by
  have haccepted := h.accepted
  rw [hsizes.logicalSize, hsizes.wireSize, hwire, Nat.add_assoc, ← List.length_append] at haccepted
  obtain ⟨done, hdone, hprefix, hall⟩ := h.emitted
  rw [hproduced] at hdone
  rw [hsizes.logicalSize] at hprefix hall
  refine ⟨h.answered, ⟨_, hemitted.append hdone, ?_, fun hok => ?_⟩, ?_⟩
  · rw [run_append]
    exact (List.prefix_append_right_inj _).mpr hprefix
  · rw [run_append, hall hok]
  · rw [run_append]
    exact haccepted

theorem decides_consumeAll (h : Refines d p) (blocks : List Block) (chunks : List (List UInt8)) :
    Decides d p blocks chunks.flatten (consumeAll journal d blocks d.wireConsumed chunks) := by
  induction chunks generalizing d p blocks with
  | nil => exact decides_finish h blocks
  | cons encoded chunks ih =>
      rw [List.flatten_cons, consumeAll]
      by_cases hfits : d.wireConsumed + encoded.length ≤ d.wireSize
      · have houtcome : Outcome journal d blocks encoded.length _ _
            (consume journal d blocks d.wireConsumed encoded) := consume_outcome h hfits
        generalize consume journal d blocks d.wireConsumed encoded = result at houtcome
        cases houtcome with
        | @accepted d' blocks' hsizes hwire hrefines hemitted =>
            have hproduced := hrefines.produced
            rw [run_produced, h.produced] at hproduced
            rw [← hwire]
            exact .after hsizes hwire hproduced.symm hemitted (ih hrefines blocks')
        | malformed _ hphase _ _ hemitted => exact decides_malformed hphase hemitted
        | refused _ _ _ hrefused => exact absurd hrefused not_refused_journal
      · have hover := decides_overrun h blocks chunks.flatten (Nat.lt_of_not_le hfits)
        have hnot : (consume journal d blocks d.wireConsumed encoded).1 ≠ .ok := by
          intro hok
          have hwire := (hover.accepted.mp hok).1
          rw [List.length_append] at hwire
          omega
        generalize consume journal d blocks d.wireConsumed encoded = result at hover hnot
        obtain ⟨answer, d', blocks'⟩ := result
        cases answer with
        | ok => exact absurd rfl hnot
        | malformed => exact hover
        | outputFailed => exact hover

end Chunks

section Grammar

/-- What is decided of a stream with these sizes, whatever its chunks. -/
structure Decoded (logicalSize wireSize : Nat) (wire whole : List UInt8)
    (result : Result × Decoder × List Block) : Prop where
  answered : result.1 = .ok ∨ result.1 = .malformed
  accepted : result.1 = .ok ↔ wire.length = wireSize ∧
    ∃ logical, ZeroRle wire logical ∧ logical.length = logicalSize
  expansion : result.1 = .ok → ∀ logical, ZeroRle wire logical →
    Contiguous 0 result.2.2 ∧ blockBytes result.2.2 = logical
  emitted : blockBytes result.2.2 <+: whole
  bounded : (blockBytes result.2.2).length ≤ logicalSize

/-- The reader comes to the end of exactly the streams of the format. -/
theorem run_complete_iff {logicalSize : Nat} {wire : List UInt8} :
    (run (parseByte logicalSize) {} wire).1 = { produced := logicalSize } ↔
      ∃ logical, ZeroRle wire logical ∧ logical.length = logicalSize := by
  constructor
  · intro hdone
    have hproduced := @run_produced logicalSize {} wire
    rw [hdone, Nat.zero_add] at hproduced
    exact ⟨_, zeroRle_of_run rfl (by rw [hdone]), hproduced.symm⟩
  · rintro ⟨logical, hvalid, rfl⟩
    have hrun : run (parseByte logical.length) {} wire =
        ({ produced := 0 + logical.length }, logical) := run_zeroRle hvalid (by omega)
    rw [hrun, Nat.zero_add]

/-- A stream of the format stands for one string. -/
theorem ZeroRle.unique {wire logical logical' : List UInt8} (h : ZeroRle wire logical)
    (h' : ZeroRle wire logical') : logical = logical' := by
  have hrun : run (parseByte (logical.length + logical'.length)) { produced := 0 } wire =
      ({ produced := 0 + logical.length }, logical) := run_zeroRle h (by omega)
  have hrun' : run (parseByte (logical.length + logical'.length)) { produced := 0 } wire =
      ({ produced := 0 + logical'.length }, logical') := run_zeroRle h' (by omega)
  exact congrArg Prod.snd (hrun.symm.trans hrun')

theorem decoded_of_decides {logicalSize wireSize zeroBufferBytes : Nat} {wire : List UInt8}
    {result : Result × Decoder × List Block}
    (h : Decides (init logicalSize wireSize zeroBufferBytes) {} [] wire result) :
    Decoded logicalSize wireSize wire (run (parseByte logicalSize) {} wire).2 result := by
  obtain ⟨hanswered, ⟨done, hemitted, hprefix, hall⟩, haccepted⟩ := h
  obtain ⟨answer, d, blocks⟩ := result
  obtain ⟨blocks', hblocks, hcontiguous, hbytes⟩ := emitted_journal hemitted
  obtain rfl : blocks = blocks' := hblocks
  have hcomplete : answer = .ok ↔ wire.length = wireSize ∧
      (run (parseByte logicalSize) {} wire).1 = { produced := logicalSize } := by
    rw [← Nat.zero_add wire.length]
    exact haccepted
  have hprefix' : blockBytes blocks <+: (run (parseByte logicalSize) {} wire).2 := by
    rw [hbytes]
    exact hprefix
  refine ⟨?_, hcomplete.trans (and_congr_right fun _ => run_complete_iff), ?_, hprefix',
    hprefix'.length_le.trans (run_length_le wire)⟩
  · cases answer with
    | ok => exact .inl rfl
    | malformed => exact .inr rfl
    | outputFailed => exact absurd rfl hanswered
  · intro hok logical hvalid
    refine ⟨hcontiguous, ?_⟩
    have hphase : (run (parseByte logicalSize) {} wire).1.phase = .expectTag := by
      rw [(hcomplete.mp hok).2]
    change blockBytes blocks = logical
    rw [hbytes, hall hok]
    exact ZeroRle.unique (zeroRle_of_run rfl hphase) hvalid

/-- The decoder accepts exactly the grammar: the same answer for all chunkings, the expansion
when it is positive, and otherwise a part of one string. -/
theorem decoder_accepts_grammar (logicalSize wireSize zeroBufferBytes : Nat)
    (hbuffer : 0 < zeroBufferBytes) (wire : List UInt8) :
    ∃ whole, ∀ chunks : List (List UInt8), chunks.flatten = wire →
      Decoded logicalSize wireSize wire whole
        (consumeAll journal (init logicalSize wireSize zeroBufferBytes) [] 0 chunks) := by
  refine ⟨(run (parseByte logicalSize) {} wire).2, ?_⟩
  rintro chunks rfl
  exact decoded_of_decides (decides_consumeAll (refines_init hbuffer) [] chunks)

/-- A literal and a zero run, cut inside both records. -/
theorem decoder_accepts_cut_records :
    0 < 2 ∧ (∃ whole, ∀ chunks : List (List UInt8),
      chunks.flatten = [1, 2, 0, 0, 0, 7, 8, 0, 3, 0, 0, 0] →
        Decoded 5 12 [1, 2, 0, 0, 0, 7, 8, 0, 3, 0, 0, 0] whole
          (consumeAll journal (init 5 12 2) [] 0 chunks)) ∧
      (consumeAll journal (init 5 12 2) [] 0
        [[1, 2, 0], [0, 0, 7], [8, 0, 3], [], [0, 0, 0]]).2.2 =
          [(0, [7]), (1, [8]), (2, [0, 0]), (4, [0])] :=
  ⟨by decide, decoder_accepts_grammar 5 12 2 (by decide) _, by decide +kernel⟩

end Grammar

end EspNp2.FileTransfer.ZeroRleChunking
