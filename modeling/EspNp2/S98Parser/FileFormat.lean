import EspNp2.S98Parser.DumpFormat

/-!
An S98 file: the words of its header and of its device record, its dump and its tag. The parser
is set up for such a file and for nothing else, and it reads nothing outside the file.
-/

namespace EspNp2.S98Parser.FileFormat

open EspNp2.Library.ByteReader
open EspNp2.Library.LittleEndian
open EspNp2.S98Parser.DumpFormat
open EspNp2.S98Parser.PullParser
open EspNp2.S98Parser.SynthEvents

/-- The words a file chooses. -/
structure Header where
  timerNumerator : UInt32
  timerDenominator : UInt32
  tagOffset : UInt32
  dataOffset : UInt32
  deviceClockHz : UInt32

/-- A timer word of zero stands for its default. -/
def Header.frameAt (header : Header) (syncs : ℕ) : ℕ :=
  let numerator := if header.timerNumerator = 0 then 10 else header.timerNumerator.toNat
  let denominator := if header.timerDenominator = 0 then 1000 else header.timerDenominator.toNat
  syncs * numerator * 48000 / denominator

theorem Header.frameAt_mono (header : Header) {first second : ℕ} (h : first ≤ second) :
    header.frameAt first ≤ header.frameAt second := by
  apply Nat.div_le_div_right
  exact Nat.mul_le_mul_right _ (Nat.mul_le_mul_right _ h)

def WordAt (file : List UInt8) (offset : ℕ) (word : UInt32) : Prop :=
  Stands file offset (putLe 4 word.toNat)

/-- A file without compression and without a loop, for one device of the only type. -/
structure S98File (file : List UInt8) (header : Header) (commands : List Command)
    (dump : List UInt8) : Prop where
  magic : Stands file 0 [0x53, 0x39, 0x38, 0x33]
  timerNumerator : WordAt file 0x04 header.timerNumerator
  timerDenominator : WordAt file 0x08 header.timerDenominator
  compression : WordAt file 0x0c 0
  tagOffset : WordAt file 0x10 header.tagOffset
  dataOffset : WordAt file 0x14 header.dataOffset
  loopOffset : WordAt file 0x18 0
  deviceCount : WordAt file 0x1c 1
  deviceType : WordAt file 0x20 2
  deviceClockHz : WordAt file 0x24 header.deviceClockHz
  devicePan : WordAt file 0x28 0
  deviceReserved : WordAt file 0x2c 0
  clock : header.deviceClockHz = 3993600 ∨ header.deviceClockHz = 4000000
  dataOffset_le : 0x30 ≤ header.dataOffset.toNat
  isDump : Dump commands dump
  dumpStands : Stands file header.dataOffset.toNat dump
  tag : header.tagOffset = 0 ∨ header.dataOffset.toNat + dump.length ≤ header.tagOffset.toNat ∧
    Stands file header.tagOffset.toNat [0x5b, 0x53, 0x39, 0x38, 0x5d]

section Words

theorem word_toNat (b₀ b₁ b₂ b₃ : UInt8) :
    (b₀.toUInt32 ||| (b₁.toUInt32 <<< 8) ||| (b₂.toUInt32 <<< 16) ||| (b₃.toUInt32 <<< 24)).toNat =
      getLe [b₀, b₁, b₂, b₃] := by
  have hbyte (b : UInt8) {shift : ℕ} (hshift : shift ≤ 24) :
      b.toNat <<< shift % 2 ^ 32 = b.toNat <<< shift := by
    apply Nat.mod_eq_of_lt
    rw [Nat.shiftLeft_eq]
    have hpow : 2 ^ shift ≤ 2 ^ 24 := Nat.pow_le_pow_right (by decide) hshift
    have hlt := b.toNat_lt
    calc b.toNat * 2 ^ shift ≤ 255 * 2 ^ 24 := Nat.mul_le_mul (by omega) hpow
      _ < 2 ^ 32 := by decide
  have hlist : [b₀, b₁, b₂, b₃] = [] ++ [b₀] ++ [b₁] ++ [b₂] ++ [b₃] := rfl
  rw [hlist, getLe_snoc, getLe_snoc, getLe_snoc, getLe_snoc]
  change b₀.toNat ||| b₁.toNat <<< 8 % 2 ^ 32 ||| b₂.toNat <<< 16 % 2 ^ 32 |||
    b₃.toNat <<< 24 % 2 ^ 32 = 0 ||| b₀.toNat <<< 0 ||| b₁.toNat <<< 8 ||| b₂.toNat <<< 16 |||
    b₃.toNat <<< 24
  rw [hbyte b₁ (by decide), hbyte b₂ (by decide), hbyte b₃ (by decide), Nat.zero_or,
    Nat.shiftLeft_zero]

/-- Four readable bytes are a word. -/
theorem exists_getLe32 {memory : List UInt8} {offset : ℕ} (h : offset + 4 ≤ memory.length) :
    ∃ word, getLe32 memory offset = some word ∧ WordAt memory offset word := by
  have hbyte (i : ℕ) (hi : i < 4) : ∃ byte, memory[offset + i]? = some byte :=
    ⟨_, List.getElem?_eq_getElem (by omega)⟩
  obtain ⟨b₀, h₀⟩ := hbyte 0 (by decide)
  obtain ⟨b₁, h₁⟩ := hbyte 1 (by decide)
  obtain ⟨b₂, h₂⟩ := hbyte 2 (by decide)
  obtain ⟨b₃, h₃⟩ := hbyte 3 (by decide)
  rw [Nat.add_zero] at h₀
  have hread : getLe32 memory offset = some (b₀.toUInt32 ||| (b₁.toUInt32 <<< 8) |||
      (b₂.toUInt32 <<< 16) ||| (b₃.toUInt32 <<< 24)) := by
    unfold getLe32
    simp only [h₀, h₁, h₂, h₃, Option.bind_eq_bind, Option.bind_some]
  have hput : putLe 4 (getLe [b₀, b₁, b₂, b₃]) = [b₀, b₁, b₂, b₃] :=
    putLe_getLe [b₀, b₁, b₂, b₃]
  refine ⟨_, hread, ?_⟩
  rw [WordAt, word_toNat, hput]
  exact stands_cons_iff.mpr ⟨h₀, stands_cons_iff.mpr ⟨h₁, stands_cons_iff.mpr
    ⟨h₂, stands_cons_iff.mpr ⟨h₃, stands_nil _ _⟩⟩⟩⟩

theorem WordAt.getLe32_eq {memory : List UInt8} {offset : ℕ} {word : UInt32}
    (h : WordAt memory offset word) (hoffset : offset ≤ memory.length) :
    getLe32 memory offset = some word := by
  have hlength := h.length_le hoffset
  rw [putLe_length] at hlength
  obtain ⟨read, hread, hstands⟩ := exists_getLe32 hlength
  have hbytes : putLe 4 read.toNat = putLe 4 word.toNat :=
    Stands.eq_of_length hstands h (by rw [putLe_length, putLe_length])
  have hnumbers := congrArg getLe hbytes
  have hmod (word : UInt32) : word.toNat % 256 ^ 4 = word.toNat := Nat.mod_eq_of_lt word.toNat_lt
  rw [getLe_putLe, getLe_putLe, hmod, hmod] at hnumbers
  rw [hread, UInt32.toNat_inj.mp hnumbers]

theorem compare_eq {memory bytes : List UInt8} {offset : ℕ}
    (h : offset + bytes.length ≤ memory.length) :
    ∃ equal, compare memory offset bytes = some equal ∧
      (equal = true ↔ Stands memory offset bytes) := by
  refine ⟨_, if_pos h, ?_⟩
  rw [beq_iff_eq, Stands, List.prefix_iff_eq_take, eq_comm]

end Words

section Opened

/-- The parser of a file, before the first event. -/
def opened (size : ℕ) (header : Header) (dump : List UInt8) : Parser :=
  { blank size with
    cursor := header.dataOffset.toNat
    dumpEnd := header.dataOffset.toNat + dump.length
    metadata := { (blank size).metadata with
      deviceCount := 1
      deviceType := 2
      declaredDeviceClockHz := header.deviceClockHz
      rawTimerNumerator := header.timerNumerator
      rawTimerDenominator := header.timerDenominator
      effectiveTimerNumerator :=
        if header.timerNumerator == 0 then 10 else header.timerNumerator
      effectiveTimerDenominator :=
        if header.timerDenominator == 0 then 1000 else header.timerDenominator
      dataOffset := header.dataOffset
      tagOffset := header.tagOffset
      loopOffset := 0
      clockPolicy :=
        if header.deviceClockHz == 3993600 then .exactNp2 else .workloadClockMismatch }
    eventTrace := traceInit (blank size).eventTrace }

theorem tagRejected_eq {memory : List UInt8} {parser : Parser}
    (hsize : parser.size = memory.length) :
    ∃ rejected, tagRejected memory parser = some rejected ∧
      (rejected = false ↔ parser.metadata.tagOffset = 0 ∨
        parser.dumpEnd ≤ parser.metadata.tagOffset.toNat ∧
        parser.metadata.tagOffset.toNat + 5 ≤ parser.size ∧
        Stands memory parser.metadata.tagOffset.toNat [0x5b, 0x53, 0x39, 0x38, 0x5d]) := by
  unfold tagRejected
  split
  · rename_i hzero
    exact ⟨false, rfl, iff_of_true rfl (Or.inl (eq_of_beq hzero))⟩
  · rename_i hzero
    have hzero : parser.metadata.tagOffset ≠ 0 := fun h => hzero (beq_iff_eq.mpr h)
    dsimp only
    split
    · rename_i hplace
      refine ⟨true, rfl, iff_of_false (by decide) ?_⟩
      rintro (h | ⟨hle, hroom, -⟩)
      · exact hzero h
      · rw [Bool.or_eq_true_iff, decide_eq_true_eq, decide_eq_true_eq] at hplace
        omega
    · rename_i hplace
      rw [Bool.or_eq_true_iff, decide_eq_true_eq, decide_eq_true_eq, not_or] at hplace
      obtain ⟨equal, hrun, hequal⟩ := @compare_eq memory [0x5b, 0x53, 0x39, 0x38, 0x5d]
        parser.metadata.tagOffset.toNat (by
          change parser.metadata.tagOffset.toNat + 5 ≤ memory.length
          omega)
      refine ⟨!equal, by rw [hrun]; rfl, ?_⟩
      rw [Bool.not_eq_false', hequal]
      constructor
      · intro h
        exact Or.inr ⟨by omega, by omega, h⟩
      · rintro (h | ⟨-, -, h⟩)
        · exact absurd h hzero
        · exact h

/-- The scan accepts a dump that is not repeated and whose tag, if any, follows it. -/
theorem preflightDump_cases {memory : List UInt8} {parser : Parser}
    (hsize : parser.size = memory.length) (hdata : parser.metadata.dataOffset.toNat ≤ parser.size)
    (hend : parser.dumpEnd = 0) :
    ∃ status scanned, preflightDump memory parser = some (status, scanned) ∧ (status = 0 →
      parser.metadata.loopOffset = 0 ∧ ∃ commands dump, Dump commands dump ∧
        Stands memory parser.metadata.dataOffset.toNat dump ∧
        (parser.metadata.tagOffset = 0 ∨
          parser.metadata.dataOffset.toNat + dump.length ≤ parser.metadata.tagOffset.toNat ∧
          Stands memory parser.metadata.tagOffset.toNat [0x5b, 0x53, 0x39, 0x38, 0x5d]) ∧
        scanned = { parser with
          dumpEnd := parser.metadata.dataOffset.toNat + dump.length }) := by
  obtain ⟨result, hrun, hscanned⟩ := preflightLoop_scanned (parser.metadata.loopOffset == 0)
    hsize hdata (by omega : parser.size < parser.metadata.dataOffset.toNat + (parser.size + 1))
  unfold preflightDump
  dsimp only
  rw [hrun]
  cases hscanned with
  | failed category error flag _ => exact ⟨-1, _, rfl, fun h => absurd h (by decide)⟩
  | unfinished flag =>
      exact ⟨-1, _, if_pos (beq_iff_eq.mpr hend), fun h => absurd h (by decide)⟩
  | @dump commands dump flag hdump hstands =>
      have hopen : ¬parser.metadata.dataOffset.toNat + dump.length = 0 := by
        have := hdump.length_pos
        omega
      obtain ⟨rejected, htag, hrejected⟩ := @tagRejected_eq memory
        { parser with dumpEnd := parser.metadata.dataOffset.toNat + dump.length } hsize
      simp only [Option.bind_eq_bind, Option.bind_some, htag, beq_iff_eq, if_neg hopen]
      cases rejected with
      | true => exact ⟨-1, _, rfl, fun h => absurd h (by decide)⟩
      | false =>
          by_cases hloop : parser.metadata.loopOffset = 0
          · refine ⟨0, _, ?_, fun _ => ⟨hloop, commands, dump, hdump, hstands, ?_, rfl⟩⟩
            · simp [hloop]
            · exact (hrejected.mp rfl).imp id fun h => ⟨h.1, h.2.2⟩
          · refine ⟨-1, ?_⟩
            simp only [bne_self_eq_false, Bool.false_eq_true, ↓reduceIte, bne_iff_ne, ne_eq, hloop,
              not_false_eq_true]
            split
            · exact ⟨_, rfl, fun h => absurd h (by decide)⟩
            · exact ⟨_, rfl, fun h => absurd h (by decide)⟩

theorem preflightDump_eq {memory dump : List UInt8} {parser : Parser} {commands : List Command}
    (hsize : parser.size = memory.length) (hdata : parser.metadata.dataOffset.toNat ≤ parser.size)
    (hloop : parser.metadata.loopOffset = 0) (hdump : Dump commands dump)
    (hstands : Stands memory parser.metadata.dataOffset.toNat dump)
    (htag : parser.metadata.tagOffset = 0 ∨
      parser.metadata.dataOffset.toNat + dump.length ≤ parser.metadata.tagOffset.toNat ∧
      parser.metadata.tagOffset.toNat + 5 ≤ parser.size ∧
      Stands memory parser.metadata.tagOffset.toNat [0x5b, 0x53, 0x39, 0x38, 0x5d]) :
    preflightDump memory parser = some (0, { parser with
      dumpEnd := parser.metadata.dataOffset.toNat + dump.length }) := by
  have hlength := hstands.length_le (by omega)
  obtain ⟨flag, hrun⟩ := @preflightLoop_dump memory dump parser (parser.size + 1) _ _
    (parser.metadata.loopOffset == 0) hdump hstands (by omega) (by
      have := hdump.length_commands
      omega)
  have hopen : ¬parser.metadata.dataOffset.toNat + dump.length = 0 := by
    have := hdump.length_pos
    omega
  obtain ⟨rejected, hrejectedRun, hrejected⟩ := @tagRejected_eq memory
    { parser with dumpEnd := parser.metadata.dataOffset.toNat + dump.length } hsize
  rw [hrejected.mpr htag] at hrejectedRun
  rw [hloop] at hrun
  unfold preflightDump
  simp only [hrun, Option.bind_eq_bind, Option.bind_some, hrejectedRun, beq_iff_eq, if_neg hopen,
    hloop, bne_self_eq_false, Bool.false_eq_true, ↓reduceIte]

end Opened

section Init

/-- The metadata of the words of a header. -/
def withHeader (metadata : Metadata)
    (numerator denominator tagOffset dataOffset loopOffset deviceCount : UInt32) : Metadata :=
  { metadata with
    rawTimerNumerator := numerator
    rawTimerDenominator := denominator
    tagOffset := tagOffset
    dataOffset := dataOffset
    loopOffset := loopOffset
    deviceCount := deviceCount
    effectiveTimerNumerator := if numerator == 0 then 10 else numerator
    effectiveTimerDenominator := if denominator == 0 then 1000 else denominator }

theorem readHeader_eq {memory : List UInt8} (metadata : Metadata)
    {numerator denominator compression tagOffset dataOffset loopOffset deviceCount : UInt32}
    (hsize : 0x20 ≤ memory.length) (hnumerator : WordAt memory 0x04 numerator)
    (hdenominator : WordAt memory 0x08 denominator) (hcompression : WordAt memory 0x0c compression)
    (htag : WordAt memory 0x10 tagOffset) (hdata : WordAt memory 0x14 dataOffset)
    (hloop : WordAt memory 0x18 loopOffset) (hcount : WordAt memory 0x1c deviceCount) :
    readHeader memory metadata = some (compression,
      withHeader metadata numerator denominator tagOffset dataOffset loopOffset deviceCount) := by
  unfold readHeader
  rw [hnumerator.getLe32_eq (by omega), hdenominator.getLe32_eq (by omega),
    hcompression.getLe32_eq (by omega), htag.getLe32_eq (by omega), hdata.getLe32_eq (by omega),
    hloop.getLe32_eq (by omega), hcount.getLe32_eq (by omega)]
  rfl

theorem readHeader_cases {memory : List UInt8} (metadata : Metadata)
    (hsize : 0x20 ≤ memory.length) :
    ∃ compression read, readHeader memory metadata = some (compression, read) ∧
      WordAt memory 0x04 read.rawTimerNumerator ∧ WordAt memory 0x08 read.rawTimerDenominator ∧
      WordAt memory 0x0c compression ∧ WordAt memory 0x10 read.tagOffset ∧
      WordAt memory 0x14 read.dataOffset ∧ WordAt memory 0x18 read.loopOffset ∧
      WordAt memory 0x1c read.deviceCount := by
  obtain ⟨numerator, -, hnumerator⟩ := @exists_getLe32 memory 0x04 (by omega)
  obtain ⟨denominator, -, hdenominator⟩ := @exists_getLe32 memory 0x08 (by omega)
  obtain ⟨compression, -, hcompression⟩ := @exists_getLe32 memory 0x0c (by omega)
  obtain ⟨tagOffset, -, htag⟩ := @exists_getLe32 memory 0x10 (by omega)
  obtain ⟨dataOffset, -, hdata⟩ := @exists_getLe32 memory 0x14 (by omega)
  obtain ⟨loopOffset, -, hloop⟩ := @exists_getLe32 memory 0x18 (by omega)
  obtain ⟨deviceCount, -, hcount⟩ := @exists_getLe32 memory 0x1c (by omega)
  exact ⟨compression, _,
    readHeader_eq metadata hsize hnumerator hdenominator hcompression htag hdata hloop hcount,
    hnumerator, hdenominator, hcompression, htag, hdata, hloop, hcount⟩

/-- The device record is read when it stands inside the file. -/
theorem readDevice_cases {memory : List UInt8} {parser : Parser}
    (hsize : parser.size = memory.length) (hroom : 0x30 ≤ memory.length)
    (hdata : parser.metadata.dataOffset.toNat ≤ parser.size) (hend : parser.dumpEnd = 0) :
    ∃ status read, readDevice memory parser = some (status, read) ∧ (status = 0 →
      parser.metadata.loopOffset = 0 ∧ ∃ deviceClockHz commands dump,
        WordAt memory 0x20 2 ∧ WordAt memory 0x24 deviceClockHz ∧ WordAt memory 0x28 0 ∧
        WordAt memory 0x2c 0 ∧ (deviceClockHz = 3993600 ∨ deviceClockHz = 4000000) ∧
        Dump commands dump ∧ Stands memory parser.metadata.dataOffset.toNat dump ∧
        (parser.metadata.tagOffset = 0 ∨
          parser.metadata.dataOffset.toNat + dump.length ≤ parser.metadata.tagOffset.toNat ∧
          Stands memory parser.metadata.tagOffset.toNat [0x5b, 0x53, 0x39, 0x38, 0x5d])) := by
  obtain ⟨deviceType, htype, htypeAt⟩ := @exists_getLe32 memory 0x20 (by omega)
  obtain ⟨clockHz, hclock, hclockAt⟩ := @exists_getLe32 memory 0x24 (by omega)
  obtain ⟨pan, hpan, hpanAt⟩ := @exists_getLe32 memory 0x28 (by omega)
  obtain ⟨reserved, hreserved, hreservedAt⟩ := @exists_getLe32 memory 0x2c (by omega)
  unfold readDevice
  simp only [htype, hclock, hpan, hreserved, Option.bind_eq_bind, Option.bind_some]
  split
  · exact ⟨-1, _, rfl, fun h => absurd h (by decide)⟩
  · rename_i htwo
    split
    · exact ⟨-1, _, rfl, fun h => absurd h (by decide)⟩
    · split
      · exact ⟨-1, _, rfl, fun h => absurd h (by decide)⟩
      · rename_i hzeros
        split
        · exact ⟨-1, _, rfl, fun h => absurd h (by decide)⟩
        · rename_i hclocks
          rw [Bool.or_eq_true_iff, not_or, bne_iff_ne, bne_iff_ne, not_not, not_not] at hzeros
          rw [Bool.and_eq_true_iff, bne_iff_ne, bne_iff_ne, ← not_or, not_not] at hclocks
          rw [bne_iff_ne, not_not] at htwo
          obtain ⟨status, scanned, hrun, hscanned⟩ := @preflightDump_cases memory
            { parser with
              metadata := { parser.metadata with
                deviceType := deviceType
                declaredDeviceClockHz := clockHz
                clockPolicy :=
                  if clockHz == 3993600 then .exactNp2 else .workloadClockMismatch }
              eventTrace := traceInit parser.eventTrace } hsize hdata hend
          simp only [hrun, Option.bind_some]
          split
          · exact ⟨-1, _, rfl, fun h => absurd h (by decide)⟩
          · rename_i hstatus
            rw [bne_iff_ne, not_not] at hstatus
            obtain ⟨hloop, commands, dump, hdump, hstands, htag, -⟩ := hscanned hstatus
            refine ⟨0, _, rfl, fun _ => ⟨hloop, clockHz, commands, dump, ?_, hclockAt, ?_, ?_,
              hclocks, hdump, hstands, htag⟩⟩
            · rwa [← htwo]
            · rwa [← hzeros.1]
            · rwa [← hzeros.2]

theorem readDevice_eq {memory : List UInt8} {parser scanned : Parser} {clockHz : UInt32}
    (hroom : 0x30 ≤ memory.length) (htype : WordAt memory 0x20 2)
      (hclockAt : WordAt memory 0x24 clockHz)
    (hpan : WordAt memory 0x28 0) (hreserved : WordAt memory 0x2c 0)
    (hclock : clockHz = 3993600 ∨ clockHz = 4000000)
    (hscanned : preflightDump memory { parser with
      metadata := { parser.metadata with
        deviceType := 2
        declaredDeviceClockHz := clockHz
        clockPolicy := if clockHz == 3993600 then .exactNp2 else .workloadClockMismatch }
      eventTrace := traceInit parser.eventTrace } = some (0, scanned)) :
    readDevice memory parser =
      some (0, { scanned with cursor := scanned.metadata.dataOffset.toNat }) := by
  have hzero : (clockHz == 0) = false := by
    rcases hclock with rfl | rfl
    · rfl
    · rfl
  have hknown : (clockHz != 3993600 && clockHz != 4000000) = false := by
    rcases hclock with rfl | rfl
    · rfl
    · rfl
  unfold readDevice
  simp only [htype.getLe32_eq (by omega), hclockAt.getLe32_eq (by omega),
    hpan.getLe32_eq (by omega), hreserved.getLe32_eq (by omega), Option.bind_eq_bind,
    Option.bind_some, hzero, hknown, bne_self_eq_false, Bool.or_self, Bool.false_eq_true,
    ↓reduceIte, hscanned]

theorem rangeValid_iff {size bytes : ℕ} {offset : UInt32} (hbytes : 0 < bytes) :
    rangeValid size offset bytes = true ↔ offset.toNat + bytes ≤ size := by
  rw [rangeValid, Bool.and_eq_true_iff, decide_eq_true_eq, decide_eq_true_eq]
  omega

theorem offsetsRejected_iff {size : ℕ} {metadata : Metadata} (hcount : metadata.deviceCount = 1) :
    offsetsRejected size metadata = false ↔
      0x30 ≤ size ∧ 0x30 ≤ metadata.dataOffset.toNat ∧ metadata.dataOffset.toNat < size ∧
      (metadata.tagOffset ≠ 0 → metadata.tagOffset.toNat < size) ∧
      (metadata.loopOffset ≠ 0 → metadata.loopOffset.toNat < size) := by
  have htable : (0x20 + metadata.deviceCount * 0x10 : UInt32) = 0x30 := by rw [hcount]; rfl
  have hbytes : metadata.deviceCount.toNat * 0x10 = 0x10 := by rw [hcount]; rfl
  have hdata : ¬metadata.dataOffset < 0x30 ↔ 0x30 ≤ metadata.dataOffset.toNat := by
    rw [UInt32.not_lt]
    exact Iff.rfl
  unfold offsetsRejected
  simp only [htable, hbytes, Bool.or_eq_false_iff, Bool.and_eq_false_imp, Bool.not_eq_false',
    decide_eq_false_iff_not, hdata, bne_iff_ne, rangeValid_iff Nat.one_pos,
    rangeValid_iff (by decide : 0 < 0x10), and_assoc]
  exact Iff.rfl

/-- The parser is set up without a read outside the file, and for an S98 file only. -/
theorem init_cases (file : List UInt8) :
    ∃ status parser, init file = some (status, parser) ∧
      (status = 0 → ∃ header commands dump, S98File file header commands dump) := by
  unfold init
  dsimp only
  split
  · exact ⟨-1, _, rfl, fun h => absurd h (by decide)⟩
  · rename_i hsize
    obtain ⟨equal, hcompare, hmagic⟩ :=
      @compare_eq file [0x53, 0x39, 0x38, 0x33] 0 (by change 0 + 4 ≤ file.length; omega)
    simp only [hcompare, Option.bind_eq_bind, Option.bind_some]
    split
    · exact ⟨-1, _, rfl, fun h => absurd h (by decide)⟩
    · rename_i hequal
      obtain ⟨compression, metadata, hheader, hnumerator, hdenominator, hcompression, htagOffset,
        hdataOffset, hloopOffset, hdeviceCount⟩ :=
        readHeader_cases (blank file.length).metadata (by omega : 0x20 ≤ file.length)
      rw [hheader]
      simp only [Option.bind_some]
      split
      · exact ⟨-1, _, rfl, fun h => absurd h (by decide)⟩
      · rename_i hplain
        split
        · exact ⟨-1, _, rfl, fun h => absurd h (by decide)⟩
        · split
          · exact ⟨-1, _, rfl, fun h => absurd h (by decide)⟩
          · rename_i hoffsets
            split
            · exact ⟨-1, _, rfl, fun h => absurd h (by decide)⟩
            · rename_i hone
              rw [bne_iff_ne, not_not] at hplain hone
              obtain ⟨hroom, hdataLow, hdataHigh, -, -⟩ :=
                (offsetsRejected_iff hone).mp (Bool.eq_false_iff.mpr hoffsets)
              obtain ⟨status, read, hrun, hread⟩ :=
                @readDevice_cases file { blank file.length with metadata := metadata } rfl hroom
                  (le_of_lt hdataHigh) rfl
              refine ⟨status, read, hrun, fun hstatus => ?_⟩
              obtain ⟨hloop, clockHz, commands, dump, htype, hclockAt, hpan, hreserved, hclock,
                hdump, hstands, htag⟩ := hread hstatus
              refine ⟨⟨metadata.rawTimerNumerator, metadata.rawTimerDenominator,
                metadata.tagOffset, metadata.dataOffset, clockHz⟩, commands, dump, ?_⟩
              exact {
                magic := hmagic.mp (by simpa using hequal)
                timerNumerator := hnumerator
                timerDenominator := hdenominator
                compression := hplain ▸ hcompression
                tagOffset := htagOffset
                dataOffset := hdataOffset
                loopOffset := hloop ▸ hloopOffset
                deviceCount := hone ▸ hdeviceCount
                deviceType := htype
                deviceClockHz := hclockAt
                devicePan := hpan
                deviceReserved := hreserved
                clock := hclock
                dataOffset_le := hdataLow
                isDump := hdump
                dumpStands := hstands
                tag := htag }

/-- An S98 file sets the parser up. -/
theorem S98File.init_eq {file dump : List UInt8} {header : Header} {commands : List Command}
    (h : S98File file header commands dump) :
    init file = some (0, opened file.length header dump) := by
  have hdumpLength := h.isDump.length_pos
  have hlength : header.dataOffset.toNat + dump.length ≤ file.length := by
    have hle := List.IsPrefix.length_le h.dumpStands
    rw [List.length_drop] at hle
    omega
  have hdataLow := h.dataOffset_le
  have htag : header.tagOffset = 0 ∨
      header.dataOffset.toNat + dump.length ≤ header.tagOffset.toNat ∧
      header.tagOffset.toNat + 5 ≤ file.length ∧
      Stands file header.tagOffset.toNat [0x5b, 0x53, 0x39, 0x38, 0x5d] := by
    refine h.tag.imp id fun htag => ⟨htag.1, ?_, htag.2⟩
    have hle := List.IsPrefix.length_le htag.2
    rw [List.length_drop] at hle
    change 5 ≤ file.length - header.tagOffset.toNat at hle
    omega
  obtain ⟨equal, hcompare, hmagic⟩ :=
    @compare_eq file [0x53, 0x39, 0x38, 0x33] 0 (by change 0 + 4 ≤ file.length; omega)
  rw [hmagic.mpr h.magic] at hcompare
  have hheader := readHeader_eq (blank file.length).metadata (by omega) h.timerNumerator
    h.timerDenominator h.compression h.tagOffset h.dataOffset h.loopOffset h.deviceCount
  unfold init
  simp only [if_neg (by omega : ¬file.length < 0x20), hcompare, Option.bind_eq_bind,
    Option.bind_some, hheader]
  rw [if_neg (by decide), if_neg (by decide)]
  refine (if_neg (show ¬(1 : UInt32) > (0xffffffff - 0x20) / 0x10 by decide)).trans ?_
  have hoffsets := (@offsetsRejected_iff file.length (withHeader (blank file.length).metadata
    header.timerNumerator header.timerDenominator header.tagOffset header.dataOffset 0 1) rfl).mpr
    ⟨by omega, hdataLow, by change header.dataOffset.toNat < _; omega, fun hne => by
      have := htag.resolve_left hne
      change header.tagOffset.toNat < _
      omega, fun hne => absurd rfl hne⟩
  refine (if_neg (Bool.eq_false_iff.mp hoffsets)).trans ?_
  refine (if_neg (show ¬((1 : UInt32) != 1) = true by decide)).trans ?_
  have hbelow : header.dataOffset.toNat ≤ file.length := by omega
  exact readDevice_eq (by omega) h.deviceType h.deviceClockHz h.devicePan h.deviceReserved
    h.clock (preflightDump_eq rfl hbelow rfl h.isDump
      h.dumpStands htag)

end Init

end EspNp2.S98Parser.FileFormat
