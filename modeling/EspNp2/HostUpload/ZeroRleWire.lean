import EspNp2.FileTransfer.ZeroRleFormat
import EspNp2.HostUpload.ZeroRleProducer
import Mathlib.Data.List.TakeWhile

/-!
The wire stream of a file, as both passes see it: its runs, the records they become,
and the size the first pass plans for them.
-/

namespace EspNp2.HostUpload.ZeroRleWire

open EspNp2.FileTransfer.ZeroRleFormat (ZeroRle header header_length)
open EspNp2.HostUpload.ZeroRleProducer

/-- Bytes that belong to a run of literals, or to a run of zeros. -/
def InRun (literal : Bool) (bytes : List UInt8) : Prop :=
  ∀ byte ∈ bytes, decide (byte ≠ 0) = literal

/-- The first byte is of the other kind, if there is one. -/
def StopsRun (literal : Bool) (rest : List UInt8) : Prop :=
  ∀ byte ∈ rest.head?, decide (byte ≠ 0) ≠ literal

/-- The length of the run at the front. -/
def runLength (literal : Bool) (rest : List UInt8) : Nat :=
  (rest.takeWhile fun byte => decide (byte ≠ 0) == literal).length

theorem runLength_append {literal : Bool} {run rest : List UInt8} (hrun : InRun literal run)
    (hrest : StopsRun literal rest) : runLength literal (run ++ rest) = run.length := by
  have htake : (run ++ rest).takeWhile (fun byte => decide (byte ≠ 0) == literal) = run := by
    rw [List.takeWhile_append_of_pos fun byte hbyte => beq_iff_eq.mpr (hrun byte hbyte)]
    cases rest with
    | nil => simp
    | cons byte rest =>
        have hstop := hrest byte rfl
        rw [List.takeWhile_cons_of_neg (by simpa using hstop), List.append_nil]
  rw [runLength, htake]

/-- Every byte string splits behind the run at its front. -/
theorem exists_run (literal : Bool) (rest : List UInt8) :
    ∃ run tail, rest = run ++ tail ∧ InRun literal run ∧ StopsRun literal tail ∧
      runLength literal rest = run.length := by
  refine ⟨_, _, (List.takeWhile_append_dropWhile
    (p := fun byte => decide (byte ≠ 0) == literal)).symm, ?_, ?_, rfl⟩
  · intro byte hbyte
    have hkind := List.mem_takeWhile_imp (p := fun byte => decide (byte ≠ 0) == literal) hbyte
    exact beq_iff_eq.mp hkind
  · intro byte hbyte heq
    have hnot := List.head?_dropWhile_not (fun byte => decide (byte ≠ 0) == literal) rest
    rw [Option.mem_def.mp hbyte] at hnot
    simp [heq] at hnot

/-- The logical bytes of the record at the front. -/
def recordLength (literal : Bool) (rest : List UInt8) : Nat :=
  nextLength literal (runLength literal rest)

theorem runLength_cons_pos (byte : UInt8) (rest : List UInt8) :
    0 < runLength (decide (byte ≠ 0)) (byte :: rest) := by
  simp [runLength]

theorem runLength_le (literal : Bool) (rest : List UInt8) : runLength literal rest ≤ rest.length :=
  List.IsPrefix.length_le (List.takeWhile_prefix _)

theorem recordLength_cons_pos (byte : UInt8) (rest : List UInt8) :
    0 < recordLength (decide (byte ≠ 0)) (byte :: rest) := by
  have hpos := runLength_cons_pos byte rest
  rw [recordLength, nextLength, zeroRleDataLogicalBudget]
  split_ifs <;> omega

/-- The wire stream of a file from a record boundary on. -/
def wireOf (rest : List UInt8) : List UInt8 :=
  match rest with
  | [] => []
  | byte :: tail =>
      let literal := decide (byte ≠ 0)
      let length := recordLength literal (byte :: tail)
      header literal length ++ (if literal then (byte :: tail).take length else []) ++
        wireOf ((byte :: tail).drop length)
termination_by rest.length
decreasing_by
  have hpos := recordLength_cons_pos byte tail
  simp only [List.length_drop, List.length_cons]
  omega

theorem wireOf_nil : wireOf [] = [] := by
  rw [wireOf]

theorem wireOf_cons (byte : UInt8) (tail : List UInt8) :
    wireOf (byte :: tail) =
      header (decide (byte ≠ 0)) (recordLength (decide (byte ≠ 0)) (byte :: tail)) ++
        (if decide (byte ≠ 0) then
          (byte :: tail).take (recordLength (decide (byte ≠ 0)) (byte :: tail)) else []) ++
        wireOf ((byte :: tail).drop (recordLength (decide (byte ≠ 0)) (byte :: tail))) := by
  rw [wireOf]

/-- The record at the front of a run. -/
theorem wireOf_run {literal : Bool} {run tail : List UInt8} (hrun : InRun literal run)
    (hsome : run ≠ []) (htail : StopsRun literal tail) :
    wireOf (run ++ tail) =
      header literal (nextLength literal run.length) ++
        (if literal then run.take (nextLength literal run.length) else []) ++
        wireOf (run.drop (nextLength literal run.length) ++ tail) := by
  have hlength : recordLength literal (run ++ tail) = nextLength literal run.length := by
    rw [recordLength, runLength_append hrun htail]
  have hle : nextLength literal run.length ≤ run.length := by
    rw [nextLength]
    split_ifs <;> omega
  obtain ⟨byte, rest, rfl⟩ : ∃ byte rest, run = byte :: rest := List.exists_cons_of_ne_nil hsome
  have hbyte : decide (byte ≠ 0) = literal := hrun byte (by simp)
  rw [List.cons_append] at hlength ⊢
  rw [wireOf_cons, hbyte, hlength, ← List.cons_append, List.take_append_of_le_length hle,
    List.drop_append_of_le_length hle]

/-- The wire bytes a whole run becomes. -/
def runSize (literal : Bool) (length : Nat) : Nat :=
  if literal then zeroRleRecordOverhead + length
  else splitRecords length * zeroRleRecordOverhead

theorem wireOf_run_length {literal : Bool} {run tail : List UInt8} (hrun : InRun literal run)
    (hsome : run ≠ []) (htail : StopsRun literal tail) :
    (wireOf (run ++ tail)).length = runSize literal run.length + (wireOf tail).length := by
  cases literal with
  | true =>
      rw [wireOf_run hrun hsome htail]
      simp [nextLength, runSize, zeroRleRecordOverhead]
      omega
  | false =>
      induction hlength : run.length using Nat.strong_induction_on generalizing run with
      | _ length ih =>
          have hpos := List.length_pos_iff.mpr hsome
          rw [wireOf_run hrun hsome htail]
          simp only [nextLength, Bool.false_eq_true, if_false, List.append_nil,
            List.length_append, header_length]
          by_cases hmore : run.drop (min run.length zeroRleDataLogicalBudget) = []
          · rw [List.drop_eq_nil_iff] at hmore
            have hone : splitRecords length = 1 := by
              rw [splitRecords, zeroRleDataLogicalBudget]
              rw [zeroRleDataLogicalBudget] at hmore
              omega
            rw [List.drop_of_length_le hmore]
            simp [runSize, hone, zeroRleRecordOverhead]
          · have hlt : run.length - min run.length zeroRleDataLogicalBudget < length := by
              rw [zeroRleDataLogicalBudget]
              omega
            have hrest := ih _ hlt hmore (fun byte hbyte => hrun byte (List.mem_of_mem_drop hbyte))
              List.length_drop
            have hlong : zeroRleDataLogicalBudget < run.length := by
              rw [List.drop_eq_nil_iff] at hmore
              omega
            rw [hrest, runSize, runSize]
            simp only [Bool.false_eq_true, if_false, splitRecords, zeroRleDataLogicalBudget,
              zeroRleRecordOverhead] at hlong ⊢
            omega

/-- No run of literals is longer than a record can be. -/
def BoundedRuns (source : List UInt8) : Prop :=
  ∀ run, run <:+: source → InRun true run → run.length ≤ zeroRleMaxRecordBytes

theorem BoundedRuns.of_suffix {source rest : List UInt8} (h : BoundedRuns source)
    (hsuffix : rest <:+ source) : BoundedRuns rest :=
  fun run hrun => h run (hrun.trans hsuffix.isInfix)

theorem inRun_false_eq {run : List UInt8} (h : InRun false run) :
    run = List.replicate run.length 0 := by
  rw [List.eq_replicate_iff]
  exact ⟨rfl, fun byte hbyte => by simpa using h byte hbyte⟩

/-- The stream stands for the file. -/
theorem zeroRle_wireOf {rest : List UInt8} (hbounded : BoundedRuns rest) :
    ZeroRle (wireOf rest) rest := by
  induction hlength : rest.length using Nat.strong_induction_on generalizing rest with
  | _ length ih =>
      cases rest with
      | nil =>
          rw [wireOf_nil]
          exact .nil
      | cons byte tail =>
          obtain ⟨run, rest, hsplit, hrun, hstop, hrunLength⟩ :=
            exists_run (decide (byte ≠ 0)) (byte :: tail)
          have hpos := runLength_cons_pos byte tail
          rw [hrunLength] at hpos
          have hsome := List.length_pos_iff.mp hpos
          generalize decide (byte ≠ 0) = literal at hrun hstop
          rw [hsplit] at hbounded hlength ⊢
          rw [List.length_append] at hlength
          rw [wireOf_run hrun hsome hstop]
          cases literal with
          | true =>
              have hshort := hbounded run (List.prefix_append run rest).isInfix hrun
              have hrest := ih rest.length (by omega)
                (hbounded.of_suffix (List.suffix_append run rest)) rfl
              simp only [nextLength, if_true, List.take_length, List.drop_length, List.nil_append]
              exact .literal run hpos (by rw [zeroRleMaxRecordBytes] at hshort; omega) hrest
          | false =>
              simp only [nextLength, Bool.false_eq_true, if_false, List.append_nil]
              generalize hcount : min run.length zeroRleDataLogicalBudget = count
              rw [zeroRleDataLogicalBudget] at hcount
              have hzeros := inRun_false_eq hrun
              have hsplit : run ++ rest = List.replicate count 0 ++ (run.drop count ++ rest) := by
                rw [← List.append_assoc]
                congr 1
                conv_lhs => rw [← List.take_append_drop count run, hzeros, List.take_replicate]
                rw [hzeros, List.length_replicate, min_eq_left (by omega)]
              have hrest := ih (run.drop count ++ rest).length
                (by rw [List.length_append, List.length_drop]; omega)
                (hbounded.of_suffix (by rw [hsplit]; exact List.suffix_append _ _)) rfl
              rw [hsplit]
              exact .zeroRun count (by omega) (by omega) hrest

/-- The analysis in front of `rest`: the records of the open run `current` are not
counted yet. -/
structure Counting (source : List UInt8) (a : Analysis) (current rest : List UInt8) : Prop where
  split : ∃ before, source = before ++ current ++ rest
  length : a.currentLength = current.length
  open_ : ∀ literal, a.currentLiteral = some literal → current ≠ [] ∧ InRun literal current
  fresh : a.currentLiteral = none → current = []
  counted : a.wireSize + (wireOf (current ++ rest)).length = (wireOf source).length

theorem finishRecord_ok {a : Analysis} {literal : Bool} (hopen : a.currentLiteral = some literal)
    (hpos : 0 < a.currentLength)
    (hbound : literal = true → a.currentLength ≤ zeroRleMaxRecordBytes) :
    ∃ a', finishRecord a = .ok a' ∧
      a'.wireSize = a.wireSize + runSize literal a.currentLength ∧
      a'.digested = a.digested ∧ a'.size = a.size := by
  unfold finishRecord
  rw [hopen]
  cases literal with
  | true =>
      have hle := hbound rfl
      have hsize : recordWireSize true a.currentLength =
          .ok (zeroRleRecordOverhead + a.currentLength) := by
        rw [recordWireSize, if_neg (by omega), if_pos rfl]
      simp only [hsize]
      exact ⟨_, rfl, rfl, rfl, rfl⟩
  | false => exact ⟨_, rfl, rfl, rfl, rfl⟩

section Counting

variable {source : List UInt8} {a : Analysis} {current rest : List UInt8}

theorem Counting.bound (h : Counting source a current rest) (hbounded : BoundedRuns source)
    {literal : Bool} (hopen : a.currentLiteral = some literal) :
    literal = true → a.currentLength ≤ zeroRleMaxRecordBytes := by
  rintro rfl
  obtain ⟨before, hsplit⟩ := h.split
  rw [h.length]
  exact hbounded current ⟨before, rest, hsplit.symm⟩ (h.open_ true hopen).2

/-- One byte of the first pass. -/
theorem analyzeByte_ok {byte : UInt8} (h : Counting source a current (byte :: rest))
    (hbounded : BoundedRuns source) :
    ∃ a' next, analyzeByte a byte = .ok a' ∧ Counting source a' next rest ∧
      a'.digested = a.digested ∧ a'.size = a.size := by
  obtain ⟨before, hsplit⟩ := h.split
  unfold analyzeByte
  cases hopen : a.currentLiteral with
  | none =>
      have hcurrent := h.fresh hopen
      subst hcurrent
      refine ⟨_, [byte], rfl,
        ⟨⟨before, by simpa using hsplit⟩, rfl, ?_, by simp, h.counted⟩, rfl, rfl⟩
      rintro literal hliteral
      simp only [Option.some.injEq] at hliteral
      exact ⟨by simp, by simpa [InRun] using hliteral⟩
  | some current' =>
      obtain ⟨hsome, hrun⟩ := h.open_ current' hopen
      simp only
      by_cases hsame : decide (byte ≠ 0) = current'
      · rw [if_pos hsame]
        refine ⟨_, current ++ [byte], rfl,
          ⟨⟨before, by simpa using hsplit⟩, ?_, ?_, ?_, ?_⟩, rfl, rfl⟩
        · simp [h.length]
        · rintro literal hliteral
          obtain rfl : current' = literal := Option.some.inj hliteral
          refine ⟨by simp, fun other hother => ?_⟩
          rcases List.mem_append.mp hother with hold | hnew
          · exact hrun other hold
          · rw [List.mem_singleton.mp hnew]
            exact hsame
        · simp
        · simpa using h.counted
      · rw [if_neg hsame]
        have hpos : 0 < a.currentLength := by
          rw [h.length]
          exact List.length_pos_iff.mpr hsome
        obtain ⟨a', hfinish, hwire, hdigested, hsize⟩ :=
          finishRecord_ok hopen hpos (h.bound hbounded hopen)
        have hstop : StopsRun current' (byte :: rest) := by
          intro other hother
          obtain rfl : byte = other := by simpa using hother
          exact hsame
        have hcounted := h.counted
        rw [wireOf_run_length hrun hsome hstop, ← h.length] at hcounted
        simp only [hfinish]
        refine ⟨_, [byte], rfl,
          ⟨⟨before ++ current, by simpa using hsplit⟩, rfl, ?_, by simp, ?_⟩, hdigested, hsize⟩
        · rintro literal hliteral
          simp only [Option.some.injEq] at hliteral
          exact ⟨by simp, by simpa [InRun] using hliteral⟩
        · simp only [List.singleton_append]
          omega

theorem foldlM_analyzeByte_ok {chunk : List UInt8} (h : Counting source a current (chunk ++ rest))
    (hbounded : BoundedRuns source) :
    ∃ a' next, chunk.foldlM analyzeByte a = .ok a' ∧ Counting source a' next rest ∧
      a'.digested = a.digested ∧ a'.size = a.size := by
  induction chunk generalizing a current with
  | nil => exact ⟨a, current, rfl, h, rfl, rfl⟩
  | cons byte chunk ih =>
      obtain ⟨a', next, hbyte, hnext, hdigested, hsize⟩ := analyzeByte_ok h hbounded
      obtain ⟨a'', last, hchunk, hlast, hdigested', hsize'⟩ := ih hnext
      refine ⟨a'', last, ?_, hlast, hdigested'.trans hdigested, hsize'.trans hsize⟩
      rw [List.foldlM_cons, hbyte]
      exact hchunk

theorem analyzeLoop_ok {rounds : Nat} (hrounds : rest.length ≤ rounds)
    (h : Counting source a current rest) (hbounded : BoundedRuns source) :
    ∃ a' next, analyzeLoop rounds a rest = .ok a' ∧ Counting source a' next [] ∧
      a'.digested = a.digested ++ rest ∧ a'.size = a.size + rest.length := by
  induction rounds generalizing a current rest with
  | zero =>
      obtain rfl : rest = [] := List.length_eq_zero_iff.mp (by omega)
      refine ⟨a, current, ?_, h, by simp, rfl⟩
      simp [analyzeLoop]
  | succ rounds ih =>
      unfold analyzeLoop
      by_cases hend : rest.take zeroRleScanBytes = []
      · obtain rfl : rest = [] := by
          simpa [zeroRleScanBytes] using hend
        rw [if_pos hend]
        exact ⟨a, current, rfl, h, by simp, rfl⟩
      · have hchunk : Counting source
            { a with
              digested := a.digested ++ rest.take zeroRleScanBytes
              size := a.size + (rest.take zeroRleScanBytes).length } current
            (rest.take zeroRleScanBytes ++ rest.drop zeroRleScanBytes) := by
          rw [List.take_append_drop]
          exact ⟨h.split, h.length, h.open_, h.fresh, h.counted⟩
        obtain ⟨a', next, hfold, hnext, hdigested, hsize⟩ := foldlM_analyzeByte_ok hchunk hbounded
        have hshorter : (rest.drop zeroRleScanBytes).length ≤ rounds := by
          rw [List.length_drop, zeroRleScanBytes]
          omega
        obtain ⟨a'', last, hloop, hlast, hdigested', hsize'⟩ := ih hshorter hnext
        refine ⟨a'', last, ?_, hlast, ?_, ?_⟩
        · rw [if_neg hend, analyzeChunk, hfold]
          exact hloop
        · rw [hdigested', hdigested, List.append_assoc, List.take_append_drop]
        · rw [hsize', hsize, Nat.add_assoc, ← List.length_append, List.take_append_drop]

/-- The last record of the first pass. -/
theorem finishRecord_last (h : Counting source a current []) (hbounded : BoundedRuns source) :
    ∃ a', finishRecord a = .ok a' ∧ a'.wireSize = (wireOf source).length ∧
      a'.digested = a.digested ∧ a'.size = a.size := by
  have hcounted := h.counted
  rw [List.append_nil] at hcounted
  cases hopen : a.currentLiteral with
  | none =>
      rw [h.fresh hopen, wireOf_nil] at hcounted
      refine ⟨a, ?_, hcounted, rfl, rfl⟩
      unfold finishRecord
      rw [hopen]
  | some literal =>
      obtain ⟨hsome, hrun⟩ := h.open_ literal hopen
      have hpos : 0 < a.currentLength := by
        rw [h.length]
        exact List.length_pos_iff.mpr hsome
      obtain ⟨a', hfinish, hwire, hsame⟩ :=
        finishRecord_ok hopen hpos (h.bound hbounded hopen)
      have hlast := wireOf_run_length hrun hsome (show StopsRun literal [] by simp [StopsRun])
      rw [List.append_nil, wireOf_nil, List.length_nil, ← h.length] at hlast
      exact ⟨a', hfinish, by omega, hsame⟩

end Counting

/-- The first pass plans the size of the wire stream. -/
theorem analyzeZeroRle_ok {Digest : Type} (sha256 : List UInt8 → Digest) {source : List UInt8}
    (hbounded : BoundedRuns source) :
    ∃ plan, analyzeZeroRle sha256 source = .ok plan ∧ plan.sizeBytes = source.length ∧
      plan.sha256 = sha256 source ∧ plan.wireSizeBytes = (wireOf source).length := by
  have hstart : Counting source {} [] source :=
    ⟨⟨[], rfl⟩, rfl, by simp, fun _ => rfl, by simp⟩
  obtain ⟨a, current, hloop, h, hdigested, hsize⟩ := analyzeLoop_ok le_rfl hstart hbounded
  obtain ⟨a', hfinish, hwire, hdigested', hsize'⟩ := finishRecord_last h hbounded
  rw [analyzeZeroRle, hloop]
  simp only [bind, Except.bind, hfinish]
  refine ⟨_, rfl, ?_, ?_, hwire⟩
  · simp [hsize', hsize]
  · simp [hdigested', hdigested]

theorem runLength_inRun_append {literal : Bool} {run : List UInt8} (hrun : InRun literal run)
    (tail : List UInt8) : runLength literal (run ++ tail) =
      run.length + runLength literal tail := by
  rw [runLength, runLength,
    List.takeWhile_append_of_pos fun byte hbyte => beq_iff_eq.mpr (hrun byte hbyte),
    List.length_append]

/-- The first byte of the other kind ends the run. -/
theorem runLength_of_findIdx {literal : Bool} {chunk : List UInt8} {index : Nat}
    (h : chunk.findIdx? (fun byte => decide (byte ≠ 0) != literal) = some index)
    (tail : List UInt8) : runLength literal (chunk ++ tail) = index := by
  obtain ⟨hlt, hdiffers, hbefore⟩ := List.findIdx?_eq_some_iff_getElem.mp h
  have hsplit : chunk ++ tail = chunk.take index ++ (chunk.drop index ++ tail) := by
    rw [← List.append_assoc, List.take_append_drop]
  have hrun : InRun literal (chunk.take index) := by
    intro byte hbyte
    obtain ⟨i, hi, rfl⟩ := List.mem_take_iff_getElem.mp hbyte
    have hsame := hbefore i (by omega)
    rwa [bne_iff_ne, not_not] at hsame
  have hstop : StopsRun literal (chunk.drop index ++ tail) := by
    rw [List.drop_eq_getElem_cons hlt, List.cons_append]
    intro byte hbyte
    rw [List.head?_cons, Option.mem_def, Option.some.injEq] at hbyte
    rw [← hbyte]
    exact bne_iff_ne.mp hdiffers
  rw [hsplit, runLength_append hrun hstop, List.length_take, min_eq_left hlt.le]

theorem scanLoop_eq (literal : Bool) {rounds : Nat} {rest : List UInt8}
    (hrounds : rest.length ≤ rounds) (length : Nat) :
    scanLoop literal rounds length rest =
      checkLiteral literal (length + runLength literal rest) := by
  induction rounds generalizing length rest with
  | zero =>
      obtain rfl : rest = [] := List.length_eq_zero_iff.mp (by omega)
      simp [scanLoop, runLength]
  | succ rounds ih =>
      unfold scanLoop
      by_cases hend : rest.take zeroRleScanBytes = []
      · obtain rfl : rest = [] := by
          simpa [zeroRleScanBytes] using hend
        rw [if_pos hend]
        simp [runLength]
      · simp only [if_neg hend]
        have hwhole := List.take_append_drop zeroRleScanBytes rest
        cases hfind : (rest.take zeroRleScanBytes).findIdx?
            fun byte => decide (byte ≠ 0) != literal with
        | some index =>
            have hrun := runLength_of_findIdx hfind (rest.drop zeroRleScanBytes)
            rw [hwhole] at hrun
            rw [hrun]
        | none =>
            have hchunk : InRun literal (rest.take zeroRleScanBytes) := by
              intro byte hbyte
              exact bne_eq_false_iff_eq.mp (List.findIdx?_eq_none_iff.mp hfind byte hbyte)
            have hrun := runLength_inRun_append hchunk (rest.drop zeroRleScanBytes)
            rw [hwhole] at hrun
            simp only
            rw [ih (by rw [List.length_drop, zeroRleScanBytes]; omega), hrun, Nat.add_assoc]

/-- `_scan_run` finds the kind and the length of the run at `start`. -/
theorem scanRun_ok {source : List UInt8} (hbounded : BoundedRuns source) {start : Nat}
    {first : UInt8} {rest : List UInt8} (hstart : source.drop start = first :: rest) :
    scanRun source start =
      .ok (decide (first ≠ 0), runLength (decide (first ≠ 0)) (first :: rest)) := by
  have hlength : runLength (decide (first ≠ 0)) (first :: rest) =
      1 + runLength (decide (first ≠ 0)) rest :=
    runLength_inRun_append (show InRun _ [first] by simp [InRun]) rest
  unfold scanRun
  rw [hstart]
  simp only
  rw [scanLoop_eq _ le_rfl, ← hlength, checkLiteral, if_neg]
  rintro ⟨hliteral, hlong⟩
  obtain ⟨run, tail, hsplit, hrun, -, hrunLength⟩ := exists_run (decide (first ≠ 0)) (first :: rest)
  have hinfix : run <:+: source := by
    refine ⟨source.take start, tail, ?_⟩
    rw [List.append_assoc, ← hsplit, ← hstart, List.take_append_drop]
  rw [hliteral] at hrun hrunLength hlong
  have hshort := hbounded run hinfix hrun
  omega

end EspNp2.HostUpload.ZeroRleWire
