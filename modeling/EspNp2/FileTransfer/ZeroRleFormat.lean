import EspNp2.Library.LittleEndian
import EspNp2.Library.Transducer

/-!
The zero-rle-v1 format: what a wire stream stands for, and the machine that reads
it byte by byte.
-/

namespace EspNp2.FileTransfer.ZeroRleFormat

open EspNp2.Library.LittleEndian
open EspNp2.Library.Transducer

def zeroRunTag : UInt8 := 0
def literalTag : UInt8 := 1

def header (literal : Bool) (length : Nat) : List UInt8 :=
  (if literal then literalTag else zeroRunTag) :: putLe 4 length

@[simp] theorem header_length (literal : Bool) (length : Nat) :
    (header literal length).length = 5 := by
  simp [header]

/-- The logical bytes of a sequence of complete records. -/
inductive ZeroRle : List UInt8 → List UInt8 → Prop
  | nil : ZeroRle [] []
  | zeroRun {wire logical : List UInt8} (length : Nat) :
      0 < length → length < 2 ^ 32 → ZeroRle wire logical →
      ZeroRle (header false length ++ wire) (List.replicate length 0 ++ logical)
  | literal {wire logical : List UInt8} (bytes : List UInt8) :
      0 < bytes.length → bytes.length < 2 ^ 32 → ZeroRle wire logical →
      ZeroRle (header true bytes.length ++ bytes ++ wire) (bytes ++ logical)

inductive Phase where
  | expectTag
  | readLength (literal : Bool) (bytes : List UInt8)
  | readLiteral (remaining : Nat)
  | failed
deriving DecidableEq, Repr

/-- A reader that has produced `produced` logical bytes. -/
structure Parse where
  phase : Phase := .expectTag
  produced : Nat := 0
deriving DecidableEq, Repr

/-- What a complete length field opens. -/
def openRecord (logicalSize : Nat) (literal : Bool) (length produced : Nat) :
    Parse × List UInt8 :=
  if length = 0 ∨ length > logicalSize - produced then
    ({ phase := .failed, produced := produced }, [])
  else if literal then ({ phase := .readLiteral length, produced := produced }, [])
  else ({ phase := .expectTag, produced := produced + length }, List.replicate length 0)

def parseByte (logicalSize : Nat) (p : Parse) (byte : UInt8) : Parse × List UInt8 :=
  match p.phase with
  | .expectTag =>
      if byte = zeroRunTag then ({ p with phase := .readLength false [] }, [])
      else if byte = literalTag then ({ p with phase := .readLength true [] }, [])
      else ({ p with phase := .failed }, [])
  | .readLength literal bytes =>
      if bytes.length + 1 = 4 then
        openRecord logicalSize literal (getLe (bytes ++ [byte])) p.produced
      else ({ p with phase := .readLength literal (bytes ++ [byte]) }, [])
  | .readLiteral remaining =>
      ({ phase := if remaining = 1 then .expectTag else .readLiteral (remaining - 1)
         produced := p.produced + 1 }, [byte])
  | .failed => (p, [])

variable {logicalSize produced : Nat}

/-- The reader in front of `remaining` bytes of a literal. -/
def inLiteral (remaining produced : Nat) : Parse :=
  { phase := if remaining = 0 then .expectTag else .readLiteral remaining, produced := produced }

theorem run_header (literal : Bool) {length : Nat} (hlength : length < 2 ^ 32) :
    run (parseByte logicalSize) { produced := produced } (header literal length) =
      openRecord logicalSize literal length produced := by
  have hvalue : getLe (putLe 4 length) = length := by
    rw [getLe_putLe]
    exact Nat.mod_eq_of_lt hlength
  obtain ⟨first, second, third, fourth, hbytes⟩ :
      ∃ first second third fourth, putLe 4 length = [first, second, third, fourth] :=
    ⟨_, _, _, _, rfl⟩
  rw [hbytes] at hvalue
  rw [header, hbytes]
  cases literal with
  | false => simp [run_cons, parseByte, zeroRunTag, hvalue]
  | true => simp [run_cons, parseByte, zeroRunTag, literalTag, hvalue]

theorem run_inLiteral {bytes : List UInt8} {remaining : Nat} (h : bytes.length ≤ remaining) :
    run (parseByte logicalSize) (inLiteral remaining produced) bytes =
      (inLiteral (remaining - bytes.length) (produced + bytes.length), bytes) := by
  induction bytes generalizing remaining produced with
  | nil => rfl
  | cons byte bytes ih =>
      rw [List.length_cons] at h
      have hstep : parseByte logicalSize (inLiteral remaining produced) byte =
          (inLiteral (remaining - 1) (produced + 1), [byte]) := by
        have hsome : remaining ≠ 0 := by omega
        have hone : remaining = 1 ↔ remaining - 1 = 0 := by omega
        simp [parseByte, inLiteral, hsome, hone]
      rw [run_cons, hstep, ih (by omega), List.length_cons]
      simp only [List.singleton_append, Prod.mk.injEq, and_true]
      congr 1 <;> omega

theorem run_failed (wire : List UInt8) :
    run (parseByte logicalSize) { phase := .failed, produced := produced } wire =
      ({ phase := .failed, produced := produced }, []) := by
  induction wire with
  | nil => rfl
  | cons byte wire ih =>
      rw [run_cons]
      simp only [parseByte, ih, List.append_nil]

/-- The header and the first bytes of a literal record. -/
theorem run_literal {length : Nat} (hpos : 0 < length) (hlength : length < 2 ^ 32)
    (hfits : length ≤ logicalSize - produced) :
    run (parseByte logicalSize) { produced := produced } (header true length) =
      (inLiteral length produced, []) := by
  rw [run_header true hlength, openRecord, if_neg (by omega), if_pos rfl, inLiteral,
    if_neg (by omega)]

theorem run_zeroRun {length : Nat} (hpos : 0 < length) (hlength : length < 2 ^ 32)
    (hfits : length ≤ logicalSize - produced) :
    run (parseByte logicalSize) { produced := produced } (header false length) =
      ({ produced := produced + length }, List.replicate length 0) := by
  rw [run_header false hlength, openRecord, if_neg (by omega), if_neg (by simp)]

/-- A well-formed stream that fits is read to its end. -/
theorem run_zeroRle {wire logical : List UInt8} (h : ZeroRle wire logical)
    (hfits : produced + logical.length ≤ logicalSize) :
    run (parseByte logicalSize) { produced := produced } wire =
      ({ produced := produced + logical.length }, logical) := by
  induction h generalizing produced with
  | nil => rfl
  | @zeroRun wire logical length hpos hlength _ ih =>
      rw [List.length_append, List.length_replicate] at hfits
      rw [run_append, run_zeroRun hpos hlength (by omega), ih (by omega), List.length_append,
        List.length_replicate, Nat.add_assoc]
  | @literal wire logical bytes hpos hlength _ ih =>
      rw [List.length_append] at hfits
      have hbytes : run (parseByte logicalSize) (inLiteral bytes.length produced) bytes =
          ({ produced := produced + bytes.length }, bytes) := by
        rw [run_inLiteral le_rfl, Nat.sub_self]
        rfl
      rw [run_append, run_append, run_literal hpos hlength (by omega), hbytes, ih (by omega),
        List.length_append, Nat.add_assoc, List.nil_append]

theorem ZeroRle.append {left right logical logical' : List UInt8} (h : ZeroRle left logical)
    (h' : ZeroRle right logical') : ZeroRle (left ++ right) (logical ++ logical') := by
  induction h with
  | nil => exact h'
  | zeroRun length hpos hlength _ ih =>
      rw [List.append_assoc, List.append_assoc]
      exact .zeroRun length hpos hlength ih
  | literal bytes hpos hlength _ ih =>
      rw [List.append_assoc, List.append_assoc bytes]
      exact .literal bytes hpos hlength ih

/-- What the reader knows of the bytes it has read and of what it has put out. -/
def ReadSoFar : Phase → List UInt8 → List UInt8 → Prop
  | .expectTag, wire, out => ZeroRle wire out
  | .readLength literal bytes, wire, out =>
      ∃ done, ZeroRle done out ∧
        wire = done ++ (if literal then literalTag else zeroRunTag) :: bytes ∧ bytes.length < 4
  | .readLiteral remaining, wire, out =>
      ∃ done logical bytes, ZeroRle done logical ∧
        wire = done ++ (header true (bytes.length + remaining) ++ bytes) ∧ out = logical ++ bytes ∧
        0 < remaining ∧ bytes.length + remaining < 2 ^ 32
  | .failed, _, _ => True

theorem readSoFar_openRecord {literal : Bool} {bytes done out : List UInt8}
    (hdone : ZeroRle done out) (hbytes : bytes.length = 4) :
    ReadSoFar (openRecord logicalSize literal (getLe bytes) produced).1.phase
      (done ++ (if literal then literalTag else zeroRunTag) :: bytes)
      (out ++ (openRecord logicalSize literal (getLe bytes) produced).2) := by
  have hheader : (if literal then literalTag else zeroRunTag) :: bytes =
      header literal (getLe bytes) := by
    rw [header, ← hbytes, putLe_getLe]
  have hlt : getLe bytes < 2 ^ 32 := by
    have hbound := getLe_lt bytes
    rw [hbytes] at hbound
    exact hbound
  rw [openRecord, hheader]
  split_ifs with hbad hliteral
  · exact trivial
  · obtain rfl := hliteral
    refine ⟨done, out, [], hdone, ?_, rfl, by omega, by simpa using hlt⟩
    simp
  · obtain rfl : literal = false := by simpa using hliteral
    have hrun : ZeroRle (header false (getLe bytes) ++ []) (List.replicate (getLe bytes) 0 ++ []) :=
      .zeroRun _ (by omega) hlt .nil
    rw [List.append_nil, List.append_nil] at hrun
    exact hdone.append hrun

theorem readSoFar_step {p : Parse} {wire out : List UInt8} (byte : UInt8)
    (h : ReadSoFar p.phase wire out) :
    ReadSoFar (parseByte logicalSize p byte).1.phase (wire ++ [byte])
      (out ++ (parseByte logicalSize p byte).2) := by
  rw [parseByte]
  cases hphase : p.phase with
  | expectTag =>
      rw [hphase] at h
      have hdone : ZeroRle wire out := h
      simp only
      split_ifs with hzero hliteral
      · exact ⟨wire, by simpa using hdone, by simp [hzero], by simp⟩
      · exact ⟨wire, by simpa using hdone, by simp [hliteral], by simp⟩
      · exact trivial
  | readLength literal bytes =>
      rw [hphase] at h
      obtain ⟨done, hdone, rfl, hlength⟩ := h
      simp only
      rw [List.append_assoc, List.cons_append]
      have hsnoc : (bytes ++ [byte]).length = bytes.length + 1 := by simp
      by_cases hfull : bytes.length + 1 = 4
      · rw [if_pos hfull]
        exact readSoFar_openRecord hdone (hsnoc.trans hfull)
      · rw [if_neg hfull]
        exact ⟨done, by simpa using hdone, rfl, by omega⟩
  | readLiteral remaining =>
      rw [hphase] at h
      obtain ⟨done, logical, bytes, hdone, rfl, rfl, hpos, hlength⟩ := h
      simp only
      have hsum : bytes.length + remaining = (bytes ++ [byte]).length + (remaining - 1) := by
        rw [List.length_append, List.length_singleton]
        omega
      rw [hsum] at hlength ⊢
      have hwire : done ++ (header true ((bytes ++ [byte]).length + (remaining - 1)) ++ bytes) ++
          [byte] = done ++ (header true ((bytes ++ [byte]).length + (remaining - 1)) ++
            (bytes ++ [byte])) := by simp
      rw [hwire, List.append_assoc]
      split_ifs with hlast
      · subst hlast
        rw [Nat.sub_self, Nat.add_zero] at hlength ⊢
        have hrecord : ZeroRle (header true (bytes ++ [byte]).length ++ (bytes ++ [byte]) ++ [])
            ((bytes ++ [byte]) ++ []) := .literal _ (by simp) hlength .nil
        rw [List.append_nil, List.append_nil] at hrecord
        exact hdone.append hrecord
      · exact ⟨done, logical, bytes ++ [byte], hdone, rfl, rfl, by omega, hlength⟩
  | failed =>
      simp only [hphase]
      exact trivial

/-- Only complete records bring the reader back to a record boundary. -/
theorem zeroRle_of_run {wire out : List UInt8} {p : Parse}
    (h : run (parseByte logicalSize) {} wire = (p, out)) (hphase : p.phase = .expectTag) :
    ZeroRle wire out := by
  have hread := run_history (parseByte logicalSize)
    (P := fun p wire out => ReadSoFar p.phase wire out)
    (fun p wire out byte hread => readSoFar_step byte hread) (s := {}) .nil wire
  rw [h, hphase] at hread
  exact hread

theorem run_produced (p : Parse) (wire : List UInt8) :
    (run (parseByte logicalSize) p wire).1.produced =
      p.produced + (run (parseByte logicalSize) p wire).2.length := by
  have hstep : ∀ (p : Parse) byte, (parseByte logicalSize p byte).1.produced =
      p.produced + (parseByte logicalSize p byte).2.length := by
    intro p byte
    rw [parseByte]
    split
    · split_ifs <;> rfl
    · split_ifs
      · rw [openRecord]
        split_ifs <;> simp
      · rfl
    · rfl
    · rfl
  have hall := run_history (parseByte logicalSize)
    (P := fun q _ out => q.produced = p.produced + out.length)
    (fun q _ out byte hq => by rw [hstep, hq, List.length_append, Nat.add_assoc]) (s := p) rfl wire
  exact hall

/-- A stream that no valid stream of these sizes begins with. -/
def Malformed (logicalSize wireSize : Nat) (wire : List UInt8) : Prop :=
  ∀ rest logical, ZeroRle (wire ++ rest) logical → (wire ++ rest).length = wireSize →
    logical.length ≠ logicalSize

theorem malformed_of_failed {wireSize : Nat} {wire : List UInt8}
    (h : (run (parseByte logicalSize) {} wire).1.phase = .failed) :
    Malformed logicalSize wireSize wire := by
  intro rest logical hvalid _ hlogical
  have hgood : run (parseByte logicalSize) { produced := 0 } (wire ++ rest) = _ :=
    run_zeroRle hvalid (by omega : 0 + logical.length ≤ logicalSize)
  have hfirst := congrArg (fun r => r.1.phase) hgood
  rw [run_append] at hfirst
  generalize (run (parseByte logicalSize) { produced := 0 } wire).1 = middle at h hfirst
  obtain ⟨phase, produced⟩ := middle
  obtain rfl : phase = .failed := h
  rw [run_failed] at hfirst
  exact Phase.noConfusion hfirst

end EspNp2.FileTransfer.ZeroRleFormat
