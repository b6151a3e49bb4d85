import Mathlib.Data.List.Basic

/-!
The line framer of the control plane, `control_framing.cpp`.
-/

namespace EspNp2.ControlPlane.ControlFraming

def kMaxFrameBytes : Nat := 512

/-- The bytes of `"@ESP-NP2 "`. -/
def kFramePrefix : List UInt8 := [0x40, 0x45, 0x53, 0x50, 0x2d, 0x4e, 0x50, 0x32, 0x20]

def lineFeed : UInt8 := 10

structure Frame where
  bytes : List UInt8
  protocolCandidate : Bool
  tooLong : Bool
deriving DecidableEq, Repr

/-- The framing fields of `ControlPlane`; `frame` holds its first `frame_length`
bytes. -/
structure Framer where
  frame : List UInt8 := []
  discarding : Bool := false
  prefixCandidate : Bool := true
deriving DecidableEq, Repr

/-- The frame `emit_line` hands to the callback before it resets. -/
def emitLine (f : Framer) : Frame :=
  if f.discarding then
    { bytes := [], protocolCandidate := f.prefixCandidate, tooLong := true }
  else
    { bytes := f.frame, protocolCandidate := f.prefixCandidate, tooLong := false }

def consumeByte (f : Framer) (byte : UInt8) : Framer × List Frame :=
  if byte = lineFeed then ({}, [emitLine f])
  else if f.discarding then (f, [])
  else if f.frame.length < kMaxFrameBytes then
    let index := f.frame.length
    let f := { f with frame := f.frame ++ [byte] }
    if index < kFramePrefix.length ∧ some byte ≠ kFramePrefix[index]? then
      ({ f with prefixCandidate := false }, [])
    else (f, [])
  else ({ f with discarding := true }, [])

/-- A line begins as a protocol frame does, as far as it goes. -/
def agreesWithPrefix (bytes : List UInt8) : Bool :=
  bytes.take kFramePrefix.length == kFramePrefix.take bytes.length

/-- The framer while a line that still fits is collected. -/
def collecting (bytes : List UInt8) : Framer :=
  { frame := bytes, discarding := false, prefixCandidate := agreesWithPrefix bytes }

theorem agreesWithPrefix_snoc (bytes : List UInt8) (byte : UInt8) :
    agreesWithPrefix (bytes ++ [byte]) = (agreesWithPrefix bytes &&
      !decide (bytes.length < kFramePrefix.length ∧ some byte ≠ kFramePrefix[bytes.length]?)) := by
  rw [agreesWithPrefix, agreesWithPrefix, List.length_append, List.length_singleton]
  rcases Nat.lt_or_ge bytes.length kFramePrefix.length with hlt | hge
  · rw [List.take_of_length_le (by rw [List.length_append, List.length_singleton]; exact hlt),
      List.take_of_length_le (Nat.le_of_lt hlt), List.take_succ_eq_append_getElem hlt,
      List.getElem?_eq_getElem hlt, Bool.eq_iff_iff]
    simp only [beq_iff_eq, hlt, ne_eq, Option.some.injEq, true_and, decide_not, Bool.not_not,
      Bool.and_eq_true, decide_eq_true_eq]
    constructor
    · intro heq
      obtain ⟨hbytes, hbyte⟩ := List.append_inj' heq rfl
      exact ⟨hbytes, by simpa using hbyte⟩
    · rintro ⟨hbytes, rfl⟩
      rw [← hbytes]
  · have hnot : ¬(bytes.length < kFramePrefix.length ∧
        some byte ≠ kFramePrefix[bytes.length]?) := by
      omega
    have hnow : kFramePrefix.take bytes.length = kFramePrefix := List.take_of_length_le hge
    have hnext : kFramePrefix.take (bytes.length + 1) = kFramePrefix :=
      List.take_of_length_le (Nat.le_succ_of_le hge)
    rw [decide_eq_false hnot, Bool.not_false, Bool.and_true, List.take_append_of_le_length hge,
      hnow, hnext]

theorem consumeByte_collecting {bytes : List UInt8} {byte : UInt8} (hbyte : byte ≠ lineFeed)
    (hlength : bytes.length < kMaxFrameBytes) :
    consumeByte (collecting bytes) byte = (collecting (bytes ++ [byte]), []) := by
  rw [consumeByte, if_neg hbyte]
  simp only [collecting, Bool.false_eq_true, if_false, agreesWithPrefix_snoc, hlength, if_true]
  by_cases hdiffers : bytes.length < kFramePrefix.length ∧
      some byte ≠ kFramePrefix[bytes.length]?
  · rw [decide_eq_true hdiffers, Bool.not_true, Bool.and_false]
    exact if_pos hdiffers
  · rw [decide_eq_false hdiffers, Bool.not_false, Bool.and_true]
    exact if_neg hdiffers

theorem consumeByte_lineFeed (bytes : List UInt8) :
    consumeByte (collecting bytes) lineFeed =
      ({}, [{ bytes := bytes
              protocolCandidate := agreesWithPrefix bytes
              tooLong := false }]) := by
  simp [consumeByte, collecting, emitLine]

end EspNp2.ControlPlane.ControlFraming
