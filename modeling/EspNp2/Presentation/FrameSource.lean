import Mathlib.Algebra.Group.Nat.Defs
import EspNp2.Library.Overwriting

/-!
The frames that the presentation is given, the two slots that it copies them into, and the
arithmetic of their sizes.
-/

namespace EspNp2.Presentation.FrameSource

/-- `size_t` counts up to `size`, and holds every 32-bit number. -/
structure Target where
  size : ℕ
  wide : 2 ^ 32 ≤ size

inductive PixelFormat where
  | none
  | rgb565le
deriving DecidableEq, Repr

structure SourceView where
  ptr : ℕ
  pixels : ℕ → UInt8
  width : UInt32
  height : UInt32
  pitch : ℕ
  bpp : UInt32
  pixelFormat : PixelFormat
  sourceGeneration : UInt32
  sourceUpdateSequence : UInt32

structure SlotStorage where
  ptr : ℕ
  bytes : List UInt8
deriving DecidableEq, Repr

def SlotStorage.capacity (storage : SlotStorage) : ℕ := storage.bytes.length

abbrev SlotIndex := Fin 2

abbrev Slots := SlotIndex → SlotStorage

inductive PresentationStatus where
  | ok
  | invalidArgument
  | invalidFrame
  | noFrame
  | busy
  | dropped
  | capacityExceeded
  | aliased
  | invalidToken
deriving DecidableEq, Repr

section Sizes

variable (target : Target)

structure Sizes where
  rowBytes : ℕ
  visibleBytes : ℕ
  sourceSpan : ℕ
deriving DecidableEq, Repr

def checkedSizes (source : SourceView) : Option Sizes :=
  let rowBytes := source.width.toNat * 2 % target.size
  let visibleBytes := source.height.toNat * rowBytes % target.size
  let rowsBeforeLast := source.height.toNat - 1
  if source.ptr = 0 ∨ source.width = 0 ∨ source.height = 0 ∨ source.bpp ≠ 16 ∨
      source.pixelFormat ≠ .rgb565le then none
  else if rowBytes = 0 ∨ rowBytes / 2 ≠ source.width.toNat then none
  else if source.pitch < rowBytes then none
  else if visibleBytes / rowBytes ≠ source.height.toNat then none
  else if rowsBeforeLast > (target.size - 1 - rowBytes) / source.pitch then none
  else some ⟨rowBytes, visibleBytes, (rowsBeforeLast * source.pitch + rowBytes) % target.size⟩

def rangesOverlap (a aSize b bSize : ℕ) : Bool :=
  if aSize = 0 ∨ bSize = 0 then false
  else if a > target.size - 1 - aSize ∨ b > target.size - 1 - bSize then true
  else a < b + bSize && b < a + aSize

def sourceAliasesSlot (source : SourceView) (sourceSpan : ℕ) (slot : SlotStorage) : Bool :=
  rangesOverlap target source.ptr sourceSpan slot.ptr slot.capacity

variable {target}

/-- The product that was cut down to a word, and divided again, was not cut. -/
theorem mul_of_div_eq {a b size : ℕ} (h : a * b % size / b = a) : a * b % size = a * b := by
  refine Nat.le_antisymm (Nat.mod_le _ _) ?_
  calc a * b = a * b % size / b * b := by rw [h]
    _ ≤ a * b % size := Nat.div_mul_le_self _ _

/-- No size of an accepted frame has wrapped around. -/
theorem checkedSizes_exact {source : SourceView} {sizes : Sizes}
    (h : checkedSizes target source = some sizes) :
    sizes.rowBytes = source.width.toNat * 2 ∧ 0 < sizes.rowBytes ∧
      sizes.rowBytes ≤ source.pitch ∧ 0 < source.height.toNat ∧
      sizes.visibleBytes = source.height.toNat * sizes.rowBytes ∧
      sizes.visibleBytes < target.size ∧
      sizes.sourceSpan = (source.height.toNat - 1) * source.pitch + sizes.rowBytes ∧
      sizes.sourceSpan < target.size := by
  have hpositive : 0 < target.size := Nat.lt_of_lt_of_le (by decide) target.wide
  rw [checkedSizes] at h
  set rowBytes := source.width.toNat * 2 % target.size with hrow
  split at h
  case isTrue => cases h
  case isFalse hshape =>
    split at h
    case isTrue => cases h
    case isFalse hwidth =>
      rw [not_or, not_not] at hwidth
      obtain ⟨hzero, hdiv⟩ := hwidth
      split at h
      case isTrue => cases h
      case isFalse hpitch =>
        split at h
        case isTrue => cases h
        case isFalse hheight =>
          split at h
          case isTrue => cases h
          case isFalse hspan =>
            obtain rfl := Option.some.inj h
            have hrowPositive : 0 < rowBytes := Nat.pos_of_ne_zero hzero
            have hvisible := mul_of_div_eq (not_not.mp hheight)
            have hpitch : rowBytes ≤ source.pitch := Nat.le_of_not_lt hpitch
            have hbefore : (source.height.toNat - 1) * source.pitch ≤
                target.size - 1 - rowBytes := by
              refine Nat.le_trans (Nat.mul_le_mul_right _ (Nat.le_of_not_lt hspan)) ?_
              exact Nat.div_mul_le_self _ _
            have hrowLt : rowBytes < target.size := Nat.mod_lt _ hpositive
            have hsum : (source.height.toNat - 1) * source.pitch + rowBytes < target.size := by
              omega
            have hheightPositive : 0 < source.height.toNat := by
              refine Nat.pos_of_ne_zero fun hnone => hshape (.inr (.inr (.inl ?_)))
              exact UInt32.toNat_inj.mp hnone
            refine ⟨?_, hrowPositive, hpitch, hheightPositive, hvisible, Nat.mod_lt _ hpositive,
              Nat.mod_eq_of_lt hsum, ?_⟩
            · exact mul_of_div_eq hdiv
            · rw [Nat.mod_eq_of_lt hsum]
              exact hsum

end Sizes

section Rows

/-- The pixels of a row, without the padding behind it. -/
def SourceView.row (source : SourceView) (rowBytes row : ℕ) : List UInt8 :=
  (List.range rowBytes).map fun offset => source.pixels (row * source.pitch + offset)

/-- The first rows of a frame, one behind the other. -/
def SourceView.rows (source : SourceView) (rowBytes count : ℕ) : List UInt8 :=
  (List.range count).flatMap (source.row rowBytes)

variable (source : SourceView) (rowBytes : ℕ)

@[simp] theorem row_length (row : ℕ) : (source.row rowBytes row).length = rowBytes := by
  simp [SourceView.row]

theorem rows_succ (count : ℕ) :
    source.rows rowBytes (count + 1) = source.rows rowBytes count ++ source.row rowBytes count := by
  simp [SourceView.rows, List.range_succ]

theorem rows_length (count : ℕ) : (source.rows rowBytes count).length = count * rowBytes := by
  induction count with
  | zero => simp [SourceView.rows]
  | succ count ih => rw [rows_succ, List.length_append, ih, row_length, Nat.succ_mul]

end Rows

end EspNp2.Presentation.FrameSource
