import Mathlib.Data.Nat.Bitwise
import Mathlib.Tactic.Ring

/-!
Little-endian byte strings of a fixed width, as numbers and back.
-/

namespace EspNp2.Library.LittleEndian

/-- What the 256 bytes have in common every byte has. -/
theorem forall_byte {p : UInt8 → Prop} (h : ∀ n < 256, p (UInt8.ofNat n)) (byte : UInt8) :
    p byte := by
  have hself : UInt8.ofNat byte.toNat = byte := UInt8.ofNat_toNat
  rw [← hself]
  exact h byte.toNat byte.toNat_lt

/-- The `width` least significant bytes of `value`, lowest byte first. -/
def putLe : Nat → Nat → List UInt8
  | 0, _ => []
  | width + 1, value => UInt8.ofNat value :: putLe width (value >>> 8)

/-- The number a byte string denotes, lowest byte first. -/
def getLe : List UInt8 → Nat
  | [] => 0
  | byte :: bytes => byte.toNat ||| (getLe bytes <<< 8)

@[simp] theorem putLe_length (width value : Nat) :
    (putLe width value).length = width := by
  induction width generalizing value with
  | zero => rfl
  | succ width ih => simp [putLe, ih]

theorem getLe_cons (byte : UInt8) (bytes : List UInt8) :
    getLe (byte :: bytes) = byte.toNat + 256 * getLe bytes := by
  have hbyte : byte.toNat < 2 ^ 8 := byte.toNat_lt
  have hadd := Nat.shiftLeft_add_eq_or_of_lt hbyte (getLe bytes)
  rw [getLe, Nat.or_comm, ← hadd, Nat.shiftLeft_eq]
  ring

/-- A byte string read from its end, one more byte at a time. -/
theorem getLe_snoc (bytes : List UInt8) (byte : UInt8) :
    getLe (bytes ++ [byte]) = getLe bytes ||| (byte.toNat <<< (bytes.length * 8)) := by
  induction bytes with
  | nil => simp [getLe]
  | cons first bytes ih =>
      rw [List.cons_append, getLe, getLe, ih, List.length_cons, Nat.shiftLeft_or_distrib,
        ← Nat.shiftLeft_add, Nat.or_assoc, Nat.succ_mul]

theorem getLe_lt (bytes : List UInt8) : getLe bytes < 256 ^ bytes.length := by
  induction bytes with
  | nil => simp [getLe]
  | cons byte bytes ih =>
      have hbyte : byte.toNat < 256 := byte.toNat_lt
      rw [getLe_cons, List.length_cons, pow_succ]
      omega

theorem getLe_putLe (width value : Nat) :
    getLe (putLe width value) = value % 256 ^ width := by
  induction width generalizing value with
  | zero => simp [putLe, getLe, Nat.mod_one]
  | succ width ih =>
      have hsplit := Nat.mod_mul (x := value) (a := 256) (b := 256 ^ width)
      rw [putLe, getLe_cons, ih, Nat.shiftRight_eq_div_pow, pow_succ 256 width,
        Nat.mul_comm (256 ^ width) 256, hsplit, UInt8.toNat_ofNat']

theorem putLe_getLe (bytes : List UInt8) :
    putLe bytes.length (getLe bytes) = bytes := by
  induction bytes with
  | nil => rfl
  | cons byte bytes ih =>
      have hbyte : byte.toNat < 256 := byte.toNat_lt
      have hshift : getLe (byte :: bytes) >>> 8 = getLe bytes := by
        rw [getLe_cons, Nat.shiftRight_eq_div_pow]
        omega
      have hhead : UInt8.ofNat (getLe (byte :: bytes)) = byte := by
        apply UInt8.toNat_inj.mp
        rw [UInt8.toNat_ofNat', getLe_cons]
        omega
      rw [List.length_cons, putLe, hshift, hhead, ih]

/-- Reading a field and writing it back reproduces the field's bytes. -/
theorem putLe_getLe_slice (data : List UInt8) (offset width : Nat)
    (hbound : offset + width ≤ data.length) :
    putLe width (getLe ((data.drop offset).take width)) = (data.drop offset).take width := by
  have hlength : ((data.drop offset).take width).length = width := by
    rw [List.length_take, List.length_drop]
    omega
  have hback := putLe_getLe ((data.drop offset).take width)
  rwa [hlength] at hback

theorem getLe_slice_lt (data : List UInt8) (offset width : Nat) :
    getLe ((data.drop offset).take width) < 256 ^ width := by
  have hlength : ((data.drop offset).take width).length ≤ width := by simp
  exact (getLe_lt _).trans_le (Nat.pow_le_pow_right (by decide) hlength)

end EspNp2.Library.LittleEndian
