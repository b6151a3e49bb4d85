import Mathlib.Data.UInt
import Mathlib.Data.Nat.Bits

/-!
Arithmetic on 64-bit words with a mark beside it. An operation whose exact result is no word
sets the mark, so that a computation that ends with the mark unset computed every value exactly.
A computation can also stop without a value.
-/

namespace EspNp2.Library.WrappingWords

/-- A computation takes the mark and gives its value, or none, with the mark. -/
def Marked (α : Type) : Type := Bool → Option α × Bool

namespace Marked

variable {α β : Type}

def run (code : Marked α) : Option α × Bool := code false

instance : Monad Marked where
  pure value := fun wrapped => (some value, wrapped)
  bind code next := fun wrapped =>
    match code wrapped with
    | (some value, wrapped) => next value wrapped
    | (none, wrapped) => (none, wrapped)

def stop : Marked α := fun wrapped => (none, wrapped)

def word (exact : ℕ) (value : UInt64) : Marked UInt64 :=
  fun wrapped => (some value, wrapped || !decide (exact = value.toNat))

def add (x y : UInt64) : Marked UInt64 := word (x.toNat + y.toNat) (x + y)

def mul (x y : UInt64) : Marked UInt64 := word (x.toNat * y.toNat) (x * y)

/-- A difference below zero is marked as well. -/
def sub (x y : UInt64) : Marked UInt64 :=
  fun wrapped => (some (x - y), wrapped || decide (x < y))

/-- The computation never sets the mark; it gives a value with the first property, or it stops
and the second holds. -/
def Exactly (code : Marked α) (value : α → Prop) (stopped : Prop) : Prop :=
  match code false with
  | (some result, wrapped) => value result ∧ wrapped = false
  | (none, wrapped) => stopped ∧ wrapped = false

theorem Exactly.pure {value : α → Prop} {stopped : Prop} {result : α} (h : value result) :
    Exactly (Pure.pure result) value stopped :=
  ⟨h, rfl⟩

theorem Exactly.stop {value : α → Prop} {stopped : Prop} (h : stopped) :
    Exactly Marked.stop value stopped :=
  ⟨h, rfl⟩

theorem Exactly.bind {code : Marked α} {next : α → Marked β} {middle : α → Prop}
    {value : β → Prop} {stopped : Prop} (h : code.Exactly middle stopped)
    (hnext : ∀ result, middle result → (next result).Exactly value stopped) :
    (code >>= next).Exactly value stopped := by
  unfold Exactly at h ⊢
  change match (match code false with
    | (some value, wrapped) => next value wrapped
    | (none, wrapped) => (none, wrapped)) with
    | (some result, wrapped) => value result ∧ wrapped = false
    | (none, wrapped) => stopped ∧ wrapped = false
  rcases hrun : code false with ⟨_ | result, wrapped⟩
  · rw [hrun] at h
    exact h
  · rw [hrun] at h
    obtain ⟨hvalue, rfl⟩ := h
    exact hnext result hvalue

theorem Exactly.imp {code : Marked α} {value value' : α → Prop} {stopped stopped' : Prop}
    (h : code.Exactly value stopped) (hvalue : ∀ result, value result → value' result)
    (hstopped : stopped → stopped') : code.Exactly value' stopped' := by
  unfold Exactly at h ⊢
  rcases hrun : code false with ⟨_ | result, wrapped⟩
  · rw [hrun] at h
    exact ⟨hstopped h.1, h.2⟩
  · rw [hrun] at h
    exact ⟨hvalue result h.1, h.2⟩

theorem exactly_add {x y : UInt64} {stopped : Prop} (h : x.toNat + y.toNat < 2 ^ 64) :
    (add x y).Exactly (fun sum => sum.toNat = x.toNat + y.toNat) stopped := by
  have hsum : (x + y).toNat = x.toNat + y.toNat := by
    rw [UInt64.toNat_add, Nat.mod_eq_of_lt h]
  refine ⟨hsum, ?_⟩
  simp [hsum]

theorem exactly_mul {x y : UInt64} {stopped : Prop} (h : x.toNat * y.toNat < 2 ^ 64) :
    (mul x y).Exactly (fun product => product.toNat = x.toNat * y.toNat) stopped := by
  have hproduct : (x * y).toNat = x.toNat * y.toNat := by
    rw [UInt64.toNat_mul, Nat.mod_eq_of_lt h]
  refine ⟨hproduct, ?_⟩
  simp [hproduct]

theorem exactly_sub {x y : UInt64} {stopped : Prop} (h : y ≤ x) :
    (sub x y).Exactly (fun difference => difference.toNat = x.toNat - y.toNat) stopped := by
  refine ⟨UInt64.toNat_sub_of_le _ _ h, ?_⟩
  simpa using h

/-- With the value known and the case of a stop known, the run is known. -/
theorem run_eq_of_exactly {code : Marked α} {answer : Option α}
    (h : code.Exactly (fun result => answer = some result) (answer = none)) :
    code.run = (answer, false) := by
  unfold Exactly at h
  rw [run]
  rcases hrun : code false with ⟨_ | result, wrapped⟩
  · rw [hrun] at h
    rw [h.1, ← h.2]
  · rw [hrun] at h
    rw [h.1, ← h.2]

end Marked

end EspNp2.Library.WrappingWords
