import EspNp2.StorageBackend.StorageInterface

/-!
The checks of `path.cpp` on the paths and names of a request.
-/

namespace EspNp2.FileTransfer.PathValidation

open EspNp2.StorageBackend.StorageInterface

/-- The length of a UTF-8 sequence and the bits its first byte carries. -/
def leadByte (c : UInt8) : Option (Nat × Nat) :=
  if c ≤ 0x7f then some (1, c.toNat)
  else if c ≥ 0xc2 ∧ c ≤ 0xdf then some (2, (c &&& 0x1f).toNat)
  else if c ≥ 0xe0 ∧ c ≤ 0xef then some (3, (c &&& 0x0f).toNat)
  else if c ≥ 0xf0 ∧ c ≤ 0xf4 then some (4, (c &&& 0x07).toNat)
  else none

def continuation (code : Option Nat) (next : UInt8) : Option Nat :=
  match code with
  | none => none
  | some code =>
      if next &&& 0xc0 ≠ 0x80 then none else some (code <<< 6 ||| (next &&& 0x3f).toNat)

/-- A code point that a sequence of `count` bytes may not carry. -/
def invalidCode (count code : Nat) : Bool :=
  (count == 2 && code < 0x80) || (count == 3 && code < 0x800) ||
    (count == 4 && code < 0x10000) || code > 0x10ffff || (code ≥ 0xd800 && code ≤ 0xdfff)

/-- The loop of `valid_utf8` over the bytes it has left. Every round takes at least
one of them. -/
def validUtf8From : Nat → List UInt8 → Bool
  | _, [] => true
  | 0, _ :: _ => false
  | rounds + 1, c :: rest =>
      match leadByte c with
      | none => false
      | some (count, code) =>
          if count > (c :: rest).length then false
          else
            match (rest.take (count - 1)).foldl continuation (some code) with
            | none => false
            | some code =>
                if invalidCode count code then false
                else validUtf8From rounds (rest.drop (count - 1))

def validUtf8 (value : List UInt8) : Bool := validUtf8From value.length value

def validComponent (value : Path) : Bool :=
  if value = [] ∨ value.length > kMaxComponentBytes ∨ validUtf8 value = false then false
  else if value = [0x2e] ∨ value = [0x2e, 0x2e] then false
  else value.all fun c => !(c == slash || c == 0x5c || c == 0x7f || c < 0x20)

/-- The loop of `validate` over the components it has left. -/
def validateFrom : Nat → Path → Bool
  | _, [] => true
  | 0, _ :: _ => false
  | rounds + 1, rest =>
      let component := rest.takeWhile (· != slash)
      if validComponent component = false then false
      else validateFrom rounds (rest.drop (component.length + 1))

def validate (value : Path) (allowRoot : Bool) : Bool :=
  if value = [] ∨ value.length > kMaxPathBytes ∨ value.head? ≠ some slash ∨
      validUtf8 value = false then false
  else if value = [slash] then allowRoot
  else if value.getLast? = some slash then false
  else validateFrom value.length (value.drop 1)

example : validate [0x2f, 0x61, 0x2f, 0xc3, 0xa9] false = true := by decide

end EspNp2.FileTransfer.PathValidation
