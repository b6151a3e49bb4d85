import Mathlib.Data.Fintype.EquivFin

/-!
Key identities of the keyboard input layer.  Producers report a host-neutral `Key`;
the ownership engine injects the frontend key ids of the emulated machine.
-/

namespace EspNp2.KeyboardInput.KeyMapping

/-- Host-neutral keys in the order of the source's `uint8_t` enumeration. -/
inductive Key where
  | unknown | escape | digit1 | digit2 | digit3 | digit4 | digit5 | digit6 | digit7 | digit8
  | digit9 | digit0 | minus | circumflex | yen | backspace | tab | q | w | e | r | t | y | u
  | i | o | p | at | leftBracket | enter | a | s | d | f | g | h | j | k | l | semicolon
  | colon | rightBracket | z | x | c | v | b | n | m | comma | period | slash | underscore
  | space | xfer | rollUp | rollDown | insert | delete | up | left | right | down | homeClear
  | help | keypadMinus | keypadDivide | keypad7 | keypad8 | keypad9 | keypadMultiply
  | keypad4 | keypad5 | keypad6 | keypadPlus | keypad1 | keypad2 | keypad3 | keypadEquals
  | keypad0 | keypadComma | keypadPeriod | keypadEnter | nfer | f1 | f2 | f3 | f4 | f5 | f6
  | f7 | f8 | f9 | f10 | leftShift | capsLock | kana | grph | control | rightShift | stop
  | copy | count
deriving DecidableEq, Repr

/-- Frontend key ids, the references accepted by `keystat_keydown` and `keystat_keyup`. -/
inductive FrontendKeyId where
  | escape | digit1 | digit2 | digit3 | digit4 | digit5 | digit6 | digit7 | digit8 | digit9
  | digit0 | minus | circumflex | yen | backspace | tab | q | w | e | r | t | y | u | i | o
  | p | at | leftBracket | enter | a | s | d | f | g | h | j | k | l | semicolon | colon
  | rightBracket | z | x | c | v | b | n | m | comma | period | slash | underscore | space
  | xfer | rollUp | rollDown | insert | delete | up | left | right | down | homeClear | help
  | keypadMinus | keypadDivide | keypad7 | keypad8 | keypad9 | keypadMultiply | keypad4
  | keypad5 | keypad6 | keypadPlus | keypad1 | keypad2 | keypad3 | keypadEquals | keypad0
  | keypadComma | keypadPeriod | nfer | f1 | f2 | f3 | f4 | f5 | f6 | f7 | f8 | f9 | f10
  | leftShift | capsLock | kana | grph | control | stop | copy | rightShift
deriving DecidableEq, Repr

/-- The byte of a key, its position in the enumeration. -/
def Key.value (key : Key) : UInt8 :=
  UInt8.ofNat key.ctorIdx

/-- The enumeration's byte read back.  A byte behind `Key::Count` names no key and is
treated as the sentinel, which no function below accepts. -/
def Key.ofValue (value : UInt8) : Key :=
  Key.ofNat value.toNat

/-- The keys below the sentinel's position, and the sentinel. -/
def keys : List Key :=
  (List.range (Key.count.ctorIdx + 1)).map Key.ofNat

theorem mem_keys (key : Key) : key ∈ keys := by
  have hbound : key.ctorIdx < Key.count.ctorIdx + 1 := by
    cases key <;> decide
  exact List.mem_map.mpr ⟨key.ctorIdx, List.mem_range.mpr hbound, Key.ofNat_ctorIdx key⟩

/-- The keys a producer can report, from the first up to the sentinel. -/
def properKeys : List Key :=
  (keys.drop 1).take (Key.count.ctorIdx - 1)

instance : Fintype Key where
  elems := keys.toFinset
  complete key := List.mem_toFinset.mpr (mem_keys key)

theorem mem_properKeys {key : Key} (h : key ≠ .unknown ∧ key ≠ .count) : key ∈ properKeys := by
  revert h key
  decide +kernel

theorem card_key : Fintype.card Key = 103 := by
  decide +kernel

def FrontendKeyId.value : FrontendKeyId → UInt8
  | .escape => 0x00
  | .digit1 => 0x01
  | .digit2 => 0x02
  | .digit3 => 0x03
  | .digit4 => 0x04
  | .digit5 => 0x05
  | .digit6 => 0x06
  | .digit7 => 0x07
  | .digit8 => 0x08
  | .digit9 => 0x09
  | .digit0 => 0x0a
  | .minus => 0x0b
  | .circumflex => 0x0c
  | .yen => 0x0d
  | .backspace => 0x0e
  | .tab => 0x0f
  | .q => 0x10
  | .w => 0x11
  | .e => 0x12
  | .r => 0x13
  | .t => 0x14
  | .y => 0x15
  | .u => 0x16
  | .i => 0x17
  | .o => 0x18
  | .p => 0x19
  | .at => 0x1a
  | .leftBracket => 0x1b
  | .enter => 0x1c
  | .a => 0x1d
  | .s => 0x1e
  | .d => 0x1f
  | .f => 0x20
  | .g => 0x21
  | .h => 0x22
  | .j => 0x23
  | .k => 0x24
  | .l => 0x25
  | .semicolon => 0x26
  | .colon => 0x27
  | .rightBracket => 0x28
  | .z => 0x29
  | .x => 0x2a
  | .c => 0x2b
  | .v => 0x2c
  | .b => 0x2d
  | .n => 0x2e
  | .m => 0x2f
  | .comma => 0x30
  | .period => 0x31
  | .slash => 0x32
  | .underscore => 0x33
  | .space => 0x34
  | .xfer => 0x35
  | .rollUp => 0x36
  | .rollDown => 0x37
  | .insert => 0x38
  | .delete => 0x39
  | .up => 0x3a
  | .left => 0x3b
  | .right => 0x3c
  | .down => 0x3d
  | .homeClear => 0x3e
  | .help => 0x3f
  | .keypadMinus => 0x40
  | .keypadDivide => 0x41
  | .keypad7 => 0x42
  | .keypad8 => 0x43
  | .keypad9 => 0x44
  | .keypadMultiply => 0x45
  | .keypad4 => 0x46
  | .keypad5 => 0x47
  | .keypad6 => 0x48
  | .keypadPlus => 0x49
  | .keypad1 => 0x4a
  | .keypad2 => 0x4b
  | .keypad3 => 0x4c
  | .keypadEquals => 0x4d
  | .keypad0 => 0x4e
  | .keypadComma => 0x4f
  | .keypadPeriod => 0x50
  | .nfer => 0x51
  | .f1 => 0x62
  | .f2 => 0x63
  | .f3 => 0x64
  | .f4 => 0x65
  | .f5 => 0x66
  | .f6 => 0x67
  | .f7 => 0x68
  | .f8 => 0x69
  | .f9 => 0x6a
  | .f10 => 0x6b
  | .leftShift => 0x70
  | .capsLock => 0x71
  | .kana => 0x72
  | .grph => 0x73
  | .control => 0x74
  | .stop => 0x60
  | .copy => 0x61
  | .rightShift => 0x7d

def toFrontendKeyId : Key → Option FrontendKeyId
  | .escape => some .escape
  | .digit1 => some .digit1
  | .digit2 => some .digit2
  | .digit3 => some .digit3
  | .digit4 => some .digit4
  | .digit5 => some .digit5
  | .digit6 => some .digit6
  | .digit7 => some .digit7
  | .digit8 => some .digit8
  | .digit9 => some .digit9
  | .digit0 => some .digit0
  | .minus => some .minus
  | .circumflex => some .circumflex
  | .yen => some .yen
  | .backspace => some .backspace
  | .tab => some .tab
  | .q => some .q
  | .w => some .w
  | .e => some .e
  | .r => some .r
  | .t => some .t
  | .y => some .y
  | .u => some .u
  | .i => some .i
  | .o => some .o
  | .p => some .p
  | .at => some .at
  | .leftBracket => some .leftBracket
  | .enter => some .enter
  | .a => some .a
  | .s => some .s
  | .d => some .d
  | .f => some .f
  | .g => some .g
  | .h => some .h
  | .j => some .j
  | .k => some .k
  | .l => some .l
  | .semicolon => some .semicolon
  | .colon => some .colon
  | .rightBracket => some .rightBracket
  | .z => some .z
  | .x => some .x
  | .c => some .c
  | .v => some .v
  | .b => some .b
  | .n => some .n
  | .m => some .m
  | .comma => some .comma
  | .period => some .period
  | .slash => some .slash
  | .underscore => some .underscore
  | .space => some .space
  | .xfer => some .xfer
  | .rollUp => some .rollUp
  | .rollDown => some .rollDown
  | .insert => some .insert
  | .delete => some .delete
  | .up => some .up
  | .left => some .left
  | .right => some .right
  | .down => some .down
  | .homeClear => some .homeClear
  | .help => some .help
  | .keypadMinus => some .keypadMinus
  | .keypadDivide => some .keypadDivide
  | .keypad7 => some .keypad7
  | .keypad8 => some .keypad8
  | .keypad9 => some .keypad9
  | .keypadMultiply => some .keypadMultiply
  | .keypad4 => some .keypad4
  | .keypad5 => some .keypad5
  | .keypad6 => some .keypad6
  | .keypadPlus => some .keypadPlus
  | .keypad1 => some .keypad1
  | .keypad2 => some .keypad2
  | .keypad3 => some .keypad3
  | .keypadEquals => some .keypadEquals
  | .keypad0 => some .keypad0
  | .keypadComma => some .keypadComma
  | .keypadPeriod => some .keypadPeriod
  | .keypadEnter => some .enter
  | .nfer => some .nfer
  | .f1 => some .f1
  | .f2 => some .f2
  | .f3 => some .f3
  | .f4 => some .f4
  | .f5 => some .f5
  | .f6 => some .f6
  | .f7 => some .f7
  | .f8 => some .f8
  | .f9 => some .f9
  | .f10 => some .f10
  | .leftShift => some .leftShift
  | .capsLock => some .capsLock
  | .kana => some .kana
  | .grph => some .grph
  | .control => some .control
  | .rightShift => some .rightShift
  | .stop => some .stop
  | .copy => some .copy
  | .unknown => none
  | .count => none

end EspNp2.KeyboardInput.KeyMapping
