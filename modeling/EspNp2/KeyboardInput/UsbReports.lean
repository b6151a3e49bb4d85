import EspNp2.KeyboardInput.OwnershipRuns

/-!
The USB boot keyboard in front of the ownership engine: the report parser, which turns a
report into the edges against the last clean one, and the adapter, which maps usages to
keys and folds the two controls and the two alternates into one key each.
-/

namespace EspNp2.KeyboardInput.UsbReports

open KeyMapping
open Ownership

section Parser

def reportSize : Nat := 8
def modifierCount : Nat := 8
def keyCount : Nat := 6
def maxEvents : Nat := modifierCount + 2 * keyCount

inductive EventKind where
  | keyPress
  | keyRelease
  | modPress
  | modRelease
  | errorUsage
deriving DecidableEq, Repr

structure Transition where
  kind : EventKind
  usage : UInt8
  modifiers : UInt8
deriving DecidableEq, Repr

structure ParserState where
  modifiers : UInt8 := 0
  keys : List UInt8 := List.replicate keyCount 0
deriving DecidableEq, Repr

def modifierUsage (bit : Nat) : UInt8 :=
  0xe0 + UInt8.ofNat bit

def modifierMask (bit : Nat) : UInt8 :=
  1 <<< UInt8.ofNat bit

def keyPresent (keys : List UInt8) (usage : UInt8) : Bool :=
  keys.contains usage

def keySeenBefore (keys : List UInt8) (index : Nat) (usage : UInt8) : Bool :=
  (keys.take index).contains usage

def isErrorUsage (usage : UInt8) : Bool :=
  usage = 0x01 || usage = 0x02 || usage = 0x03

def errorEvents (keys : List UInt8) (modifiers : UInt8) : List Transition :=
  (keys.filter isErrorUsage).map fun usage => ⟨.errorUsage, usage, modifiers⟩

def modifierEvents (previous modifiers : UInt8) : List Transition :=
  (List.range modifierCount).filterMap fun bit =>
    if previous &&& modifierMask bit = 0 ∧ modifiers &&& modifierMask bit ≠ 0 then
      some ⟨.modPress, modifierUsage bit, modifiers⟩
    else if previous &&& modifierMask bit ≠ 0 ∧ modifiers &&& modifierMask bit = 0 then
      some ⟨.modRelease, modifierUsage bit, modifiers⟩
    else
      none

/-- The usages of `keys` that `others` lacks, each once. -/
def keyEvents (kind : EventKind) (keys others : List UInt8) (modifiers : UInt8) :
    List Transition :=
  (List.range keyCount).filterMap fun i =>
    let usage := keys.getD i 0
    if usage ≠ 0 ∧ keySeenBefore keys i usage = false ∧ keyPresent others usage = false then
      some ⟨kind, usage, modifiers⟩
    else
      none

def stagedEvents (state : ParserState) (modifiers : UInt8) (keys : List UInt8) : List Transition :=
  if keys.any isErrorUsage then
    errorEvents keys modifiers
  else
    modifierEvents state.modifiers modifiers ++ keyEvents .keyRelease state.keys keys modifiers ++
      keyEvents .keyPress keys state.keys modifiers

/-- The required number of events, the events written and the state afterwards. -/
def hidBootKeyboardProcess (state : ParserState) (report : List UInt8) (eventCapacity : Nat) :
    Nat × List Transition × ParserState :=
  if report.length ≠ reportSize then
    (0, [], state)
  else
    let modifiers := report.getD 0 0
    let keys := report.drop 2
    let staged := stagedEvents state modifiers keys
    if staged.length > eventCapacity then
      (staged.length, [], state)
    else if keys.any isErrorUsage then
      (staged.length, staged, state)
    else
      (staged.length, staged, { modifiers := modifiers, keys := keys })

end Parser

section Adapter

def controlMask : UInt8 := modifierMask 0 ||| modifierMask 4
def grphMask : UInt8 := modifierMask 2 ||| modifierMask 6

def maxNeutralEvents : Nat := maxEvents

def usbKeyboardSource : SourceId := ⟨2⟩

inductive TranslationStatus where
  | mapped
  | unsupported
  | errorUsage
  | capacityInsufficient
  | invalidInput
deriving DecidableEq, Repr

structure TranslationResult where
  status : TranslationStatus := .mapped
  requiredEvents : Nat := 0
  writtenEvents : Nat := 0
  unsupportedUsages : Nat := 0
deriving DecidableEq, Repr

structure Adapter where
  modifiers : UInt8 := 0
deriving DecidableEq, Repr

def isAliasUsage (usage : UInt8) : Bool :=
  usage = 0xe0 || usage = 0xe2 || usage = 0xe4 || usage = 0xe6

/-- The usages of the adapter's switch. -/
def switchUsage : UInt8 → Option Key
  | 0x28 => some .enter
  | 0x29 => some .escape
  | 0x2a => some .backspace
  | 0x2b => some .tab
  | 0x2c => some .space
  | 0x2d => some .minus
  | 0x2e => some .circumflex
  | 0x2f => some .at
  | 0x30 => some .leftBracket
  | 0x31 => some .rightBracket
  | 0x33 => some .semicolon
  | 0x34 => some .colon
  | 0x36 => some .comma
  | 0x37 => some .period
  | 0x38 => some .slash
  | 0x39 => some .capsLock
  | 0x46 => some .copy
  | 0x48 => some .stop
  | 0x49 => some .insert
  | 0x4a => some .homeClear
  | 0x4b => some .rollUp
  | 0x4c => some .delete
  | 0x4d => some .help
  | 0x4e => some .rollDown
  | 0x4f => some .right
  | 0x50 => some .left
  | 0x51 => some .down
  | 0x52 => some .up
  | 0x54 => some .keypadDivide
  | 0x55 => some .keypadMultiply
  | 0x56 => some .keypadMinus
  | 0x57 => some .keypadPlus
  | 0x58 => some .keypadEnter
  | 0x59 => some .keypad1
  | 0x5a => some .keypad2
  | 0x5b => some .keypad3
  | 0x5c => some .keypad4
  | 0x5d => some .keypad5
  | 0x5e => some .keypad6
  | 0x5f => some .keypad7
  | 0x60 => some .keypad8
  | 0x61 => some .keypad9
  | 0x62 => some .keypad0
  | 0x63 => some .keypadPeriod
  | 0x67 => some .keypadEquals
  | 0x85 => some .keypadComma
  | 0x87 => some .underscore
  | 0x88 => some .kana
  | 0x89 => some .yen
  | 0x8a => some .xfer
  | 0x8b => some .nfer
  | 0xe1 => some .leftShift
  | 0xe5 => some .rightShift
  | _ => none

/-- The adapter's map.  The key of a usage in one of the three ranges is found by counting
on in the enumeration of the keys. -/
def mapUsage (usage : UInt8) : Option Key :=
  if 0x04 ≤ usage ∧ usage ≤ 0x1d then
    some (Key.ofValue (Key.a.value + (usage - 0x04)))
  else if 0x1e ≤ usage ∧ usage ≤ 0x27 then
    some (Key.ofValue (Key.digit1.value + (usage - 0x1e)))
  else if 0x3a ≤ usage ∧ usage ≤ 0x43 then
    some (Key.ofValue (Key.f1.value + (usage - 0x3a)))
  else
    switchUsage usage

def appendEvent (staged : List Event) (key : Key) (action : Action) : Option (List Event) :=
  if staged.length ≥ maxNeutralEvents then
    none
  else
    some (staged ++ [.edge usbKeyboardSource key action])

def appendAliasEdge (staged : List Event) (oldModifiers newModifiers mask : UInt8) (key : Key) :
    Option (List Event) :=
  let oldHeld := decide (oldModifiers &&& mask ≠ 0)
  let newHeld := decide (newModifiers &&& mask ≠ 0)
  if oldHeld = newHeld then
    some staged
  else
    appendEvent staged key (if newHeld then .press else .release)

def appendAliasEdges (staged : List Event) (oldModifiers newModifiers : UInt8) :
    Option (List Event) := do
  let staged ← appendAliasEdge staged oldModifiers newModifiers controlMask .control
  appendAliasEdge staged oldModifiers newModifiers grphMask .grph

/-- What the loop of `translateReport` carries. -/
structure Staging where
  staged : List Event := []
  aliasEdgeEmitted : Bool := false
  unsupportedUsages : Nat := 0
deriving DecidableEq, Repr

/-- One round of the loop; `none` is the early return with `InvalidInput`. -/
def stageTransition (oldModifiers finalModifiers : UInt8) (s : Staging) (transition : Transition) :
    Option Staging :=
  if isAliasUsage transition.usage then
    if s.aliasEdgeEmitted then
      some s
    else do
      let staged ← appendAliasEdges s.staged oldModifiers finalModifiers
      some { s with staged := staged, aliasEdgeEmitted := true }
  else
    match mapUsage transition.usage with
    | none => some { s with unsupportedUsages := s.unsupportedUsages + 1 }
    | some key => do
        let action :=
          if transition.kind = .keyPress ∨ transition.kind = .modPress then Action.press
          else Action.release
        let staged ← appendEvent s.staged key action
        some { s with staged := staged }

/-- The whole loop and the alias edges behind it. -/
def stageReport (oldModifiers finalModifiers : UInt8) (transitions : List Transition) :
    Option Staging := do
  let s ← transitions.foldlM (stageTransition oldModifiers finalModifiers) {}
  if s.aliasEdgeEmitted then
    some s
  else
    let staged ← appendAliasEdges s.staged oldModifiers finalModifiers
    some { s with staged := staged }

/-- The unsupported usages that are counted before the loop fails, or by all of it. -/
def unsupportedSoFar (oldModifiers finalModifiers : UInt8) (s : Staging) : List Transition → Nat
  | [] => s.unsupportedUsages
  | transition :: rest =>
      match stageTransition oldModifiers finalModifiers s transition with
      | none => s.unsupportedUsages
      | some s' => unsupportedSoFar oldModifiers finalModifiers s' rest

def translateReport (adapter : Adapter) (transitions : List Transition) (finalModifiers : UInt8)
    (capacity : Nat) : TranslationResult × List Event × Adapter :=
  if transitions.length > maxEvents then
    ({ status := .invalidInput }, [], adapter)
  else if transitions.any fun transition => transition.kind = .errorUsage then
    ({ status := .errorUsage }, [], adapter)
  else
    match stageReport adapter.modifiers finalModifiers transitions with
    | none =>
        ({ status := .invalidInput
           unsupportedUsages := unsupportedSoFar adapter.modifiers finalModifiers {} transitions },
          [], adapter)
    | some s =>
        if s.staged.length > capacity then
          ({ status := .capacityInsufficient
             requiredEvents := s.staged.length
             unsupportedUsages := s.unsupportedUsages }, [], adapter)
        else
          ({ status := if s.unsupportedUsages = 0 then .mapped else .unsupported
             requiredEvents := s.staged.length
             writtenEvents := s.staged.length
             unsupportedUsages := s.unsupportedUsages }, s.staged, ⟨finalModifiers⟩)

end Adapter

section Producer

/-- The parts of the producer that a report passes through.  A parser or adapter failure
disables it. -/
structure Keyboard where
  parser : ParserState := {}
  adapter : Adapter := {}
  engine : OwnershipEngine := {}
  accepting : Bool := true

/-- A report of the right size from the active device; each neutral event goes to the
ownership engine. -/
def processInputReport (keyboard : Keyboard) (report : List UInt8) : Keyboard :=
  if keyboard.accepting = false then
    keyboard
  else if report.length ≠ reportSize then
    keyboard
  else
    let parsed := hidBootKeyboardProcess keyboard.parser report maxEvents
    let translated := translateReport keyboard.adapter parsed.2.1 (report.getD 0 0) maxNeutralEvents
    let next := { keyboard with parser := parsed.2.2, adapter := translated.2.2 }
    if translated.1.status = .errorUsage then
      next
    else if translated.1.status = .invalidInput ∨ translated.1.status = .capacityInsufficient then
      { next with accepting := false }
    else
      { next with
        engine := translated.2.1.foldl (fun engine event => (engine.process event).2) next.engine }

def processReports (mode : ShiftMode) (reports : List (List UInt8)) : Keyboard :=
  reports.foldl processInputReport { engine := { shiftMode := mode } }

end Producer

end EspNp2.KeyboardInput.UsbReports
