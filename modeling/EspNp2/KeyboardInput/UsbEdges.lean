import Mathlib.Data.List.GetD
import EspNp2.KeyboardInput.SoleSource
import EspNp2.KeyboardInput.UsbReports

/-!
What a clean report makes of the last one.  A contact is a usage in the report's slots, one
of the two shifts, or one of the pairs that the adapter folds; an edge is reported for
every contact that changes, and for no other.
-/

namespace EspNp2.KeyboardInput.UsbEdges

open KeyMapping
open Ownership
open SoleSource
open UsbReports

section Contacts

inductive Contact where
  | usage (usage : UInt8)
  | leftShift
  | rightShift
  | control
  | grph
deriving DecidableEq, Repr

/-- Whether the contact is closed under the modifiers and keys of a report. -/
def down (state : ParserState) : Contact → Prop
  | .usage usage => usage ∈ state.keys ∧ usage ≠ 0
  | .leftShift => state.modifiers &&& modifierMask 1 ≠ 0
  | .rightShift => state.modifiers &&& modifierMask 5 ≠ 0
  | .control => state.modifiers &&& controlMask ≠ 0
  | .grph => state.modifiers &&& grphMask ≠ 0

/-- The key of a contact under a map of the usages. -/
def contactKey (map : UInt8 → Option Key) : Contact → Option Key
  | .usage usage => map usage
  | .leftShift => some .leftShift
  | .rightShift => some .rightShift
  | .control => some .control
  | .grph => some .grph

/-- The keys whose contacts are closed. -/
def heldKeys (map : UInt8 → Option Key) (state : ParserState) : Set Key :=
  { key | ∃ contact, contactKey map contact = some key ∧ down state contact }

end Contacts

section Parsing

variable {usage modifiers previous : UInt8} {keys others : List UInt8} {kind : EventKind}

theorem keySeenBefore_idxOf : keySeenBefore keys (keys.idxOf usage) usage = false := by
  rw [keySeenBefore, Bool.eq_false_iff, ne_eq, List.contains_iff_mem, List.mem_take_iff_getElem]
  rintro ⟨i, hi, hsame⟩
  have hbefore : i < keys.findIdx (· == usage) := by
    change i < keys.idxOf usage
    omega
  have hne := List.not_of_lt_findIdx hbefore
  simp [hsame] at hne

theorem mem_keyEvents (hlength : keys.length = keyCount) (t : Transition) :
    t ∈ keyEvents kind keys others modifiers ↔
      t.kind = kind ∧ t.modifiers = modifiers ∧ t.usage ≠ 0 ∧ t.usage ∈ keys ∧
        t.usage ∉ others := by
  obtain ⟨tkind, tusage, tmodifiers⟩ := t
  simp only [keyEvents, List.mem_filterMap, List.mem_range]
  constructor
  · rintro ⟨i, hi, hevent⟩
    split at hevent
    · rename_i hkept
      cases hevent
      have hlt : i < keys.length := hlength ▸ hi
      refine ⟨rfl, rfl, hkept.1, ?_, by simpa [keyPresent] using hkept.2.2⟩
      rw [List.getD_eq_getElem _ _ hlt]
      exact List.getElem_mem hlt
    · cases hevent
  · rintro ⟨rfl, rfl, hzero, hmem, hothers⟩
    have hlt : keys.idxOf tusage < keys.length := List.idxOf_lt_length_iff.mpr hmem
    have hget : keys.getD (keys.idxOf tusage) 0 = tusage := by
      rw [List.getD_eq_getElem _ _ hlt, List.getElem_idxOf]
    refine ⟨keys.idxOf tusage, hlength ▸ hlt, ?_⟩
    rw [hget, if_pos ⟨hzero, keySeenBefore_idxOf, by simpa [keyPresent] using hothers⟩]

theorem mem_modifierEvents (t : Transition) :
    t ∈ modifierEvents previous modifiers ↔
      t.modifiers = modifiers ∧ ∃ bit, bit < modifierCount ∧ t.usage = modifierUsage bit ∧
        ((t.kind = .modPress ∧ previous &&& modifierMask bit = 0 ∧
            modifiers &&& modifierMask bit ≠ 0) ∨
          (t.kind = .modRelease ∧ previous &&& modifierMask bit ≠ 0 ∧
            modifiers &&& modifierMask bit = 0)) := by
  obtain ⟨tkind, tusage, tmodifiers⟩ := t
  simp only [modifierEvents, List.mem_filterMap, List.mem_range]
  constructor
  · rintro ⟨bit, hbit, hevent⟩
    split at hevent
    · rename_i hpress
      cases hevent
      exact ⟨rfl, bit, hbit, rfl, .inl ⟨rfl, hpress⟩⟩
    · split at hevent
      · rename_i hrelease
        cases hevent
        exact ⟨rfl, bit, hbit, rfl, .inr ⟨rfl, hrelease⟩⟩
      · cases hevent
  · rintro ⟨rfl, bit, hbit, rfl, ⟨rfl, hpress⟩ | ⟨rfl, hrelease⟩⟩
    · exact ⟨bit, hbit, by rw [if_pos hpress]⟩
    · refine ⟨bit, hbit, ?_⟩
      rw [if_neg fun hpress => hrelease.1 hpress.1, if_pos hrelease]

theorem keyEvents_length : (keyEvents kind keys others modifiers).length ≤ keyCount := by
  refine (List.length_filterMap_le _ _).trans ?_
  rw [List.length_range]

theorem modifierEvents_length : (modifierEvents previous modifiers).length ≤ modifierCount := by
  refine (List.length_filterMap_le _ _).trans ?_
  rw [List.length_range]

end Parsing

section Translating

variable {oldModifiers finalModifiers : UInt8} {transitions : List Transition}

def edgeAction (transition : Transition) : Action :=
  if transition.kind = .keyPress ∨ transition.kind = .modPress then .press else .release

/-- The edge of a folded pair. -/
def aliasEdge (oldModifiers finalModifiers mask : UInt8) (key : Key) : List (Key × Action) :=
  if decide (oldModifiers &&& mask ≠ 0) = decide (finalModifiers &&& mask ≠ 0) then
    []
  else
    [(key, if finalModifiers &&& mask ≠ 0 then .press else .release)]

def aliasEdges (oldModifiers finalModifiers : UInt8) : List (Key × Action) :=
  aliasEdge oldModifiers finalModifiers controlMask .control ++
    aliasEdge oldModifiers finalModifiers grphMask .grph

/-- The edges staged for one transition; the flag says that the folded pairs have been
looked at. -/
def roundEdges (oldModifiers finalModifiers : UInt8) (emitted : Bool) (transition : Transition) :
    List (Key × Action) :=
  if isAliasUsage transition.usage then
    if emitted then [] else aliasEdges oldModifiers finalModifiers
  else
    match mapUsage transition.usage with
    | none => []
    | some key => [(key, edgeAction transition)]

/-- The edges of a report in the order in which they are staged. -/
def reportEdges (oldModifiers finalModifiers : UInt8) (emitted : Bool) :
    List Transition → List (Key × Action)
  | [] => if emitted then [] else aliasEdges oldModifiers finalModifiers
  | transition :: transitions =>
      roundEdges oldModifiers finalModifiers emitted transition ++
        reportEdges oldModifiers finalModifiers
          (emitted || isAliasUsage transition.usage) transitions

def eventOf (edge : Key × Action) : Event :=
  .edge usbKeyboardSource edge.1 edge.2

theorem appendEvent_eq {staged : List Event} (key : Key) (action : Action)
    (hroom : staged.length < maxNeutralEvents) :
    appendEvent staged key action = some (staged ++ [eventOf (key, action)]) := by
  rw [appendEvent, if_neg (by omega)]
  rfl

theorem appendAliasEdge_eq {staged : List Event} {mask : UInt8} {key : Key}
    (hroom : (staged ++ (aliasEdge oldModifiers finalModifiers mask key).map eventOf).length ≤
      maxNeutralEvents) :
    appendAliasEdge staged oldModifiers finalModifiers mask key =
      some (staged ++ (aliasEdge oldModifiers finalModifiers mask key).map eventOf) := by
  unfold appendAliasEdge
  unfold aliasEdge at hroom ⊢
  dsimp only
  split
  · simp
  · rename_i hdiffer
    rw [if_neg hdiffer] at hroom
    simp only [decide_eq_true_eq]
    refine appendEvent_eq _ _ ?_
    rw [List.length_append, List.length_map, List.length_singleton] at hroom
    omega

theorem appendAliasEdges_eq {staged : List Event}
    (hroom : (staged ++ (aliasEdges oldModifiers finalModifiers).map eventOf).length ≤
      maxNeutralEvents) :
    appendAliasEdges staged oldModifiers finalModifiers =
      some (staged ++ (aliasEdges oldModifiers finalModifiers).map eventOf) := by
  simp only [aliasEdges, List.map_append, ← List.append_assoc] at hroom ⊢
  rw [appendAliasEdges, appendAliasEdge_eq]
  · exact appendAliasEdge_eq hroom
  · rw [List.length_append] at hroom
    omega

theorem stageTransition_eq {s : Staging} {transition : Transition}
    (hroom : (s.staged ++ (roundEdges oldModifiers finalModifiers s.aliasEdgeEmitted
      transition).map eventOf).length ≤ maxNeutralEvents) :
    ∃ s', stageTransition oldModifiers finalModifiers s transition = some s' ∧
      s'.staged = s.staged ++ (roundEdges oldModifiers finalModifiers s.aliasEdgeEmitted
        transition).map eventOf ∧
      s'.aliasEdgeEmitted = (s.aliasEdgeEmitted || isAliasUsage transition.usage) := by
  unfold stageTransition
  unfold roundEdges at hroom ⊢
  cases halias : isAliasUsage transition.usage with
  | true =>
      simp only [halias, if_true] at hroom ⊢
      cases hemitted : s.aliasEdgeEmitted with
      | true => exact ⟨s, by simp, by simp, by simp [hemitted]⟩
      | false =>
          simp only [hemitted, Bool.false_eq_true, if_false] at hroom ⊢
          rw [appendAliasEdges_eq hroom]
          exact ⟨_, rfl, rfl, rfl⟩
  | false =>
      simp only [halias, Bool.false_eq_true, if_false, Bool.or_false] at hroom ⊢
      cases hmap : mapUsage transition.usage with
      | none => exact ⟨_, rfl, by simp, rfl⟩
      | some key =>
          simp only [hmap, List.map_cons, List.map_nil, List.length_append,
            List.length_singleton] at hroom ⊢
          rw [appendEvent_eq _ _ (by omega)]
          exact ⟨_, rfl, rfl, rfl⟩

/-- The staging of a report's transitions from a staging in progress. -/
def stageFrom (oldModifiers finalModifiers : UInt8) (s : Staging) (transitions : List Transition) :
    Option Staging := do
  let s ← transitions.foldlM (stageTransition oldModifiers finalModifiers) s
  if s.aliasEdgeEmitted then
    some s
  else
    let staged ← appendAliasEdges s.staged oldModifiers finalModifiers
    some { s with staged := staged }

/-- The loop of the adapter and the alias edges behind it stage the edges of the report. -/
theorem stageFrom_eq {s : Staging}
    (hroom : (s.staged ++ (reportEdges oldModifiers finalModifiers s.aliasEdgeEmitted
      transitions).map eventOf).length ≤ maxNeutralEvents) :
    ∃ s', stageFrom oldModifiers finalModifiers s transitions = some s' ∧
      s'.staged = s.staged ++
        (reportEdges oldModifiers finalModifiers s.aliasEdgeEmitted transitions).map eventOf := by
  induction transitions generalizing s with
  | nil =>
      unfold reportEdges at hroom ⊢
      cases hemitted : s.aliasEdgeEmitted with
      | true => exact ⟨s, by simp [stageFrom, hemitted], by simp⟩
      | false =>
          simp only [hemitted, Bool.false_eq_true, if_false] at hroom ⊢
          have hstage : stageFrom oldModifiers finalModifiers s [] =
              some { s with
                staged := s.staged ++ (aliasEdges oldModifiers finalModifiers).map eventOf } := by
            simp [stageFrom, hemitted, appendAliasEdges_eq hroom]
          exact ⟨_, hstage, rfl⟩
  | cons transition transitions ih =>
      simp only [reportEdges, List.map_append, ← List.append_assoc] at hroom ⊢
      have hfirst : (s.staged ++ (roundEdges oldModifiers finalModifiers s.aliasEdgeEmitted
          transition).map eventOf).length ≤ maxNeutralEvents := by
        rw [List.length_append] at hroom
        omega
      obtain ⟨s₁, hstep, hstaged, hemitted⟩ := stageTransition_eq hfirst
      rw [← hstaged, ← hemitted] at hroom ⊢
      obtain ⟨s', hrest, hall⟩ := ih hroom
      refine ⟨s', ?_, hall⟩
      rw [← hrest]
      simp [stageFrom, List.foldlM_cons, hstep]

end Translating

section Room

theorem countP_filterMap_le {α β : Type*} {f : α → Option β} {p : β → Bool} {q : α → Bool}
    {list : List α} (h : ∀ a ∈ list, ∀ b, f a = some b → p b = true → q a = true) :
    (list.filterMap f).countP p ≤ list.countP q := by
  induction list with
  | nil => simp
  | cons a list ih =>
      have hrest := ih fun a' ha' => h a' (List.mem_cons_of_mem _ ha')
      have hfirst := h a List.mem_cons_self
      rw [List.filterMap_cons, List.countP_cons]
      cases hf : f a with
      | none => exact hrest.trans (Nat.le_add_right _ _)
      | some b =>
          simp only [List.countP_cons]
          cases hp : p b with
          | false =>
              simp only [Bool.false_eq_true, if_false, Nat.add_zero]
              exact hrest.trans (Nat.le_add_right _ _)
          | true =>
              rw [hfirst b hf hp]
              simpa using hrest

def plain (transition : Transition) : Bool :=
  !isAliasUsage transition.usage

theorem isAliasUsage_modifierUsage :
    ∀ bit < modifierCount, isAliasUsage (modifierUsage bit) = (bit % 2 == 0) := by
  decide

theorem countP_plain_modifierEvents (previous modifiers : UInt8) :
    (modifierEvents previous modifiers).countP plain ≤ 4 := by
  refine (countP_filterMap_le (q := fun bit => bit % 2 == 1) ?_).trans (by decide)
  intro bit hbit t ht hplain
  have husage : t.usage = modifierUsage bit := by
    split at ht
    · cases ht
      rfl
    · split at ht
      · cases ht
        rfl
      · cases ht
  rw [plain, husage, isAliasUsage_modifierUsage bit (List.mem_range.mp hbit)] at hplain
  simp only [Bool.not_eq_true', beq_eq_false_iff_ne] at hplain
  rw [beq_iff_eq]
  omega

variable {oldModifiers finalModifiers : UInt8} {transitions : List Transition}

theorem aliasEdge_length {mask : UInt8} {key : Key} :
    (aliasEdge oldModifiers finalModifiers mask key).length ≤ 1 := by
  unfold aliasEdge
  split <;> simp

theorem reportEdges_length (emitted : Bool) :
    (reportEdges oldModifiers finalModifiers emitted transitions).length ≤
      transitions.countP plain + if emitted then 0 else 2 := by
  have halias : (aliasEdges oldModifiers finalModifiers).length ≤ 2 := by
    rw [aliasEdges, List.length_append]
    exact Nat.add_le_add aliasEdge_length aliasEdge_length
  induction transitions generalizing emitted with
  | nil =>
      cases emitted with
      | true => simp [reportEdges]
      | false => simpa [reportEdges] using halias
  | cons transition transitions ih =>
      have hrest := ih (emitted || isAliasUsage transition.usage)
      rw [reportEdges, List.length_append, List.countP_cons, roundEdges, plain]
      cases hplain : isAliasUsage transition.usage with
      | true =>
          rw [hplain] at hrest
          cases emitted with
          | true => simpa using hrest
          | false =>
              simp only [Bool.or_true, if_true, Nat.add_zero] at hrest
              simp
              omega
      | false =>
          rw [hplain, Bool.or_false] at hrest
          cases mapUsage transition.usage with
          | none =>
              simp
              omega
          | some key =>
              simp
              omega

theorem mem_reportEdges {emitted : Bool} {edge : Key × Action} :
    edge ∈ reportEdges oldModifiers finalModifiers emitted transitions ↔
      (emitted = false ∧ edge ∈ aliasEdges oldModifiers finalModifiers) ∨
        ∃ t ∈ transitions, isAliasUsage t.usage = false ∧ mapUsage t.usage = some edge.1 ∧
          edgeAction t = edge.2 := by
  induction transitions generalizing emitted with
  | nil => cases emitted <;> simp [reportEdges]
  | cons t transitions ih =>
      rw [reportEdges, List.mem_append, ih]
      simp only [List.exists_mem_cons_iff]
      unfold roundEdges
      cases halias : isAliasUsage t.usage with
      | true => cases emitted <;> simp
      | false =>
          cases hmap : mapUsage t.usage with
          | none => simp
          | some key =>
              obtain ⟨ekey, eaction⟩ := edge
              simp only [Bool.false_eq_true, if_false, List.mem_singleton, Prod.mk.injEq,
                Bool.or_false, true_and, Option.some.injEq]
              constructor
              · rintro (⟨rfl, rfl⟩ | h | h)
                · exact .inr (.inl ⟨rfl, rfl⟩)
                · exact .inl h
                · exact .inr (.inr h)
              · rintro (h | ⟨rfl, rfl⟩ | h)
                · exact .inr (.inl h)
                · exact .inl ⟨rfl, rfl⟩
                · exact .inr (.inr h)

end Room

section Changes

variable {old new : ParserState} {key : Key} {action : Action}

/-- The contact changes the way the action says. -/
def changes (old new : ParserState) (contact : Contact) : Action → Prop
  | .press => ¬ down old contact ∧ down new contact
  | .release => down old contact ∧ ¬ down new contact

/-- A parser state that a report of the right size with modifiers in its first byte only
can leave. -/
structure WellShaped (state : ParserState) : Prop where
  length : state.keys.length = keyCount
  usages : ∀ usage ∈ state.keys, usage < 0xe0

/-- The transitions of a clean report. -/
def cleanEvents (old new : ParserState) : List Transition :=
  modifierEvents old.modifiers new.modifiers ++
    keyEvents .keyRelease old.keys new.keys new.modifiers ++
    keyEvents .keyPress new.keys old.keys new.modifiers

theorem mem_aliasEdge {oldModifiers finalModifiers mask : UInt8} {folded : Key} :
    (key, action) ∈ aliasEdge oldModifiers finalModifiers mask folded ↔
      key = folded ∧ match action with
        | .press => oldModifiers &&& mask = 0 ∧ finalModifiers &&& mask ≠ 0
        | .release => oldModifiers &&& mask ≠ 0 ∧ finalModifiers &&& mask = 0 := by
  unfold aliasEdge
  by_cases hold : oldModifiers &&& mask = 0 <;> by_cases hnew : finalModifiers &&& mask = 0 <;>
    cases action <;> simp [hold, hnew]

theorem mapUsage_modifierUsage : ∀ bit < modifierCount, isAliasUsage (modifierUsage bit) = false →
    mapUsage (modifierUsage bit) =
      if bit = 1 then some .leftShift else if bit = 5 then some .rightShift else none := by
  decide

theorem isAliasUsage_of_lt {usage : UInt8} (h : usage < 0xe0) : isAliasUsage usage = false := by
  unfold isAliasUsage
  have hne : ∀ other : UInt8, 0xe0 ≤ other → usage ≠ other := by
    rintro other hother rfl
    exact absurd h (UInt8.not_lt.mpr hother)
  simp [hne 0xe0 (by decide), hne 0xe2 (by decide), hne 0xe4 (by decide), hne 0xe6 (by decide)]

theorem edgeAction_eq_press {t : Transition} :
    edgeAction t = .press ↔ t.kind = .keyPress ∨ t.kind = .modPress := by
  unfold edgeAction
  split <;> simp_all

theorem edgeAction_eq_release {t : Transition} :
    edgeAction t = .release ↔ ¬ (t.kind = .keyPress ∨ t.kind = .modPress) := by
  unfold edgeAction
  split <;> simp_all

/-- The shifts are the modifiers that are not folded. -/
theorem modifier_edge_iff {previous modifiers : UInt8} :
    (∃ t ∈ modifierEvents previous modifiers, isAliasUsage t.usage = false ∧
      mapUsage t.usage = some key ∧ edgeAction t = action) ↔
      ∃ bit, (bit = 1 ∧ key = .leftShift ∨ bit = 5 ∧ key = .rightShift) ∧
        match action with
        | .press => previous &&& modifierMask bit = 0 ∧ modifiers &&& modifierMask bit ≠ 0
        | .release => previous &&& modifierMask bit ≠ 0 ∧ modifiers &&& modifierMask bit = 0 := by
  constructor
  · rintro ⟨t, ht, hplain, hmap, haction⟩
    obtain ⟨-, bit, hbit, husage, hkind⟩ := (mem_modifierEvents t).mp ht
    rw [husage] at hplain hmap
    rw [mapUsage_modifierUsage bit hbit hplain] at hmap
    refine ⟨bit, ?_, ?_⟩
    · split at hmap
      · exact .inl ⟨‹_›, (Option.some.inj hmap).symm⟩
      · split at hmap
        · exact .inr ⟨‹_›, (Option.some.inj hmap).symm⟩
        · cases hmap
    · cases action with
      | press =>
          rw [edgeAction_eq_press] at haction
          rcases hkind with ⟨-, hbits⟩ | ⟨hkind, -⟩
          · exact hbits
          · simp [hkind] at haction
      | release =>
          rw [edgeAction_eq_release] at haction
          rcases hkind with ⟨hkind, -⟩ | ⟨-, hbits⟩
          · simp [hkind] at haction
          · exact hbits
  · rintro ⟨bit, hkey, hbits⟩
    have hbit : bit < modifierCount ∧ isAliasUsage (modifierUsage bit) = false ∧
        mapUsage (modifierUsage bit) = some key := by
      rcases hkey with ⟨rfl, rfl⟩ | ⟨rfl, rfl⟩ <;> decide
    cases action with
    | press =>
        exact ⟨⟨.modPress, modifierUsage bit, modifiers⟩,
          (mem_modifierEvents _).mpr ⟨rfl, bit, hbit.1, rfl, .inl ⟨rfl, hbits⟩⟩,
          hbit.2.1, hbit.2.2, rfl⟩
    | release =>
        exact ⟨⟨.modRelease, modifierUsage bit, modifiers⟩,
          (mem_modifierEvents _).mpr ⟨rfl, bit, hbit.1, rfl, .inr ⟨rfl, hbits⟩⟩,
          hbit.2.1, hbit.2.2, rfl⟩

theorem key_edge_iff (hold : WellShaped old) (hnew : WellShaped new) :
    (∃ t ∈ keyEvents .keyRelease old.keys new.keys new.modifiers ++
        keyEvents .keyPress new.keys old.keys new.modifiers, isAliasUsage t.usage = false ∧
      mapUsage t.usage = some key ∧ edgeAction t = action) ↔
      ∃ usage, mapUsage usage = some key ∧ changes old new (.usage usage) action := by
  simp only [List.mem_append, mem_keyEvents hold.length, mem_keyEvents hnew.length]
  constructor
  · rintro ⟨t, ⟨hkind, -, hzero, hmem, hnot⟩ | ⟨hkind, -, hzero, hmem, hnot⟩, -, hmap, haction⟩
    · obtain rfl : action = .release := by
        rw [← haction, edgeAction_eq_release]
        simp [hkind]
      exact ⟨t.usage, hmap, ⟨hmem, hzero⟩, fun h => hnot h.1⟩
    · obtain rfl : action = .press := by
        rw [← haction, edgeAction_eq_press]
        exact .inl hkind
      exact ⟨t.usage, hmap, fun h => hnot h.1, ⟨hmem, hzero⟩⟩
  · rintro ⟨usage, hmap, hchanges⟩
    cases action with
    | press =>
        obtain ⟨hup, hmem, hzero⟩ := hchanges
        exact ⟨⟨.keyPress, usage, new.modifiers⟩,
          .inr ⟨rfl, rfl, hzero, hmem, fun h => hup ⟨h, hzero⟩⟩,
          isAliasUsage_of_lt (hnew.usages usage hmem), hmap, rfl⟩
    | release =>
        obtain ⟨⟨hmem, hzero⟩, hup⟩ := hchanges
        exact ⟨⟨.keyRelease, usage, new.modifiers⟩,
          .inl ⟨rfl, rfl, hzero, hmem, fun h => hup ⟨h, hzero⟩⟩,
          isAliasUsage_of_lt (hold.usages usage hmem), hmap, rfl⟩

/-- The edges of a clean report are the contacts that change. -/
theorem mem_cleanEdges (hold : WellShaped old) (hnew : WellShaped new) :
    (key, action) ∈ reportEdges old.modifiers new.modifiers false (cleanEvents old new) ↔
      ∃ contact, contactKey mapUsage contact = some key ∧ changes old new contact action := by
  rw [mem_reportEdges, cleanEvents, List.append_assoc]
  have hsplit : (∃ t ∈ modifierEvents old.modifiers new.modifiers ++
        (keyEvents .keyRelease old.keys new.keys new.modifiers ++
          keyEvents .keyPress new.keys old.keys new.modifiers), isAliasUsage t.usage = false ∧
        mapUsage t.usage = some key ∧ edgeAction t = action) ↔
      (∃ bit, (bit = 1 ∧ key = .leftShift ∨ bit = 5 ∧ key = .rightShift) ∧
        match action with
        | .press => old.modifiers &&& modifierMask bit = 0 ∧ new.modifiers &&& modifierMask bit ≠ 0
        | .release =>
            old.modifiers &&& modifierMask bit ≠ 0 ∧ new.modifiers &&& modifierMask bit = 0) ∨
      ∃ usage, mapUsage usage = some key ∧ changes old new (.usage usage) action := by
    rw [← modifier_edge_iff, ← key_edge_iff hold hnew]
    simp only [List.mem_append (s := modifierEvents old.modifiers new.modifiers), or_and_right,
      exists_or]
  rw [hsplit]
  simp only [true_and, aliasEdges, List.mem_append, mem_aliasEdge]
  constructor
  · rintro ((⟨rfl, h⟩ | ⟨rfl, h⟩) | ⟨bit, ⟨rfl, rfl⟩ | ⟨rfl, rfl⟩, h⟩ | ⟨usage, hmap, h⟩)
    · exact ⟨.control, rfl, by cases action <;> simpa [changes, down] using h⟩
    · exact ⟨.grph, rfl, by cases action <;> simpa [changes, down] using h⟩
    · exact ⟨.leftShift, rfl, by cases action <;> simpa [changes, down] using h⟩
    · exact ⟨.rightShift, rfl, by cases action <;> simpa [changes, down] using h⟩
    · exact ⟨.usage usage, hmap, h⟩
  · rintro ⟨contact, hkey, h⟩
    cases contact with
    | usage usage => exact .inr (.inr ⟨usage, hkey, h⟩)
    | leftShift =>
        cases hkey
        exact .inr (.inl ⟨1, .inl ⟨rfl, rfl⟩, by cases action <;> simpa [changes, down] using h⟩)
    | rightShift =>
        cases hkey
        exact .inr (.inl ⟨5, .inr ⟨rfl, rfl⟩, by cases action <;> simpa [changes, down] using h⟩)
    | control =>
        cases hkey
        exact .inl (.inl ⟨rfl, by cases action <;> simpa [changes, down] using h⟩)
    | grph =>
        cases hkey
        exact .inl (.inr ⟨rfl, by cases action <;> simpa [changes, down] using h⟩)

theorem cleanEdges_length :
    (reportEdges old.modifiers new.modifiers false (cleanEvents old new)).length ≤
      maxNeutralEvents := by
  have hedges : (reportEdges old.modifiers new.modifiers false (cleanEvents old new)).length ≤
      (cleanEvents old new).countP plain + 2 := reportEdges_length false
  have hmodifiers := countP_plain_modifierEvents old.modifiers new.modifiers
  have hkeys : ∀ kind keys others,
      (keyEvents kind keys others new.modifiers).countP plain ≤ keyCount := fun _ _ _ =>
    List.countP_le_length.trans keyEvents_length
  have hrelease := hkeys .keyRelease old.keys new.keys
  have hpress := hkeys .keyPress new.keys old.keys
  simp only [cleanEvents, List.countP_append] at hedges
  simp only [keyCount] at hrelease hpress
  simp only [maxNeutralEvents, maxEvents, modifierCount, keyCount]
  rw [cleanEvents]
  omega

end Changes

end EspNp2.KeyboardInput.UsbEdges
