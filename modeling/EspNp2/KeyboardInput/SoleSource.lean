import Mathlib.Data.Set.Insert
import EspNp2.KeyboardInput.OwnershipRuns

/-!
The ownership engine with one source.  What the engine holds is then a set of keys: a press
adds its key, a release removes it, and the sink has the images of the momentary keys of
that set pressed.
-/

namespace EspNp2.KeyboardInput.SoleSource

open KeyMapping
open Ownership
open OwnershipInvariant
open OwnershipRuns

variable {source : SourceId} {mode : ShiftMode} {held : Set Key} {engine : OwnershipEngine}
  {key : Key} {id mapped : FrontendKeyId}

/-- The engine is ready and one source holds the given keys, all pressed in one shift mode. -/
structure Sole (source : SourceId) (mode : ShiftMode) (held : Set Key) (engine : OwnershipEngine) :
    Prop where
  consistent : Consistent engine
  ready : engine.state = .ready
  shift : engine.shiftMode = mode
  sole : ∀ i, (engine.sources i).active = true → (engine.sources i).id = source
  held : ∀ key, key ∈ held ↔
    ∃ i, (engine.sources i).active = true ∧ (engine.sources i).held key = true
  effective : ∀ i key, (engine.sources i).active = true → (engine.sources i).held key = true →
    ∃ mapped, toFrontendKeyId key = some mapped ∧
      (engine.sources i).effectiveIds key = effectiveFrontendKeyId mapped mode

theorem sole_initial (source : SourceId) (mode : ShiftMode) :
    Sole source mode ∅ { shiftMode := mode } := by
  refine ⟨consistent_initial mode, rfl, rfl, ?_, ?_, ?_⟩
  · rintro i ⟨⟩
  · intro key
    simp
  · rintro i key ⟨⟩

/-- The momentary keys of a set under the ids they are injected with. -/
def Injects (mode : ShiftMode) (held : Set Key) (id : FrontendKeyId) : Prop :=
  ∃ key ∈ held, isToggleKey key = false ∧
    ∃ mapped, toFrontendKeyId key = some mapped ∧ effectiveFrontendKeyId mapped mode = id

theorem Sole.pressed_iff (h : Sole source mode held engine) (hid : momentary id = true) :
    pressed id engine.calls ↔ Injects mode held id := by
  rw [h.consistent.balanced.accounted.pressed id hid, owners_pos_iff]
  constructor
  · rintro ⟨i, key, hactive, hheld, htoggle, heffective⟩
    obtain ⟨mapped, hmapped, hsame⟩ := h.effective i key hactive hheld
    exact ⟨key, (h.held key).mpr ⟨i, hactive, hheld⟩, htoggle, mapped, hmapped,
      hsame.symm.trans heffective⟩
  · rintro ⟨key, hkey, htoggle, mapped, hmapped, heffective⟩
    obtain ⟨i, hactive, hheld⟩ := (h.held key).mp hkey
    obtain ⟨mapped', hmapped', hsame⟩ := h.effective i key hactive hheld
    obtain rfl : mapped = mapped' := Option.some.inj (hmapped.symm.trans hmapped')
    exact ⟨i, key, hactive, hheld, htoggle, hsame.trans heffective⟩

theorem ofValue_value (key : Key) : Key.ofValue key.value = key := by
  cases key <;> rfl

theorem isValidEvent_edge (hsource : source.valid = true)
    (hmapped : toFrontendKeyId key = some mapped)
    (action : Action) : isValidEvent (.edge source key action) = true := by
  have hkey : (decide (key.value ≠ Key.unknown.value) && decide (key.value < Key.count.value)) =
      true := by
    cases key <;> first | decide | cases hmapped
  have haction : validAction action.value = true := by
    cases action <;> rfl
  simp only [isValidEvent, Event.edge, hsource, haction, Bool.and_true,
    Bool.true_and]
  exact hkey

theorem process_edge (hready : engine.state = .ready) (hsource : source.valid = true)
    (hmapped : toFrontendKeyId key = some mapped) (action : Action) :
    engine.process (.edge source key action) =
      if action.value = Action.press.value then
        engine.processPress source key (effectiveFrontendKeyId mapped engine.shiftMode)
      else
        engine.processRelease source key := by
  unfold OwnershipEngine.process
  rw [if_neg (by simp [hready]), if_neg (by simp [isValidEvent_edge hsource hmapped])]
  simp only [Event.edge, ofValue_value, hmapped]

/-- A slot of the source can be found or taken. -/
theorem Sole.slot_cases (h : Sole source mode held engine) :
    (∃ i, engine.findSource source = some i) ∨
      (engine.findSource source = none ∧ (∀ i, (engine.sources i).active = false) ∧
        ∃ i, engine.freeSlot = some i) := by
  cases hfind : engine.findSource source with
  | some i => exact .inl ⟨i, rfl⟩
  | none =>
      have hinactive : ∀ i, (engine.sources i).active = false := by
        intro i
        rw [← Bool.not_eq_true]
        exact fun hactive => findSource_eq_none hfind hactive (h.sole i hactive)
      refine .inr ⟨rfl, hinactive, ?_⟩
      refine Option.isSome_iff_exists.mp (List.find?_isSome.mpr ⟨⟨0, by decide⟩, ?_, ?_⟩)
      · exact List.mem_finRange _
      · simp [hinactive]

theorem Sole.found (h : Sole source mode held engine) {i : Fin maxActiveSources}
    (hfind : engine.findSource source = some i) (key : Key) :
    key ∈ held ↔ (engine.sources i).held key = true := by
  obtain ⟨hactive, hid⟩ := findSource_eq_some hfind
  rw [h.held]
  constructor
  · rintro ⟨j, hj, hheld⟩
    obtain rfl : j = i :=
      h.consistent.balanced.distinct j i hj hactive ((h.sole j hj).trans hid.symm)
    exact hheld
  · exact fun hheld => ⟨i, hactive, hheld⟩

/-- The press of a key in a slot of the source. -/
theorem sole_takeKey {engine' : OwnershipEngine} {i : Fin maxActiveSources}
    (hconsistent : Consistent engine') (hready : engine'.state = .ready)
    (hmode : engine'.shiftMode = mode)
    (hsources : engine'.sources =
      (engine.takeKey i key (effectiveFrontendKeyId mapped mode)).sources)
    (hmapped : toFrontendKeyId key = some mapped) (hactive : (engine.sources i).active = true)
    (hsole : ∀ j, (engine.sources j).active = true → (engine.sources j).id = source ∧ j = i)
    (hheld : ∀ key, key ∈ held ↔ (engine.sources i).held key = true)
    (heffective : ∀ key, (engine.sources i).held key = true →
      ∃ mapped, toFrontendKeyId key = some mapped ∧
        (engine.sources i).effectiveIds key = effectiveFrontendKeyId mapped mode) :
    Sole source mode (insert key held) engine' := by
  have hslot : engine'.sources i = { engine.sources i with
      held := Function.update (engine.sources i).held key true
      effectiveIds := Function.update (engine.sources i).effectiveIds key
        (effectiveFrontendKeyId mapped mode) } := by
    rw [hsources]
    simp [OwnershipEngine.takeKey, OwnershipEngine.setSlot]
  have hactives : ∀ j, (engine'.sources j).active = true → j = i := by
    intro j hj
    rw [hsources, (takeKey_slots i j).1] at hj
    exact (hsole j hj).2
  refine ⟨hconsistent, hready, hmode, fun j hj => ?_, fun other => ?_, fun j other hj hother => ?_⟩
  · rw [hsources, (takeKey_slots i j).1] at hj
    rw [hsources, (takeKey_slots i j).2]
    exact (hsole j hj).1
  · rw [Set.mem_insert_iff, hheld]
    constructor
    · intro hother
      refine ⟨i, by rw [hslot]; exact hactive, ?_⟩
      rw [hslot]
      by_cases heq : other = key
      · simp [heq]
      · simpa [heq] using hother
    · rintro ⟨j, hj, hother⟩
      obtain rfl := hactives j hj
      rw [hslot] at hother
      by_cases heq : other = key
      · exact .inl heq
      · exact .inr (by simpa [heq] using hother)
  · obtain rfl := hactives j hj
    rw [hslot] at hother ⊢
    by_cases heq : other = key
    · subst heq
      exact ⟨mapped, hmapped, by simp⟩
    · obtain ⟨mapped', hmapped', hsame⟩ := heffective other (by simpa [heq] using hother)
      exact ⟨mapped', hmapped', by simpa [heq] using hsame⟩

/-- The result of a press in a slot: a duplicate when the key is held, accepted otherwise. -/
theorem pressHeld_result {i : Fin maxActiveSources} {effective : FrontendKeyId} :
    ((engine.pressHeld i key effective).1 = .injected ∨
      (engine.pressHeld i key effective).1 = .accepted) ↔ (engine.sources i).held key = false := by
  unfold OwnershipEngine.pressHeld
  split
  · rename_i hheld
    simp [hheld]
  · rename_i hheld
    dsimp only
    split
    · simpa using hheld
    · split <;> simpa using hheld

theorem pressHeld_shift {i : Fin maxActiveSources} {effective : FrontendKeyId} :
    (engine.pressHeld i key effective).2.shiftMode = engine.shiftMode := by
  unfold OwnershipEngine.pressHeld OwnershipEngine.addOwner
  split
  · rfl
  · dsimp only
    split
    · rfl
    · dsimp only
      split <;> rfl

theorem process_press (h : Sole source mode held engine) (hsource : source.valid = true)
    (hmapped : toFrontendKeyId key = some mapped) :
    Sole source mode (insert key held) (engine.process (.edge source key .press)).2 ∧
      (((engine.process (.edge source key .press)).1 = .injected ∨
        (engine.process (.edge source key .press)).1 = .accepted) ↔ key ∉ held) := by
  have hconsistent := consistent_process h.consistent (.edge source key .press)
  have hprocess : engine.process (.edge source key .press) =
      engine.processPress source key (effectiveFrontendKeyId mapped mode) := by
    rw [process_edge h.ready hsource hmapped, h.shift]
    rfl
  rw [hprocess] at hconsistent ⊢
  unfold OwnershipEngine.processPress at hconsistent ⊢
  rcases h.slot_cases with ⟨i, hfind⟩ | ⟨hfind, hinactive, i, hfree⟩
  · obtain ⟨hactive, hid⟩ := findSource_eq_some hfind
    have hfound := h.found hfind
    simp only [hfind] at hconsistent ⊢
    refine ⟨?_, pressHeld_result.trans ?_⟩
    · cases hheld : (engine.sources i).held key with
      | true =>
          rw [Set.insert_eq_of_mem ((hfound key).mpr hheld)]
          simp only [OwnershipEngine.pressHeld, hheld, if_true] at hconsistent ⊢
          exact ⟨hconsistent, h.ready, h.shift, h.sole, h.held, h.effective⟩
      | false =>
          refine sole_takeKey hconsistent (pressHeld_recovery.2.trans h.ready)
            (pressHeld_shift.trans h.shift) (pressHeld_sources hheld) hmapped hactive
            (fun j hj => ⟨h.sole j hj, ?_⟩) hfound fun other => h.effective i other hactive
          exact h.consistent.balanced.distinct j i hj hactive ((h.sole j hj).trans hid.symm)
    · rw [hfound, Bool.not_eq_true]
  · have hempty : ∀ other, other ∉ held := by
      intro other hother
      obtain ⟨j, hj, -⟩ := (h.held other).mp hother
      rw [hinactive j] at hj
      cases hj
    have hallocate : engine.allocateSource source =
        some (i, engine.setSlot i { active := true, id := source }) := by
      rw [OwnershipEngine.allocateSource, hfree]
      rfl
    simp only [hfind, hallocate] at hconsistent ⊢
    have hslot : (engine.setSlot i { active := true, id := source }).sources i =
        { active := true, id := source } := by
      simp [OwnershipEngine.setSlot]
    refine ⟨?_, pressHeld_result.trans ?_⟩
    · refine sole_takeKey hconsistent (pressHeld_recovery.2.trans h.ready)
        (pressHeld_shift.trans h.shift) (pressHeld_sources (by rw [hslot])) hmapped
        (by rw [hslot]) (fun j hj => ?_) (fun other => ?_) fun other hother => ?_
      · by_cases hji : j = i
        · subst hji
          exact ⟨by rw [hslot], rfl⟩
        · simp only [OwnershipEngine.setSlot, Function.update_of_ne hji, hinactive j] at hj
          cases hj
      · simp [hempty other, hslot]
      · rw [hslot] at hother
        cases hother
    · simp [hempty key, hslot]

/-- What is left after a key was given up. -/
theorem sole_leaveKey {engine' : OwnershipEngine} (h : Sole source mode held engine)
    (hconsistent : Consistent engine') (hready : engine'.state = .ready)
    (hshift : engine'.shiftMode = mode) {i : Fin maxActiveSources}
    (hfind : engine.findSource source = some i)
    (hsources : engine'.sources = (engine.leaveKey i key).sources ∨
      (engine'.sources = ((engine.leaveKey i key).setSlot i {}).sources ∧
        ∀ other, ((engine.leaveKey i key).sources i).held other = false)) :
    Sole source mode (held \ {key}) engine' := by
  obtain ⟨hactive, hid⟩ := findSource_eq_some hfind
  have hfound := h.found hfind
  have hslot : (engine.leaveKey i key).sources i = { engine.sources i with
      held := Function.update (engine.sources i).held key false
      effectiveIds := Function.update (engine.sources i).effectiveIds key .escape } := by
    simp [OwnershipEngine.leaveKey, OwnershipEngine.setSlot]
  have honly : ∀ j, (engine.sources j).active = true → j = i := fun j hj =>
    h.consistent.balanced.distinct j i hj hactive ((h.sole j hj).trans hid.symm)
  have hmem : ∀ other, other ∈ held \ {key} ↔
      ((engine.leaveKey i key).sources i).held other = true := by
    intro other
    rw [hslot, Set.mem_sdiff, Set.mem_singleton_iff, hfound]
    by_cases heq : other = key
    · simp [heq]
    · simp [heq]
  rcases hsources with hsources | ⟨hsources, hnone⟩
  · refine ⟨hconsistent, hready, hshift, fun j hj => ?_, fun other => ?_,
      fun j other hj hother => ?_⟩
    · rw [hsources, (leaveKey_slots i j).1] at hj
      rw [hsources, (leaveKey_slots i j).2]
      exact h.sole j hj
    · rw [hmem, hsources]
      constructor
      · exact fun hother => ⟨i, (leaveKey_slots i i).1.trans hactive, hother⟩
      · rintro ⟨j, hj, hother⟩
        rw [(leaveKey_slots i j).1] at hj
        rwa [honly j hj] at hother
    · rw [hsources] at hj hother ⊢
      rw [(leaveKey_slots i j).1] at hj
      obtain rfl := honly j hj
      rw [hslot] at hother ⊢
      by_cases heq : other = key
      · simp [heq] at hother
      · simpa [heq] using h.effective j other hj (by simpa [heq] using hother)
  · have hgone : ∀ j, (engine'.sources j).active = false := by
      intro j
      rw [hsources, ← Bool.not_eq_true]
      intro hj
      by_cases hji : j = i
      · subst hji
        simp [OwnershipEngine.setSlot] at hj
      · simp only [OwnershipEngine.setSlot, Function.update_of_ne hji] at hj
        rw [(leaveKey_slots i j).1] at hj
        exact hji (honly j hj)
    refine ⟨hconsistent, hready, hshift, fun j hj => ?_, fun other => ?_, fun j other hj => ?_⟩
    · rw [hgone j] at hj
      cases hj
    · rw [hmem, hnone other]
      simp [hgone]
    · rw [hgone j] at hj
      cases hj

theorem giveUp_shift {i : Fin maxActiveSources} :
    (engine.giveUp i key).shiftMode = engine.shiftMode := by
  unfold OwnershipEngine.giveUp OwnershipEngine.dropOwner
  dsimp only
  split
  · rfl
  · split
    · split <;> rfl
    · rfl

theorem process_release (h : Sole source mode held engine) (hsource : source.valid = true)
    (hmapped : toFrontendKeyId key = some mapped) :
    Sole source mode (held \ {key}) (engine.process (.edge source key .release)).2 := by
  have hconsistent := consistent_process h.consistent (.edge source key .release)
  have hprocess : engine.process (.edge source key .release) =
    engine.processRelease source key := by
    rw [process_edge h.ready hsource hmapped]
    rfl
  rw [hprocess] at hconsistent ⊢
  have hkeep : key ∉ held → Consistent engine.countDuplicate →
      Sole source mode (held \ {key}) engine.countDuplicate := by
    intro hnot hcounted
    rw [Set.sdiff_singleton_eq_self hnot]
    exact ⟨hcounted, h.ready, h.shift, h.sole, h.held, h.effective⟩
  unfold OwnershipEngine.processRelease at hconsistent ⊢
  cases hfind : engine.findSource source with
  | none =>
      simp only [hfind] at hconsistent ⊢
      refine hkeep (fun hmem => ?_) hconsistent
      obtain ⟨j, hj, -⟩ := (h.held key).mp hmem
      exact findSource_eq_none hfind hj (h.sole j hj)
  | some i =>
      simp only [hfind] at hconsistent ⊢
      cases hheld : (engine.sources i).held key with
      | false =>
          simp only [hheld, Bool.false_eq_true, if_false] at hconsistent ⊢
          exact hkeep (by rw [h.found hfind, hheld]; exact Bool.false_ne_true) hconsistent
      | true =>
          simp only [hheld, if_true] at hconsistent ⊢
          have hsources : (engine.countAccepted.giveUp i key).sources =
              (engine.leaveKey i key).sources := giveUp_sources
          have hready : (engine.countAccepted.giveUp i key).state = .ready :=
            giveUp_recovery.2.trans h.ready
          have hshift : (engine.countAccepted.giveUp i key).shiftMode = mode :=
            giveUp_shift.trans h.shift
          split at hconsistent
          · rename_i hsome
            rw [if_pos hsome]
            exact sole_leaveKey h hconsistent hready hshift hfind (.inl hsources)
          · rename_i hnone
            rw [if_neg hnone]
            refine sole_leaveKey h hconsistent hready hshift hfind (.inr ⟨?_, fun other => ?_⟩)
            · simp only [OwnershipEngine.setSlot, hsources]
            · rw [hsources, hasHeldKeys_iff, not_exists] at hnone
              exact Bool.eq_false_iff.mpr (hnone other)

section Edges

variable {edges : List (Key × Action)}

/-- The keys held after an edge. -/
def applyEdge (held : Set Key) (edge : Key × Action) : Set Key :=
  match edge.2 with
  | .press => insert edge.1 held
  | .release => held \ {edge.1}

def deliver (source : SourceId) (engine : OwnershipEngine) (edges : List (Key × Action)) :
    OwnershipEngine :=
  edges.foldl (fun engine edge => (engine.process (.edge source edge.1 edge.2)).2) engine

/-- Every edge is of a key that has a frontend id. -/
def Proper (edges : List (Key × Action)) : Prop :=
  ∀ edge ∈ edges, ∃ mapped, toFrontendKeyId edge.1 = some mapped

theorem sole_process (h : Sole source mode held engine) (hsource : source.valid = true)
    (hmapped : toFrontendKeyId key = some mapped) (action : Action) :
    Sole source mode (applyEdge held (key, action))
      (engine.process (.edge source key action)).2 := by
  cases action with
  | press => exact (process_press h hsource hmapped).1
  | release => exact process_release h hsource hmapped

theorem sole_deliver (h : Sole source mode held engine) (hsource : source.valid = true)
    (hproper : Proper edges) :
    Sole source mode (edges.foldl applyEdge held) (deliver source engine edges) := by
  induction edges generalizing held engine with
  | nil => exact h
  | cons edge edges ih =>
      obtain ⟨mapped, hmapped⟩ := hproper edge (by simp)
      exact ih (sole_process h hsource hmapped edge.2) fun other hother =>
        hproper other (List.mem_cons_of_mem _ hother)

theorem mem_applyEdge_of_ne {other : Key} {action : Action} (hne : other ≠ key) :
    key ∈ applyEdge held (other, action) ↔ key ∈ held := by
  cases action with
  | press => simp [applyEdge, Ne.symm hne]
  | release => simp [applyEdge, Ne.symm hne]

/-- A key is down after some edges because it was pressed, or because it was down and not
released. -/
theorem mem_applyEdges (h : key ∈ edges.foldl applyEdge held) :
    (key, .press) ∈ edges ∨ (key ∈ held ∧ (key, .release) ∉ edges) := by
  induction edges generalizing held with
  | nil => exact .inr ⟨h, by simp⟩
  | cons edge edges ih =>
      obtain ⟨other, action⟩ := edge
      rcases ih h with hpress | ⟨hmem, hrelease⟩
      · exact .inl (List.mem_cons_of_mem _ hpress)
      · by_cases heq : other = key
        · subst heq
          cases action with
          | press => exact .inl List.mem_cons_self
          | release => simp [applyEdge] at hmem
        · refine .inr ⟨(mem_applyEdge_of_ne heq).mp hmem, ?_⟩
          simp [Ne.symm heq, hrelease]

theorem mem_applyEdges_of_down (hmem : key ∈ held) (hrelease : (key, .release) ∉ edges) :
    key ∈ edges.foldl applyEdge held := by
  induction edges generalizing held with
  | nil => exact hmem
  | cons edge edges ih =>
      obtain ⟨other, action⟩ := edge
      simp only [List.mem_cons, not_or] at hrelease
      refine ih ?_ hrelease.2
      by_cases heq : other = key
      · subst heq
        cases action with
        | press => simp [applyEdge]
        | release => exact absurd rfl hrelease.1
      · exact (mem_applyEdge_of_ne heq).mpr hmem

theorem mem_applyEdges_of_press (hpress : (key, .press) ∈ edges)
    (hrelease : (key, .release) ∉ edges) : key ∈ edges.foldl applyEdge held := by
  induction edges generalizing held with
  | nil => cases hpress
  | cons edge edges ih =>
      simp only [List.mem_cons, not_or] at hpress hrelease
      rcases hpress with rfl | hpress
      · rw [List.foldl_cons]
        exact mem_applyEdges_of_down (by simp [applyEdge]) hrelease.2
      · exact ih hpress hrelease.2

variable {toggle : Key}

theorem count_press_edge (h : Sole source mode held engine) (hsource : source.valid = true)
    (hmapped : toFrontendKeyId key = some mapped) (htoggle : isToggleKey toggle = true)
    (hid : toFrontendKeyId toggle = some id) (action : Action) :
    (key = toggle ∧ action = .press ∧ toggle ∉ held →
      (engine.process (.edge source key action)).2.calls.count (.press id) =
        engine.calls.count (.press id) + 1) ∧
    (¬ (key = toggle ∧ action = .press ∧ toggle ∉ held) →
      (engine.process (.edge source key action)).2.calls.count (.press id) =
        engine.calls.count (.press id)) := by
  have hcount := count_press_perform engine htoggle hid (.process (.edge source key action))
  simp only [perform] at hcount
  have haccepts : acceptsPress toggle engine (.process (.edge source key action)) = true ↔
      key = toggle ∧ action = .press ∧ toggle ∉ held := by
    cases action with
    | release => simp [acceptsPress, Action.value]
    | press =>
        have hresult := (process_press h hsource hmapped).2
        simp only [acceptsPress, Event.edge_key, Event.edge_action, ofValue_value, decide_true,
          Bool.true_and, Bool.and_eq_true, Bool.or_eq_true, decide_eq_true_eq, hresult]
        constructor
        · rintro ⟨rfl, hnot⟩
          exact ⟨rfl, trivial, hnot⟩
        · rintro ⟨rfl, -, hnot⟩
          exact ⟨rfl, hnot⟩
  constructor
  · intro hfresh
    rw [hcount, haccepts.mpr hfresh, Bool.toNat_true]
  · intro hfresh
    rw [hcount, Bool.eq_false_iff.mpr (mt haccepts.mp hfresh), Bool.toNat_false, Nat.add_zero]

/-- Edges that do not press a toggle that is up leave its presses alone. -/
theorem count_press_deliver_same (h : Sole source mode held engine) (hsource : source.valid = true)
    (hproper : Proper edges) (htoggle : isToggleKey toggle = true)
    (hid : toFrontendKeyId toggle = some id)
    (hquiet : (toggle, .press) ∉ edges ∨ (toggle ∈ held ∧ (toggle, .release) ∉ edges)) :
    (deliver source engine edges).calls.count (.press id) = engine.calls.count (.press id) := by
  induction edges generalizing held engine with
  | nil => rfl
  | cons edge edges ih =>
      obtain ⟨key, action⟩ := edge
      obtain ⟨mapped, hmapped⟩ := hproper (key, action) (by simp)
      have hnext := sole_process h hsource hmapped action
      have hfirst : ¬ (key = toggle ∧ action = .press ∧ toggle ∉ held) := by
        rintro ⟨rfl, rfl, hnot⟩
        rcases hquiet with hquiet | ⟨hmem, -⟩
        · exact hquiet List.mem_cons_self
        · exact hnot hmem
      refine (ih hnext (fun other hother => hproper other (List.mem_cons_of_mem _ hother)) ?_).trans
        ((count_press_edge h hsource hmapped htoggle hid action).2 hfirst)
      simp only [List.mem_cons, not_or] at hquiet
      rcases hquiet with hquiet | ⟨hmem, hrelease⟩
      · exact .inl hquiet.2
      · refine .inr ⟨?_, hrelease.2⟩
        have hedge : (toggle, .release) ∉ [(key, action)] := by simpa using hrelease.1
        exact mem_applyEdges_of_down hmem hedge

theorem count_press_deliver_fresh (h : Sole source mode held engine) (hsource : source.valid = true)
    (hproper : Proper edges) (htoggle : isToggleKey toggle = true)
    (hid : toFrontendKeyId toggle = some id) (hup : toggle ∉ held)
    (hpress : (toggle, .press) ∈ edges) (hrelease : (toggle, .release) ∉ edges) :
    (deliver source engine edges).calls.count (.press id) = engine.calls.count (.press id) + 1 := by
  induction edges generalizing held engine with
  | nil => cases hpress
  | cons edge edges ih =>
      obtain ⟨key, action⟩ := edge
      obtain ⟨mapped, hmapped⟩ := hproper (key, action) (by simp)
      have hnext := sole_process h hsource hmapped action
      have hrest : Proper edges := fun other hother => hproper other (List.mem_cons_of_mem _ hother)
      have hstep := count_press_edge h hsource hmapped htoggle hid action
      simp only [List.mem_cons, not_or] at hpress hrelease
      by_cases heq : key = toggle
      · subst heq
        cases action with
        | press =>
            refine (count_press_deliver_same hnext hsource hrest htoggle hid
              (.inr ⟨by simp [applyEdge], hrelease.2⟩)).trans (hstep.1 ⟨rfl, rfl, hup⟩)
        | release => exact absurd rfl hrelease.1
      · rcases hpress with hpress | hpress
        · exact absurd (congrArg Prod.fst hpress).symm heq
        · refine (ih hnext hrest (mt (mem_applyEdge_of_ne heq).mp hup) hpress hrelease.2).trans ?_
          rw [hstep.2 fun hfresh => heq hfresh.1]

end Edges

end EspNp2.KeyboardInput.SoleSource
