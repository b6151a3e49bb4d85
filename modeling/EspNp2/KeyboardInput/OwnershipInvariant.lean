import Mathlib.Data.Finset.Card
import Mathlib.Data.Fintype.Prod
import Mathlib.Tactic.Ring
import EspNp2.KeyboardInput.Ownership

/-!
What the ownership engine keeps true between calls.  The owners of a frontend key are the
pairs of an active slot and a momentary key it holds under that id; the counters count
them, and the sink has heard an alternation of presses and releases that ends with a press
exactly when there is an owner.
-/

namespace EspNp2.KeyboardInput.OwnershipInvariant

open KeyMapping
open Ownership

section Counting

variable {α : Type*} [Fintype α] [DecidableEq α] {p q : α → Prop} [DecidablePred p]
  [DecidablePred q]

theorem card_filter_grow {a : α} (hp : ¬ p a) (hq : q a) (h : ∀ b, b ≠ a → (q b ↔ p b)) :
    (Finset.univ.filter q).card = (Finset.univ.filter p).card + 1 := by
  have hinsert : Finset.univ.filter q = insert a (Finset.univ.filter p) := by
    ext b
    by_cases hb : b = a
    · simp [hb, hq]
    · simp [hb, h b hb]
  rw [hinsert, Finset.card_insert_of_notMem (by simp [hp])]

end Counting

section Sink

def momentary (key : FrontendKeyId) : Bool :=
  key ≠ .capsLock && key ≠ .kana

/-- The edges of a key that the sink has heard since the last `allRelease`; a press is
`true`. -/
def edges (key : FrontendKeyId) (calls : List SinkCall) : List Bool :=
  calls.foldl (fun heard call =>
    match call with
    | .press other => if other = key then heard ++ [true] else heard
    | .release other => if other = key then heard ++ [false] else heard
    | .allRelease => []) []

/-- Press, release, press and so on. -/
def Alternating (heard : List Bool) : Prop :=
  ∀ n (h : n < heard.length), heard[n] = (n % 2 == 0)

def pressed (key : FrontendKeyId) (calls : List SinkCall) : Prop :=
  (edges key calls).getLast? = some true

variable {key other : FrontendKeyId} {calls : List SinkCall} {heard : List Bool}

@[simp] theorem edges_press : edges key (calls ++ [.press other]) =
    if other = key then edges key calls ++ [true] else edges key calls := by
  simp [edges]

@[simp] theorem edges_release : edges key (calls ++ [.release other]) =
    if other = key then edges key calls ++ [false] else edges key calls := by
  simp [edges]

@[simp] theorem edges_allRelease : edges key (calls ++ [.allRelease]) = [] := by
  simp [edges]

theorem alternating_nil : Alternating [] := by
  intro n h
  simp at h

theorem alternating_append (edge : Bool) :
    Alternating (heard ++ [edge]) ↔
      Alternating heard ∧ edge = (heard.length % 2 == 0) := by
  constructor
  · intro h
    refine ⟨fun n hn => ?_, ?_⟩
    · have hget := h n (by simp; omega)
      rwa [List.getElem_append_left hn] at hget
    · simpa using h heard.length (by simp)
  · rintro ⟨h, hedge⟩ n hn
    rcases Nat.lt_or_ge n heard.length with hlt | hge
    · rw [List.getElem_append_left hlt]
      exact h n hlt
    · obtain rfl : n = heard.length := by
        simp at hn
        omega
      simpa using hedge

/-- An alternation ends with a press when its length is odd. -/
theorem getLast?_of_alternating (h : Alternating heard) :
    heard.getLast? = some true ↔ heard.length % 2 = 1 := by
  rcases List.eq_nil_or_concat heard with rfl | ⟨front, edge, rfl⟩
  · simp
  · rw [List.concat_eq_append] at h ⊢
    have hedge := ((alternating_append edge).mp h).2
    simp only [List.getLast?_append, List.getLast?_singleton, Option.some_or, Option.some.injEq,
      List.length_append, List.length_singleton, hedge, beq_iff_eq]
    omega

end Sink

section Accounts

/-- The counters and the sink agree with a number of owners for each key. -/
structure Accounted (owners : FrontendKeyId → Nat) (engine : OwnershipEngine) : Prop where
  counts : ∀ key, (engine.ownerCounts key).toNat = owners key
  alternating : ∀ key, momentary key = true → Alternating (edges key engine.calls)
  pressed : ∀ key, momentary key = true → (pressed key engine.calls ↔ 0 < owners key)
  toggle : ∀ key, momentary key = false → owners key = 0 ∧ .release key ∉ engine.calls

variable {owners : FrontendKeyId → Nat} {engine : OwnershipEngine} {key : FrontendKeyId}

theorem Accounted.odd (h : Accounted owners engine) (hkey : momentary key = true) :
    (edges key engine.calls).length % 2 = 1 ↔ 0 < owners key := by
  rw [← h.pressed key hkey, OwnershipInvariant.pressed,
    getLast?_of_alternating (h.alternating key hkey)]

theorem accounted_pressSink (h : Accounted owners engine) (hkey : momentary key = false) :
    Accounted owners (engine.pressSink key) := by
  have hne : ∀ other, momentary other = true → key ≠ other := by
    rintro other hother rfl
    rw [hkey] at hother
    cases hother
  refine ⟨h.counts, fun other hother => ?_, fun other hother => ?_, fun other hother => ?_⟩
  · simpa [OwnershipEngine.pressSink, hne other hother] using h.alternating other hother
  · simpa [OwnershipEngine.pressSink, pressed, hne other hother] using h.pressed other hother
  · simpa [OwnershipEngine.pressSink] using h.toggle other hother

theorem accounted_addOwner (h : Accounted owners engine) (hkey : momentary key = true)
    (hbound : owners key + 1 < 2 ^ 16) :
    Accounted (Function.update owners key (owners key + 1)) (engine.addOwner key) := by
  have hcount := h.counts key
  have hodd := h.odd hkey
  have hzero : engine.ownerCounts key = 0 ↔ owners key = 0 := by
    rw [← hcount, ← UInt16.toNat_inj]
    rfl
  have hcounts : (engine.addOwner key).ownerCounts =
      Function.update engine.ownerCounts key (engine.ownerCounts key + 1) := by
    unfold OwnershipEngine.addOwner
    split <;> rfl
  have hcalls : (engine.addOwner key).calls =
      if owners key = 0 then engine.calls ++ [.press key] else engine.calls := by
    unfold OwnershipEngine.addOwner
    by_cases hz : owners key = 0
    · simp only [hzero.mpr hz, hz, if_true]
      rfl
    · simp only [mt hzero.mp hz, hz, if_false]
      rfl
  refine ⟨fun other => ?_, fun other hother => ?_, fun other hother => ?_, fun other hother => ?_⟩
  · rw [hcounts]
    by_cases hother : other = key
    · subst hother
      simp only [Function.update_self, UInt16.toNat_add, hcount]
      exact Nat.mod_eq_of_lt (by simpa using hbound)
    · simpa [Function.update_of_ne hother] using h.counts other
  · rw [hcalls]
    split
    · rw [edges_press]
      split
      · subst other
        refine (alternating_append true).mpr ⟨h.alternating key hkey, ?_⟩
        rw [eq_comm, beq_iff_eq]
        omega
      · exact h.alternating other hother
    · exact h.alternating other hother
  · have hkeep := h.pressed other hother
    rw [hcalls]
    by_cases heq : other = key
    · subst heq
      rw [Function.update_self]
      split
      · simp [pressed]
      · rw [hkeep]
        omega
    · rw [Function.update_of_ne heq]
      split
      · simpa [pressed, Ne.symm heq] using hkeep
      · exact hkeep
  · have hne : other ≠ key := by
      rintro rfl
      rw [hkey] at hother
      cases hother
    rw [Function.update_of_ne hne, hcalls]
    have hkeep := h.toggle other hother
    split
    · simpa using hkeep
    · exact hkeep

theorem accounted_dropOwner (h : Accounted owners engine) (hkey : momentary key = true)
    (hpos : 0 < owners key) :
    Accounted (Function.update owners key (owners key - 1)) (engine.dropOwner key) := by
  have hcount := h.counts key
  have hodd := h.odd hkey
  have hle : 1 ≤ engine.ownerCounts key := by
    rw [UInt16.le_iff_toNat_le, hcount]
    exact hpos
  have hsub : (engine.ownerCounts key - 1).toNat = owners key - 1 := by
    rw [UInt16.toNat_sub_of_le _ _ hle, hcount]
    rfl
  have hzero : engine.ownerCounts key - 1 = 0 ↔ owners key = 1 := by
    rw [← UInt16.toNat_inj, hsub, UInt16.toNat_zero]
    omega
  have hlt : 0 < engine.ownerCounts key := by
    rw [UInt16.lt_iff_toNat_lt, hcount]
    exact hpos
  have hcounts : (engine.dropOwner key).ownerCounts =
      Function.update engine.ownerCounts key (engine.ownerCounts key - 1) := by
    unfold OwnershipEngine.dropOwner
    rw [if_pos hlt]
    dsimp only
    split <;> rfl
  have hcalls : (engine.dropOwner key).calls =
      if owners key = 1 then engine.calls ++ [.release key] else engine.calls := by
    unfold OwnershipEngine.dropOwner
    rw [if_pos hlt]
    simp only [OwnershipEngine.setCount, Function.update_self, hzero]
    split <;> rfl
  refine ⟨fun other => ?_, fun other hother => ?_, fun other hother => ?_, fun other hother => ?_⟩
  · rw [hcounts]
    by_cases hother : other = key
    · subst hother
      simpa only [Function.update_self] using hsub
    · simpa [Function.update_of_ne hother] using h.counts other
  · rw [hcalls]
    split
    · rw [edges_release]
      split
      · subst other
        refine (alternating_append false).mpr ⟨h.alternating key hkey, ?_⟩
        rw [eq_comm, beq_eq_false_iff_ne]
        omega
      · exact h.alternating other hother
    · exact h.alternating other hother
  · have hkeep := h.pressed other hother
    rw [hcalls]
    by_cases heq : other = key
    · subst heq
      rw [Function.update_self]
      split
      · simp_all [pressed]
      · rw [hkeep]
        omega
    · rw [Function.update_of_ne heq]
      split
      · simpa [pressed, Ne.symm heq] using hkeep
      · exact hkeep
  · have hne : other ≠ key := by
      rintro rfl
      rw [hkey] at hother
      cases hother
    rw [Function.update_of_ne hne, hcalls]
    have hkeep := h.toggle other hother
    split
    · simpa [hne] using hkeep
    · exact hkeep

theorem accounted_allRelease (hcounts : engine.ownerCounts = fun _ => 0)
    (hcalls : ∀ key, edges key engine.calls = [])
    (hrelease : ∀ key, momentary key = false → .release key ∉ engine.calls) :
    Accounted (fun _ => 0) engine := by
  refine ⟨fun key => ?_, fun key _ => ?_, fun key _ => ?_, fun key hkey => ⟨rfl, hrelease key hkey⟩⟩
  · rw [hcounts]
    rfl
  · rw [hcalls key]
    exact alternating_nil
  · simp [pressed, hcalls key]

end Accounts

section Slots

variable {engine : OwnershipEngine} {i j : Fin maxActiveSources} {source : SourceId} {key : Key}

/-- A slot holds a momentary key under a frontend id. -/
def Holds (sources : Fin maxActiveSources → SourceSlot) (id : FrontendKeyId)
    (p : Fin maxActiveSources × Key) : Prop :=
  (sources p.1).active = true ∧ (sources p.1).held p.2 = true ∧ isToggleKey p.2 = false ∧
    (sources p.1).effectiveIds p.2 = id

instance (sources : Fin maxActiveSources → SourceSlot) (id : FrontendKeyId) :
    DecidablePred (Holds sources id) :=
  fun _ => inferInstanceAs (Decidable (_ ∧ _))

/-- The pairs of an active source and a momentary key that own a frontend key. -/
def owners (sources : Fin maxActiveSources → SourceSlot) (id : FrontendKeyId) : Nat :=
  (Finset.univ.filter (Holds sources id)).card

theorem owners_lt (sources : Fin maxActiveSources → SourceSlot) (id : FrontendKeyId) :
    owners sources id + 1 < 2 ^ 16 := by
  have hle : owners sources id ≤ Fintype.card (Fin maxActiveSources × Key) :=
    Finset.card_le_univ _
  have hcard : Fintype.card (Fin maxActiveSources × Key) = 4 * 103 := by
    rw [Fintype.card_prod, card_key, Fintype.card_fin, maxActiveSources]
  omega

theorem owners_pos_iff {sources : Fin maxActiveSources → SourceSlot} {id : FrontendKeyId} :
    0 < owners sources id ↔ ∃ i key, Holds sources id (i, key) := by
  simp [owners, Finset.card_pos, Finset.Nonempty]

theorem findSource_eq_some (h : engine.findSource source = some i) :
    (engine.sources i).active = true ∧ (engine.sources i).id = source := by
  simpa using List.find?_some h

theorem findSource_eq_none (h : engine.findSource source = none)
    (hactive : (engine.sources i).active = true) : (engine.sources i).id ≠ source := by
  have hall := List.find?_eq_none.mp h i (List.mem_finRange i)
  simpa [hactive] using hall

theorem allocateSource_eq_some {allocated : OwnershipEngine}
    (h : engine.allocateSource source = some (i, allocated)) :
    (engine.sources i).active = false ∧
      allocated = engine.setSlot i { active := true, id := source } := by
  obtain ⟨j, hfree, hpair⟩ := Option.map_eq_some_iff.mp h
  obtain ⟨rfl, rfl⟩ := Prod.mk.inj hpair
  exact ⟨by simpa using List.find?_some hfree, rfl⟩

/-- A slot that holds no key can be replaced by one that holds none. -/
theorem owners_setSlot_empty {slot : SourceSlot}
    (hbefore : ∀ key, (engine.sources i).active = true → (engine.sources i).held key = false)
    (hafter : ∀ key, slot.held key = false) :
    owners (engine.setSlot i slot).sources = owners engine.sources := by
  funext id
  refine congrArg Finset.card (Finset.filter_congr ?_)
  rintro ⟨j, key⟩ -
  by_cases hj : j = i
  · subst hj
    have hnone := hbefore key
    simp only [Holds, OwnershipEngine.setSlot, Function.update_self, hafter key,
      Bool.false_eq_true, false_and, and_false, false_iff]
    rintro ⟨hactive, hheld, -⟩
    rw [hnone hactive] at hheld
    cases hheld
  · simp [Holds, OwnershipEngine.setSlot, Function.update_of_ne hj]

theorem holds_takeKey_ne {effective id : FrontendKeyId} {p : Fin maxActiveSources × Key}
    (h : p ≠ (i, key)) :
    Holds (engine.takeKey i key effective).sources id p ↔ Holds engine.sources id p := by
  obtain ⟨j, other⟩ := p
  by_cases hj : j = i
  · subst hj
    have hother : other ≠ key := by
      rintro rfl
      exact h rfl
    simp [Holds, OwnershipEngine.takeKey, OwnershipEngine.setSlot, hother]
  · simp [Holds, OwnershipEngine.takeKey, OwnershipEngine.setSlot, Function.update_of_ne hj]

theorem holds_leaveKey_ne {id : FrontendKeyId} {p : Fin maxActiveSources × Key}
    (h : p ≠ (i, key)) :
    Holds (engine.leaveKey i key).sources id p ↔ Holds engine.sources id p := by
  obtain ⟨j, other⟩ := p
  by_cases hj : j = i
  · subst hj
    have hother : other ≠ key := by
      rintro rfl
      exact h rfl
    simp [Holds, OwnershipEngine.leaveKey, OwnershipEngine.setSlot, hother]
  · simp [Holds, OwnershipEngine.leaveKey, OwnershipEngine.setSlot, Function.update_of_ne hj]

theorem not_holds_toggle {sources : Fin maxActiveSources → SourceSlot} {id : FrontendKeyId}
    (htoggle : isToggleKey key = true) : ¬ Holds sources id (i, key) := by
  rintro ⟨-, -, h, -⟩
  rw [htoggle] at h
  cases h

theorem owners_takeKey_toggle {effective : FrontendKeyId} (htoggle : isToggleKey key = true) :
    owners (engine.takeKey i key effective).sources = owners engine.sources := by
  funext id
  refine congrArg Finset.card (Finset.filter_congr fun p _ => ?_)
  by_cases hp : p = (i, key)
  · subst hp
    exact iff_of_false (not_holds_toggle htoggle) (not_holds_toggle htoggle)
  · exact holds_takeKey_ne hp

theorem owners_leaveKey_toggle (htoggle : isToggleKey key = true) :
    owners (engine.leaveKey i key).sources = owners engine.sources := by
  funext id
  refine congrArg Finset.card (Finset.filter_congr fun p _ => ?_)
  by_cases hp : p = (i, key)
  · subst hp
    exact iff_of_false (not_holds_toggle htoggle) (not_holds_toggle htoggle)
  · exact holds_leaveKey_ne hp

theorem owners_takeKey {effective : FrontendKeyId} (hactive : (engine.sources i).active = true)
    (hheld : (engine.sources i).held key = false) (htoggle : isToggleKey key = false) :
    owners (engine.takeKey i key effective).sources =
      Function.update (owners engine.sources) effective (owners engine.sources effective + 1) := by
  have hbefore : ∀ id, ¬ Holds engine.sources id (i, key) := by
    rintro id ⟨-, h, -⟩
    rw [hheld] at h
    cases h
  have hafter : ∀ id, Holds (engine.takeKey i key effective).sources id (i, key) ↔
      effective = id := by
    intro id
    simp [Holds, OwnershipEngine.takeKey, OwnershipEngine.setSlot, hactive, htoggle]
  funext id
  by_cases hid : id = effective
  · subst hid
    rw [Function.update_self]
    exact card_filter_grow (hbefore id) ((hafter id).mpr rfl) fun b hb => holds_takeKey_ne hb
  · rw [Function.update_of_ne hid]
    refine congrArg Finset.card (Finset.filter_congr fun p _ => ?_)
    by_cases hp : p = (i, key)
    · subst hp
      exact iff_of_false (fun h => hid ((hafter id).mp h).symm) (hbefore id)
    · exact holds_takeKey_ne hp

theorem owners_leaveKey (hactive : (engine.sources i).active = true)
    (hheld : (engine.sources i).held key = true) (htoggle : isToggleKey key = false) :
    0 < owners engine.sources ((engine.sources i).effectiveIds key) ∧
      owners (engine.leaveKey i key).sources =
        Function.update (owners engine.sources) ((engine.sources i).effectiveIds key)
          (owners engine.sources ((engine.sources i).effectiveIds key) - 1) := by
  have hafter : ∀ id, ¬ Holds (engine.leaveKey i key).sources id (i, key) := by
    intro id
    simp [Holds, OwnershipEngine.leaveKey, OwnershipEngine.setSlot]
  have hbefore : ∀ id, Holds engine.sources id (i, key) ↔
      (engine.sources i).effectiveIds key = id := by
    intro id
    simp [Holds, hactive, hheld, htoggle]
  refine ⟨owners_pos_iff.mpr ⟨i, key, (hbefore _).mpr rfl⟩, ?_⟩
  funext id
  by_cases hid : id = (engine.sources i).effectiveIds key
  · rw [hid, Function.update_self]
    have hgrow : owners engine.sources ((engine.sources i).effectiveIds key) =
        owners (engine.leaveKey i key).sources ((engine.sources i).effectiveIds key) + 1 :=
      card_filter_grow (hafter _) ((hbefore _).mpr rfl) fun b hb => (holds_leaveKey_ne hb).symm
    rw [hgrow, Nat.add_sub_cancel]
  · rw [Function.update_of_ne hid]
    refine congrArg Finset.card (Finset.filter_congr fun p _ => ?_)
    by_cases hp : p = (i, key)
    · subst hp
      exact iff_of_false (hafter id) (fun h => hid ((hbefore id).mp h).symm)
    · exact holds_leaveKey_ne hp

end Slots

section Balance

/-- The ids a key can be injected under, one for each shift mode. -/
def MapsTo (key : Key) (id : FrontendKeyId) : Prop :=
  ∃ mapped mode, toFrontendKeyId key = some mapped ∧ effectiveFrontendKeyId mapped mode = id

theorem momentary_effective (id : FrontendKeyId) (mode : ShiftMode) :
    momentary (effectiveFrontendKeyId id mode) = momentary id := by
  cases mode <;> cases id <;> rfl

theorem momentary_toFrontendKeyId {key : Key} {id : FrontendKeyId}
    (h : toFrontendKeyId key = some id) : momentary id = !isToggleKey key := by
  cases key <;> cases h <;> rfl

theorem momentary_of_mapsTo {key : Key} {id : FrontendKeyId} (h : MapsTo key id) :
    momentary id = !isToggleKey key := by
  obtain ⟨mapped, mode, hmapped, rfl⟩ := h
  rw [momentary_effective, momentary_toFrontendKeyId hmapped]

/-- The engine's books, also in the middle of a disconnect, where a slot may be active
without a held key. -/
structure Balanced (engine : OwnershipEngine) : Prop where
  accounted : Accounted (owners engine.sources) engine
  distinct : ∀ i j, (engine.sources i).active = true → (engine.sources j).active = true →
    (engine.sources i).id = (engine.sources j).id → i = j
  valid : ∀ i, (engine.sources i).active = true → (engine.sources i).id.valid = true
  mapped : ∀ i key, (engine.sources i).held key = true →
    MapsTo key ((engine.sources i).effectiveIds key)

variable {engine engine' : OwnershipEngine} {i : Fin maxActiveSources} {key : Key}
  {effective : FrontendKeyId}

/-- The counters, the switch and the quarantine are no part of the books. -/
theorem Balanced.congr (h : Balanced engine) (hsources : engine'.sources = engine.sources)
    (hcounts : engine'.ownerCounts = engine.ownerCounts) (hcalls : engine'.calls = engine.calls) :
    Balanced engine' := by
  obtain ⟨⟨hcount, halternating, hpressed, htoggle⟩, hdistinct, hvalid, hmapped⟩ := h
  refine ⟨⟨?_, ?_, ?_, ?_⟩, ?_, ?_, ?_⟩ <;> simp only [hsources, hcounts, hcalls] <;> assumption

theorem Accounted.congr {owned : FrontendKeyId → Nat} (h : Accounted owned engine)
    (hcounts : engine'.ownerCounts = engine.ownerCounts) (hcalls : engine'.calls = engine.calls) :
    Accounted owned engine' := by
  obtain ⟨hcount, halternating, hpressed, htoggle⟩ := h
  refine ⟨?_, ?_, ?_, ?_⟩ <;> simp only [hcounts, hcalls] <;> assumption

/-- The slots may change in what they hold while their sources stay. -/
theorem Balanced.update (h : Balanced engine)
    (haccounted : Accounted (owners engine'.sources) engine')
    (hslots : ∀ i, (engine'.sources i).active = (engine.sources i).active ∧
      (engine'.sources i).id = (engine.sources i).id)
    (hmapped : ∀ i key, (engine'.sources i).held key = true →
      MapsTo key ((engine'.sources i).effectiveIds key)) : Balanced engine' := by
  refine ⟨haccounted, fun i j => ?_, fun i => ?_, hmapped⟩
  · rw [(hslots i).1, (hslots j).1, (hslots i).2, (hslots j).2]
    exact h.distinct i j
  · rw [(hslots i).1, (hslots i).2]
    exact h.valid i

theorem takeKey_slots (i j : Fin maxActiveSources) :
    ((engine.takeKey i key effective).sources j).active = (engine.sources j).active ∧
      ((engine.takeKey i key effective).sources j).id = (engine.sources j).id := by
  by_cases hj : j = i
  · simp [OwnershipEngine.takeKey, OwnershipEngine.setSlot, hj]
  · simp [OwnershipEngine.takeKey, OwnershipEngine.setSlot, Function.update_of_ne hj]

theorem leaveKey_slots (i j : Fin maxActiveSources) :
    ((engine.leaveKey i key).sources j).active = (engine.sources j).active ∧
      ((engine.leaveKey i key).sources j).id = (engine.sources j).id := by
  by_cases hj : j = i
  · simp [OwnershipEngine.leaveKey, OwnershipEngine.setSlot, hj]
  · simp [OwnershipEngine.leaveKey, OwnershipEngine.setSlot, Function.update_of_ne hj]

theorem takeKey_mapped (h : Balanced engine) (hkey : MapsTo key effective)
    (j : Fin maxActiveSources) (other : Key) :
    ((engine.takeKey i key effective).sources j).held other = true →
      MapsTo other (((engine.takeKey i key effective).sources j).effectiveIds other) := by
  have hkeep := h.mapped j other
  by_cases hj : j = i
  · by_cases hother : other = key
    · subst hother
      simpa [OwnershipEngine.takeKey, OwnershipEngine.setSlot, hj] using hkey
    · simpa [OwnershipEngine.takeKey, OwnershipEngine.setSlot, hj, hother] using hj ▸ hkeep
  · simpa [OwnershipEngine.takeKey, OwnershipEngine.setSlot, Function.update_of_ne hj] using hkeep

theorem leaveKey_mapped (h : Balanced engine) (j : Fin maxActiveSources) (other : Key) :
    ((engine.leaveKey i key).sources j).held other = true →
      MapsTo other (((engine.leaveKey i key).sources j).effectiveIds other) := by
  have hkeep := h.mapped j other
  by_cases hj : j = i
  · by_cases hother : other = key
    · simp [OwnershipEngine.leaveKey, OwnershipEngine.setSlot, hj, hother]
    · simpa [OwnershipEngine.leaveKey, OwnershipEngine.setSlot, hj, hother] using hj ▸ hkeep
  · simpa [OwnershipEngine.leaveKey, OwnershipEngine.setSlot, Function.update_of_ne hj] using hkeep

@[simp] theorem addOwner_sources (id : FrontendKeyId) :
    (engine.addOwner id).sources = engine.sources := by
  unfold OwnershipEngine.addOwner
  split <;> rfl

@[simp] theorem dropOwner_sources (id : FrontendKeyId) :
    (engine.dropOwner id).sources = engine.sources := by
  unfold OwnershipEngine.dropOwner
  split
  · dsimp only
    split <;> rfl
  · rfl

theorem balanced_pressHeld (h : Balanced engine) (hactive : (engine.sources i).active = true)
    (hkey : MapsTo key effective) : Balanced (engine.pressHeld i key effective).2 := by
  unfold OwnershipEngine.pressHeld
  split
  · exact h.congr rfl rfl rfl
  · rename_i hheld
    rw [Bool.not_eq_true] at hheld
    have hmomentary := momentary_of_mapsTo hkey
    dsimp only
    split
    · rename_i htoggle
      rw [htoggle] at hmomentary
      refine h.update ?_ (takeKey_slots i) (takeKey_mapped h hkey)
      refine accounted_pressSink ?_ hmomentary
      change Accounted (owners (engine.takeKey i key effective).sources) _
      rw [owners_takeKey_toggle htoggle]
      exact h.accounted.congr rfl rfl
    · rename_i htoggle
      rw [Bool.not_eq_true] at htoggle
      rw [htoggle] at hmomentary
      refine h.update ?_ (by rw [addOwner_sources]; exact takeKey_slots i)
        (by rw [addOwner_sources]; exact takeKey_mapped h hkey)
      rw [addOwner_sources]
      change Accounted (owners (engine.takeKey i key effective).sources) _
      rw [owners_takeKey hactive hheld htoggle]
      exact accounted_addOwner (h.accounted.congr rfl rfl) hmomentary (owners_lt _ _)

theorem balanced_giveUp (h : Balanced engine) (hactive : (engine.sources i).active = true)
    (hheld : (engine.sources i).held key = true) : Balanced (engine.giveUp i key) := by
  have hmomentary := momentary_of_mapsTo (h.mapped i key hheld)
  unfold OwnershipEngine.giveUp
  dsimp only
  split
  · rename_i htoggle
    refine h.update ?_ (leaveKey_slots i) (leaveKey_mapped h)
    rw [owners_leaveKey_toggle htoggle]
    exact h.accounted.congr rfl rfl
  · rename_i htoggle
    rw [Bool.not_eq_true] at htoggle
    rw [htoggle] at hmomentary
    obtain ⟨hpos, howners⟩ := owners_leaveKey hactive hheld htoggle
    refine h.update ?_ (by simpa using leaveKey_slots i) (by simpa using leaveKey_mapped h)
    rw [dropOwner_sources, howners]
    exact accounted_dropOwner (h.accounted.congr rfl rfl) hmomentary hpos

theorem balanced_setSlot {slot : SourceSlot} (h : Balanced engine)
    (hbefore : ∀ key, (engine.sources i).active = true → (engine.sources i).held key = false)
    (hafter : ∀ key, slot.held key = false)
    (hslot : slot.active = true → slot.id.valid = true ∧
      ∀ j, (engine.sources j).active = true → (engine.sources j).id ≠ slot.id) :
    Balanced (engine.setSlot i slot) := by
  have howners : owners (engine.setSlot i slot).sources = owners engine.sources :=
    owners_setSlot_empty hbefore hafter
  refine ⟨?_, fun j k hj hk hid => ?_, fun j hj => ?_, fun j key hheld => ?_⟩
  · rw [howners]
    exact h.accounted.congr rfl rfl
  · by_cases hji : j = i <;> by_cases hki : k = i
    · rw [hji, hki]
    · subst hji
      simp only [OwnershipEngine.setSlot, Function.update_self,
        Function.update_of_ne hki] at hj hk hid
      exact absurd hid.symm ((hslot hj).2 k hk)
    · subst hki
      simp only [OwnershipEngine.setSlot, Function.update_self,
        Function.update_of_ne hji] at hj hk hid
      exact absurd hid ((hslot hk).2 j hj)
    · simp only [OwnershipEngine.setSlot, Function.update_of_ne hji,
        Function.update_of_ne hki] at hj hk hid
      exact h.distinct j k hj hk hid
  · by_cases hji : j = i
    · subst hji
      simp only [OwnershipEngine.setSlot, Function.update_self] at hj ⊢
      exact (hslot hj).1
    · simp only [OwnershipEngine.setSlot, Function.update_of_ne hji] at hj ⊢
      exact h.valid j hj
  · by_cases hji : j = i
    · subst hji
      simp [OwnershipEngine.setSlot, hafter key] at hheld
    · simp only [OwnershipEngine.setSlot, Function.update_of_ne hji] at hheld ⊢
      exact h.mapped j key hheld

end Balance

section Calls

variable {engine : OwnershipEngine} {i : Fin maxActiveSources} {key : Key}
  {effective : FrontendKeyId} {source : SourceId}

/-- What holds between two calls of the engine. -/
structure Consistent (engine : OwnershipEngine) : Prop where
  balanced : Balanced engine
  occupied : ∀ i, (engine.sources i).active = true → ∃ key, (engine.sources i).held key = true
  recovered : engine.recoveryDone = true →
    engine.state = .desynchronized ∧ ∀ i, (engine.sources i).active = false

theorem Consistent.congr {engine' : OwnershipEngine} (h : Consistent engine)
    (hsources : engine'.sources = engine.sources)
    (hcounts : engine'.ownerCounts = engine.ownerCounts) (hcalls : engine'.calls = engine.calls)
    (hrecovered : engine'.recoveryDone = true → engine'.state = .desynchronized ∧
      engine.recoveryDone = true) : Consistent engine' := by
  refine ⟨h.balanced.congr hsources hcounts hcalls, ?_, fun hdone => ⟨(hrecovered hdone).1, ?_⟩⟩
  · rw [hsources]
    exact h.occupied
  · rw [hsources]
    exact (h.recovered (hrecovered hdone).2).2

/-- A key event leaves the quarantine and its recovery as they are. -/
theorem pressHeld_recovery :
    (engine.pressHeld i key effective).2.recoveryDone = engine.recoveryDone ∧
      (engine.pressHeld i key effective).2.state = engine.state := by
  unfold OwnershipEngine.pressHeld OwnershipEngine.addOwner
  split
  · exact ⟨rfl, rfl⟩
  · dsimp only
    split
    · exact ⟨rfl, rfl⟩
    · dsimp only
      split <;> exact ⟨rfl, rfl⟩

theorem giveUp_recovery :
    (engine.giveUp i key).recoveryDone = engine.recoveryDone ∧
      (engine.giveUp i key).state = engine.state := by
  unfold OwnershipEngine.giveUp OwnershipEngine.dropOwner
  dsimp only
  split
  · exact ⟨rfl, rfl⟩
  · split
    · split <;> exact ⟨rfl, rfl⟩
    · exact ⟨rfl, rfl⟩

theorem pressHeld_sources (hheld : (engine.sources i).held key = false) :
    (engine.pressHeld i key effective).2.sources = (engine.takeKey i key effective).sources := by
  unfold OwnershipEngine.pressHeld
  simp only [hheld, Bool.false_eq_true, if_false]
  split
  · rfl
  · rw [addOwner_sources]
    rfl

theorem giveUp_sources : (engine.giveUp i key).sources = (engine.leaveKey i key).sources := by
  unfold OwnershipEngine.giveUp
  dsimp only
  split
  · rfl
  · rw [dropOwner_sources]

/-- A press leaves every other slot alone, and its own with a held key. -/
theorem consistent_pressHeld (h : Balanced engine) (hactive : (engine.sources i).active = true)
    (hkey : MapsTo key effective)
    (hoccupied : ∀ j, j ≠ i → (engine.sources j).active = true →
      ∃ key, (engine.sources j).held key = true)
    (hready : engine.recoveryDone = false) :
    Consistent (engine.pressHeld i key effective).2 := by
  refine ⟨balanced_pressHeld h hactive hkey, fun j hj => ?_, fun hdone => ?_⟩
  · cases hheld : (engine.sources i).held key with
    | true =>
        have hsame : (engine.pressHeld i key effective).2.sources = engine.sources := by
          simp only [OwnershipEngine.pressHeld, hheld, if_true]
          rfl
        rw [hsame] at hj ⊢
        by_cases hji : j = i
        · exact ⟨key, hji ▸ hheld⟩
        · exact hoccupied j hji hj
    | false =>
        rw [pressHeld_sources hheld] at hj ⊢
        by_cases hji : j = i
        · subst hji
          exact ⟨key, by simp [OwnershipEngine.takeKey, OwnershipEngine.setSlot]⟩
        · simp only [OwnershipEngine.takeKey, OwnershipEngine.setSlot,
            Function.update_of_ne hji] at hj ⊢
          exact hoccupied j hji hj
  · rw [pressHeld_recovery.1, hready] at hdone
    cases hdone

theorem consistent_processPress (h : Consistent engine) (hready : engine.recoveryDone = false)
    (hsource : source.valid = true) (hkey : MapsTo key effective) :
    Consistent (engine.processPress source key effective).2 := by
  unfold OwnershipEngine.processPress
  split
  · rename_i i hfind
    exact consistent_pressHeld h.balanced (findSource_eq_some hfind).1 hkey
      (fun j _ => h.occupied j) hready
  · rename_i hfind
    split
    · rename_i i allocated hallocate
      obtain ⟨hfree, rfl⟩ := allocateSource_eq_some hallocate
      refine consistent_pressHeld ?_ (by simp [OwnershipEngine.setSlot]) hkey ?_ hready
      · refine balanced_setSlot h.balanced ?_ (fun _ => rfl) fun _ => ⟨hsource, fun j hj => ?_⟩
        · intro key hactive
          rw [hfree] at hactive
          cases hactive
        · exact findSource_eq_none hfind hj
      · intro j hj hactive
        simp only [OwnershipEngine.setSlot, Function.update_of_ne hj] at hactive ⊢
        exact h.occupied j hactive
    · refine h.congr rfl rfl rfl fun hdone => ?_
      change engine.recoveryDone = true at hdone
      rw [hready] at hdone
      cases hdone

theorem giveUp_slots (j : Fin maxActiveSources) :
    ((engine.giveUp i key).sources j).active = (engine.sources j).active ∧
      ((engine.giveUp i key).sources j).id = (engine.sources j).id := by
  rw [giveUp_sources]
  exact leaveKey_slots i j

theorem giveUp_held (j : Fin maxActiveSources) (other : Key) :
    ((engine.giveUp i key).sources j).held other =
      ((engine.sources j).held other && !(decide (j = i) && decide (other = key))) := by
  rw [giveUp_sources]
  by_cases hj : j = i
  · subst hj
    by_cases hother : other = key
    · simp [OwnershipEngine.leaveKey, OwnershipEngine.setSlot, hother]
    · simp [OwnershipEngine.leaveKey, OwnershipEngine.setSlot, hother]
  · simp [OwnershipEngine.leaveKey, OwnershipEngine.setSlot, hj]

theorem hasHeldKeys_iff {slot : SourceSlot} :
    hasHeldKeys slot = true ↔ ∃ key, slot.held key = true := by
  rw [hasHeldKeys, List.any_eq_true]
  exact ⟨fun ⟨key, _, hkey⟩ => ⟨key, hkey⟩, fun ⟨key, hkey⟩ => ⟨key, mem_keys key, hkey⟩⟩

/-- Clearing a slot that holds nothing restores the engine. -/
theorem consistent_clearSlot (h : Balanced engine)
    (hnone : ∀ key, (engine.sources i).held key = false)
    (hoccupied : ∀ j, j ≠ i → (engine.sources j).active = true →
      ∃ key, (engine.sources j).held key = true)
    (hready : engine.recoveryDone = false) : Consistent (engine.setSlot i {}) := by
  refine ⟨balanced_setSlot h (fun key _ => hnone key) (fun _ => rfl) ?_, fun j hj => ?_, ?_⟩
  · rintro ⟨⟩
  · have hji : j ≠ i := by
      rintro rfl
      simp [OwnershipEngine.setSlot] at hj
    simp only [OwnershipEngine.setSlot, Function.update_of_ne hji] at hj ⊢
    exact hoccupied j hji hj
  · intro hdone
    change engine.recoveryDone = true at hdone
    rw [hready] at hdone
    cases hdone

/-- Giving up a key, with the slot freed when that was its last one. -/
theorem consistent_giveUp (h : Consistent engine) (hready : engine.recoveryDone = false)
    (hactive : (engine.sources i).active = true) (hheld : (engine.sources i).held key = true) :
    Consistent (if hasHeldKeys ((engine.giveUp i key).sources i) then engine.giveUp i key
      else (engine.giveUp i key).setSlot i {}) := by
  have hleft : Balanced (engine.giveUp i key) := balanced_giveUp h.balanced hactive hheld
  have hdone : (engine.giveUp i key).recoveryDone = false := giveUp_recovery.1.trans hready
  have hothers : ∀ j, j ≠ i → ((engine.giveUp i key).sources j).active = true →
      ∃ other, ((engine.giveUp i key).sources j).held other = true := by
    intro j hj hjactive
    obtain ⟨other, hother⟩ := h.occupied j ((giveUp_slots j).1.symm.trans hjactive)
    refine ⟨other, ?_⟩
    rw [giveUp_held]
    simpa [hj] using hother
  split
  · rename_i hsome
    refine ⟨hleft, fun j hj => ?_, fun htrue => ?_⟩
    · by_cases hji : j = i
      · subst hji
        exact hasHeldKeys_iff.mp hsome
      · exact hothers j hji hj
    · rw [hdone] at htrue
      cases htrue
  · rename_i hempty
    refine consistent_clearSlot hleft (fun other => ?_) hothers hdone
    rw [hasHeldKeys_iff, not_exists] at hempty
    exact Bool.eq_false_iff.mpr (hempty other)

/-- The diagnostic counters are no part of the invariant. -/
theorem Consistent.counted {engine' : OwnershipEngine} (h : Consistent engine)
    (hsame : engine' = { engine with counters := engine'.counters }) : Consistent engine' := by
  rw [hsame]
  exact h.congr rfl rfl rfl fun hdone => ⟨(h.recovered hdone).1, hdone⟩

theorem consistent_processRelease (h : Consistent engine) (hready : engine.recoveryDone = false) :
    Consistent (engine.processRelease source key).2 := by
  unfold OwnershipEngine.processRelease
  split
  · rename_i i hfind
    split
    · rename_i hheld
      exact consistent_giveUp (h.counted rfl) hready
        (findSource_eq_some hfind).1 hheld
    · exact h.counted rfl
  · exact h.counted rfl

theorem consistent_process (h : Consistent engine) (event : Event) :
    Consistent (engine.process event).2 := by
  unfold OwnershipEngine.process
  split
  · exact h.counted rfl
  · rename_i hstate
    have hready : engine.recoveryDone = false := by
      rw [← Bool.not_eq_true]
      exact fun hdone => hstate (h.recovered hdone).1
    split
    · exact h.counted rfl
    · rename_i hvalid
      split
      · exact h.counted rfl
      · rename_i mapped hmapped
        split
        · refine consistent_processPress h hready ?_ ⟨mapped, engine.shiftMode, hmapped, rfl⟩
          simp only [isValidEvent, Bool.and_eq_true, Bool.not_eq_true', Bool.not_eq_false] at hvalid
          exact hvalid.1.1.1
        · exact consistent_processRelease h hready

theorem disconnectKey_held (j : Fin maxActiveSources) (other : Key) :
    ((engine.disconnectKey i key).sources j).held other =
      ((engine.sources j).held other && !(decide (j = i) && decide (other = key))) := by
  unfold OwnershipEngine.disconnectKey
  split
  · exact giveUp_held j other
  · rename_i hheld
    by_cases hj : j = i
    · subst hj
      by_cases hother : other = key
      · subst hother
        simp [hheld]
      · simp [hother]
    · simp [hj]

theorem disconnectKey_slots (j : Fin maxActiveSources) :
    ((engine.disconnectKey i key).sources j).active = (engine.sources j).active ∧
      ((engine.disconnectKey i key).sources j).id = (engine.sources j).id := by
  unfold OwnershipEngine.disconnectKey
  split
  · exact giveUp_slots j
  · exact ⟨rfl, rfl⟩

theorem disconnectKey_recovery :
    (engine.disconnectKey i key).recoveryDone = engine.recoveryDone ∧
      (engine.disconnectKey i key).state = engine.state := by
  unfold OwnershipEngine.disconnectKey
  split
  · exact giveUp_recovery
  · exact ⟨rfl, rfl⟩

theorem balanced_disconnectKey (h : Balanced engine)
    (hactive : (engine.sources i).active = true) : Balanced (engine.disconnectKey i key) := by
  unfold OwnershipEngine.disconnectKey
  split
  · rename_i hheld
    exact balanced_giveUp h hactive hheld
  · exact h

theorem disconnectKeys_spec (list : List Key) (h : Balanced engine)
    (hactive : (engine.sources i).active = true) :
    Balanced (engine.disconnectKeys i list) ∧
      (engine.disconnectKeys i list).recoveryDone = engine.recoveryDone ∧
      (engine.disconnectKeys i list).state = engine.state ∧
      (∀ j, ((engine.disconnectKeys i list).sources j).active = (engine.sources j).active) ∧
      ∀ j other, ((engine.disconnectKeys i list).sources j).held other =
        ((engine.sources j).held other && !(decide (j = i) && decide (other ∈ list))) := by
  induction list generalizing engine with
  | nil => simpa [OwnershipEngine.disconnectKeys] using h
  | cons key list ih =>
      obtain ⟨hbalanced, hdone, hstate, hslots, hheld⟩ :=
        ih (balanced_disconnectKey h hactive)
          ((disconnectKey_slots i).1.trans hactive)
      refine ⟨hbalanced, hdone.trans disconnectKey_recovery.1,
        hstate.trans disconnectKey_recovery.2,
        fun j => (hslots j).trans (disconnectKey_slots j).1, fun j other => ?_⟩
      refine (hheld j other).trans ?_
      rw [disconnectKey_held]
      by_cases hj : j = i <;> by_cases hother : other = key <;> simp [hj, hother]

theorem mem_properKeys_of_mapsTo (hkey : MapsTo key effective) : key ∈ properKeys := by
  obtain ⟨mapped, mode, hmapped, -⟩ := hkey
  refine mem_properKeys ⟨?_, ?_⟩ <;> rintro rfl <;> cases hmapped

theorem consistent_disconnectSource (h : Consistent engine) (source : SourceId) :
    Consistent (engine.disconnectSource source).2 := by
  unfold OwnershipEngine.disconnectSource
  split
  · exact h.counted rfl
  · dsimp only
    split
    · exact h.counted rfl
    · rename_i i hfind
      obtain ⟨hactive, -⟩ := findSource_eq_some hfind
      have hready : engine.recoveryDone = false := by
        rw [← Bool.not_eq_true]
        intro hdone
        rw [(h.recovered hdone).2 i] at hactive
        cases hactive
      have hcounted : Balanced (engine.count fun c =>
          { c with sourceDisconnects := c.sourceDisconnects + 1 }) := h.balanced.congr rfl rfl rfl
      obtain ⟨hbalanced, hdone, -, hslots, hheld⟩ :=
        disconnectKeys_spec properKeys hcounted hactive
      refine consistent_clearSlot hbalanced (fun key => ?_) (fun j hj hjactive => ?_)
        (hdone.trans hready)
      · refine (hheld i key).trans ?_
        change ((engine.sources i).held key && _) = false
        cases hkey : (engine.sources i).held key with
        | false => rw [Bool.false_and]
        | true => simp [mem_properKeys_of_mapsTo (h.balanced.mapped i key hkey)]
      · obtain ⟨other, hother⟩ := h.occupied j ((hslots j).symm.trans hjactive)
        refine ⟨other, (hheld j other).trans ?_⟩
        change ((engine.sources j).held other && _) = true
        simpa [hj] using hother

theorem consistent_setShiftMode (h : Consistent engine) (mode : ShiftMode) :
    Consistent (engine.setShiftMode mode) :=
  h.congr rfl rfl rfl fun hdone => ⟨(h.recovered hdone).1, hdone⟩

theorem owners_cleared : owners (fun _ : Fin maxActiveSources => ({} : SourceSlot)) =
    fun _ => 0 := by
  funext id
  rw [← Nat.le_zero, ← not_lt, owners_pos_iff]
  rintro ⟨i, key, ⟨⟩, -⟩

theorem consistent_cleared (hsources : engine.sources = fun _ => {})
    (haccounted : Accounted (fun _ => 0) engine)
    (hrecovered : engine.recoveryDone = true → engine.state = .desynchronized) :
    Consistent engine := by
  have hinactive : ∀ i, (engine.sources i).active = false := fun i => by rw [hsources]
  have hbalanced : Balanced engine := by
    refine ⟨?_, fun i j hi => ?_, fun i hi => ?_, fun i key hheld => ?_⟩
    · rwa [hsources, owners_cleared]
    · rw [hinactive i] at hi
      cases hi
    · rw [hinactive i] at hi
      cases hi
    · rw [hsources] at hheld
      cases hheld
  refine ⟨hbalanced, fun i hi => ?_, fun hdone => ⟨hrecovered hdone, hinactive⟩⟩
  rw [hinactive i] at hi
  cases hi

/-- Without an active slot the books show no owner. -/
theorem accounted_of_inactive (h : Consistent engine)
    (hinactive : ∀ i, (engine.sources i).active = false) : Accounted (fun _ => 0) engine := by
  have hnone : owners engine.sources = fun _ => 0 := by
    funext id
    rw [← Nat.le_zero, ← not_lt, owners_pos_iff]
    rintro ⟨i, key, hi, -⟩
    rw [hinactive i] at hi
    cases hi
  have haccounted := h.balanced.accounted
  rwa [hnone] at haccounted

theorem consistent_emergencyRecover (h : Consistent engine) :
    Consistent engine.emergencyRecover.2 := by
  unfold OwnershipEngine.emergencyRecover
  split
  · exact h
  · refine consistent_cleared rfl (accounted_allRelease rfl (fun id => edges_allRelease) ?_)
      fun _ => rfl
    intro id hid
    simpa [OwnershipEngine.recoverySink, OwnershipEngine.clearState] using
      (h.balanced.accounted.toggle id hid).2

theorem consistent_rearm (h : Consistent engine) : Consistent engine.rearm.2 := by
  unfold OwnershipEngine.rearm
  split
  · exact h
  · rename_i hstate
    simp only [ne_eq, not_or, not_not, Bool.not_eq_false] at hstate
    have haccounted := accounted_of_inactive h (h.recovered hstate.2).2
    refine consistent_cleared rfl (haccounted.congr ?_ rfl) fun hdone => by cases hdone
    funext id
    exact UInt16.toNat_inj.mp (haccounted.counts id).symm

theorem consistent_discardWithoutInjection (h : Consistent engine)
    (hinactive : ∀ i, (engine.sources i).active = false) :
    Consistent engine.discardWithoutInjection := by
  have haccounted := accounted_of_inactive h hinactive
  refine consistent_cleared rfl (haccounted.congr ?_ rfl) fun hdone => by cases hdone
  funext id
  exact UInt16.toNat_inj.mp (haccounted.counts id).symm

theorem consistent_initial (mode : ShiftMode) : Consistent { shiftMode := mode } :=
  consistent_cleared rfl (accounted_allRelease rfl (fun _ => rfl) fun _ _ => by simp) fun h => by
    cases h

end Calls

end EspNp2.KeyboardInput.OwnershipInvariant
