import EspNp2.KeyboardInput.OwnershipInvariant

/-!
Runs of the ownership engine under any sequence of calls.  Each call keeps the invariant;
what the sink hears of a call is a press, some releases or the recovery, and behind a
recovery it hears nothing until the engine is armed again.
-/

namespace EspNp2.KeyboardInput.OwnershipRuns

open KeyMapping
open Ownership
open OwnershipInvariant

inductive Call where
  | process (event : Event)
  | disconnectSource (source : SourceId)
  | setShiftMode (mode : ShiftMode)
  | emergencyRecover
  | rearm
  | discardWithoutInjection
deriving DecidableEq, Repr

def perform (engine : OwnershipEngine) : Call → OwnershipEngine
  | .process event => (engine.process event).2
  | .disconnectSource source => (engine.disconnectSource source).2
  | .setShiftMode mode => engine.setShiftMode mode
  | .emergencyRecover => engine.emergencyRecover.2
  | .rearm => engine.rearm.2
  | .discardWithoutInjection => engine.discardWithoutInjection

def run (mode : ShiftMode) (calls : List Call) : OwnershipEngine :=
  calls.foldl perform { shiftMode := mode }

/-- `discardWithoutInjection` is called only before the first event. -/
def DiscardsEarly (calls : List Call) : Prop :=
  ∀ before after, calls = before ++ .discardWithoutInjection :: after →
    ∀ event, .process event ∉ before

/-- The call delivers a press of the key that the engine accepts. -/
def acceptsPress (key : Key) (engine : OwnershipEngine) : Call → Bool
  | .process event =>
      event.action = Action.press.value && Key.ofValue event.key = key &&
        ((engine.process event).1 = .injected || (engine.process event).1 = .accepted)
  | _ => false

/-- How many presses of the key the engine accepts in a run. -/
def acceptedPresses (key : Key) : OwnershipEngine → List Call → Nat
  | _, [] => 0
  | engine, call :: calls =>
      (acceptsPress key engine call).toNat +
        acceptedPresses key (perform engine call) calls

section Reports

variable {engine : OwnershipEngine} {i : Fin maxActiveSources} {key : Key}
  {effective id : FrontendKeyId} {source : SourceId}

theorem addOwner_calls :
    (engine.addOwner id).calls = engine.calls ∨
      (engine.addOwner id).calls = engine.calls ++ [.press id] := by
  unfold OwnershipEngine.addOwner
  split
  · exact .inr rfl
  · exact .inl rfl

theorem dropOwner_calls (engine : OwnershipEngine) (id : FrontendKeyId) :
    (engine.dropOwner id).calls = engine.calls ∨
      (engine.dropOwner id).calls = engine.calls ++ [.release id] := by
  unfold OwnershipEngine.dropOwner
  split
  · dsimp only
    split
    · exact .inr rfl
    · exact .inl rfl
  · exact .inl rfl

theorem giveUp_calls (engine : OwnershipEngine) (i : Fin maxActiveSources) (key : Key) :
    ∃ added, (engine.giveUp i key).calls = engine.calls ++ added ∧
      (added = [] ∨ ∃ id, added = [.release id]) := by
  unfold OwnershipEngine.giveUp
  dsimp only
  split
  · exact ⟨[], (List.append_nil _).symm, .inl rfl⟩
  · rcases dropOwner_calls (engine.leaveKey i key)
      ((engine.sources i).effectiveIds key) with h | h
    · exact ⟨[], h.trans (List.append_nil _).symm, .inl rfl⟩
    · exact ⟨_, h, .inr ⟨_, rfl⟩⟩

/-- What a delivered event does to the sink. -/
inductive Report (engine : OwnershipEngine) (event : Event) :
    EventResult → OwnershipEngine → Prop
  | silent {result engine'} (hcalls : engine'.calls = engine.calls)
      (hresult : result ≠ .injected ∧ result ≠ .accepted) : Report engine event result engine'
  | toggled {result engine'} (id : FrontendKeyId) (hstate : engine.state = .ready)
      (haction : event.action = Action.press.value)
      (hkey : MapsTo (Key.ofValue event.key) id)
        (htoggle : isToggleKey (Key.ofValue event.key) = true)
      (hcalls : engine'.calls = engine.calls ++ [.press id]) (hresult : result = .injected) :
      Report engine event result engine'
  | owned {result engine'} (id : FrontendKeyId) (hstate : engine.state = .ready)
      (haction : event.action = Action.press.value)
      (hkey : MapsTo (Key.ofValue event.key) id)
      (htoggle : isToggleKey (Key.ofValue event.key) = false)
      (hcalls : engine'.calls = engine.calls ∨ engine'.calls = engine.calls ++ [.press id]) :
      Report engine event result engine'
  | left {result engine'} (added : List SinkCall) (haction : event.action ≠ Action.press.value)
      (hcalls : engine'.calls = engine.calls ++ added)
      (hadded : added = [] ∨ ∃ id, added = [.release id]) : Report engine event result engine'

theorem report_pressHeld {event : Event} (hstate : engine.state = .ready)
    (haction : event.action = Action.press.value)
    (hkey : MapsTo (Key.ofValue event.key) effective) :
    Report engine event (engine.pressHeld i (Key.ofValue event.key) effective).1
      (engine.pressHeld i (Key.ofValue event.key) effective).2 := by
  unfold OwnershipEngine.pressHeld
  split
  · exact .silent rfl ⟨nofun, nofun⟩
  · dsimp only
    split
    · rename_i htoggle
      exact .toggled effective hstate haction hkey htoggle rfl rfl
    · rename_i htoggle
      exact .owned effective hstate haction hkey (Bool.eq_false_iff.mpr htoggle) addOwner_calls

theorem Report.of_calls {event : Event} {result : EventResult} {engine' other : OwnershipEngine}
    (h : Report other event result engine') (hcalls : other.calls = engine.calls)
    (hstate : other.state = engine.state) : Report engine event result engine' := by
  cases h with
  | silent h hresult => exact .silent (h.trans hcalls) hresult
  | toggled id hready haction hkey htoggle h hresult =>
      exact .toggled id (hstate ▸ hready) haction hkey htoggle (hcalls ▸ h) hresult
  | owned id hready haction hkey htoggle h =>
      exact .owned id (hstate ▸ hready) haction hkey htoggle (hcalls ▸ h)
  | left added haction h hadded => exact .left added haction (hcalls ▸ h) hadded

theorem report_process (engine : OwnershipEngine) (event : Event) :
    Report engine event (engine.process event).1 (engine.process event).2 := by
  unfold OwnershipEngine.process
  split
  · exact .silent rfl ⟨nofun, nofun⟩
  · rename_i hstate
    have hready : engine.state = .ready := by
      cases h : engine.state with
      | ready => rfl
      | desynchronized => exact absurd h hstate
    split
    · exact .silent rfl ⟨nofun, nofun⟩
    · split
      · exact .silent rfl ⟨nofun, nofun⟩
      · rename_i mapped hmapped
        split
        · rename_i haction
          have hkey : MapsTo (Key.ofValue event.key)
              (effectiveFrontendKeyId mapped engine.shiftMode) := ⟨mapped, _, hmapped, rfl⟩
          unfold OwnershipEngine.processPress
          split
          · exact report_pressHeld hready haction hkey
          · split
            · rename_i i allocated hallocate
              obtain ⟨-, rfl⟩ := allocateSource_eq_some hallocate
              refine Report.of_calls (report_pressHeld ?_ haction hkey) ?_ ?_
              · exact hready
              · rfl
              · rfl
            · exact .silent rfl ⟨nofun, nofun⟩
        · rename_i haction
          unfold OwnershipEngine.processRelease
          split
          · split
            · rename_i i _ _
              obtain ⟨added, hcalls, hadded⟩ :=
                giveUp_calls engine.countAccepted i (Key.ofValue event.key)
              refine .left added haction ?_ hadded
              dsimp only
              split
              · exact hcalls
              · exact hcalls
            · exact .silent rfl ⟨nofun, nofun⟩
          · exact .silent rfl ⟨nofun, nofun⟩

theorem disconnectKeys_calls (engine : OwnershipEngine) (list : List Key) :
    ∃ added, (engine.disconnectKeys i list).calls = engine.calls ++ added ∧
      ∀ call ∈ added, ∃ id, call = .release id := by
  induction list generalizing engine with
  | nil => exact ⟨[], (List.append_nil _).symm, by simp⟩
  | cons key list ih =>
      obtain ⟨added, hcalls, hadded⟩ := ih (engine.disconnectKey i key)
      have hround : ∃ first, (engine.disconnectKey i key).calls = engine.calls ++ first ∧
          ∀ call ∈ first, ∃ id, call = .release id := by
        unfold OwnershipEngine.disconnectKey
        split
        · obtain ⟨first, hfirst, hrelease⟩ := giveUp_calls engine i key
          refine ⟨first, hfirst, ?_⟩
          rcases hrelease with rfl | ⟨id, rfl⟩
          · simp
          · simp
        · exact ⟨[], (List.append_nil _).symm, by simp⟩
      obtain ⟨first, hfirst, hrelease⟩ := hround
      refine ⟨first ++ added, ?_, ?_⟩
      · change ((engine.disconnectKey i key).disconnectKeys i list).calls = _
        rw [hcalls, hfirst, List.append_assoc]
      · intro call hcall
        rcases List.mem_append.mp hcall with hcall | hcall
        · exact hrelease call hcall
        · exact hadded call hcall

theorem disconnectSource_calls (engine : OwnershipEngine) (source : SourceId) :
    ∃ added, (engine.disconnectSource source).2.calls = engine.calls ++ added ∧
      ∀ call ∈ added, ∃ id, call = .release id := by
  unfold OwnershipEngine.disconnectSource
  split
  · exact ⟨[], (List.append_nil _).symm, by simp⟩
  · dsimp only
    split
    · exact ⟨[], (List.append_nil _).symm, by simp⟩
    · simp only [OwnershipEngine.setSlot_calls]
      exact disconnectKeys_calls (engine.count fun c =>
        { c with sourceDisconnects := c.sourceDisconnects + 1 }) properKeys

end Reports

section Steps

variable {engine : OwnershipEngine} {key : Key} {id : FrontendKeyId}

theorem consistent_perform (h : Consistent engine) (call : Call)
    (hdiscard : call = .discardWithoutInjection → ∀ i, (engine.sources i).active = false) :
    Consistent (perform engine call) := by
  cases call with
  | process event => exact consistent_process h event
  | disconnectSource source => exact consistent_disconnectSource h source
  | setShiftMode mode => exact consistent_setShiftMode h mode
  | emergencyRecover => exact consistent_emergencyRecover h
  | rearm => exact consistent_rearm h
  | discardWithoutInjection => exact consistent_discardWithoutInjection h (hdiscard rfl)

/-- Without an event no slot comes to life. -/
theorem perform_inactive (hinactive : ∀ i, (engine.sources i).active = false) {call : Call}
    (hcall : ∀ event, call ≠ .process event) :
    ∀ i, ((perform engine call).sources i).active = false := by
  cases call with
  | process event => exact absurd rfl (hcall event)
  | disconnectSource source =>
      change ∀ i, ((engine.disconnectSource source).2.sources i).active = false
      unfold OwnershipEngine.disconnectSource
      split
      · exact hinactive
      · dsimp only
        split
        · exact hinactive
        · rename_i i hfind
          obtain ⟨hactive, -⟩ := findSource_eq_some hfind
          rw [hinactive i] at hactive
          cases hactive
  | setShiftMode mode => exact hinactive
  | emergencyRecover =>
      change ∀ i, (engine.emergencyRecover.2.sources i).active = false
      unfold OwnershipEngine.emergencyRecover
      split
      · exact hinactive
      · exact fun _ => rfl
  | rearm =>
      change ∀ i, (engine.rearm.2.sources i).active = false
      unfold OwnershipEngine.rearm
      split
      · exact hinactive
      · exact fun _ => rfl
  | discardWithoutInjection => exact fun _ => rfl

/-- A recovered engine is silent until it is armed again. -/
theorem perform_recovered (h : Consistent engine) (hdone : engine.recoveryDone = true) {call : Call}
    (hrearm : call ≠ .rearm) (hdiscard : call ≠ .discardWithoutInjection) :
    (perform engine call).recoveryDone = true ∧ (perform engine call).calls = engine.calls := by
  obtain ⟨hstate, hinactive⟩ := h.recovered hdone
  cases call with
  | process event =>
      simp only [perform, OwnershipEngine.process, hstate, if_true]
      exact ⟨hdone, rfl⟩
  | disconnectSource source =>
      simp only [perform]
      unfold OwnershipEngine.disconnectSource
      split
      · exact ⟨hdone, rfl⟩
      · dsimp only
        split
        · exact ⟨hdone, rfl⟩
        · rename_i i hfind
          obtain ⟨hactive, -⟩ := findSource_eq_some hfind
          rw [hinactive i] at hactive
          cases hactive
  | setShiftMode mode => exact ⟨hdone, rfl⟩
  | emergencyRecover =>
      simp only [perform, OwnershipEngine.emergencyRecover, hdone, if_true]
      exact ⟨trivial, trivial⟩
  | rearm => exact absurd rfl hrearm
  | discardWithoutInjection => exact absurd rfl hdiscard

theorem emergencyRecover_done : engine.emergencyRecover.2.recoveryDone = true := by
  unfold OwnershipEngine.emergencyRecover
  split
  · assumption
  · rfl

theorem toggle_of_mapsTo {toggle : Key} (htoggle : isToggleKey toggle = true)
    (hid : toFrontendKeyId toggle = some id) (hkey : MapsTo key id) : key = toggle := by
  have hmomentary := momentary_of_mapsTo hkey
  rw [momentary_toFrontendKeyId hid, htoggle] at hmomentary
  obtain ⟨mapped, mode, hmapped, heffective⟩ := hkey
  cases toggle <;> cases htoggle <;> cases hid <;> cases key <;> cases hmomentary <;>
    cases hmapped <;> cases mode <;> first | rfl | cases heffective

theorem count_press_perform (engine : OwnershipEngine) {toggle : Key}
    (htoggle : isToggleKey toggle = true) (hid : toFrontendKeyId toggle = some id) (call : Call) :
    (perform engine call).calls.count (.press id) =
      engine.calls.count (.press id) + (acceptsPress toggle engine call).toNat := by
  cases call with
  | process event =>
      have hreport := report_process engine event
      simp only [perform, acceptsPress]
      cases hreport with
      | silent hcalls hresult => simp [hcalls, hresult.1, hresult.2]
      | toggled pressed hstate haction hkey htoggled hcalls hresult =>
          by_cases hsame : Key.ofValue event.key = toggle
          · have heq : pressed = id := by
              obtain ⟨mapped, mode, hmapped, rfl⟩ := hkey
              rw [hsame, hid] at hmapped
              cases hmapped
              cases toggle <;> cases htoggle <;> cases hid <;> cases mode <;> rfl
            simp [hcalls, haction, hsame, hresult, heq]
          · have hne : pressed ≠ id := by
              rintro rfl
              exact hsame (toggle_of_mapsTo htoggle hid hkey)
            simp [hcalls, hsame, hne]
      | owned pressed hstate haction hkey htoggled hcalls =>
          have hsame : Key.ofValue event.key ≠ toggle := by
            rintro rfl
            rw [htoggle] at htoggled
            cases htoggled
          have hne : pressed ≠ id := by
            rintro rfl
            exact hsame (toggle_of_mapsTo htoggle hid hkey)
          rcases hcalls with hcalls | hcalls <;> simp [hcalls, hsame, hne]
      | left added haction hcalls hadded =>
          rcases hadded with rfl | ⟨released, rfl⟩ <;> simp [hcalls, haction]
  | disconnectSource source =>
      obtain ⟨added, hcalls, hadded⟩ := disconnectSource_calls engine source
      have hnone : added.count (.press id) = 0 := by
        rw [List.count_eq_zero]
        intro hmem
        obtain ⟨released, hreleased⟩ := hadded _ hmem
        cases hreleased
      simp [perform, acceptsPress, hcalls, hnone]
  | setShiftMode mode => rfl
  | emergencyRecover =>
      simp only [perform, acceptsPress, OwnershipEngine.emergencyRecover]
      split
      · rfl
      · simp [OwnershipEngine.recoverySink, OwnershipEngine.clearState]
  | rearm =>
      simp only [perform, acceptsPress, OwnershipEngine.rearm]
      split <;> rfl
  | discardWithoutInjection => rfl

/-- An event touches the slot of its source only. -/
theorem process_other_slot {event : Event} {j : Fin maxActiveSources}
    (hactive : (engine.sources j).active = true) (hid : (engine.sources j).id ≠ event.source) :
    (engine.process event).2.sources j = engine.sources j := by
  have hpress : ∀ {other : OwnershipEngine} {i : Fin maxActiveSources} {pressed : Key}
      {effective : FrontendKeyId}, j ≠ i →
      (other.pressHeld i pressed effective).2.sources j = other.sources j := by
    intro other i pressed effective hj
    cases hheld : (other.sources i).held pressed with
    | true =>
        simp only [OwnershipEngine.pressHeld, hheld, if_true]
        rfl
    | false =>
        rw [pressHeld_sources hheld]
        simp [OwnershipEngine.takeKey, OwnershipEngine.setSlot, hj]
  have hfound : ∀ {i : Fin maxActiveSources}, engine.findSource event.source = some i → j ≠ i := by
    rintro i hfind rfl
    exact hid (findSource_eq_some hfind).2
  unfold OwnershipEngine.process
  split
  · rfl
  · split
    · rfl
    · split
      · rfl
      · split
        · unfold OwnershipEngine.processPress
          split
          · rename_i i hfind
            exact hpress (hfound hfind)
          · split
            · rename_i i allocated hallocate
              obtain ⟨hfree, rfl⟩ := allocateSource_eq_some hallocate
              have hj : j ≠ i := by
                rintro rfl
                rw [hfree] at hactive
                cases hactive
              rw [hpress hj]
              simp [OwnershipEngine.setSlot, hj]
            · rfl
        · unfold OwnershipEngine.processRelease
          split
          · rename_i i hfind
            have hj := hfound hfind
            split
            · have hleft : (engine.countAccepted.giveUp i (Key.ofValue event.key)).sources j =
                  engine.sources j := by
                rw [giveUp_sources]
                simp only [OwnershipEngine.leaveKey, OwnershipEngine.setSlot,
                  Function.update_of_ne hj]
                rfl
              dsimp only
              split
              · exact hleft
              · simpa [OwnershipEngine.setSlot, hj] using hleft
            · rfl
          · rfl

/-- A key released by an event has no owner left. -/
theorem owners_of_release (h : Consistent engine) {event : Event}
    (hrelease : .release id ∈ (engine.process event).2.calls.drop engine.calls.length) :
    owners (engine.process event).2.sources id = 0 := by
  have hnext := consistent_process h event
  have haccounted := hnext.balanced.accounted
  have hadded : (engine.process event).2.calls = engine.calls ++ [.release id] := by
    cases report_process engine event with
    | silent hcalls hresult => simp [hcalls] at hrelease
    | toggled pressed hstate haction hkey htoggled hcalls hresult => simp [hcalls] at hrelease
    | owned pressed hstate haction hkey htoggled hcalls =>
        rcases hcalls with hcalls | hcalls <;> simp [hcalls] at hrelease
    | left added haction hcalls hadded =>
        rcases hadded with rfl | ⟨released, rfl⟩
        · simp [hcalls] at hrelease
        · obtain rfl : id = released := by simpa [hcalls] using hrelease
          exact hcalls
  cases hmomentary : momentary id with
  | false =>
      refine absurd ?_ (haccounted.toggle id hmomentary).2
      simp [hadded]
  | true =>
      have hpressed := haccounted.pressed id hmomentary
      rw [← Nat.le_zero, ← not_lt, ← hpressed, hadded]
      simp [pressed]

end Steps

section Runs

variable {mode : ShiftMode} {calls : List Call} {call : Call}

theorem run_snoc : run mode (calls ++ [call]) = perform (run mode calls) call := by
  simp [run]

theorem DiscardsEarly.of_snoc (h : DiscardsEarly (calls ++ [call])) : DiscardsEarly calls := by
  rintro before after rfl
  exact h before (after ++ [call]) (by simp)

theorem consistent_run {mode : ShiftMode} (calls : List Call) (h : DiscardsEarly calls) :
    Consistent (run mode calls) ∧
      ((∀ event, .process event ∉ calls) → ∀ i, ((run mode calls).sources i).active = false) := by
  induction calls using List.reverseRecOn with
  | nil => exact ⟨consistent_initial mode, fun _ _ => rfl⟩
  | append_singleton calls call ih =>
      obtain ⟨hconsistent, hinactive⟩ := ih h.of_snoc
      rw [run_snoc]
      constructor
      · refine consistent_perform hconsistent call ?_
        rintro rfl
        exact hinactive (h calls [] rfl)
      · intro hnone
        refine perform_inactive (hinactive fun event hmem => hnone event ?_) fun event hcall => ?_
        · exact List.mem_append_left _ hmem
        · exact hnone event (by simp [hcall])

theorem acceptedPresses_snoc (key : Key) (engine : OwnershipEngine) :
    acceptedPresses key engine (calls ++ [call]) =
      acceptedPresses key engine calls +
        (acceptsPress key (calls.foldl perform engine) call).toNat := by
  induction calls generalizing engine with
  | nil => simp [acceptedPresses]
  | cons first calls ih =>
      simp only [List.cons_append, acceptedPresses, ih, List.foldl_cons]
      omega

theorem count_press_run {toggle : Key} {id : FrontendKeyId} (htoggle : isToggleKey toggle = true)
    (hid : toFrontendKeyId toggle = some id) (calls : List Call) :
    (run mode calls).calls.count (.press id) =
      acceptedPresses toggle { shiftMode := mode } calls := by
  induction calls using List.reverseRecOn with
  | nil => rfl
  | append_singleton calls call ih =>
      rw [run_snoc, count_press_perform _ htoggle hid, ih, acceptedPresses_snoc]
      rfl

/-- Behind a recovery the sink hears nothing until the engine is armed again. -/
theorem run_recovered (mode : ShiftMode) (before after : List Call)
    (h : DiscardsEarly (before ++ .emergencyRecover :: after))
    (hrearm : .rearm ∉ after) (hdiscard : .discardWithoutInjection ∉ after) :
    (run mode (before ++ .emergencyRecover :: after)).recoveryDone = true ∧
      (run mode (before ++ .emergencyRecover :: after)).calls =
        (run mode (before ++ [.emergencyRecover])).calls := by
  induction after using List.reverseRecOn with
  | nil =>
      refine ⟨?_, rfl⟩
      rw [run_snoc]
      exact emergencyRecover_done
  | append_singleton after call ih =>
      rw [← List.cons_append, ← List.append_assoc] at h ⊢
      simp only [List.mem_append, List.mem_singleton, not_or] at hrearm hdiscard
      obtain ⟨hdone, hcalls⟩ := ih h.of_snoc hrearm.1 hdiscard.1
      obtain ⟨hdone', hcalls'⟩ := perform_recovered (consistent_run _ h.of_snoc).1 hdone
        (Ne.symm hrearm.2) (Ne.symm hdiscard.2)
      rw [run_snoc]
      exact ⟨hdone', hcalls'.trans hcalls⟩

/-- The ownership engine under every sequence of calls: the counters count the owners; the
sink hears each momentary key pressed and released in turn, and pressed while it has an
owner; active slots belong to different valid sources and hold a key each; a toggle key is
pressed once for each accepted press and never released; no event releases a key that
another source holds; and a recovery silences the engine until it is armed again. -/
theorem ownership_run (mode : ShiftMode) (calls : List Call) (h : DiscardsEarly calls) :
    (∀ id, ((run mode calls).ownerCounts id).toNat = owners (run mode calls).sources id) ∧
    (∀ id, momentary id = true → Alternating (edges id (run mode calls).calls) ∧
      (pressed id (run mode calls).calls ↔ 0 < (run mode calls).ownerCounts id)) ∧
    (∀ i j, ((run mode calls).sources i).active = true →
      ((run mode calls).sources j).active = true →
      ((run mode calls).sources i).id = ((run mode calls).sources j).id → i = j) ∧
    (∀ i, ((run mode calls).sources i).active = true →
      ((run mode calls).sources i).id.valid = true ∧
        ∃ key, ((run mode calls).sources i).held key = true) ∧
    (∀ key id, isToggleKey key = true → toFrontendKeyId key = some id →
      (run mode calls).calls.count (.press id) =
          acceptedPresses key { shiftMode := mode } calls ∧
        .release id ∉ (run mode calls).calls) ∧
    (∀ event id, .release id ∈
        ((run mode calls).process event).2.calls.drop (run mode calls).calls.length →
      ∀ i key, ((run mode calls).sources i).active = true →
        ((run mode calls).sources i).id ≠ event.source →
          ¬ Holds (run mode calls).sources id (i, key)) ∧
    ∀ before after, calls = before ++ .emergencyRecover :: after → .rearm ∉ after →
      .discardWithoutInjection ∉ after →
      (run mode calls).calls = (run mode (before ++ [.emergencyRecover])).calls ∧
        ∀ id, momentary id = true → ¬ pressed id (run mode calls).calls := by
  have hconsistent : Consistent (run mode calls) := (consistent_run calls h).1
  have hbalanced := hconsistent.balanced
  have haccounted := hbalanced.accounted
  refine ⟨haccounted.counts, fun id hid => ⟨haccounted.alternating id hid, ?_⟩,
    hbalanced.distinct, fun i hi => ⟨hbalanced.valid i hi, hconsistent.occupied i hi⟩,
    fun key id hkey hid => ⟨count_press_run hkey hid calls, ?_⟩, ?_, ?_⟩
  · rw [haccounted.pressed id hid, UInt16.lt_iff_toNat_lt, haccounted.counts id]
    rfl
  · refine (haccounted.toggle id ?_).2
    rw [momentary_toFrontendKeyId hid, hkey]
    rfl
  · intro event id hrelease i key hactive hsource hholds
    have hnone := owners_of_release hconsistent hrelease
    refine absurd (owners_pos_iff.mpr ⟨i, key, ?_⟩) (by rw [hnone]; exact lt_irrefl 0)
    simpa only [Holds, process_other_slot hactive hsource] using hholds
  · rintro before after rfl hrearm hdiscard
    obtain ⟨hdone, hcalls⟩ := run_recovered mode before after h hrearm hdiscard
    refine ⟨hcalls, fun id hid => ?_⟩
    have hnone := accounted_of_inactive hconsistent (hconsistent.recovered hdone).2
    rw [hnone.pressed id hid]
    exact lt_irrefl 0

theorem discardsEarly_of_not_mem (h : .discardWithoutInjection ∉ calls) : DiscardsEarly calls := by
  rintro before after rfl
  simp at h

/-- Two sources hold the collapsed shift under its two keys; one of them lets go. -/
theorem ownership_run_shared_shift :
    pressed .leftShift (run .collapsed
      [.process (.edge ⟨1⟩ .leftShift .press), .process (.edge ⟨2⟩ .rightShift .press),
        .setShiftMode .separate, .process (.edge ⟨1⟩ .leftShift .release)]).calls := by
  have hearly : DiscardsEarly
      [.process (.edge ⟨1⟩ .leftShift .press), .process (.edge ⟨2⟩ .rightShift .press),
        .setShiftMode .separate, .process (.edge ⟨1⟩ .leftShift .release)] :=
    discardsEarly_of_not_mem (by decide)
  exact ((ownership_run .collapsed _ hearly).2.1 .leftShift rfl).2.mpr (by decide +kernel)

/-- A toggle key is pressed again without a release, and a discard behind a recovery arms the
engine as well as `rearm` does. -/
theorem toggle_repeats_and_discard_rearms :
    (¬ ∀ mode calls, DiscardsEarly calls → ∀ id,
      Alternating (edges id (run mode calls).calls) ∧
        (pressed id (run mode calls).calls ↔ 0 < (run mode calls).ownerCounts id)) ∧
    ¬ ∀ mode calls before after, DiscardsEarly calls →
      calls = before ++ .emergencyRecover :: after →
      .rearm ∉ after → ∀ id, momentary id = true → ¬ pressed id (run mode calls).calls := by
  constructor
  · intro h
    have hearly : DiscardsEarly [.process (.edge ⟨1⟩ .capsLock .press),
        .process (.edge ⟨1⟩ .capsLock .release), .process (.edge ⟨1⟩ .capsLock .press)] :=
      discardsEarly_of_not_mem (by decide)
    have hsecond := (h .collapsed _ hearly .capsLock).1 1 (by decide +kernel)
    revert hsecond
    decide +kernel
  · intro h
    refine h .collapsed [.emergencyRecover, .discardWithoutInjection,
      .process (.edge ⟨1⟩ .a .press)] [] [.discardWithoutInjection, .process (.edge ⟨1⟩ .a .press)]
      ?_ rfl (by decide) .a rfl ?_
    · intro before after hsplit event hmem
      rcases before with _ | ⟨first, _ | ⟨second, _ | ⟨third, before⟩⟩⟩
      · cases hmem
      · obtain ⟨rfl, -⟩ := List.cons.inj hsplit
        simp at hmem
      · simp at hsplit
      · simp at hsplit
    · unfold pressed
      decide +kernel

end Runs

end EspNp2.KeyboardInput.OwnershipRuns
