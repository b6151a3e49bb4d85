import EspNp2.KeyboardInput.UsbFidelity
import EspNp2.KeyboardInput.UsbProducerWatch

/-!
The producer's task under its monitor: the raw events, the main loop and the teardown.
-/

namespace EspNp2.KeyboardInput.UsbProducerCalls

open EspNp2.Library.Concurrent
open KeyboardBridge
open KeyMapping
open Ownership
open UsbProducer
open UsbProducerWatch
open UsbReports

section Translated

variable {staged staged' : List Event} {oldModifiers finalModifiers : UInt8}

/-- The bridge takes all of these events. -/
def Valid (events : List Event) : Prop := ∀ event ∈ events, isValidEvent event = true

theorem valid_appendEvent {key : Key} {action : Action} (hkey : (toFrontendKeyId key).isSome = true)
    (hvalid : Valid staged) (h : appendEvent staged key action = some staged') : Valid staged' := by
  obtain ⟨-, ⟨⟩⟩ := Option.ite_none_left_eq_some.mp h
  obtain ⟨mapped, hmapped⟩ := Option.isSome_iff_exists.mp hkey
  intro event hevent
  rcases List.mem_append.mp hevent with hold | hnew
  · exact hvalid event hold
  · rw [List.mem_singleton.mp hnew]
    exact SoleSource.isValidEvent_edge rfl hmapped action

theorem valid_appendAliasEdge {mask : UInt8} {key : Key}
    (hkey : (toFrontendKeyId key).isSome = true) (hvalid : Valid staged)
    (h : appendAliasEdge staged oldModifiers finalModifiers mask key = some staged') :
    Valid staged' := by
  unfold appendAliasEdge at h
  dsimp only at h
  split at h
  · cases h
    exact hvalid
  · exact valid_appendEvent hkey hvalid h

theorem valid_appendAliasEdges (hvalid : Valid staged)
    (h : appendAliasEdges staged oldModifiers finalModifiers = some staged') : Valid staged' := by
  obtain ⟨middle, hcontrol, hgrph⟩ := Option.bind_eq_some_iff.mp h
  exact valid_appendAliasEdge rfl (valid_appendAliasEdge rfl hvalid hcontrol) hgrph

theorem valid_stageTransition {s s' : Staging} {transition : Transition} (hvalid : Valid s.staged)
    (h : stageTransition oldModifiers finalModifiers s transition = some s') : Valid s'.staged := by
  unfold stageTransition at h
  split at h
  · split at h
    · cases h
      exact hvalid
    · obtain ⟨staged, hstaged, ⟨⟩⟩ := Option.bind_eq_some_iff.mp h
      exact valid_appendAliasEdges hvalid hstaged
  · split at h
    · cases h
      exact hvalid
    · rename_i key hmap
      obtain ⟨staged, hstaged, ⟨⟩⟩ := Option.bind_eq_some_iff.mp h
      exact valid_appendEvent (UsbFidelity.mapUsage_facts hmap).2.1 hvalid hstaged

theorem valid_stageTransitions {transitions : List Transition} {s s' : Staging}
    (hvalid : Valid s.staged)
    (h : transitions.foldlM (stageTransition oldModifiers finalModifiers) s = some s') :
    Valid s'.staged := by
  induction transitions generalizing s with
  | nil =>
      cases h
      exact hvalid
  | cons transition transitions ih =>
      obtain ⟨middle, hstep, hrest⟩ := Option.bind_eq_some_iff.mp h
      exact ih (valid_stageTransition hvalid hstep) hrest

/-- The adapter makes no event that the bridge would call invalid. -/
theorem valid_translateReport (adapter : Adapter) (transitions : List Transition)
    (finalModifiers : UInt8) (capacity : Nat) :
    Valid (translateReport adapter transitions finalModifiers capacity).2.1 := by
  have hstage : ∀ s, stageReport adapter.modifiers finalModifiers transitions = some s →
      Valid s.staged := by
    intro s h
    obtain ⟨middle, hfold, hrest⟩ := Option.bind_eq_some_iff.mp h
    have hnone : Valid ({} : Staging).staged := by simp [Valid]
    have hmiddle : Valid middle.staged := valid_stageTransitions hnone hfold
    split at hrest
    · cases hrest
      exact hmiddle
    · obtain ⟨staged, hstaged, ⟨⟩⟩ := Option.bind_eq_some_iff.mp hrest
      exact valid_appendAliasEdges hmiddle hstaged
  unfold translateReport
  split
  · nofun
  split
  · nofun
  split
  · nofun
  · rename_i s hs
    split
    · nofun
    · exact hstage s hs

end Translated

section ProducerCode

variable {created : Bool} {w r : Watch}

/-- The gate of the bridge. -/
theorem watched_canEnqueue (hr : w.refuse = some r) :
    Watched (producerMonitor created)
      (fun w' opened => if opened then created = true ∧ w' = w
        else created = false ∧ w' = w ∨ created = true ∧ w' = r)
      (canEnqueue bridgeAccess created) w := by
  have hclosed : ∀ (word : BridgeWord) (rest : Code Bool), created = true →
      Watched (producerMonitor created)
        (fun w' opened => if opened then created = true ∧ w' = w
          else created = false ∧ w' = w ∨ created = true ∧ w' = r) rest w →
      Watched (producerMonitor created)
        (fun w' opened => if opened then created = true ∧ w' = w
          else created = false ∧ w' = w ∨ created = true ∧ w' = r)
        (do if ← bridgeAccess.load word then return false else rest) w := by
    intro word rest hcreated hrest
    refine watched_op_iff.mpr fun closed _ => ?_
    cases closed with
    | true => exact ⟨r, hr, watched_done_iff.mpr (.inr ⟨hcreated, rfl⟩)⟩
    | false => exact ⟨w, rfl, hrest⟩
  change Watched _ _ (if created = false then _ else _) w
  split
  · rename_i hcreated
    exact watched_done_iff.mpr (.inl ⟨hcreated, rfl⟩)
  · rename_i hcreated
    have htrue : created = true := by simpa using hcreated
    refine hclosed _ _ htrue (hclosed _ _ htrue (hclosed _ _ htrue ?_))
    exact watched_done_iff.mpr ⟨htrue, rfl⟩

/-- What the monitor makes of the bridge's results. -/
def Enqueued (created : Bool) (w next r w' : Watch) : EnqueueResult → Prop
  | .enqueued => w' = next
  | .full => w' = r
  | .quarantined => w' = r
  | .invalid => False
  | .notInitialized => created = false ∧ w' = w

theorem watched_enqueueCommand {next : Watch} {command : Command} (hr : w.refuse = some r)
    (hnext : created = true → watchSend created w command true = some next) :
    Watched (producerMonitor created) (Enqueued created w next r)
      (enqueueCommand bridgeAccess created true command) w := by
  change Watched _ _ (Thread.bind (canEnqueue bridgeAccess created) _) w
  refine Watched.bind ((watched_canEnqueue hr).mono ?_)
  intro w' opened hopened
  cases opened with
  | true =>
      obtain ⟨hcreated, rfl⟩ := hopened
      refine watched_op_iff.mpr fun sent _ => ?_
      cases sent with
      | true => exact ⟨next, hnext hcreated, watched_done_iff.mpr rfl⟩
      | false =>
          have hrefuse : watchSend created w' command false = some r := by
            simp [watchSend, hcreated, hr]
          refine ⟨r, hrefuse, ?_⟩
          exact watched_op_iff.mpr fun _ _ => ⟨r, rfl, watched_done_iff.mpr rfl⟩
  | false =>
      refine watched_done_iff.mpr ?_
      rcases hopened with ⟨hcreated, rfl⟩ | ⟨hcreated, rfl⟩
      · simp [hcreated, Enqueued]
      · simp [hcreated, Enqueued]

theorem watched_disableForFault (hcalm : w.stage = .calm ∨ created = false) :
    Watched (producerMonitor created) (fun w' _ => Later w w') (disableForFault false) w := by
  refine watched_op_iff.mpr fun _ _ => ⟨w, rfl, ?_⟩
  refine watched_op_iff.mpr fun _ _ => ⟨w, rfl, ?_⟩
  have hstop : watchStore created w true .stopRequested = some w := by
    rw [watchStore, if_pos ⟨rfl, .inr hcalm⟩]
  exact watched_op_iff.mpr fun _ _ => ⟨w, hstop, tolerant_producerMonitor.unblockClient w⟩

theorem watched_enqueueEvents {events : List Event} (hvalid : Valid events)
    (hw : w.stage = .active) :
    Watched (producerMonitor created) (fun w' _ => w'.stage.handled)
      (enqueueEvents created events) w := by
  induction events with
  | nil => exact watched_done_iff.mpr (.inr (.inl hw))
  | cons event events ih =>
      have hr : w.refuse = some { w with stage := .calm, refused := true } := by
        simp [Watch.refuse, hw]
      have hstop : ∀ {w'}, w'.stage = .calm ∨ created = false → w'.stage.handled →
          Watched (producerMonitor created) (fun w' _ => w'.stage.handled)
            (disableForFault false) w' :=
        fun hcalm hhandled => (watched_disableForFault hcalm).mono fun _ _ hlater => by
          rwa [hlater.stage]
      refine watched_op_iff.mpr fun accepting _ => ⟨w, rfl, ?_⟩
      cases accepting with
      | false => exact watched_done_iff.mpr (.inr (.inl hw))
      | true =>
          refine watched_op_iff.mpr fun allowed hallowed => ⟨w, rfl, ?_⟩
          obtain rfl : allowed = true := hallowed
          have henqueue : Watched (producerMonitor created)
              (Enqueued created w w { w with stage := .calm, refused := true })
              (enqueueCommand bridgeAccess created true (.event event)) w := by
            refine watched_enqueueCommand hr fun hcreated => ?_
            simp [watchSend, hcreated, hw]
          change Watched _ _ (Thread.bind (enqueue bridgeAccess created event) _) w
          rw [enqueue, hvalid event (by simp)]
          refine Watched.bind (henqueue.mono ?_)
          intro w' result hresult
          cases result with
          | enqueued =>
              obtain rfl : w' = w := hresult
              exact ih fun event hevent => hvalid event (by simp [hevent])
          | full | quarantined =>
              obtain rfl : w' = _ := hresult
              exact watched_op_iff.mpr fun _ _ => ⟨_, rfl, hstop (.inl rfl) (.inr (.inr rfl))⟩
          | invalid => exact hresult.elim
          | notInitialized =>
              obtain ⟨hcreated, rfl⟩ := hresult
              exact hstop (.inr hcreated) (.inr (.inl hw))

/-- The disconnect command of the source, from the stage `first`. -/
theorem watched_disconnectUnlessFailed {next : Watch} (hr : w.refuse = some r)
    (hrefused : r.refused = true)
    (hnext : created = true →
      watchSend created w (.sourceDisconnect usbKeyboardSource) true = some next) :
    Watched (producerMonitor created)
      (fun w' _ => w' = next ∨ w' = r ∨ created = false ∧ w' = w)
      (disconnectUnlessFailed created) w := by
  have hfailure : watchStore created r true .bridgeFailure = some r := by
    rw [watchStore, if_pos ⟨rfl, hrefused⟩]
  refine watched_op_iff.mpr fun allowed hallowed => ⟨w, rfl, ?_⟩
  obtain rfl : allowed = true := hallowed
  refine watched_op_iff.mpr fun failed _ => ?_
  cases failed with
  | true => exact ⟨r, hr, watched_done_iff.mpr (.inr (.inl rfl))⟩
  | false =>
      refine ⟨w, rfl, ?_⟩
      refine watched_op_iff.mpr fun allowed hallowed => ⟨w, rfl, ?_⟩
      obtain rfl : allowed = true := hallowed
      have henqueue : Watched (producerMonitor created) (Enqueued created w next r)
          (disconnectSource bridgeAccess created usbKeyboardSource) w :=
        watched_enqueueCommand hr hnext
      change Watched _ _ (Thread.bind (Thread.bind (disconnectSource _ _ _) _) _) w
      refine Watched.bind (Watched.bind (henqueue.mono ?_))
      intro w' result hresult
      cases result with
      | enqueued =>
          exact watched_done_iff.mpr (watched_done_iff.mpr (.inl hresult))
      | full | quarantined =>
          obtain rfl : w' = r := hresult
          exact watched_op_iff.mpr fun _ _ => ⟨_, hfailure,
            watched_done_iff.mpr (watched_done_iff.mpr (.inr (.inl rfl)))⟩
      | invalid => exact hresult.elim
      | notInitialized =>
          exact watched_done_iff.mpr (watched_done_iff.mpr (.inr (.inr hresult)))

/-- A device that has gone takes its keys along. -/
theorem watched_disconnectActive (hw : w.stage = .active) :
    Watched (producerMonitor created)
      (fun w' _ => w'.stage = .calm ∨ w'.stage = .active ∧ created = false)
      (disconnectUnlessFailed created) w := by
  have hr : w.refuse = some { w with stage := .calm, refused := true } := by
    simp [Watch.refuse, hw]
  have hnext : created = true →
      watchSend created w (.sourceDisconnect usbKeyboardSource) true = some (w.at .calm) := by
    intro hcreated
    simp [watchSend, hcreated, hw]
  refine (watched_disconnectUnlessFailed hr rfl hnext).mono ?_
  rintro w' _ (rfl | rfl | ⟨hcreated, rfl⟩)
  · exact .inl rfl
  · exact .inl rfl
  · exact .inr ⟨hw, hcreated⟩

end ProducerCode

section Events

variable {created : Bool} {α β : Type} {stage : Stage}

theorem stages_resetKeyboardState :
    Stages created (fun stage => stage = .calm ∨ stage = .active ∧ created = false)
      resetKeyboardState (· = .calm) := by
  have hfields : Stages created (fun stage => stage = .calm ∨ stage = .active ∧ created = false)
      (set ({} : KeyboardFields)) (fun stage => stage = .calm ∨ stage = .active ∧
        created = false) :=
    ensures_set fun _ h => h
  have hstore : Stages created (fun stage => stage = .calm ∨ stage = .active ∧ created = false)
      (liftM (storeHandle .activeHandle none)) (· = .calm) := by
    refine ensures_lift fun w hw => ?_
    have hobserve : watchStoreHandle created w none .activeHandle = some (w.at .calm) := by
      rw [watchStoreHandle, if_pos]
      rcases hw with hcalm | ⟨hactive, hcreated⟩
      · exact .inl hcalm
      · exact .inr ⟨hactive, hcreated, rfl⟩
    exact watched_op_iff.mpr fun _ _ => ⟨_, hobserve, watched_done_iff.mpr rfl⟩
  have hopen : Steady (producerMonitor created) (store .activeOpen false) :=
    tolerant_producerMonitor.operate rfl
  exact Stages.bind hfields fun _ => Stages.bind hstore fun _ => hopen.at.stages

theorem stages_done {value : α} {pre : Stage → Prop} (h : ∀ stage, pre stage → stage.handled) :
    Stages created pre (pure value) Stage.handled :=
  ensures_pure fun w hw => h w.stage hw

/-- The active handle is loaded for a raw event. -/
theorem stages_activeHandle {rest : Option Handle → Producer α}
    (hnone : Stages created (· = .calm) (rest none) Stage.handled)
    (hsome : ∀ handle, Stages created (· = .active) (rest (some handle)) Stage.handled) :
    Stages created (· = .received) (liftM (loadHandle .activeHandle) >>= rest) Stage.handled := by
  refine Ensures.bind (Q := fun w value => w.stage = if value = none then .calm else .active)
    (ensures_lift ?_) fun value => ?_
  · intro w hw
    refine watched_op_iff.mpr fun value _ => ⟨w.at (if value = none then .calm else .active), ?_,
      watched_done_iff.mpr rfl⟩
    change watchLoadHandle w value .activeHandle = _
    rw [watchLoadHandle, if_pos hw]
  · cases value with
    | none => exact hnone
    | some handle => exact hsome handle

theorem stages_processDisconnected (handle : Option Handle) :
    Stages created (· = .received) (processDisconnected created handle) Stage.handled := by
  refine ensures_ite (fun _ => stages_done fun _ h => .inl h) fun hhandle => ?_
  refine stages_activeHandle ?_ fun active => ?_
  · exact ensures_ite (fun _ => stages_done fun _ h => .inr (.inr h)) fun heq =>
      absurd (not_not.mp heq).symm hhandle
  · refine ensures_ite (fun _ => stages_done fun _ h => .inr (.inl h)) fun _ => ?_
    refine Ensures.bind (Q := fun w _ => w.stage = .calm ∨ w.stage = .active ∧ created = false)
      (ensures_lift fun w hw => watched_disconnectActive hw) fun _ => ?_
    exact Ensures.mono stages_resetKeyboardState fun w _ hw => .inr (.inr hw)

theorem steadyAt_stopActiveDevice (h : stage ≠ .received) :
    SteadyAt (producerMonitor created) stage stopActiveDevice := by
  have ht : Tolerant (producerMonitor created) := tolerant_producerMonitor
  refine SteadyAt.bind (steadyAt_operate ?_) fun handle => ?_
  · rintro w reply rfl
    change watchLoadHandle w reply .activeHandle = some w
    rw [watchLoadHandle, if_neg h]
  · cases handle with
    | none => exact steadyAt_pure _
    | some handle =>
        refine Steady.at (Steady.bind (ht.operate rfl) fun _ => ?_)
        exact steady_ite (fun _ => (ht.hidCall _).discard) fun _ => steady_pure _

theorem steady_exchange {word : Word} (h : word = .activeOpen ∨ word = .hidInstalled)
    (value : Bool) : Steady (producerMonitor created) (exchange word value) := by
  intro w
  refine watched_op_iff.mpr fun _ _ => ⟨w, ?_, watched_done_iff.mpr (.refl w)⟩
  rcases h with rfl | rfl <;> rfl

theorem steady_closeActive (handle : Option Handle) :
    Steady (producerMonitor created) (closeActive handle) :=
  Steady.bind (steady_exchange (.inl rfl) false) fun _ =>
    steady_ite (fun _ => (tolerant_producerMonitor.operate rfl).discard) fun _ => steady_pure _

theorem stages_processTransferError (handle : Option Handle) :
    Stages created (· = .received) (processTransferError created handle) Stage.handled := by
  refine ensures_ite (fun _ => stages_done fun _ h => .inl h) fun hhandle => ?_
  refine stages_activeHandle ?_ fun active => ?_
  · exact ensures_ite (fun _ => stages_done fun _ h => .inr (.inr h)) fun heq =>
      absurd (not_not.mp heq).symm hhandle
  · refine ensures_ite (fun _ => stages_done fun _ h => .inr (.inl h)) fun _ => ?_
    have hrest : Stages created (· = .active) (do
        disconnectUnlessFailed created
        resetKeyboardState) Stage.handled := by
      refine Ensures.bind (Q := fun w _ => w.stage = .calm ∨ w.stage = .active ∧ created = false)
        (ensures_lift fun w hw => watched_disconnectActive hw) fun _ => ?_
      exact Ensures.mono stages_resetKeyboardState fun w _ hw => .inr (.inr hw)
    refine stages_steady (steadyAt_stopActiveDevice nofun) fun _ => ?_
    exact stages_steady (steady_closeActive handle).at fun _ => hrest

theorem steadyAt_storeActive (value : Option Handle) :
    SteadyAt (producerMonitor created) .calm (storeHandle .activeHandle value) := by
  refine steadyAt_operate fun w reply hw => ?_
  change watchStoreHandle created w value .activeHandle = some w
  rw [watchStoreHandle, if_pos (.inl hw), Watch.at, ← hw]

theorem steadyAt_openKeyboard (handle : Handle) :
    SteadyAt (producerMonitor created) .calm (openKeyboard handle) := by
  have ht : Tolerant (producerMonitor created) := tolerant_producerMonitor
  refine SteadyAt.bind (ht.operate rfl).at fun _ => SteadyAt.ite
    (fun _ => steadyAt_pure _) fun _ => ?_
  refine SteadyAt.bind (steadyAt_storeActive _) fun _ => SteadyAt.bind
    (ht.operate rfl).at fun _ => ?_
  refine SteadyAt.bind (ht.operate rfl).at fun _ => SteadyAt.ite
    (fun _ => steadyAt_pure _) fun _ => ?_
  exact SteadyAt.bind (ht.operate rfl).at fun _ =>
    SteadyAt.ite (fun _ => steadyAt_pure _) fun _ => (ht.operate rfl).at

theorem steadyAt_disableForFault :
    SteadyAt (producerMonitor created) .calm (disableForFault false) :=
  fun _ hw => watched_disableForFault (.inl hw)

theorem watched_processConnected (handle : Option Handle) {w : Watch} (hw : w.stage = .received) :
    Watched (producerMonitor created) (fun w' _ => w'.stage.handled)
      (processConnected handle) w := by
  have ht : Tolerant (producerMonitor created) := tolerant_producerMonitor
  cases handle with
  | none => exact watched_done_iff.mpr (.inl hw)
  | some handle =>
      refine watched_op_iff.mpr fun params _ => ⟨w, rfl, ?_⟩
      change Watched _ _ (if params.1 ≠ .ok then _ else _) w
      split
      · exact (ht.disableForFault w).mono fun w' _ hlater => .inl (hlater.stage.trans hw)
      change Watched _ _ (if params.2.bootInterface = false ∨ params.2.keyboardProtocol = false
        then _ else _) w
      split
      · exact watched_done_iff.mpr (.inl hw)
      refine watched_op_iff.mpr fun active _ =>
        ⟨w.at (if active = none then .calm else .active), ?_, ?_⟩
      · change watchLoadHandle w active .activeHandle = _
        rw [watchLoadHandle, if_pos hw]
      cases active with
      | some active => exact watched_done_iff.mpr (.inr (.inl rfl))
      | none =>
          have hcalm : SteadyAt (producerMonitor created) .calm (do
              let result ← openKeyboard handle
              if result ≠ .ok then
                closeActive (some handle)
                storeHandle .activeHandle none
                disableForFault false
              else return) := by
            refine SteadyAt.bind (steadyAt_openKeyboard handle) fun _ =>
              SteadyAt.ite (fun _ => ?_) fun _ => steadyAt_pure _
            exact SteadyAt.bind (steady_closeActive _).at fun _ =>
              SteadyAt.bind (steadyAt_storeActive _) fun _ => steadyAt_disableForFault
          exact (hcalm (w.at .calm) rfl).mono fun w' _ hlater => .inr (.inr hlater.stage)

theorem stages_translateInputReport (data : List UInt8) :
    Stages created (· = .active) (translateInputReport created data) Stage.handled := by
  refine ensures_get_bind fun fields => ?_
  refine Ensures.bind (Q := fun w _ => w.stage = .active) (ensures_set fun _ h => h) fun _ => ?_
  refine ensures_ite (fun _ => stages_done fun _ h => .inr (.inl h)) fun _ => ?_
  refine ensures_ite (fun _ => ?_) fun _ => ?_
  · exact tolerant_producerMonitor.disableForFault.at.handled (.inr (.inl rfl))
  · exact ensures_lift fun w hw => watched_enqueueEvents (valid_translateReport _ _ _ _) hw

theorem stages_processInputReport (event : RawEvent) :
    Stages created (· = .received) (processInputReport created event) Stage.handled := by
  refine stages_steady (Steady.at (Tolerant.operate tolerant_producerMonitor rfl)) fun _ =>
    ensures_ite (fun _ => ?_) fun _ => stages_done fun _ h => .inl h
  refine ensures_ite (fun _ => stages_done fun _ h => .inl h) fun hhandle => ?_
  refine stages_activeHandle ?_ fun active => ?_
  · exact ensures_ite (fun _ => stages_done fun _ h => .inr (.inr h)) fun heq =>
      absurd (not_not.mp heq).symm hhandle
  · refine ensures_ite (fun _ => stages_done fun _ h => .inr (.inl h)) fun _ => ?_
    exact ensures_ite (fun _ => stages_done fun _ h => .inr (.inl h)) fun _ =>
      stages_translateInputReport event.data

theorem stages_processEvent (event : RawEvent) :
    Stages created (· = .received) (processEvent created event) Stage.handled := by
  unfold processEvent
  cases event.kind with
  | connected => exact ensures_lift fun w hw => watched_processConnected event.handle hw
  | inputReport => exact stages_processInputReport event
  | disconnected => exact stages_processDisconnected event.handle
  | transferError => exact stages_processTransferError event.handle

end Events

section Loop

variable {created : Bool}

/-- The stop is read in the loop. -/
theorem watched_loadStop {w : Watch} (hw : w.stage.looping = true) :
    Watched (producerMonitor created)
      (fun w' value => w'.stage = if value then .leaving else .opened) (load .stopRequested) w := by
  refine watched_op_iff.mpr fun value _ => ⟨w.at (if value then .leaving else .opened), ?_,
    watched_done_iff.mpr rfl⟩
  change watchLoad w value .stopRequested = _
  rw [watchLoad, if_pos hw]

theorem ensures_processQueued : Ensures (producerMonitor created) (fun w => w.stage = .opened)
    (processQueued created) fun w _ => w.stage = .opened ∨ w.stage = .leaving := by
  refine ensures_iterating (fun w _ => w.stage = .opened) (fun _ h => h) fun _ => ?_
  refine Ensures.bind (Q := fun w event => w.stage = if event = none then .opened else .received)
    (ensures_lift ?_) fun event => ?_
  · intro w hw
    refine watched_op_iff.mpr fun event _ => ⟨if event = none then w else w.at .received, ?_, ?_⟩
    · change watchReceive w event = _
      simp only [watchReceive, hw]
    · refine watched_done_iff.mpr ?_
      split
      · exact hw
      · rfl
  · cases event with
    | none => exact ensures_pure fun _ h => .inl h
    | some event =>
        refine Ensures.bind (stages_processEvent event) fun _ => ?_
        refine Ensures.bind (ensures_lift fun w hw => watched_loadStop hw.looping) fun stop => ?_
        cases stop with
        | true => exact ensures_pure fun _ h => .inr h
        | false => exact ensures_pure fun _ h => h

theorem ensures_mainRound : Ensures (producerMonitor created) (fun w => w.stage.between)
    (mainRound created)
    (RoundPost (fun w _ => w.stage.between) fun w _ => w.stage = .leaving) := by
  have ht : Tolerant (producerMonitor created) := tolerant_producerMonitor
  refine Ensures.bind (ensures_lift fun w hw => watched_loadStop hw.looping) fun stop => ?_
  cases stop with
  | true => exact ensures_pure fun _ h => h
  | false =>
      refine Ensures.bind ensures_processQueued fun _ => ?_
      refine Ensures.bind (Q := fun w client => w.stage = .opened ∧ client ≠ none ∨
        w.stage = .leaving)
        (ensures_lift ?_) fun client => ?_
      · intro w hw
        refine watched_op_iff.mpr fun client hclient => ⟨w, rfl, watched_done_iff.mpr ?_⟩
        exact hw.imp_left fun hopened => ⟨hopened, hclient hopened⟩
      cases client with
      | none => exact ensures_pure fun _ h => h.resolve_left fun h => h.2 rfl
      | some client =>
          refine Ensures.bind (Q := fun w _ => w.stage = .opened ∨ w.stage = .leaving)
            (ensures_lift ?_) fun result => ?_
          · intro w hw
            refine (ht.usbHostClientHandleEvents client w).mono fun w' _ hlater => ?_
            rw [hlater.stage]
            exact hw.imp_left And.left
          refine ensures_ite (fun _ => ?_) fun _ => ensures_pure fun _ h => .inr h
          refine Ensures.bind (ensures_lift fun w hw => watched_loadStop ?_) fun stop => ?_
          · rcases hw with hw | hw <;> rw [hw] <;> rfl
          cases stop with
          | true => exact ensures_pure fun _ h => .inr (.inr h)
          | false =>
              refine Ensures.bind (Q := fun w _ => w.stage = .opened) (ensures_lift ?_) fun _ =>
                ensures_pure fun _ h => .inr (.inl h)
              exact fun w hw => (ht.disableForFault w).mono fun _ _ hlater => hlater.stage.trans hw

theorem steadyAt_discardQueued : SteadyAt (producerMonitor created) .leaving discardQueued := by
  refine steadyAt_iterate (SteadyAt.bind (steadyAt_operate ?_) fun event => ?_)
  · intro w event hw
    change watchReceive w event = some w
    simp only [watchReceive, hw]
  · cases event <;> exact steadyAt_pure _

/-- The start ends with a registered client, or fails before the loop. -/
theorem watched_startProducer {w : Watch} (hw : w.stage = .setup) :
    Watched (producerMonitor created) (fun w' started =>
      w'.stage = .registered ∨ w'.stage = .setup ∧ started = false) startProducer w := by
  have ht : Tolerant (producerMonitor created) := tolerant_producerMonitor
  have hfail : Steady (producerMonitor created) failStart :=
    Steady.bind (ht.operate rfl) fun _ => Steady.bind (ht.operate rfl) fun _ => steady_pure _
  have hready : Steady (producerMonitor created) usbHostReady :=
    Steady.bind (ht.operate rfl) fun _ =>
      steady_ite (fun _ => ht.operate rfl) fun _ => steady_pure _
  have hfailed : ∀ {w' : Watch}, w'.stage = .setup → Watched (producerMonitor created)
      (fun w' started => w'.stage = .registered ∨ w'.stage = .setup ∧ started = false)
      failStart w' := by
    intro w' hw'
    refine watched_op_iff.mpr fun _ _ => ⟨w', rfl, watched_op_iff.mpr fun _ _ => ⟨w', rfl, ?_⟩⟩
    exact watched_done_iff.mpr (.inr ⟨hw', rfl⟩)
  refine Watched.bind ((hready w).mono ?_)
  intro w' ready hlater
  have hsetup := hlater.stage.trans hw
  cases ready with
  | false => exact hfailed hsetup
  | true =>
      refine watched_op_iff.mpr fun registered _ => ⟨w', rfl, ?_⟩
      cases registered with
      | error => exact hfailed hsetup
      | ok client =>
          have hstore : watchStoreHandle created w' (some client) .usbClient =
              some (w'.at .registered) := by
            rw [watchStoreHandle, if_pos ⟨hsetup, nofun⟩]
          refine watched_op_iff.mpr fun _ _ => ⟨_, hstore, ?_⟩
          have hrest : Steady (producerMonitor created) (do
              let installed ← host .hidInstall
              if installed ≠ .ok then failStart
              else
                store .hidInstalled true
                give .hidStart
                store .startResult true
                give .producerReady
                return true) := by
            refine Steady.bind (ht.operate rfl) fun _ => steady_ite (fun _ => hfail) fun _ => ?_
            refine Steady.bind (ht.operate rfl) fun _ => Steady.bind (ht.operate rfl) fun _ => ?_
            exact Steady.bind (ht.operate rfl) fun _ => Steady.bind (ht.operate rfl) fun _ =>
              steady_pure _
          exact (hrest _).mono fun w'' _ hlater => .inl hlater.stage

end Loop

section Teardown

variable {created : Bool}

/-- The cleanup step. -/
theorem watched_sourceCleanup {w : Watch}
    (hw : w.stage = .setup ∨ w.stage = .registered ∨ w.stage = .leaving) :
    Watched (producerMonitor created)
      (fun w' _ => w'.stage = .cleaned ∨ w'.stage = .cleaning ∧ created = false)
      (sourceCleanup created) w := by
  refine watched_op_iff.mpr fun requested _ =>
    ⟨w.at (if requested then .cleaning else .cleaned), ?_, ?_⟩
  · change watchLoad w requested .sourceCleanupRequested = _
    rw [watchLoad, if_pos hw]
  cases requested with
  | false => exact watched_done_iff.mpr (.inl rfl)
  | true =>
      have hr : (w.at .cleaning).refuse =
          some { w with stage := .cleaned, refused := true } := rfl
      have hnext : created = true → watchSend created (w.at .cleaning)
          (.sourceDisconnect usbKeyboardSource) true = some (w.at .cleaned) := by
        rintro rfl
        rfl
      refine (watched_disconnectUnlessFailed hr rfl hnext).mono ?_
      rintro w' _ (rfl | rfl | ⟨hcreated, rfl⟩)
      · exact .inl rfl
      · exact .inl rfl
      · exact .inr ⟨rfl, hcreated⟩

theorem steady_awaitDisconnect (waitForDirectDevice waitForHidDisconnect : Bool) :
    Steady (producerMonitor created)
      (awaitDisconnect waitForDirectDevice waitForHidDisconnect) := by
  have ht : Tolerant (producerMonitor created) := tolerant_producerMonitor
  have hwaiting : Steady (producerMonitor created)
      (stillWaiting waitForDirectDevice waitForHidDisconnect) :=
    Steady.bind (ht.operate rfl) fun _ => steady_ite (fun _ => steady_pure _) fun _ =>
      Steady.bind (ht.operate rfl) fun _ => steady_pure _
  have hpoll : Steady (producerMonitor created) pollClient := by
    refine Steady.bind (ht.operate rfl) fun client => ?_
    cases client with
    | none => exact Steady.bind (ht.operate rfl) fun _ => steady_pure _
    | some client => exact ht.usbHostClientHandleEvents client
  have hfailed : Steady (producerMonitor created) (do
      markTeardownFailed
      return .inr false : Code (Unit ⊕ Bool)) :=
    Steady.bind (ht.operate rfl) fun _ => steady_pure _
  refine steady_iterate (Steady.bind hwaiting fun _ =>
    steady_ite (fun _ => ?_) fun _ => steady_pure _)
  refine Steady.bind hpoll fun _ => steady_ite (fun _ => hfailed) fun _ => ?_
  exact Steady.bind (ht.operate rfl) fun _ => steady_ite (fun _ => hfailed) fun _ => steady_pure _

theorem steady_powerOff (waitForDirectDevice waitForHidDisconnect : Bool) :
    Steady (producerMonitor created) (powerOff waitForDirectDevice waitForHidDisconnect) := by
  have ht : Tolerant (producerMonitor created) := tolerant_producerMonitor
  refine steady_ite (fun _ => ?_) fun _ => steady_pure _
  refine Steady.bind (ht.operate rfl) fun _ => steady_ite (fun _ => ?_) fun _ =>
    steady_awaitDisconnect _ _
  exact Steady.bind (ht.operate rfl) fun _ => steady_pure _

theorem steady_uninstallHid : Steady (producerMonitor created) uninstallHid := by
  have ht : Tolerant (producerMonitor created) := tolerant_producerMonitor
  refine Steady.bind (steady_exchange (.inr rfl) false) fun _ =>
    steady_ite (fun _ => ?_) fun _ => steady_pure _
  refine Steady.bind (ht.operate rfl) fun _ => Steady.bind (ht.hidCall _) fun _ => ?_
  exact steady_ite (fun _ => Steady.bind (ht.operate rfl) fun _ => steady_pure _) fun _ =>
    steady_pure _

theorem steadyAt_deregisterClient :
    SteadyAt (producerMonitor created) .cleaned deregisterClient := by
  have ht : Tolerant (producerMonitor created) := tolerant_producerMonitor
  refine SteadyAt.bind (steadyAt_operate fun w _ hw => if_pos ⟨rfl, hw⟩) fun client => ?_
  cases client with
  | none => exact steadyAt_pure _
  | some client =>
      refine Steady.at (Steady.bind (ht.operate rfl) fun _ => ?_)
      exact steady_ite (fun _ => Steady.bind (ht.operate rfl) fun _ => steady_pure _) fun _ =>
        steady_pure _

theorem steadyAt_releaseHost : SteadyAt (producerMonitor created) .cleaned releaseHost := by
  have ht : Tolerant (producerMonitor created) := tolerant_producerMonitor
  have hfailed : Steady (producerMonitor created) (do
      markTeardownFailed
      return false) :=
    Steady.bind (ht.operate rfl) fun _ => steady_pure _
  refine SteadyAt.bind (ht.operate rfl).at fun _ => SteadyAt.bind steady_uninstallHid.at fun _ => ?_
  refine SteadyAt.bind (ht.operate rfl).at fun _ => SteadyAt.bind (ht.operate rfl).at fun _ => ?_
  refine SteadyAt.ite (fun _ => ?_) fun _ => hfailed.at
  refine SteadyAt.bind (ht.operate rfl).at fun _ => SteadyAt.ite (fun _ => ?_) fun _ => hfailed.at
  refine SteadyAt.bind steadyAt_deregisterClient fun _ => ?_
  exact SteadyAt.bind (ht.operate rfl).at fun _ => steadyAt_pure _

theorem watched_teardownUsbAndHid {w : Watch}
    (hw : w.stage = .setup ∨ w.stage = .registered ∨ w.stage = .leaving) :
    Watched (producerMonitor created) (fun w' _ => w'.stage = .cleaned)
      (teardownUsbAndHid created) w := by
  have ht : Tolerant (producerMonitor created) := tolerant_producerMonitor
  have hdirect : Steady (producerMonitor created) directDevicePresent :=
    Steady.bind (ht.operate rfl) fun _ =>
      steady_ite (fun _ => Steady.bind (ht.operate rfl) fun _ => steady_pure _) fun _ =>
        steady_pure _
  have hhid : Steady (producerMonitor created) hidDevicePresent :=
    Steady.bind (ht.operate rfl) fun _ => steady_ite (fun _ => ht.operate rfl) fun _ =>
      steady_pure _
  refine watched_op_iff.mpr fun _ _ => ⟨w, rfl, ?_⟩
  change Watched _ _ (Thread.bind (sourceCleanup created) _) w
  refine Watched.bind ((watched_sourceCleanup hw).mono ?_)
  intro w₁ _ hcleanup
  refine Watched.bind ((hdirect w₁).mono fun w₂ waitForDirectDevice hlater₂ => ?_)
  refine Watched.bind ((hhid w₂).mono fun w₃ waitForHidDisconnect hlater₃ => ?_)
  have hstore : watchStore created w₃ waitForHidDisconnect .hidDisconnectRequested =
      some (w₃.at .cleaned) := by
    rw [watchStore, if_pos]
    rwa [hlater₃.stage, hlater₂.stage]
  refine watched_op_iff.mpr fun _ _ => ⟨_, hstore, ?_⟩
  have hrest : SteadyAt (producerMonitor created) .cleaned (do
      stopActiveDevice
      if ← powerOff waitForDirectDevice waitForHidDisconnect then releaseHost else
        return false) := by
    refine SteadyAt.bind (steadyAt_stopActiveDevice (by rintro ⟨⟩)) fun _ => ?_
    refine SteadyAt.bind (steady_powerOff _ _).at fun _ => ?_
    exact SteadyAt.ite (fun _ => steadyAt_releaseHost) fun _ => steadyAt_pure _
  exact (hrest _ rfl).mono fun w' _ hlater => hlater.stage

theorem ensures_producerTask : Ensures (producerMonitor created) (fun w => w.stage = .setup)
    (producerTask created) fun _ _ => True := by
  have ht : Tolerant (producerMonitor created) := tolerant_producerMonitor
  have hdone : Stages created (· = .cleaned) (do
      store .producerDoneFlag true
      give .producerDone) (· = .cleaned) := by
    refine stages_steady (Steady.at (Tolerant.operate ht rfl)) fun _ => ?_
    exact SteadyAt.stages (Steady.at (Tolerant.operate ht rfl))
  have hteardown : Ensures (producerMonitor created)
      (fun w => w.stage = .setup ∨ w.stage = .registered ∨ w.stage = .leaving) (do
        let _ ← teardownUsbAndHid created
        store .producerDoneFlag true
        give .producerDone : Producer Unit) fun _ _ => True := by
    refine Ensures.bind (ensures_lift fun w hw => watched_teardownUsbAndHid hw) fun _ => ?_
    exact Ensures.mono hdone fun _ _ _ => trivial
  refine Ensures.bind (ensures_lift fun w hw => watched_startProducer hw) fun started => ?_
  refine ensures_ite (fun hstarted => ?_) fun _ => ensures_before hteardown ?_
  · have hloop : Ensures (producerMonitor created) (fun w => w.stage.between)
        (iterating (fun _ => mainRound created) ()) fun w _ => w.stage = .leaving :=
      ensures_iterating (fun w _ => w.stage.between) (fun _ h => h) fun _ => ensures_mainRound
    refine Ensures.bind (ensures_before hloop ?_) fun _ => ?_
    · intro w hw
      exact .inl (hw.resolve_right fun h => by simp [hstarted] at h)
    · refine Ensures.bind steadyAt_discardQueued.stages fun _ => ?_
      exact ensures_before hteardown fun _ h => .inr (.inr h)
  · exact fun w hw => hw.symm.imp (fun h => h.1) .inl

/-- The monitors accept what the three tasks do. -/
theorem watched_startedProducer (party : Party) :
    Watched (monitors created party) (fun _ _ => True)
      ((startedProducer created).threads party) {} := by
  cases party with
  | usbLibrary => exact (steady_usbLibraryTask {}).mono fun _ _ _ => trivial
  | hidEvents => exact (steady_hidEventTask {}).mono fun _ _ _ => trivial
  | producer =>
      refine Watched.bind ((ensures_producerTask {} {} rfl).mono ?_)
      exact fun _ _ _ => watched_done_iff.mpr trivial

end Teardown

end EspNp2.KeyboardInput.UsbProducerCalls
