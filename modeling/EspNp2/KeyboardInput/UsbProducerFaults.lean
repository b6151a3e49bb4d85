import EspNp2.KeyboardInput.UsbProducerCalls

/-!
What a fault of the USB keyboard leaves at the bridge.  Every way out of the producer's loop
releases the keys of the source, as long as the two event tasks stop the producer only where no
keyboard is active or the cleanup has been requested.
-/

namespace EspNp2.KeyboardInput.UsbProducerFaults

open EspNp2.Library.Concurrent
open EspNp2.Library.LabelledRun
open KeyboardBridge
open Ownership
open UsbProducer
open UsbProducerCalls
open UsbProducerWatch
open UsbReports

section Contract

abbrev ProducerLabel := Party × OpLabel Op Result

/-- A command that has entered the queue of the bridge. -/
def sentCommand : ProducerLabel → Option Command
  | (_, ⟨.bridgeSend command, true⟩) => some command
  | _ => none

def commands (labels : List ProducerLabel) : List Command := labels.filterMap sentCommand

/-- Every event of the source is followed by the disconnect of the source. -/
def Followed (commands : List Command) : Prop :=
  ∀ before event after, commands = before ++ .event event :: after →
    .sourceDisconnect usbKeyboardSource ∈ after

/-- The command ends the press of a key. -/
def Command.releases (key : UInt8) : Command → Prop
  | .event event => event.key = key ∧ event.action = Action.release.value
  | .sourceDisconnect source => source = usbKeyboardSource

/-- The commands leave a key of the source held. -/
def Held (commands : List Command) (key : UInt8) : Prop :=
  ∃ before event after, commands = before ++ .event event :: after ∧ event.key = key ∧
    event.action = Action.press.value ∧ ∀ command ∈ after, ¬ Command.releases key command

/-- The bridge reports `Quarantined` behind a closed gate and `Full` behind a failed send. -/
def refusal : ProducerLabel → Bool
  | (_, ⟨.bridgeLoad _, closed⟩) => closed
  | (_, ⟨.bridgeSend _, sent⟩) => !sent
  | _ => false

def Refused (labels : List ProducerLabel) : Prop := ∃ label ∈ labels, refusal label = true

/-- The teardown has passed its cleanup step. -/
def CleanedUp (labels : List ProducerLabel) : Prop :=
  ∃ waiting, (.producer, ⟨.store .hidDisconnectRequested waiting, ()⟩) ∈ labels

/-- No key is stuck at the bridge, unless the bridge has refused the producer. -/
def NoStuckKey (labels : List ProducerLabel) : Prop :=
  Followed (commands labels) ∨ (∀ key, ¬ Held (commands labels) key) ∨ Refused labels

/-- An event task stops the producer only if that stops anyway, if the cleanup of the source is
requested, or if no keyboard is active. -/
def stopsCleanly (s : ProducerState) : ProducerLabel → Bool
  | (.producer, _) => true
  | (_, ⟨.store .stopRequested _, _⟩) =>
      s.flags .stopRequested || s.flags .sourceCleanupRequested ||
        decide (s.handles .activeHandle = none)
  | _ => true

/-- The steps of such runs. -/
def CleanStop (s : ProducerState) (label : ProducerLabel) : Prop := stopsCleanly s label = true

end Contract

section Commands

variable {labels : List ProducerLabel} {label : ProducerLabel}

/-- The keys are released, or the bridge has refused the producer. -/
def Settled (labels : List ProducerLabel) : Prop := Followed (commands labels) ∨ Refused labels

theorem commands_snoc (labels : List ProducerLabel) (label : ProducerLabel) :
    commands (labels ++ [label]) = commands labels ++ (sentCommand label).toList := by
  rw [commands, List.filterMap_append]
  cases h : sentCommand label <;> simp [h, commands]

theorem commands_same (h : sentCommand label = none) :
    commands (labels ++ [label]) = commands labels := by
  rw [commands_snoc, h, Option.toList_none, List.append_nil]

theorem Refused.snoc (h : Refused labels) : Refused (labels ++ [label]) := by
  obtain ⟨other, hmem, hother⟩ := h
  exact ⟨other, List.mem_append_left _ hmem, hother⟩

theorem refused_last (h : refusal label = true) : Refused (labels ++ [label]) :=
  ⟨label, by simp, h⟩

theorem followed_nil : Followed [] := by
  intro before event after h
  simp at h

theorem followed_disconnect (commands : List Command) :
    Followed (commands ++ [.sourceDisconnect usbKeyboardSource]) := by
  intro before event after h
  rcases List.eq_nil_or_concat after with rfl | ⟨middle, last, rfl⟩
  · have hlast := congrArg List.getLast? h
    simp at hlast
  · have hlast := congrArg List.getLast? h
    simp only [List.getLast?_append, List.concat_eq_append,
      List.getLast?_cons, Option.some_or] at hlast
    simp at hlast
    simp [← hlast]

theorem Settled.snoc (h : Settled labels) (hsame : sentCommand label = none) :
    Settled (labels ++ [label]) := by
  rw [Settled, commands_same hsame]
  exact h.imp_right Refused.snoc

end Commands

section Invariant

variable {created : Bool} {labels : List ProducerLabel} {s s' : ProducerState} {w w' : Watch}
  {label : ProducerLabel}

/-- What holds in each stage of the producer's task. -/
def StageHolds (labels : List ProducerLabel) (s : ProducerState) : Stage → Prop
  | .setup => commands labels = []
  | .registered => commands labels = [] ∧ s.handles .usbClient ≠ none
  | .opened => s.handles .usbClient ≠ none
  | .received => s.handles .usbClient ≠ none
  | .active => s.handles .usbClient ≠ none ∧ s.handles .activeHandle ≠ none
  | .calm => s.handles .usbClient ≠ none ∧ Settled labels
  | .leaving => s.flags .stopRequested = true
  | .cleaning => s.flags .sourceCleanupRequested = true
  | .cleaned => Settled labels

/-- Whoever has requested the stop: the cleanup is requested too, or nothing is to be cleaned
up and no report is handled any more. -/
def StopHolds (created : Bool) (labels : List ProducerLabel) (s : ProducerState) (stage : Stage) :
    Prop :=
  s.flags .sourceCleanupRequested = true ∨ Settled labels ∧
    (created = false ∨ s.handles .activeHandle = none ∨ stage = .calm ∨ stage = .leaving ∨
      stage = .cleaned)

structure Inv (created : Bool) (labels : List ProducerLabel) (s : ProducerState) (w : Watch) :
    Prop where
  allowed : s.flags .bridgeCallsAllowed = true
  uncreated : created = false → commands labels = []
  failure : s.flags .bridgeFailure = true → Refused labels
  refused : w.refused = true → Refused labels
  faulted : w.faulted = true → s.flags .sourceCleanupRequested = true
  stage : StageHolds labels s w.stage
  idle : s.handles .activeHandle = none → Settled labels
  stop : s.flags .stopRequested = true → StopHolds created labels s w.stage
  cleanedUp : CleanedUp labels → w.stage = .cleaned

theorem inv_start (created : Bool) : Inv created [] {} {} where
  allowed := rfl
  uncreated _ := rfl
  failure := nofun
  refused := nofun
  faulted := nofun
  stage := rfl
  idle _ := .inl followed_nil
  stop := nofun
  cleanedUp := by simp [CleanedUp]

theorem Inv.settled_uncreated (h : Inv created labels s w) (hcreated : created = false) :
    Settled labels := by
  refine .inl ?_
  rw [h.uncreated hcreated]
  exact followed_nil

theorem StageHolds.snoc {stage : Stage} (h : StageHolds labels s stage)
    (hsent : sentCommand label = none) : StageHolds (labels ++ [label]) s stage := by
  cases stage with
  | setup => exact (commands_same hsent).trans h
  | registered => exact ⟨(commands_same hsent).trans h.1, h.2⟩
  | opened | received | active | leaving | cleaning => exact h
  | calm => exact ⟨h.1, h.2.snoc hsent⟩
  | cleaned => exact Settled.snoc h hsent

/-- A label that sends nothing and does not end the cleanup. -/
theorem Inv.snoc (h : Inv created labels s w) (hsent : sentCommand label = none)
    (hlabel : CleanedUp [label] → w.stage = .cleaned) : Inv created (labels ++ [label]) s w where
  allowed := h.allowed
  uncreated hcreated := (commands_same hsent).trans (h.uncreated hcreated)
  failure hfailure := (h.failure hfailure).snoc
  refused hrefused := (h.refused hrefused).snoc
  faulted := h.faulted
  stage := h.stage.snoc hsent
  idle hidle := (h.idle hidle).snoc hsent
  stop hstop := (h.stop hstop).imp_right fun hsettled => ⟨hsettled.1.snoc hsent, hsettled.2⟩
  cleanedUp := by
    rintro ⟨waiting, hmem⟩
    rcases List.mem_append.mp hmem with hold | hnew
    · exact h.cleanedUp ⟨waiting, hold⟩
    · exact hlabel ⟨waiting, hnew⟩

/-- The shared words of the invariant are as they were. -/
structure Same (s s' : ProducerState) : Prop where
  allowed : s'.flags .bridgeCallsAllowed = s.flags .bridgeCallsAllowed
  failure : s'.flags .bridgeFailure = s.flags .bridgeFailure
  cleanup : s'.flags .sourceCleanupRequested = s.flags .sourceCleanupRequested
  stop : s'.flags .stopRequested = s.flags .stopRequested
  client : s'.handles .usbClient = s.handles .usbClient
  active : s'.handles .activeHandle = s.handles .activeHandle

theorem Same.refl (s : ProducerState) : Same s s := ⟨rfl, rfl, rfl, rfl, rfl, rfl⟩

theorem StageHolds.same {stage : Stage} (h : StageHolds labels s stage) (hsame : Same s s') :
    StageHolds labels s' stage := by
  obtain ⟨-, -, hcleanup, hstop, hclient, hactive⟩ := hsame
  cases stage <;> simpa only [StageHolds, hcleanup, hstop, hclient, hactive] using h

theorem Inv.same (h : Inv created labels s w) (hsame : Same s s') : Inv created labels s' w where
  allowed := hsame.allowed.trans h.allowed
  uncreated := h.uncreated
  failure := by
    rw [hsame.failure]
    exact h.failure
  refused := h.refused
  faulted := by
    rw [hsame.cleanup]
    exact h.faulted
  stage := h.stage.same hsame
  idle := by
    rw [hsame.active]
    exact h.idle
  stop := by
    rw [hsame.stop, StopHolds, hsame.cleanup, hsame.active]
    exact h.stop
  cleanedUp := h.cleanedUp

/-- The words that carry the invariant. -/
def Word.shared : Word → Bool
  | .bridgeCallsAllowed | .bridgeFailure | .sourceCleanupRequested | .stopRequested => true
  | _ => false

/-- Operations that leave the shared words of the invariant alone. -/
def quiet : Op → Bool
  | .store word _ => !Word.shared word
  | .exchange word _ => !Word.shared word
  | .storeHandle word _ => word = .directDevice
  | .exchangeHandle _ _ => false
  | _ => true

theorem same_setFlag {word : Word} {value : Bool} (h : Word.shared word = false) :
    Same s (s.setFlag word value) := by
  cases word <;> first | exact ⟨rfl, rfl, rfl, rfl, rfl, rfl⟩ | cases h

theorem same_of_acts {request : Op} {reply : Result request} (hquiet : quiet request = true)
    (h : acts s request reply s') : Same s s' := by
  cases request with
  | load word => exact h.2 ▸ .refl s
  | store word value =>
      obtain rfl : s' = _ := h
      exact same_setFlag (by simpa [quiet] using hquiet)
  | exchange word value =>
      obtain ⟨-, rfl⟩ := h
      exact same_setFlag (by simpa [quiet] using hquiet)
  | loadHandle word => exact h.2 ▸ .refl s
  | storeHandle word value =>
      obtain rfl : word = .directDevice := by simpa [quiet] using hquiet
      obtain rfl : s' = _ := h
      exact ⟨rfl, rfl, rfl, rfl, rfl, rfl⟩
  | exchangeHandle word value => cases hquiet
  | claimDevice device =>
      change if s.handles .directDevice = none then _ else _ at h
      split at h
      · obtain ⟨-, rfl⟩ := h
        exact ⟨rfl, rfl, rfl, rfl, rfl, rfl⟩
      · exact h.2 ▸ .refl s
  | give semaphore =>
      obtain rfl : s' = _ := h
      exact ⟨rfl, rfl, rfl, rfl, rfl, rfl⟩
  | take semaphore =>
      rcases h with ⟨-, -, rfl⟩ | ⟨-, rfl⟩
      · exact ⟨rfl, rfl, rfl, rfl, rfl, rfl⟩
      · exact .refl s'
  | queueSend event =>
      change if s.rawQueue.length < rawQueueCapacity then _ else _ at h
      split at h
      · obtain ⟨-, rfl⟩ := h
        exact ⟨rfl, rfl, rfl, rfl, rfl, rfl⟩
      · exact h.2 ▸ .refl s
  | queueReceive => exact h.2 ▸ ⟨rfl, rfl, rfl, rfl, rfl, rfl⟩
  | host call =>
      obtain rfl : s' = s := h
      exact .refl s'
  | bridgeLoad word =>
      obtain rfl : s' = s := h
      exact .refl s'
  | bridgeStore word value =>
      obtain rfl : s' = s := h
      exact .refl s'
  | bridgeSend command =>
      obtain rfl : s' = s := h
      exact .refl s'

theorem Inv.requestCleanup (h : Inv created labels s w) :
    Inv created labels (s.setFlag .sourceCleanupRequested true) { w with faulted := true } where
  allowed := h.allowed
  uncreated := h.uncreated
  failure := h.failure
  refused := h.refused
  faulted _ := rfl
  stage := by
    have hstage := h.stage
    cases hw : w.stage with
    | cleaning => rfl
    | _ =>
        rw [hw] at hstage
        exact hstage
  idle := h.idle
  stop _ := .inl rfl
  cleanedUp := h.cleanedUp

theorem Inv.requestStop (h : Inv created labels s w) (hstop : StopHolds created labels s w.stage) :
    Inv created labels (s.setFlag .stopRequested true) w where
  allowed := h.allowed
  uncreated := h.uncreated
  failure := h.failure
  refused := h.refused
  faulted := h.faulted
  stage := by
    have hstage := h.stage
    cases hw : w.stage with
    | leaving => rfl
    | _ =>
        rw [hw] at hstage
        exact hstage
  idle := h.idle
  stop _ := hstop
  cleanedUp := h.cleanedUp

/-- The invariant after a step of an event task. -/
theorem inv_taskStep {party : Party} {request : Op} {reply : Result request} {m m' : Watch}
    (hparty : party ≠ .producer) (h : Inv created labels s w)
    (hstop : CleanStop s (party, ⟨request, reply⟩)) (hacts : acts s request reply s')
    (hobserve : watchTask m ⟨request, reply⟩ = some m') :
    Inv created (labels ++ [(party, ⟨request, reply⟩)]) s' w := by
  have hlabel : CleanedUp [(party, ⟨request, reply⟩)] → w.stage = .cleaned := by
    rintro ⟨waiting, hmem⟩
    exact absurd (congrArg Prod.fst (List.mem_singleton.mp hmem)).symm hparty
  have hsent : sentCommand (party, ⟨request, reply⟩) = none := by
    cases request <;> first | rfl | cases hobserve
  have hsnoc := h.snoc hsent hlabel
  cases hquiet : quiet request with
  | true => exact hsnoc.same (same_of_acts hquiet hacts)
  | false =>
      cases request with
      | store word value =>
          obtain rfl : s' = _ := hacts
          cases word with
          | stopRequested =>
              obtain ⟨rfl, -⟩ := Option.ite_none_right_eq_some.mp hobserve
              refine hsnoc.requestStop ?_
              have hclean :
                (s.flags .stopRequested = true ∨ s.flags .sourceCleanupRequested = true) ∨
                  s.handles .activeHandle = none := by
                cases party with
                | usbLibrary | hidEvents => simpa [CleanStop, stopsCleanly] using hstop
                | producer => exact absurd rfl hparty
              rcases hclean with (hstopped | hcleanup) | hidle
              · exact hsnoc.stop hstopped
              · exact .inl hcleanup
              · exact .inr ⟨hsnoc.idle hidle, .inr (.inl hidle)⟩
          | sourceCleanupRequested =>
              obtain ⟨rfl, -⟩ := Option.ite_none_right_eq_some.mp hobserve
              exact { hsnoc.requestCleanup with faulted := fun _ => rfl }
          | bridgeFailure | bridgeCallsAllowed => cases hobserve
          | _ => cases hquiet
      | exchange word value => cases hobserve
      | storeHandle word value =>
          cases word with
          | usbClient | activeHandle => cases hobserve
          | directDevice => cases hquiet
      | exchangeHandle word value => cases hobserve
      | _ => cases hquiet

end Invariant

section ProducerStep

variable {created : Bool} {labels : List ProducerLabel} {s s' : ProducerState} {w w' : Watch}
  {label : ProducerLabel}

/-- The producer's task enters a stage. -/
theorem Inv.enter (h : Inv created labels s w) {stage : Stage} (hstage : StageHolds labels s stage)
    (hstop : s.flags .stopRequested = true → StopHolds created labels s stage)
    (hcleaned : w.stage = .cleaned → stage = .cleaned) : Inv created labels s (w.at stage) where
  allowed := h.allowed
  uncreated := h.uncreated
  failure := h.failure
  refused := h.refused
  faulted := h.faulted
  stage := hstage
  idle := h.idle
  stop := hstop
  cleanedUp hlabels := hcleaned (h.cleanedUp hlabels)

theorem Inv.refuse (h : Inv created labels s w) (hrefused : Refused labels)
    (hw : w.refuse = some w') : Inv created labels s w' := by
  have hsettled : Settled labels := .inr hrefused
  unfold Watch.refuse at hw
  split at hw
  · rename_i hactive
    obtain rfl := Option.some.inj hw
    have hstage := h.stage
    rw [hactive] at hstage
    have hcalm : Inv created labels s (w.at .calm) :=
      h.enter ⟨hstage.1, hsettled⟩ (fun _ => .inr ⟨hsettled, .inr (.inr (.inl rfl))⟩)
        fun hcleaned => by rw [hactive] at hcleaned; cases hcleaned
    exact { hcalm with refused := fun _ => hrefused }
  · obtain rfl := Option.some.inj hw
    have hcleaned : Inv created labels s (w.at .cleaned) :=
      h.enter hsettled (fun _ => .inr ⟨hsettled, .inr (.inr (.inr (.inr rfl)))⟩) fun _ => rfl
    exact { hcleaned with refused := fun _ => hrefused }
  · cases hw

/-- A client is registered in every stage of the loop but the last. -/
theorem StageHolds.client {stage : Stage} (h : StageHolds labels s stage)
    (hlooping : stage.looping = true) (hstage : stage ≠ .leaving) :
    s.handles .usbClient ≠ none := by
  cases stage with
  | registered | active | calm => first | exact h.1 | exact h.2
  | opened | received => exact h
  | leaving => exact absurd rfl hstage
  | setup | cleaning | cleaned => cases hlooping

theorem inv_load {word : Word} {value : Bool} (h : Inv created labels s w)
    (hvalue : value = s.flags word) (hobserve : watchLoad w value word = some w') :
    Inv created labels s w' := by
  cases word with
  | stopRequested =>
      obtain ⟨hlooping, ⟨⟩⟩ := Option.ite_none_right_eq_some.mp hobserve
      have hnotCleaned : w.stage = .cleaned → ∀ stage, stage = Stage.cleaned := by
        intro hcleaned
        rw [hcleaned] at hlooping
        cases hlooping
      cases value with
      | true =>
          refine h.enter hvalue.symm (fun hstop => ?_) fun hcleaned => hnotCleaned hcleaned _
          exact (h.stop hstop).imp_right fun hsettled =>
            ⟨hsettled.1, .inr (.inr (.inr (.inl rfl)))⟩
      | false =>
          have hrunning : s.flags .stopRequested = false := hvalue.symm
          refine h.enter (h.stage.client hlooping ?_) (fun hstop => ?_) fun hcleaned =>
            hnotCleaned hcleaned _
          · intro hleaving
            have hstage := h.stage
            rw [hleaving] at hstage
            rw [show s.flags .stopRequested = true from hstage] at hrunning
            cases hrunning
          · rw [hrunning] at hstop
            cases hstop
  | sourceCleanupRequested =>
      obtain ⟨hstages, ⟨⟩⟩ := Option.ite_none_right_eq_some.mp hobserve
      have hnotCleaned : w.stage = .cleaned → ∀ stage, stage = Stage.cleaned := by
        intro hcleaned
        simp [hcleaned] at hstages
      cases value with
      | true =>
          exact h.enter hvalue.symm (fun _ => .inl hvalue.symm) fun hcleaned =>
            hnotCleaned hcleaned _
      | false =>
          have hnone : s.flags .sourceCleanupRequested = false := hvalue.symm
          have hsettled : Settled labels := by
            have hstage := h.stage
            rcases hstages with hw | hw | hw
            · rw [hw] at hstage
              exact .inl ((show commands labels = [] from hstage) ▸ followed_nil)
            · rw [hw] at hstage
              exact .inl (hstage.1 ▸ followed_nil)
            · rw [hw] at hstage
              rcases h.stop hstage with hcleanup | hsettled
              · rw [hnone] at hcleanup
                cases hcleanup
              · exact hsettled.1
          exact h.enter hsettled (fun _ => .inr ⟨hsettled, .inr (.inr (.inr (.inr rfl)))⟩)
            fun _ => rfl
  | bridgeFailure =>
      cases value with
      | true => exact h.refuse (h.failure hvalue.symm) hobserve
      | false =>
          obtain rfl := Option.some.inj hobserve
          exact h
  | _ =>
      obtain rfl := Option.some.inj hobserve
      exact h

theorem inv_store {word : Word} {value : Bool} (h : Inv created labels s w)
    (hobserve : watchStore created w value word = some w') :
    Inv created labels (s.setFlag word value) w' := by
  cases hshared : Word.shared word with
  | false =>
      have hsame : Same s (s.setFlag word value) := same_setFlag hshared
      cases word with
      | hidDisconnectRequested =>
          obtain ⟨hstages, ⟨⟩⟩ := Option.ite_none_right_eq_some.mp hobserve
          have hsettled : Settled labels := by
            rcases hstages with hcleaned | ⟨-, hcreated⟩
            · have hstage := h.stage
              rw [hcleaned] at hstage
              exact hstage
            · exact h.settled_uncreated hcreated
          refine Inv.same (h.enter hsettled (fun _ => ?_) fun _ => rfl) hsame
          exact .inr ⟨hsettled, .inr (.inr (.inr (.inr rfl)))⟩
      | stopRequested | sourceCleanupRequested | bridgeFailure | bridgeCallsAllowed => cases hshared
      | _ =>
          obtain rfl := Option.some.inj hobserve
          exact h.same hsame
  | true =>
      cases word with
      | stopRequested =>
          obtain ⟨⟨rfl, hcalm⟩, ⟨⟩⟩ := Option.ite_none_right_eq_some.mp hobserve
          refine h.requestStop ?_
          rcases hcalm with hfaulted | hcalm | hcreated
          · exact .inl (h.faulted hfaulted)
          · have hstage := h.stage
            rw [hcalm] at hstage
            exact .inr ⟨hstage.2, .inr (.inr (.inl hcalm))⟩
          · exact .inr ⟨h.settled_uncreated hcreated, .inl hcreated⟩
      | sourceCleanupRequested =>
          obtain ⟨rfl, ⟨⟩⟩ := Option.ite_none_right_eq_some.mp hobserve
          exact h.requestCleanup
      | bridgeFailure =>
          obtain ⟨⟨rfl, hrefused⟩, ⟨⟩⟩ := Option.ite_none_right_eq_some.mp hobserve
          have hstage : StageHolds labels (s.setFlag .bridgeFailure true) w.stage := by
            have hstage := h.stage
            cases hw : w.stage with
            | _ =>
                rw [hw] at hstage
                exact hstage
          exact { h with failure := fun _ => h.refused hrefused, stage := hstage }
      | bridgeCallsAllowed => cases hobserve
      | _ => cases hshared

theorem StopHolds.enter {stage stage' : Stage} (h : StopHolds created labels s stage)
    (hstage : stage ≠ .calm ∧ stage ≠ .leaving ∧ stage ≠ .cleaned) :
    StopHolds created labels s stage' := by
  refine h.imp_right fun hsettled => ⟨hsettled.1, ?_⟩
  rcases hsettled.2 with hcreated | hidle | hcalm | hleaving | hcleaned
  · exact .inl hcreated
  · exact .inr (.inl hidle)
  · exact absurd hcalm hstage.1
  · exact absurd hleaving hstage.2.1
  · exact absurd hcleaned hstage.2.2

theorem inv_loadHandle {word : HandleWord} {value : Option Handle} (h : Inv created labels s w)
    (hvalue : value = s.handles word) (hobserve : watchLoadHandle w value word = some w') :
    Inv created labels s w' := by
  cases word with
  | activeHandle =>
      rw [watchLoadHandle] at hobserve
      split at hobserve
      · rename_i hreceived
        obtain rfl := Option.some.inj hobserve
        have hclient : s.handles .usbClient ≠ none := by
          have hstage := h.stage
          rw [hreceived] at hstage
          exact hstage
        have hcleaned : w.stage = .cleaned → ∀ stage, stage = Stage.cleaned := by
          intro hcleaned
          rw [hreceived] at hcleaned
          cases hcleaned
        have hdiffer : w.stage ≠ .calm ∧ w.stage ≠ .leaving ∧ w.stage ≠ .cleaned := by
          rw [hreceived]
          exact ⟨(by rintro ⟨⟩), (by rintro ⟨⟩), (by rintro ⟨⟩)⟩
        cases value with
        | none =>
            exact h.enter ⟨hclient, h.idle hvalue.symm⟩ (fun hstop => (h.stop hstop).enter hdiffer)
              fun hw => hcleaned hw _
        | some handle =>
            exact h.enter ⟨hclient, fun hidle => by rw [← hvalue] at hidle; cases hidle⟩
              (fun hstop => (h.stop hstop).enter hdiffer) fun hw => hcleaned hw _
      · obtain rfl := Option.some.inj hobserve
        exact h
  | usbClient | directDevice =>
      obtain rfl := Option.some.inj hobserve
      exact h

theorem inv_storeActive {value : Option Handle} (h : Inv created labels s w)
    (hstages : w.stage = .calm ∨ w.stage = .active ∧ created = false ∧ value = none) :
    Inv created labels (s.setHandle .activeHandle value) (w.at .calm) := by
  have hstage := h.stage
  have hsettled : Settled labels := by
    rcases hstages with hcalm | ⟨-, hcreated, -⟩
    · rw [hcalm] at hstage
      exact hstage.2
    · exact h.settled_uncreated hcreated
  have hclient : s.handles .usbClient ≠ none := by
    rcases hstages with hw | ⟨hw, -⟩ <;> rw [hw] at hstage <;> exact hstage.1
  have hcleaned : w.stage ≠ .cleaned := by
    rcases hstages with hw | ⟨hw, -⟩ <;> rw [hw] <;> nofun
  exact {
    allowed := h.allowed
    uncreated := h.uncreated
    failure := h.failure
    refused := h.refused
    faulted := h.faulted
    stage := ⟨hclient, hsettled⟩
    idle := fun _ => hsettled
    stop := fun _ => .inr ⟨hsettled, .inr (.inr (.inl rfl))⟩
    cleanedUp := fun hlabels => absurd (h.cleanedUp hlabels) hcleaned }

theorem inv_storeHandle {word : HandleWord} {value : Option Handle} (h : Inv created labels s w)
    (hobserve : watchStoreHandle created w value word = some w') :
    Inv created labels (s.setHandle word value) w' := by
  cases word with
  | activeHandle =>
      obtain ⟨hstages, ⟨⟩⟩ := Option.ite_none_right_eq_some.mp hobserve
      exact inv_storeActive h hstages
  | usbClient =>
      obtain ⟨⟨hsetup, hvalue⟩, ⟨⟩⟩ := Option.ite_none_right_eq_some.mp hobserve
      have hstage := h.stage
      have hstop := h.stop
      rw [hsetup] at hstage hstop
      exact {
        allowed := h.allowed
        uncreated := h.uncreated
        failure := h.failure
        refused := h.refused
        faulted := h.faulted
        stage := ⟨hstage, hvalue⟩
        idle := h.idle
        stop := fun hrequested => (hstop hrequested).enter ⟨nofun, nofun, nofun⟩
        cleanedUp := fun hlabels => by
          have hcleaned := h.cleanedUp hlabels
          rw [hsetup] at hcleaned
          cases hcleaned }
  | directDevice =>
      obtain rfl := Option.some.inj hobserve
      exact h.same ⟨rfl, rfl, rfl, rfl, rfl, rfl⟩

theorem inv_exchangeClient {value : Option Handle} (h : Inv created labels s w)
    (hcleaned : w.stage = .cleaned) : Inv created labels (s.setHandle .usbClient value) w := by
  have hstage := h.stage
  rw [hcleaned] at hstage
  have hstage' : StageHolds labels (s.setHandle .usbClient value) w.stage := by
    rw [hcleaned]
    exact hstage
  exact { h with stage := hstage' }

theorem inv_receive {event : Option RawEvent} (h : Inv created labels s w)
    (hobserve : watchReceive w event = some w') : Inv created labels s w' := by
  unfold watchReceive at hobserve
  split at hobserve
  · rename_i hopened
    obtain rfl := Option.some.inj hobserve
    split
    · exact h
    · have hstage := h.stage
      have hstop := h.stop
      rw [hopened] at hstage hstop
      refine h.enter hstage (fun hrequested => (hstop hrequested).enter ⟨nofun, nofun, nofun⟩) ?_
      intro hcleaned
      rw [hopened] at hcleaned
      cases hcleaned
  · obtain rfl := Option.some.inj hobserve
    exact h
  · cases hobserve

/-- An event of the active keyboard enters the queue. -/
theorem inv_sendEvent {event : Event} (h : Inv created labels s w) (hactive : w.stage = .active)
    (hcreated : created = true) :
    Inv created (labels ++ [(.producer, ⟨.bridgeSend (.event event), true⟩)]) s w := by
  have hstage := h.stage
  rw [hactive] at hstage
  exact {
    allowed := h.allowed
    uncreated := fun hfalse => by
      rw [hcreated] at hfalse
      cases hfalse
    failure := fun hfailure => (h.failure hfailure).snoc
    refused := fun hrefused => (h.refused hrefused).snoc
    faulted := h.faulted
    stage := by
      rw [hactive]
      exact hstage
    idle := fun hidle => absurd hidle hstage.2
    stop := fun hrequested => by
      rcases h.stop hrequested with hcleanup | ⟨-, hfalse | hidle | hw | hw | hw⟩
      · exact .inl hcleanup
      · rw [hcreated] at hfalse
        cases hfalse
      · exact absurd hidle hstage.2
      all_goals
        rw [hactive] at hw
        cases hw
    cleanedUp := by
      rintro ⟨waiting, hmem⟩
      rcases List.mem_append.mp hmem with hold | hnew
      · exact h.cleanedUp ⟨waiting, hold⟩
      · simp at hnew }

/-- The disconnect of the source enters the queue. -/
theorem inv_sendDisconnect {stage : Stage} (h : Inv created labels s w) (hcreated : created = true)
    (hstage : StageHolds (labels ++ [(.producer,
      ⟨.bridgeSend (.sourceDisconnect usbKeyboardSource), true⟩)]) s stage)
    (hcalm : stage = .calm ∨ stage = .cleaned) (hcleaned : w.stage ≠ .cleaned) :
    Inv created (labels ++ [(.producer,
      ⟨.bridgeSend (.sourceDisconnect usbKeyboardSource), true⟩)]) s (w.at stage) := by
  have hsettled : Settled (labels ++ [(.producer,
      ⟨.bridgeSend (.sourceDisconnect usbKeyboardSource), true⟩)]) := by
    refine .inl ?_
    rw [commands_snoc]
    exact followed_disconnect _
  exact {
    allowed := h.allowed
    uncreated := fun hfalse => by
      rw [hcreated] at hfalse
      cases hfalse
    failure := fun hfailure => (h.failure hfailure).snoc
    refused := fun hrefused => (h.refused hrefused).snoc
    faulted := h.faulted
    stage := hstage
    idle := fun _ => hsettled
    stop := fun _ => .inr ⟨hsettled, .inr (.inr (hcalm.imp_right .inr))⟩
    cleanedUp := by
      rintro ⟨waiting, hmem⟩
      rcases List.mem_append.mp hmem with hold | hnew
      · exact absurd (h.cleanedUp ⟨waiting, hold⟩) hcleaned
      · simp at hnew }

theorem inv_send {command : Command} {sent : Bool} (h : Inv created labels s w)
    (hobserve : watchSend created w command sent = some w') :
    Inv created (labels ++ [(.producer, ⟨.bridgeSend command, sent⟩)]) s w' := by
  obtain ⟨hqueue, hsend⟩ := Option.ite_none_left_eq_some.mp hobserve
  have hcreated : created = true := by simpa using hqueue
  cases sent with
  | false =>
      have hsnoc : Inv created (labels ++ [(.producer, ⟨.bridgeSend command, false⟩)]) s w :=
        h.snoc rfl (by simp [CleanedUp])
      exact hsnoc.refuse (refused_last rfl) hsend
  | true =>
      simp only [Bool.true_eq_false, if_false] at hsend
      split at hsend
      · rename_i hactive
        obtain rfl := Option.some.inj hsend
        exact inv_sendEvent h hactive hcreated
      · rename_i hactive
        obtain ⟨rfl, ⟨⟩⟩ := Option.ite_none_right_eq_some.mp hsend
        have hstage := h.stage
        rw [hactive] at hstage
        refine inv_sendDisconnect h hcreated ⟨hstage.1, .inl ?_⟩ (.inl rfl) (by rw [hactive]; nofun)
        rw [commands_snoc]
        exact followed_disconnect _
      · rename_i hcleaning
        obtain ⟨rfl, ⟨⟩⟩ := Option.ite_none_right_eq_some.mp hsend
        refine inv_sendDisconnect h hcreated (.inl ?_) (.inr rfl) (by rw [hcleaning]; nofun)
        rw [commands_snoc]
        exact followed_disconnect _
      · cases hsend

end ProducerStep

section Runs

variable {created : Bool} {labels : List ProducerLabel} {s s' : ProducerState} {w w' : Watch}

theorem expects_of_inv {request : Op} {reply : Result request} (h : Inv created labels s w)
    (hacts : acts s request reply s') : expectsProducer w ⟨request, reply⟩ := by
  have hstage := h.stage
  cases request with
  | load word =>
      cases word with
      | bridgeCallsAllowed => exact hacts.1.trans h.allowed
      | stopRequested =>
          intro hleaving
          rw [hleaving] at hstage
          exact hacts.1.trans hstage
      | _ => trivial
  | loadHandle word =>
      cases word with
      | usbClient =>
          intro hopened hnone
          rw [hopened] at hstage
          exact hstage (hacts.1.symm.trans hnone)
      | _ => trivial
  | _ => trivial

theorem inv_producerStep {request : Op} {reply : Result request} (h : Inv created labels s w)
    (hacts : acts s request reply s')
    (hobserve : watchProducer created w ⟨request, reply⟩ = some w') :
    Inv created (labels ++ [(.producer, ⟨request, reply⟩)]) s' w' := by
  cases request with
  | load word =>
      obtain ⟨hvalue, rfl⟩ := hacts
      exact inv_load (h.snoc rfl (by simp [CleanedUp])) hvalue hobserve
  | store word value =>
      obtain rfl : s' = _ := hacts
      by_cases hword : word = .hidDisconnectRequested
      · subst hword
        have hcleaned : w'.stage = .cleaned := by
          obtain ⟨-, ⟨⟩⟩ := Option.ite_none_right_eq_some.mp hobserve
          rfl
        have hinv : Inv created labels (s.setFlag .hidDisconnectRequested value) w' :=
          inv_store h hobserve
        exact hinv.snoc rfl fun _ => hcleaned
      · refine inv_store (h.snoc rfl ?_) hobserve
        rintro ⟨waiting, hmem⟩
        simp only [List.mem_singleton, Prod.mk.injEq, Sigma.mk.injEq, Op.store.injEq] at hmem
        exact absurd hmem.2.1.1.symm hword
  | exchange word value =>
      obtain ⟨-, rfl⟩ := hacts
      have hsnoc : Inv created (labels ++ [(.producer, ⟨.exchange word value, reply⟩)]) s w :=
        h.snoc rfl (by simp [CleanedUp])
      cases word with
      | activeOpen | hidInstalled =>
          obtain rfl := Option.some.inj hobserve
          exact hsnoc.same (same_setFlag rfl)
      | _ => cases hobserve
  | loadHandle word =>
      obtain ⟨hvalue, rfl⟩ := hacts
      exact inv_loadHandle (h.snoc rfl (by simp [CleanedUp])) hvalue hobserve
  | storeHandle word value =>
      obtain rfl : s' = _ := hacts
      exact inv_storeHandle (h.snoc rfl (by simp [CleanedUp])) hobserve
  | exchangeHandle word value =>
      obtain ⟨-, rfl⟩ := hacts
      obtain ⟨⟨rfl, hcleaned⟩, ⟨⟩⟩ := Option.ite_none_right_eq_some.mp hobserve
      exact inv_exchangeClient (h.snoc rfl (by simp [CleanedUp])) hcleaned
  | queueReceive =>
      have hsnoc : Inv created (labels ++ [(.producer, ⟨.queueReceive, reply⟩)]) s w' :=
        inv_receive (h.snoc rfl (by simp [CleanedUp])) hobserve
      exact hsnoc.same (same_of_acts rfl hacts)
  | bridgeLoad word =>
      obtain rfl : s' = s := hacts
      have hsnoc : Inv created (labels ++ [(.producer, ⟨.bridgeLoad word, reply⟩)]) s' w :=
        h.snoc rfl (by simp [CleanedUp])
      cases reply with
      | true => exact hsnoc.refuse (refused_last rfl) hobserve
      | false =>
          obtain rfl := Option.some.inj hobserve
          exact hsnoc
  | bridgeSend command =>
      obtain rfl : s' = s := hacts
      exact inv_send h hobserve
  | claimDevice _ | give _ | take _ | queueSend _ | host _ | bridgeStore _ _ =>
      obtain rfl := Option.some.inj hobserve
      exact Inv.same (h.snoc rfl (by simp [CleanedUp])) (same_of_acts rfl hacts)

theorem inv_run {last : ProducerSystem}
    (hrun : Run (StepIf acts CleanStop) (startedProducer created) labels last) :
    ∃ w, Inv created labels last.state w := by
  have hinvariant := system_invariant
    (I := fun labels s watches => Inv created labels s (watches .producer)) hrun
    (fun party => watched_startedProducer party) (inv_start created) ?_
  · obtain ⟨watches, hinv, -⟩ := hinvariant
    exact ⟨_, hinv⟩
  · intro labels s watches party request reply s' hinv hstops hacts
    by_cases hparty : party = .producer
    · subst hparty
      refine ⟨expects_of_inv hinv hacts, fun m hm => ?_⟩
      rw [Function.update_self]
      exact inv_producerStep hinv hacts hm
    · have htask : monitors created party = ⟨fun _ _ => True, watchTask⟩ := by
        cases party with
        | producer => exact absurd rfl hparty
        | _ => rfl
      rw [htask]
      refine ⟨trivial, fun m hm => ?_⟩
      rw [Function.update_of_ne (Ne.symm hparty)]
      exact inv_taskStep hparty hinv hstops hacts hm

/-- In every run in which the event tasks stop the producer only where no keyboard is active
or the cleanup is requested, no key of the source is stuck once the teardown has cleaned up. -/
theorem no_stuck_key (created : Bool) (labels : List ProducerLabel) (last : ProducerSystem)
    (hrun : Run (StepIf acts CleanStop) (startedProducer created) labels last)
    (hcleaned : CleanedUp labels) : NoStuckKey labels := by
  obtain ⟨w, hinv⟩ := inv_run hrun
  have hstage := hinv.stage
  rw [hinv.cleanedUp hcleaned] at hstage
  exact hstage.imp_right .inr

/-- A host stack that delivers a keyboard and its report of one key, and whose event calls of
the library and of the client reply as given. -/
def serveKeyboard (library client : EspErr) (s : ProducerState) :
    (request : Op) → Result request × ProducerState
  | .load word => (s.flags word, s)
  | .store word value => ((), s.setFlag word value)
  | .exchange word value => (s.flags word, s.setFlag word value)
  | .loadHandle word => (s.handles word, s)
  | .storeHandle word value => ((), s.setHandle word value)
  | .exchangeHandle word value => (s.handles word, s.setHandle word value)
  | .claimDevice device =>
      if s.handles .directDevice = none then (true, s.setHandle .directDevice device)
      else (false, s)
  | .give semaphore => ((), s.setGiven semaphore true)
  | .take semaphore =>
      if s.given semaphore then (true, s.setGiven semaphore false) else (false, s)
  | .queueSend event =>
      if s.rawQueue.length < rawQueueCapacity then
        (true, { s with rawQueue := s.rawQueue ++ [event] })
      else (false, s)
  | .queueReceive => (s.rawQueue.head?, { s with rawQueue := s.rawQueue.tail })
  | .host .libHandleEvents => ((library, ⟨false, false⟩), s)
  | .host .clientRegister => (.ok 1, s)
  | .host (.clientHandleEvents _) => (.inr client, s)
  | .host (.deviceOpen _ _) => (.ok 1, s)
  | .host (.hid _) =>
      (if s.handles .activeHandle = none then .inl (.driver (some 1) true)
        else .inl (.interface (some 1) .inputReport), s)
  | .host (.hidGetParams _) => ((.ok, ⟨true, true⟩), s)
  | .host (.hidInputReport _) => ((.ok, [0, 0, 0x04, 0, 0, 0, 0, 0]), s)
  | .host .deadlineReached => (false, s)
  | .host .delay => ((), s)
  | .host .install => (.ok, s)
  | .host .deviceFreeAll => (.ok, s)
  | .host .uninstall => (.ok, s)
  | .host (.clientUnblock _) => (.ok, s)
  | .host (.clientDeregister _) => (.ok, s)
  | .host (.deviceClose _ _) => (.ok, s)
  | .host .rootPortPowerOff => (.ok, s)
  | .host .hidInstall => (.ok, s)
  | .host (.hidDeviceOpen _) => (.ok, s)
  | .host (.hidSetProtocol _) => (.ok, s)
  | .host (.hidSetIdle _) => (.ok, s)
  | .host (.hidDeviceStart _) => (.ok, s)
  | .host (.hidDeviceClose _) => (.ok, s)
  | .bridgeLoad _ => (false, s)
  | .bridgeStore _ _ => ((), s)
  | .bridgeSend _ => (true, s)

theorem acts_serveKeyboard (library client : EspErr) (s : ProducerState) (request : Op) :
    acts s request (serveKeyboard library client s request).1
      (serveKeyboard library client s request).2 := by
  cases request with
  | claimDevice device =>
      simp only [acts, serveKeyboard]
      split <;> simp
  | take semaphore =>
      simp only [acts, serveKeyboard]
      split <;> simp_all
  | queueSend event =>
      simp only [acts, serveKeyboard]
      split <;> simp
  | host call => cases call <;> rfl
  | load _ | exchange _ _ | loadHandle _ | exchangeHandle _ _ | queueReceive => exact ⟨rfl, rfl⟩
  | _ => rfl

/-- The keyboard is connected, and its report has reached the bridge. -/
def keyDown : List Party :=
  List.replicate 3 .usbLibrary ++ List.replicate 10 .producer ++ List.replicate 6 .hidEvents ++
    List.replicate 10 .producer ++ List.replicate 5 .hidEvents ++ List.replicate 9 .producer

def usbFault : List Party :=
  keyDown ++ List.replicate 2 .usbLibrary ++ List.replicate 11 .producer

def clientFault : List Party := keyDown ++ List.replicate 26 .producer

def cleansUp : ProducerLabel → Bool
  | (.producer, ⟨.store .hidDisconnectRequested _, _⟩) => true
  | _ => false

theorem cleanedUp_of_any (h : labels.any cleansUp = true) : CleanedUp labels := by
  obtain ⟨label, hmem, hlabel⟩ := List.any_eq_true.mp h
  unfold cleansUp at hlabel
  split at hlabel
  · exact ⟨_, hmem⟩
  · cases hlabel

/-- What is left of a run: its commands, and whether the bridge has refused one and the
teardown has cleaned up. -/
def outcome (labels : List ProducerLabel) : List Command × Bool × Bool :=
  (commands labels, labels.any refusal, labels.any cleansUp)

def pressA : Command := .event (.edge usbKeyboardSource .a .press)

theorem no_stuck_key_clientFault : ∃ labels last,
    Run (StepIf acts CleanStop) (startedProducer true) labels last ∧ CleanedUp labels ∧
      commands labels = [pressA, .sourceDisconnect usbKeyboardSource] ∧ NoStuckKey labels := by
  have hrun : (execute (serveKeyboard .ok (.other 1)) stopsCleanly clientFault
      (startedProducer true)).map (fun result => outcome result.1) =
        some ([pressA, .sourceDisconnect usbKeyboardSource], false, true) := by
    decide +kernel
  obtain ⟨⟨labels, last⟩, hexecute, houtcome⟩ := Option.map_eq_some_iff.mp hrun
  obtain ⟨hcommands, hflags⟩ := Prod.mk.inj houtcome
  have hcleaned := cleanedUp_of_any (Prod.mk.inj hflags).2
  have hsteps := execute_run (acts_serveKeyboard .ok (.other 1)) hexecute
  exact ⟨labels, last, hsteps, hcleaned, hcommands, no_stuck_key true labels last hsteps hcleaned⟩

/-- A failure of the host library's events leaves the key that is down at the bridge. -/
theorem usbFault_leaves_key : ¬ ∀ created labels last,
    Run (Step acts) (startedProducer created) labels last → CleanedUp labels →
      NoStuckKey labels := by
  intro hclaim
  have hrun : (execute (serveKeyboard (.other 1) .ok) (fun _ _ => true) usbFault
      (startedProducer true)).map (fun result => outcome result.1) =
        some ([pressA], false, true) := by
    decide +kernel
  obtain ⟨⟨labels, last⟩, hexecute, houtcome⟩ := Option.map_eq_some_iff.mp hrun
  obtain ⟨hcommands, hflags⟩ := Prod.mk.inj houtcome
  obtain ⟨hrefusal, hcleaned⟩ := Prod.mk.inj hflags
  have hsteps := run_of_stepIf (execute_run (acts_serveKeyboard (.other 1) .ok) hexecute)
  rcases hclaim true labels last hsteps (cleanedUp_of_any hcleaned) with hfollowed |
    hheld | hrefused
  · have hafter := hfollowed [] _ [] hcommands
    simp at hafter
  · exact hheld KeyMapping.Key.a.value ⟨[], _, [], hcommands, rfl, rfl, by simp⟩
  · obtain ⟨label, hmem, hlabel⟩ := hrefused
    have hnone := List.any_eq_false.mp hrefusal label hmem
    exact hnone hlabel

end Runs

end EspNp2.KeyboardInput.UsbProducerFaults
