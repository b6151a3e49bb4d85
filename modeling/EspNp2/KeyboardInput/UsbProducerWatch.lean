import EspNp2.KeyboardInput.UsbProducer

/-!
A monitor of the producer's task.  It knows how far the task has come with a raw event, with
the stop of its loop and with the cleanup of its source, whether the task has requested that
cleanup itself, and whether the bridge has refused a command.
-/

namespace EspNp2.KeyboardInput.UsbProducerWatch

open EspNp2.Library.Concurrent
open KeyboardBridge
open Ownership
open UsbProducer
open UsbReports

section Monitor

inductive Stage where
  /-- Before the client is registered. -/
  | setup
  /-- A client is registered, and the loop has not begun. -/
  | registered
  /-- The stop has been read as not requested since the last raw event. -/
  | opened
  /-- A raw event is at hand. -/
  | received
  /-- There is an active keyboard. -/
  | active
  /-- The keys are released, or the bridge has refused to hear of them. -/
  | calm
  /-- The stop has been read as requested. -/
  | leaving
  | cleaning
  | cleaned
deriving DecidableEq, Repr

structure Watch where
  stage : Stage := .setup
  faulted : Bool := false
  refused : Bool := false
deriving DecidableEq, Repr

def Watch.at (w : Watch) (stage : Stage) : Watch := { w with stage := stage }

/-- The stages in which the loop may read the stop. -/
def Stage.looping : Stage → Bool
  | .registered | .opened | .received | .active | .calm | .leaving => true
  | _ => false

/-- The bridge refuses a command. -/
def Watch.refuse (w : Watch) : Option Watch :=
  match w.stage with
  | .active => some { w with stage := .calm, refused := true }
  | .cleaning => some { w with stage := .cleaned, refused := true }
  | _ => none

def watchLoad (w : Watch) (value : Bool) : Word → Option Watch
  | .stopRequested =>
      if w.stage.looping then some (w.at (if value then .leaving else .opened)) else none
  | .sourceCleanupRequested =>
      if w.stage = .setup ∨ w.stage = .registered ∨ w.stage = .leaving then
        some (w.at (if value then .cleaning else .cleaned))
      else none
  | .bridgeFailure => if value then w.refuse else some w
  | _ => some w

def watchStore (created : Bool) (w : Watch) (value : Bool) : Word → Option Watch
  | .stopRequested =>
      if value = true ∧ (w.faulted = true ∨ w.stage = .calm ∨ created = false) then some w else none
  | .sourceCleanupRequested => if value then some { w with faulted := true } else none
  | .bridgeFailure => if value = true ∧ w.refused = true then some w else none
  | .bridgeCallsAllowed => none
  | .hidDisconnectRequested =>
      if w.stage = .cleaned ∨ w.stage = .cleaning ∧ created = false then some
        (w.at .cleaned) else none
  | _ => some w

def watchExchange (w : Watch) : Word → Option Watch
  | .activeOpen | .hidInstalled => some w
  | _ => none

def watchLoadHandle (w : Watch) (value : Option Handle) : HandleWord → Option Watch
  | .activeHandle =>
      if w.stage = .received then some (w.at (if value = none then .calm else .active)) else some w
  | _ => some w

def watchStoreHandle (created : Bool) (w : Watch) (value : Option Handle) :
    HandleWord → Option Watch
  | .activeHandle =>
      if w.stage = .calm ∨ w.stage = .active ∧ created = false ∧ value = none then some (w.at .calm)
      else none
  | .usbClient =>
      if w.stage = .setup ∧ value ≠ none then some (w.at .registered) else none
  | .directDevice => some w

def watchReceive (w : Watch) (event : Option RawEvent) : Option Watch :=
  match w.stage with
  | .opened => some (if event = none then w else w.at .received)
  | .leaving => some w
  | _ => none

def watchSend (created : Bool) (w : Watch) (command : Command) (sent : Bool) : Option Watch :=
  if created = false then none
  else if sent = false then w.refuse
  else
    match w.stage, command with
    | .active, .event _ => some w
    | .active, .sourceDisconnect source =>
        if source = usbKeyboardSource then some (w.at .calm) else none
    | .cleaning, .sourceDisconnect source =>
        if source = usbKeyboardSource then some (w.at .cleaned) else none
    | _, _ => none

def watchProducer (created : Bool) (w : Watch) : OpLabel Op Result → Option Watch
  | ⟨.load word, value⟩ => watchLoad w value word
  | ⟨.store word value, _⟩ => watchStore created w value word
  | ⟨.exchange word _, _⟩ => watchExchange w word
  | ⟨.loadHandle word, value⟩ => watchLoadHandle w value word
  | ⟨.storeHandle word value, _⟩ => watchStoreHandle created w value word
  | ⟨.exchangeHandle word _, _⟩ =>
      if word = .usbClient ∧ w.stage = .cleaned then some w else none
  | ⟨.queueReceive, event⟩ => watchReceive w event
  | ⟨.bridgeLoad _, closed⟩ => if closed then w.refuse else some w
  | ⟨.bridgeSend command, sent⟩ => watchSend created w command sent
  | _ => some w

/-- What the producer's task finds: the calls of the bridge are allowed, an active keyboard
stays active and the client registered, and a stop is not taken back. -/
def expectsProducer (w : Watch) : OpLabel Op Result → Prop
  | ⟨.load .bridgeCallsAllowed, value⟩ => value = true
  | ⟨.load .stopRequested, value⟩ => w.stage = .leaving → value = true
  | ⟨.loadHandle .usbClient, value⟩ => w.stage = .opened → value ≠ none
  | _ => True

/-- The other two tasks leave alone what belongs to the producer's task. -/
def watchTask (w : Watch) : OpLabel Op Result → Option Watch
  | ⟨.store .stopRequested value, _⟩ => if value then some w else none
  | ⟨.store .sourceCleanupRequested value, _⟩ =>
      if value then some { w with faulted := true } else none
  | ⟨.store .bridgeFailure _, _⟩ => none
  | ⟨.store .bridgeCallsAllowed _, _⟩ => none
  | ⟨.exchange _ _, _⟩ => none
  | ⟨.storeHandle .activeHandle _, _⟩ => none
  | ⟨.storeHandle .usbClient _, _⟩ => none
  | ⟨.exchangeHandle _ _, _⟩ => none
  | ⟨.bridgeLoad _, _⟩ => none
  | ⟨.bridgeSend _, _⟩ => none
  | _ => some w

def monitors (created : Bool) : Party → Monitor Watch Op Result
  | .producer => ⟨expectsProducer, watchProducer created⟩
  | _ => ⟨fun _ _ => True, watchTask⟩

end Monitor

section Steady

variable {monitor : Monitor Watch Op Result} {α β : Type}

/-- Operations that no monitor makes anything of. -/
def benign : Op → Bool
  | .load word => word ≠ .stopRequested && word ≠ .sourceCleanupRequested && word ≠ .bridgeFailure
  | .store word _ => word ≠ .stopRequested && word ≠ .sourceCleanupRequested &&
      word ≠ .bridgeFailure && word ≠ .bridgeCallsAllowed && word ≠ .hidDisconnectRequested
  | .loadHandle word => word ≠ .activeHandle
  | .storeHandle word _ => word = .directDevice
  | .claimDevice _ | .give _ | .take _ | .queueSend _ | .host _ | .bridgeStore _ _ => true
  | _ => false

/-- A monitor of a task that runs callbacks: an overflow of the raw queue requests the cleanup
before the stop. -/
structure Tolerant (monitor : Monitor Watch Op Result) : Prop where
  ignores : ∀ w request reply, benign request = true → monitor.observe w ⟨request, reply⟩ = some w
  cleanup : ∀ w reply, monitor.observe w ⟨.store .sourceCleanupRequested true, reply⟩ =
    some { w with faulted := true }
  stop : ∀ w reply, w.faulted = true →
    monitor.observe w ⟨.store .stopRequested true, reply⟩ = some w

theorem tolerant_monitors (created : Bool) (party : Party) : Tolerant (monitors created party) := by
  have hproducer : Tolerant ⟨expectsProducer, watchProducer created⟩ := by
    refine ⟨?_, fun _ _ => rfl, ?_⟩
    · rintro w (word | ⟨word, value⟩ | _ | word | ⟨word, value⟩ | _ | _ | _ | _ | _ | _ |
        _ | _ | _ | _)
        reply hbenign <;> first | rfl | cases hbenign | skip
      all_goals cases word <;> first | rfl | cases hbenign
    · intro w reply hfaulted
      simp [watchProducer, watchStore, hfaulted]
  have htask : Tolerant ⟨fun _ _ => True, watchTask⟩ := by
    refine ⟨?_, fun _ _ => rfl, fun _ _ _ => rfl⟩
    rintro w (word | ⟨word, value⟩ | _ | word | ⟨word, value⟩ | _ | _ | _ | _ | _ | _ |
      _ | _ | _ | _)
      reply hbenign <;> first | rfl | cases hbenign | skip
    all_goals cases word <;> first | rfl | cases hbenign
  cases party with
  | usbLibrary => exact htask
  | hidEvents => exact htask
  | producer => exact hproducer

/-- The task is where it was, but may have requested the cleanup. -/
structure Later (w w' : Watch) : Prop where
  stage : w'.stage = w.stage
  refused : w'.refused = w.refused
  faulted : w.faulted = true → w'.faulted = true

theorem Later.refl (w : Watch) : Later w w := ⟨rfl, rfl, fun h => h⟩

theorem Later.trans {w w' w'' : Watch} (h : Later w w') (h' : Later w' w'') : Later w w'' :=
  ⟨h'.stage.trans h.stage, h'.refused.trans h.refused, fun hw => h'.faulted (h.faulted hw)⟩

/-- Code that the monitor follows without a new stage. -/
def Steady (monitor : Monitor Watch Op Result) (code : Code α) : Prop :=
  ∀ w, Watched monitor (fun w' _ => Later w w') code w

theorem steady_pure (value : α) : Steady monitor (pure value) :=
  fun w => watched_done_iff.mpr (.refl w)

theorem Steady.bind {first : Code α} {rest : α → Code β} (h : Steady monitor first)
    (hrest : ∀ value, Steady monitor (rest value)) : Steady monitor (first >>= rest) := by
  intro w
  refine Watched.bind ((h w).mono ?_)
  intro w' value hlater
  exact (hrest value w').mono fun w'' _ hlater' => hlater.trans hlater'

theorem steady_ite {c : Prop} [Decidable c] {first second : Code α}
    (hfirst : c → Steady monitor first)
    (hsecond : ¬ c → Steady monitor second) : Steady monitor (if c then first else second) := by
  split
  · exact hfirst ‹_›
  · exact hsecond ‹_›

theorem Steady.discard {code : Code α} (h : Steady monitor code) : Steady monitor (discard code) :=
  Steady.bind h fun _ => steady_pure _

theorem steady_iterate {body : Unit → Code (Unit ⊕ β)} (h : Steady monitor (body ())) :
    Steady monitor (iterate body ()) := by
  intro w
  refine watched_iterate (fun w' _ => Later w w') (.refl w) ?_
  rintro w' - hlater
  refine (h w').mono ?_
  rintro w'' (_ | _) hlater'
  · exact hlater.trans hlater'
  · exact hlater.trans hlater'

variable (ht : Tolerant monitor)

include ht

theorem Tolerant.operate {request : Op} (h : benign request = true) :
    Steady monitor (operate request) :=
  fun w => watched_op_iff.mpr fun reply _ =>
    ⟨w, ht.ignores w request reply h, watched_done_iff.mpr (.refl w)⟩

theorem Tolerant.unblockClient : Steady monitor unblockClient := by
  refine Steady.bind (ht.operate rfl) fun client => ?_
  cases client with
  | none => exact steady_pure _
  | some client => exact (ht.operate rfl).discard

/-- A fault requests the cleanup and then the stop. -/
theorem Tolerant.faultStop (first second : Bool) {rest : Code α} (hrest : Steady monitor rest) :
    Steady monitor (do
      store .sourceCleanupRequested true
      store (if first then .faultLatched else .accepting) first
      store (if second then .faultLatched else .accepting) second
      store .stopRequested true
      rest) := by
  intro w
  have hplain : ∀ value, benign (.store (if value then .faultLatched else .accepting) value) =
    true := by
    intro value
    cases value <;> rfl
  refine watched_op_iff.mpr fun _ _ => ⟨_, ht.cleanup w _, ?_⟩
  refine watched_op_iff.mpr fun _ _ => ⟨_, ht.ignores _ _ _ (hplain first), ?_⟩
  refine watched_op_iff.mpr fun _ _ => ⟨_, ht.ignores _ _ _ (hplain second), ?_⟩
  refine watched_op_iff.mpr fun _ _ => ⟨_, ht.stop _ _ rfl, ?_⟩
  refine (hrest _).mono fun w' _ hlater => ⟨hlater.stage, hlater.refused, ?_⟩
  exact fun _ => hlater.faulted rfl

theorem Tolerant.enqueueRaw (event : RawEvent) : Steady monitor (enqueueRaw event) := by
  refine Steady.bind (ht.operate rfl) fun accepting => steady_ite (fun _ => ?_) fun _ =>
    steady_pure _
  refine Steady.bind (ht.operate rfl) fun sent => steady_ite (fun _ => steady_pure _) fun _ => ?_
  exact ht.faultStop true false (Steady.bind ht.unblockClient fun _ => steady_pure _)

theorem Tolerant.disableForFault : Steady monitor (disableForFault true) :=
  ht.faultStop false true ht.unblockClient

theorem Tolerant.deviceGoneCallback (client : Handle) (device : Option Handle) :
    Steady monitor (deviceGoneCallback client device) := by
  refine Steady.bind (ht.operate rfl) fun direct => steady_ite (fun _ => ?_) fun _ => steady_pure _
  refine Steady.bind (ht.operate rfl) fun result => steady_ite (fun _ => ?_) fun _ => ?_
  · exact Steady.bind (ht.operate rfl) fun requested =>
      steady_ite (fun _ => ht.operate rfl) fun _ => steady_pure _
  · exact Steady.bind (ht.operate rfl) fun _ => Steady.bind (ht.operate rfl) fun _ => ht.operate rfl

theorem Tolerant.newDeviceCallback (client : Handle) (address : UInt8) :
    Steady monitor (newDeviceCallback client address) := by
  refine Steady.bind (ht.operate rfl) fun opened => ?_
  cases opened with
  | error => exact steady_pure _
  | ok device =>
      exact Steady.bind (ht.operate rfl) fun _ =>
        steady_ite (fun _ => ht.operate rfl) fun _ => (ht.operate rfl).discard

theorem Tolerant.usbClientEventCallback (event : ClientEvent) :
    Steady monitor (usbClientEventCallback event) := by
  refine Steady.bind (ht.operate rfl) fun client => ?_
  cases client with
  | none => exact steady_pure _
  | some client =>
      cases event with
      | newDevice address => exact ht.newDeviceCallback client address
      | deviceGone device => exact ht.deviceGoneCallback client device
      | other => exact steady_pure _

theorem Tolerant.interfaceRawEvent (handle : Option Handle) (event : InterfaceEvent) :
    Steady monitor (interfaceRawEvent handle event) := by
  cases event with
  | inputReport =>
      exact Steady.bind (ht.operate rfl) fun _ =>
        steady_ite (fun _ => steady_pure _) fun _ => steady_pure _
  | transferError => exact steady_pure _
  | disconnected =>
      refine Steady.bind (ht.operate rfl) fun _ => steady_ite (fun _ => steady_pure _) fun _ => ?_
      refine Steady.bind (ht.operate rfl) fun _ => steady_ite (fun _ => ?_) fun _ => steady_pure _
      exact Steady.bind (ht.operate rfl) fun _ => Steady.bind (ht.operate rfl) fun _ =>
        steady_pure _
  | other => exact steady_pure _

theorem Tolerant.hidCallback (event : HidEvent) : Steady monitor (hidCallback event) := by
  cases event with
  | driver handle connected =>
      refine steady_ite (fun _ => steady_pure _) fun _ => ?_
      exact Steady.bind (ht.operate rfl) fun _ =>
        steady_ite (fun _ => (ht.enqueueRaw _).discard) fun _ => steady_pure _
  | interface handle event =>
      refine Steady.bind (ht.interfaceRawEvent handle event) fun raw => ?_
      cases raw with
      | none => exact steady_pure _
      | some raw =>
          exact Steady.bind (ht.operate rfl) fun _ =>
            steady_ite (fun _ => (ht.enqueueRaw _).discard) fun _ => steady_pure _

theorem Tolerant.hidCall (call : HidCall) : Steady monitor (hidCall call) := by
  refine steady_iterate (Steady.bind (ht.operate rfl) fun reply => ?_)
  cases reply with
  | inl event => exact Steady.bind (ht.hidCallback event) fun _ => steady_pure _
  | inr result => exact steady_pure _

theorem Tolerant.usbHostClientHandleEvents (client : Handle) :
    Steady monitor (usbHostClientHandleEvents client) := by
  refine steady_iterate (Steady.bind (ht.operate rfl) fun reply => ?_)
  cases reply with
  | inl event => exact Steady.bind (ht.usbClientEventCallback event) fun _ => steady_pure _
  | inr result => exact steady_pure _

end Steady

section EventTasks

/-- The monitor of the two event tasks. -/
def taskMonitor : Monitor Watch Op Result := ⟨fun _ _ => True, watchTask⟩

theorem tolerant_taskMonitor : Tolerant taskMonitor := tolerant_monitors true .usbLibrary

/-- What the event tasks may do besides. -/
theorem steady_task {request : Op} (h : ∀ w reply, watchTask w ⟨request, reply⟩ = some w) :
    Steady taskMonitor (operate request) :=
  fun w => watched_op_iff.mpr fun reply _ => ⟨w, h w reply, watched_done_iff.mpr (.refl w)⟩

theorem steady_usbLibraryRound : Steady taskMonitor usbLibraryRound := by
  have ht := tolerant_taskMonitor
  have hfree : Steady taskMonitor awaitAllFree := by
    refine steady_iterate (Steady.bind (ht.operate rfl) fun _ =>
      steady_ite (fun _ => steady_pure _) fun _ => Steady.bind (ht.operate rfl) fun _ => ?_)
    exact steady_ite (fun _ => steady_pure _) fun _ =>
      steady_ite (fun _ => steady_pure _) fun _ => steady_pure _
  have hdevices : Steady taskMonitor freeDevices := by
    refine Steady.bind (ht.operate rfl) fun _ => steady_ite (fun _ => steady_pure _) fun _ => ?_
    exact steady_ite (fun _ => hfree) fun _ => steady_pure _
  have hrest : ∀ events : EspErr × LibFlags, Steady taskMonitor (do
      if events.2.noClients then
        if ← load .stopRequested then return .inr (← freeDevices)
        else return .inl ()
      else return .inl () : Code (Unit ⊕ Bool)) := by
    intro events
    refine steady_ite (fun _ => ?_) fun _ => steady_pure _
    refine Steady.bind (steady_task fun _ _ => rfl) fun _ => steady_ite (fun _ => ?_) fun _ =>
      steady_pure _
    exact Steady.bind hdevices fun _ => steady_pure _
  refine Steady.bind (ht.operate rfl) fun events => steady_ite (fun _ => ?_) fun _ => hrest events
  exact Steady.bind (steady_task fun _ _ => rfl) fun _ => hrest events

theorem steady_usbLibraryTask : Steady taskMonitor usbLibraryTask := by
  have ht := tolerant_taskMonitor
  refine Steady.bind (ht.operate rfl) fun _ => steady_ite (fun _ => ?_) fun _ => ?_
  · refine Steady.bind (steady_task fun _ _ => rfl) fun _ => Steady.bind
      (ht.operate rfl) fun _ => ?_
    exact Steady.bind (ht.operate rfl) fun _ => Steady.bind (ht.operate rfl) fun _ => ht.operate rfl
  · refine Steady.bind (ht.operate rfl) fun _ => Steady.bind (ht.operate rfl) fun _ => ?_
    refine Steady.bind (steady_iterate steady_usbLibraryRound).discard fun _ => ?_
    refine Steady.bind (ht.operate rfl).discard fun _ => Steady.bind (ht.operate rfl) fun _ => ?_
    exact Steady.bind (ht.operate rfl) fun _ => ht.operate rfl

theorem steady_hidEventTask : Steady taskMonitor hidEventTask := by
  have ht := tolerant_taskMonitor
  have hround : Steady taskMonitor hidEventRound := by
    refine Steady.bind (ht.hidCall _) fun _ => steady_ite (fun _ => ?_) fun _ => ?_
    · refine Steady.bind (ht.operate rfl) fun _ => steady_ite (fun _ => steady_pure _) fun _ => ?_
      refine Steady.bind (steady_task fun _ _ => rfl) fun _ => Steady.bind
        (ht.operate rfl) fun _ => ?_
      exact Steady.bind (ht.operate rfl) fun _ => steady_pure _
    · exact Steady.bind (ht.operate rfl) fun _ =>
        steady_ite (fun _ => steady_pure _) fun _ => steady_pure _
  have hdone : Steady taskMonitor (do
      store .hidDoneFlag true
      give .hidDone) :=
    Steady.bind (ht.operate rfl) fun _ => ht.operate rfl
  refine Steady.bind (ht.operate rfl).discard fun _ => Steady.bind (ht.operate rfl) fun _ => ?_
  refine steady_ite (fun _ => ?_) fun _ => hdone
  exact Steady.bind (steady_iterate hround) fun _ => hdone

end EventTasks

section SteadyAt

variable {monitor : Monitor Watch Op Result} {α β : Type} {stage : Stage}

/-- Code that the monitor follows within a stage. -/
def SteadyAt (monitor : Monitor Watch Op Result) (stage : Stage) (code : Code α) : Prop :=
  ∀ w, w.stage = stage → Watched monitor (fun w' _ => Later w w') code w

theorem Steady.at {code : Code α} (h : Steady monitor code) : SteadyAt monitor stage code :=
  fun w _ => h w

theorem SteadyAt.bind {first : Code α} {rest : α → Code β} (h : SteadyAt monitor stage first)
    (hrest : ∀ value, SteadyAt monitor stage (rest value)) :
    SteadyAt monitor stage (first >>= rest) := by
  intro w hw
  refine Watched.bind ((h w hw).mono ?_)
  intro w' value hlater
  exact (hrest value w' (hlater.stage.trans hw)).mono fun w'' _ hlater' => hlater.trans hlater'

theorem SteadyAt.ite {c : Prop} [Decidable c] {first second : Code α}
    (hfirst : c → SteadyAt monitor stage first) (hsecond : ¬ c → SteadyAt monitor stage second) :
    SteadyAt monitor stage (if c then first else second) := by
  split
  · exact hfirst ‹_›
  · exact hsecond ‹_›

theorem steadyAt_pure (value : α) : SteadyAt monitor stage (pure value) :=
  (steady_pure value).at

theorem steadyAt_iterate {body : Unit → Code (Unit ⊕ β)} (h : SteadyAt monitor stage (body ())) :
    SteadyAt monitor stage (iterate body ()) := by
  intro w hw
  refine watched_iterate (fun w' _ => Later w w') (.refl w) ?_
  rintro w' - hlater
  refine (h w' (hlater.stage.trans hw)).mono ?_
  rintro w'' (_ | _) hlater'
  · exact hlater.trans hlater'
  · exact hlater.trans hlater'

theorem steadyAt_operate {request : Op}
    (h : ∀ w reply, w.stage = stage → monitor.observe w ⟨request, reply⟩ = some w) :
    SteadyAt monitor stage (operate request) :=
  fun w hw => watched_op_iff.mpr fun reply _ =>
    ⟨w, h w reply hw, watched_done_iff.mpr (.refl w)⟩

end SteadyAt

section Stages

variable {created : Bool} {α β : Type} {stage : Stage}

def producerMonitor (created : Bool) : Monitor Watch Op Result :=
  ⟨expectsProducer, watchProducer created⟩

theorem tolerant_producerMonitor : Tolerant (producerMonitor created) :=
  tolerant_monitors created .producer

/-- The shared monitor in the stages before and after a piece of the producer's code. -/
def Stages (created : Bool) (pre : Stage → Prop) (code : Producer α) (post : Stage → Prop) : Prop :=
  Ensures (producerMonitor created) (fun w => pre w.stage) code fun w _ => post w.stage

theorem SteadyAt.stages {code : Code α} (h : SteadyAt (producerMonitor created) stage code) :
    Stages created (· = stage) (liftM code) (· = stage) := by
  refine ensures_lift fun w hw => (h w hw).mono ?_
  intro w' _ hlater
  exact hlater.stage.trans hw

theorem Stages.bind {pre middle post : Stage → Prop} {first : Producer α} {rest : α → Producer β}
    (h : Stages created pre first middle) (hrest : ∀ value, Stages created middle
      (rest value) post) :
    Stages created pre (first >>= rest) post :=
  Ensures.bind h hrest

/-- The producer's task stays in a stage. -/
theorem stages_steady {post : Stage → Prop} {first : Code α} {rest : α → Producer β}
    (h : SteadyAt (producerMonitor created) stage first)
    (hrest : ∀ value, Stages created (· = stage) (rest value) post) :
    Stages created (· = stage) (liftM first >>= rest) post :=
  Ensures.bind h.stages hrest

/-- The stages of a raw event that is being handled. -/
def Stage.handled (stage : Stage) : Prop := stage = .received ∨ stage = .active ∨ stage = .calm

theorem Stage.handled.looping (h : stage.handled) : stage.looping = true := by
  rcases h with rfl | rfl | rfl <;> rfl

/-- The stages between two rounds of the main loop. -/
def Stage.between (stage : Stage) : Prop :=
  stage = .registered ∨ stage = .opened ∨ stage = .leaving

theorem Stage.between.looping (h : stage.between) : stage.looping = true := by
  rcases h with rfl | rfl | rfl <;> rfl

theorem SteadyAt.handled {code : Code α} (h : SteadyAt (producerMonitor created) stage code)
    (hstage : stage.handled) : Stages created (· = stage) (liftM code) Stage.handled :=
  Ensures.mono h.stages fun w _ hw => by rwa [hw]

end Stages

end EspNp2.KeyboardInput.UsbProducerWatch
