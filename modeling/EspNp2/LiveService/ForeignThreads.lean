import EspNp2.LiveService.LiveSystem

/-!
The threads beside the owner. They leave the words of the owner alone, ask for the end of the
production only when they have changed the state themselves, and take from the event ring only
what the owner has put there.
-/

namespace EspNp2.LiveService.ForeignThreads

open EspNp2.Library.Concurrent
open EspNp2.LiveService.LiveSystem
open EspNp2.LiveService.PcmOutput
open EspNp2.LiveService.ServiceMemory
open EspNp2.LiveService.Transport
open EspNp2.LiveService.WorkerThread

section Monitor

/-- What a thread has done to the state, and what it knows of the event ring. -/
structure Side where
  /-- Its exchange has made the state a late one. -/
  late : Bool := false
  /-- It has stopped a service without a guest. -/
  unattached : Bool := false
  tail : Option UInt32 := none
  /-- The head of the event ring has been read ahead of its tail. -/
  ahead : Bool := false
deriving DecidableEq, Repr

def Side.advance (s : Side) : OpLabel → Side
  | ⟨.load .eventTail, tail⟩ => { s with tail := some tail }
  | ⟨.load .eventHead, head⟩ => { s with ahead := s.tail.any (head ≠ ·) }
  | ⟨.store .eventTail _, _⟩ => { s with tail := none, ahead := false }
  | ⟨.compareExchangeWeak .state state .stopRequested, true⟩ =>
      { s with late := true, unattached := s.unattached || state = .startedUnattached }
  | ⟨.compareExchangeWeak .state _ .failing, true⟩ => { s with late := true }
  | _ => s

def Side.stores (party : Party) (s : Side) : (cell : Cell) → cell.Value → Bool
  | .eventHead, _ | .ownerValid, _ | .ownerFinalizing, _ | .horizonFrame, _ => false
  | .finalHorizonSequence, _ | .finalHorizonLow, _ | .finalHorizonHigh, _ => s.unattached
  | .stopIntent, _ | .producerClosing, _ => s.late
  | .eventTail, tail => party = .worker && s.ahead && s.tail.any (tail = · + 1)
  | .horizonState, state => state = .empty
  | .state, state => state ≠ .draining
  | _, _ => true

def Side.accepts (party : Party) (s : Side) : OpLabel → Bool
  | ⟨.store cell value, _⟩ => s.stores party cell value
  | ⟨.compareExchange .state _ desired, _⟩ => desired ≠ .draining || s.unattached
  | ⟨.compareExchangeWeak .state _ desired, _⟩ => desired ≠ .draining
  | _ => true

def foreign (party : Party) : Monitor Side Op Result where
  expects _ _ := True
  observe s label := if s.accepts party label then some (s.advance label) else none

end Monitor

section Programs

variable {party : Party} {α β σ L : Type} {s : Side} {post : Side → α → Prop}

theorem watched_accepted {request : Op} {next : Result request → Code α}
    (h : ∀ reply, s.accepts party ⟨request, reply⟩ = true)
    (hnext : ∀ reply, Watched (foreign party) post (next reply) (s.advance ⟨request, reply⟩)) :
    Watched (foreign party) post (.op request next) s :=
  watched_op_iff.mpr fun reply _ => ⟨_, if_pos (h reply), hnext reply⟩

/-- Whatever the thread has done before, the monitor accepts the program. -/
def Spares (party : Party) (program : Code α) : Prop :=
  ∀ s, Watched (foreign party) (fun _ _ => True) program s

theorem spares_pure (value : α) : Spares party (pure value : Code α) :=
  fun _ => watched_done_iff.mpr trivial

theorem spares_op {request : Op} (h : ∀ s reply, Side.accepts party s ⟨request, reply⟩ = true) :
    Spares party (operate request) :=
  fun s => watched_accepted (h s) fun _ => watched_done_iff.mpr trivial

theorem Spares.bind {first : Code α} {rest : α → Code β} (h : Spares party first)
    (hrest : ∀ value, Spares party (rest value)) : Spares party (first >>= rest) :=
  fun s => Watched.bind ((h s).mono fun s' value _ => hrest value s')

theorem spares_ite {c : Prop} [Decidable c] {first second : Code α} (hfirst : Spares party first)
    (hsecond : Spares party second) : Spares party (if c then first else second) := by
  split
  · exact hfirst
  · exact hsecond

theorem spares_iterate {body : σ → Code (σ ⊕ β)} {start : σ}
    (h : ∀ value, Spares party (body value)) : Spares party (iterate body start) := by
  intro s
  refine watched_iterate (fun _ _ => True) trivial fun s value _ => (h value s).mono ?_
  rintro s' result -
  cases result <;> trivial

/-- The same for a program among those that work on the fields of the thread. -/
def SparesAll (party : Party) (program : StateT L Code α) : Prop :=
  ∀ fields, Spares party (program fields)

theorem sparesAll_pure (value : α) : SparesAll party (pure value : StateT L Code α) :=
  fun fields => spares_pure (value, fields)

theorem sparesAll_lift {program : Code α} (h : Spares party program) :
    SparesAll party (liftM program : StateT L Code α) :=
  fun fields => h.bind fun value => spares_pure (value, fields)

theorem sparesAll_op {request : Op} (h : ∀ s reply, Side.accepts party s ⟨request, reply⟩ = true) :
    SparesAll party (liftM (operate request) : StateT L Code (Result request)) :=
  sparesAll_lift (spares_op h)

theorem SparesAll.bind {first : StateT L Code α} {rest : α → StateT L Code β}
    (h : SparesAll party first) (hrest : ∀ value, SparesAll party (rest value)) :
    SparesAll party (first >>= rest) :=
  fun fields => (h fields).bind fun result => hrest result.1 result.2

theorem sparesAll_ite {c : Prop} [Decidable c] {first second : StateT L Code α}
    (hfirst : SparesAll party first) (hsecond : SparesAll party second) :
    SparesAll party (if c then first else second) := by
  split
  · exact hfirst
  · exact hsecond

theorem sparesAll_get_bind {rest : L → StateT L Code α}
    (h : ∀ fields, SparesAll party (rest fields)) : SparesAll party (get >>= rest) :=
  fun fields => h fields fields

theorem sparesAll_modify (change : L → L) : SparesAll party (modify change : StateT L Code PUnit) :=
  fun _ _ => watched_done_iff.mpr trivial

theorem sparesAll_set (fields : L) : SparesAll party (set fields : StateT L Code PUnit) :=
  fun _ _ => watched_done_iff.mpr trivial

theorem sparesAll_iterating {body : σ → StateT L Code (σ ⊕ β)} {start : σ}
    (h : ∀ value, SparesAll party (body value)) : SparesAll party (iterating body start) := by
  intro fields
  refine spares_iterate fun round => (h round.1 round.2).bind fun result => ?_
  obtain ⟨result, fields'⟩ := result
  cases result <;> exact spares_pure _

theorem spares_discard {program : Code α} (h : Spares party program) :
    Spares party (discard program) :=
  h.bind fun _ => spares_pure _

theorem sparesAll_discard {program : StateT L Code α} (h : SparesAll party program) :
    SparesAll party (discard program) :=
  h.bind fun _ => sparesAll_pure _

end Programs

section Shared

variable {party : Party} {L : Type} {s : Side}

theorem spares_load (cell : Cell) : Spares party (load cell) := spares_op fun _ _ => rfl

theorem spares_wait : Spares party wait := spares_op fun _ _ => rfl

theorem spares_wake : Spares party wake := spares_op fun _ _ => rfl

/-- After its win a call of `first_fatal` asks for the end of the production. -/
theorem watched_firstFatalPublish (hlate : s.late = true) (category : FailureCategory)
    (origin : FailureOrigin) (subcode : UInt32) : Watched (foreign party) (fun _ _ => True)
      (firstFatalPublish category origin subcode) s := by
  refine watched_accepted (fun _ => rfl) fun _ => watched_accepted (fun _ => rfl) fun _ => ?_
  refine watched_accepted (fun _ => rfl) fun _ => watched_accepted (fun _ => rfl) fun _ => ?_
  refine watched_accepted (fun _ => rfl) fun latched => ?_
  cases latched with
  | false => exact watched_done_iff.mpr trivial
  | true =>
      refine watched_accepted (fun _ => hlate) fun _ => watched_accepted
        (fun _ => hlate) fun _ => ?_
      refine watched_accepted (fun _ => rfl) fun _ => watched_accepted (fun _ => rfl) fun _ => ?_
      refine watched_accepted (fun _ => rfl) fun _ => watched_accepted (fun _ => rfl) fun _ => ?_
      exact watched_done_iff.mpr trivial

theorem spares_firstFatal (category : FailureCategory) (origin : FailureOrigin) (subcode : UInt32) :
    Spares party (firstFatal category origin subcode) := by
  refine Spares.bind ?_ fun latched => (spares_op fun _ _ => rfl).bind fun _ => spares_pure _
  refine spares_ite (spares_pure _) fun s => ?_
  refine Watched.bind (Watched.mono (Q := fun s' won => won = true → s'.late = true) ?_ ?_)
  · refine watched_iterate (fun _ _ => True) trivial fun s₁ value _ => ?_
    refine watched_accepted (fun _ => rfl) fun state => ?_
    change Watched _ _ (if LiveState.closed state = true then _ else _) _
    split
    · refine watched_done_iff.mpr ?_
      change false = true → _
      simp
    · refine watched_accepted (fun _ => rfl) fun won => ?_
      cases won with
      | true => exact watched_done_iff.mpr fun _ => rfl
      | false => exact watched_done_iff.mpr trivial
  · intro s₁ won hlate
    cases won with
    | true => exact watched_firstFatalPublish (hlate rfl) category origin subcode
    | false => exact watched_done_iff.mpr trivial

theorem sparesAll_fatal (category : FailureCategory) (origin : FailureOrigin) (subcode : UInt32) :
    SparesAll party (discard (liftM (firstFatal category origin subcode) : StateT L Code Bool)) :=
  sparesAll_discard (sparesAll_lift (spares_firstFatal category origin subcode))

/-- A thread that reports a failure and ends with a value. -/
theorem sparesAll_giveUp {α : Type} (category : FailureCategory) (origin : FailureOrigin)
    (subcode : UInt32) (value : α) : SparesAll party (do
      discard (liftM (firstFatal category origin subcode) : StateT L Code Bool)
      return value : StateT L Code α) :=
  (sparesAll_fatal category origin subcode).bind fun _ => sparesAll_pure value

theorem sparesAll_load (cell : Cell) : SparesAll (L := L) party (liftM (load cell)) :=
  sparesAll_lift (spares_load cell)

theorem sparesAll_wait : SparesAll (L := L) party (liftM wait) := sparesAll_lift spares_wait

theorem sparesAll_wake : SparesAll (L := L) party (liftM wake) := sparesAll_lift spares_wake

end Shared

section Control

variable {index : Nat} {s : Side}

theorem watched_finalHorizonPublish {party : Party} (hunattached : s.unattached = true)
    (value : UInt64) : Watched (foreign party) (fun s' _ => s'.late = s.late ∧ s'.unattached = true)
      (finalHorizonPublish value) s := by
  refine watched_accepted (fun _ => rfl) fun sequence => ?_
  refine watched_accepted (fun _ => hunattached) fun _ => watched_accepted
    (fun _ => hunattached) fun _ => ?_
  refine watched_accepted (fun _ => hunattached) fun _ => watched_accepted
    (fun _ => hunattached) fun _ => ?_
  exact watched_done_iff.mpr ⟨rfl, hunattached⟩

theorem watched_stopUnattached (hlate : s.late = true) (hunattached : s.unattached = true) :
    Watched (foreign (.control index)) (fun _ _ => True) stopUnattached s := by
  refine watched_accepted (fun _ => hlate) fun _ => ?_
  change Watched _ _ ((finalHorizonPublish 0).bind _) s
  refine Watched.bind ((watched_finalHorizonPublish hunattached 0).mono ?_)
  rintro s₁ _ ⟨-, hunattached₁⟩
  refine watched_accepted (fun _ => rfl) fun _ => watched_accepted (fun _ => ?_) fun _ => ?_
  · simp [Side.accepts, Side.advance, hunattached₁]
  · exact watched_done_iff.mpr trivial

theorem watched_stopAccepted {state : LiveState} (hlate : s.late = true)
    (hstate : state = .startedUnattached → s.unattached = true) :
    Watched (foreign (.control index)) (fun _ _ => True) (stopAccepted state) s := by
  refine watched_accepted (fun _ => hlate) fun _ => watched_accepted (fun _ => rfl) fun _ => ?_
  refine watched_accepted (fun _ => rfl) fun _ => ?_
  change Watched _ _ (if state = .startedUnattached then stopUnattached else pure ()) s
  split
  · exact watched_stopUnattached hlate (hstate ‹_›)
  · exact watched_done_iff.mpr trivial

theorem spares_requestStop : Spares (.control index) requestStop := by
  refine spares_iterate fun _ => Spares.bind (spares_load _) fun state => ?_
  refine spares_ite (spares_pure _) (spares_ite (spares_pure _) fun s => ?_)
  refine watched_accepted (fun _ => rfl) fun accepted => ?_
  cases accepted with
  | false => exact watched_done_iff.mpr trivial
  | true =>
      change Watched _ _ ((stopAccepted state).bind _) _
      refine Watched.bind ((watched_stopAccepted rfl ?_).mono fun s₁ _ _ => ?_)
      · rintro rfl
        exact Bool.or_true _
      · exact watched_accepted (fun _ => rfl) fun _ => watched_done_iff.mpr trivial

theorem spares_destroy : Spares (.control index) destroy := by
  refine Spares.bind ?_ fun check => spares_ite ?_ (spares_pure _)
  · refine (spares_load _).bind fun state => spares_ite (spares_pure _) ?_
    refine (spares_load _).bind fun safe => spares_ite (spares_pure _) ?_
    refine (spares_load _).bind fun attached => spares_ite (spares_pure _) ?_
    exact (spares_load _).bind fun reachable => spares_ite (spares_pure _) (spares_pure _)
  · refine Spares.bind (spares_op fun _ _ => rfl) fun _ => ?_
    exact Spares.bind (spares_op fun _ _ => rfl) fun _ => spares_pure _

theorem spares_controlRun (actions : List ControlAction) :
    Spares (.control index) (controlRun actions) := by
  induction actions with
  | nil => exact spares_pure _
  | cons action rest ih =>
      refine Spares.bind ?_ fun _ => ih
      cases action with
      | requestStop => exact spares_requestStop.bind fun _ => spares_op fun _ _ => rfl
      | testFail category origin subcode => exact spares_discard (spares_firstFatal _ _ _)
      | destroy => exact spares_destroy.bind fun _ => spares_op fun _ _ => rfl

end Control

section Output

variable {party : Party}

theorem sparesAll_modifyOutput (change : OutputController → OutputController) :
    SparesAll party (modifyOutput change) := sparesAll_modify _

theorem sparesAll_translateResult (accepted : OutputState) (result : SinkResult) :
    SparesAll party (translateResult accepted result) := by
  cases result with
  | retry => exact sparesAll_pure _
  | fatal | accepted => exact (sparesAll_modifyOutput _).bind fun _ => sparesAll_pure _

theorem sparesAll_outputStart : SparesAll party outputStart := by
  refine sparesAll_get_bind fun w => sparesAll_ite (sparesAll_pure _) ?_
  exact (sparesAll_op fun _ _ => rfl).bind fun _ => sparesAll_translateResult _ _

theorem sparesAll_outputFinish : SparesAll party outputFinish := by
  refine sparesAll_get_bind fun w => sparesAll_ite (sparesAll_pure _)
    (sparesAll_ite (sparesAll_pure _) ?_)
  exact (sparesAll_op fun _ _ => rfl).bind fun _ => sparesAll_translateResult _ _

theorem sparesAll_outputAbort : SparesAll party outputAbort := by
  refine sparesAll_get_bind fun w => sparesAll_ite (sparesAll_pure _) ?_
  exact (sparesAll_op fun _ _ => rfl).bind fun _ => sparesAll_translateResult _ _

theorem sparesAll_acceptSlot (slot : SinkView) (rest : List SinkView) :
    SparesAll party (acceptSlot slot rest) := by
  refine sparesAll_get_bind fun w => sparesAll_ite ?_ ?_
  · exact (sparesAll_modifyOutput _).bind fun _ => sparesAll_pure _
  · exact (sparesAll_modify _).bind fun _ => sparesAll_pure _

theorem sparesAll_outputStep : SparesAll party outputStep := by
  refine sparesAll_get_bind fun w => sparesAll_ite (sparesAll_pure _)
    (sparesAll_ite (sparesAll_pure _) ?_)
  split
  · exact sparesAll_pure _
  refine sparesAll_ite (sparesAll_pure _) ((sparesAll_op fun _ _ => rfl).bind fun result => ?_)
  cases result with
  | fatal => exact (sparesAll_modifyOutput _).bind fun _ => sparesAll_pure _
  | retry => exact sparesAll_pure _
  | accepted => exact sparesAll_acceptSlot _ _

theorem sparesAll_drainOutput : SparesAll party drainOutput := by
  refine sparesAll_iterating fun _ => (sparesAll_load _).bind fun state => ?_
  refine sparesAll_ite (sparesAll_pure _) ((sparesAll_load _).bind fun latched => ?_)
  refine sparesAll_ite (sparesAll_pure _) (sparesAll_outputStep.bind fun status => ?_)
  cases status with
  | consumed | empty | retry => exact sparesAll_pure _
  | ok | fatal | stateError | slotError | ringError => exact sparesAll_giveUp _ _ _ _

theorem sparesAll_waitForSpace (retry : Bool) : SparesAll party (waitForSpace retry) :=
  sparesAll_get_bind fun _ => sparesAll_ite sparesAll_wait (sparesAll_pure _)

theorem sparesAll_appendStatus (appended : Nat) (retry : Bool) (status : RingStatus) :
    SparesAll party (appendStatus appended retry status) := by
  cases status with
  | ok => exact sparesAll_pure _
  | full =>
      refine (sparesAll_waitForSpace _).bind fun _ => (sparesAll_load _).bind fun latched => ?_
      exact sparesAll_ite (sparesAll_pure _) (sparesAll_pure _)
  | empty | argument | offset | finalized | invariant => exact sparesAll_giveUp _ _ _ _

theorem sparesAll_appendPcm (pcm : List UInt8) (frames : Nat) (frameOffset : UInt64) :
    SparesAll party (appendPcm pcm frames frameOffset) := by
  refine sparesAll_iterating fun appended => sparesAll_ite (sparesAll_pure _) ?_
  refine sparesAll_get_bind fun w => (sparesAll_set _).bind fun _ => ?_
  exact sparesAll_drainOutput.bind fun drained =>
    sparesAll_ite (sparesAll_appendStatus _ _ _) (sparesAll_pure _)

theorem sparesAll_closeStatus (status : RingStatus) : SparesAll party (closeStatus status) := by
  cases status with
  | ok => exact sparesAll_pure _
  | full =>
      refine sparesAll_drainOutput.bind fun drained => sparesAll_ite ?_ (sparesAll_pure _)
      exact (sparesAll_waitForSpace _).bind fun _ => sparesAll_pure _
  | empty | argument | offset | finalized | invariant => exact sparesAll_giveUp _ _ _ _

theorem sparesAll_closePcmRing : SparesAll party closePcmRing :=
  sparesAll_iterating fun _ => sparesAll_get_bind fun _ => (sparesAll_set _).bind fun _ =>
    sparesAll_closeStatus _

theorem sparesAll_finishOutput : SparesAll party finishOutput := by
  refine sparesAll_iterating fun _ => sparesAll_drainOutput.bind fun drained => ?_
  refine sparesAll_ite (sparesAll_pure _) (sparesAll_ite ?_ ?_)
  · exact sparesAll_wait.bind fun _ => sparesAll_pure _
  refine sparesAll_outputFinish.bind fun status => ?_
  cases status with
  | ok => exact sparesAll_pure _
  | retry =>
      refine (sparesAll_load _).bind fun latched => sparesAll_ite (sparesAll_pure _) ?_
      exact sparesAll_wait.bind fun _ => sparesAll_pure _
  | consumed | empty | fatal | stateError | slotError | ringError => exact sparesAll_giveUp _ _ _ _

theorem sparesAll_abortOutputBarrier : SparesAll party abortOutputBarrier := by
  refine sparesAll_get_bind fun w => sparesAll_ite (sparesAll_pure _) ?_
  refine sparesAll_iterating fun _ => sparesAll_outputAbort.bind fun status => ?_
  split
  · exact sparesAll_pure _
  · exact sparesAll_wait.bind fun _ => sparesAll_pure _
  · exact sparesAll_pure _

end Output

section Events

variable {party : Party} {s : Side}

theorem sparesAll_renderFailure (subcode : UInt32) : SparesAll party (renderFailure subcode) :=
  (sparesAll_load _).bind fun _ => sparesAll_ite (sparesAll_fatal _ _ _) (sparesAll_pure _)

theorem sparesAll_renderUntil (target : UInt64) : SparesAll party (renderUntil target) := by
  refine sparesAll_get_bind fun w => sparesAll_ite (sparesAll_pure _)
    (sparesAll_iterating fun _ => ?_)
  refine sparesAll_get_bind fun w => sparesAll_ite ?_ (sparesAll_pure _)
  refine (sparesAll_load _).bind fun latched => sparesAll_ite (sparesAll_pure _) ?_
  refine (sparesAll_op fun _ _ => rfl).bind fun rendered => ?_
  cases rendered with
  | none => exact (sparesAll_renderFailure _).bind fun _ => sparesAll_pure _
  | some pcm =>
      refine sparesAll_get_bind fun w => (sparesAll_appendPcm _ _ _).bind fun ok => ?_
      exact sparesAll_ite ((sparesAll_modify _).bind fun _ => sparesAll_pure _) (sparesAll_pure _)

theorem spares_loadBytes (position : UInt32) (count : Nat) :
    Spares party (loadBytes position count) := by
  induction count generalizing position with
  | zero => exact spares_pure _
  | succ count ih =>
      exact (spares_load _).bind fun value => (ih _).bind fun rest => spares_pure _

theorem spares_byteRingPop (count : UInt32) : Spares party (byteRingPop count) := by
  refine Spares.bind ?_ fun copied => ?_
  · refine spares_ite (spares_pure _) ((spares_load _).bind fun tail => (spares_load _).bind
      fun head => ?_)
    refine spares_ite (spares_pure _) (spares_ite (spares_pure _) ?_)
    exact (spares_loadBytes _ _).bind fun _ => spares_pure _
  cases copied with
  | error status => exact spares_pure _
  | ok bytes =>
      refine Spares.bind ?_ fun _ => spares_pure _
      refine spares_ite (spares_pure _) ((spares_load _).bind fun tail => (spares_load _).bind
        fun head => ?_)
      refine spares_ite (spares_pure _) (spares_ite (spares_pure _) ?_)
      exact (spares_op fun _ _ => rfl).bind fun _ => spares_pure _

/-- The worker takes an event only when it has read the head ahead of the tail. -/
theorem spares_eventRingConsume : Spares .worker eventRingConsume := by
  intro s
  refine watched_accepted (fun _ => rfl) fun tail => watched_accepted (fun _ => rfl) fun head => ?_
  change Watched _ _ (if head - tail > eventCapacity then _ else _) _
  split
  · exact watched_done_iff.mpr trivial
  change Watched _ _ (if head = tail then _ else _) _
  split
  · exact watched_done_iff.mpr trivial
  · rename_i hne
    refine watched_accepted (fun _ => ?_) fun _ => watched_done_iff.mpr trivial
    simp [Side.accepts, Side.stores, Side.advance, hne]

theorem spares_eventRingPeek : Spares party eventRingPeek := by
  refine (spares_load _).bind fun tail => (spares_load _).bind fun head => ?_
  refine spares_ite (spares_pure _) (spares_ite (spares_pure _) ?_)
  exact (spares_load _).bind fun event => spares_pure _

theorem spares_horizonTryObserve (reconstructed : UInt64) :
    Spares party (horizonTryObserve reconstructed) := by
  refine (spares_load _).bind fun state => spares_ite (spares_pure _) ?_
  refine (spares_load _).bind fun frame => spares_ite (spares_pure _) ?_
  exact (spares_op fun _ _ => rfl).bind fun _ => spares_pure _

theorem spares_finalHorizonRead : Spares party finalHorizonRead := by
  refine spares_iterate fun _ => (spares_load _).bind fun before => spares_ite (spares_pure _) ?_
  refine (spares_load _).bind fun low => (spares_load _).bind fun high => ?_
  exact (spares_load _).bind fun after => spares_ite (spares_pure _) (spares_pure _)

theorem spares_transportEmpty : Spares party transportEmpty := by
  refine ((spares_load _).bind fun _ => spares_pure _).bind fun pending =>
    spares_ite (spares_pure _) ?_
  refine Spares.bind ((spares_load _).bind fun _ => (spares_load _).bind fun _ => spares_pure _)
    fun occupied => spares_ite (spares_pure _) ?_
  exact Spares.bind ((spares_load _).bind fun _ => (spares_load _).bind fun _ => spares_pure _)
    fun occupied => spares_pure _

theorem sparesAll_performEvent (event : Event) : SparesAll party (performEvent event) := by
  have hcontrol : ∀ kind opcode, SparesAll party (applyControl event kind opcode) :=
    fun _ _ => (sparesAll_op fun _ _ => rfl).bind fun _ => sparesAll_pure _
  refine sparesAll_ite (sparesAll_ite (sparesAll_pure _) ?_) ?_
  · refine (sparesAll_lift (spares_byteRingPop _)).bind fun popped => ?_
    cases popped with
    | error status => exact sparesAll_pure _
    | ok bytes =>
        refine sparesAll_get_bind fun w => (sparesAll_modify _).bind fun _ => ?_
        exact (sparesAll_op fun _ _ => rfl).bind fun _ => sparesAll_pure _
  refine sparesAll_ite (hcontrol _ _)
    (sparesAll_ite (hcontrol _ _) (sparesAll_ite (hcontrol _ _) ?_))
  refine sparesAll_ite (sparesAll_ite (sparesAll_pure _) ?_) (sparesAll_pure _)
  exact (sparesAll_op fun _ _ => rfl).bind fun _ => sparesAll_pure _

theorem sparesAll_applyEvent (event : Event) : SparesAll .worker (applyEvent event) := by
  refine sparesAll_get_bind fun w => sparesAll_ite (sparesAll_pure _) ?_
  refine (sparesAll_renderUntil _).bind fun rendered => sparesAll_ite ?_ (sparesAll_pure _)
  refine (sparesAll_performEvent event).bind fun applied => ?_
  cases applied with
  | none => exact sparesAll_pure _
  | some bytes =>
      refine sparesAll_get_bind fun w => (sparesAll_op fun _ _ => rfl).bind fun _ => ?_
      refine (sparesAll_lift spares_eventRingConsume).bind fun status => sparesAll_ite ?_
        (sparesAll_pure _)
      refine (sparesAll_modify _).bind fun _ => SparesAll.bind ?_ fun _ => ?_
      · exact sparesAll_ite (sparesAll_op fun _ _ => rfl) (sparesAll_pure _)
      · exact sparesAll_wake.bind fun _ => sparesAll_pure _

end Events

section Run

variable {index : Nat}

theorem sparesAll_workerStart : SparesAll .worker workerStart := by
  refine SparesAll.bind (sparesAll_iterating fun _ => sparesAll_outputStart.bind fun status => ?_)
    fun status => ?_
  · refine sparesAll_ite (sparesAll_wait.bind fun _ => (sparesAll_load _).bind fun latched => ?_)
      (sparesAll_pure _)
    exact sparesAll_ite (sparesAll_pure _) (sparesAll_pure _)
  · refine sparesAll_ite (sparesAll_fatal _ _ _) ((sparesAll_op fun _ _ => rfl).bind
      fun booted => ?_)
    exact sparesAll_ite sparesAll_wake (sparesAll_pure _)

theorem spares_publishCleanTerminal : Spares .worker publishCleanTerminal := by
  refine (spares_op fun _ _ => rfl).bind fun _ => (spares_op fun _ _ => rfl).bind fun _ => ?_
  refine (spares_op fun _ _ => rfl).bind fun published => spares_ite (spares_pure _) ?_
  exact (spares_op fun _ _ => rfl).bind fun _ => spares_pure _

theorem sparesAll_decideEnd (authority final : UInt64) :
    SparesAll .worker (decideEnd authority final) := by
  refine sparesAll_get_bind fun w => sparesAll_ite (sparesAll_giveUp _ _ _ _) ?_
  refine sparesAll_closePcmRing.bind fun closed => sparesAll_ite ?_ (sparesAll_pure _)
  refine sparesAll_finishOutput.bind fun finished => sparesAll_ite ?_ (sparesAll_pure _)
  refine (sparesAll_op fun _ _ => rfl).bind fun _ => ?_
  refine (sparesAll_lift spares_publishCleanTerminal).bind fun stopped => ?_
  exact sparesAll_ite (sparesAll_pure _) (sparesAll_pure _)

theorem sparesAll_roundRender (authority : UInt64) (progressed : Bool) :
    SparesAll .worker (roundRender authority progressed) := by
  have hidle : ∀ progressed, SparesAll .worker (idle authority progressed) := fun _ =>
    sparesAll_ite (sparesAll_pure _) (sparesAll_wait.bind fun _ => sparesAll_pure _)
  have hdrain : ∀ progressed, SparesAll .worker (roundDrain authority progressed) := by
    intro progressed
    refine sparesAll_drainOutput.bind fun drained => sparesAll_ite ?_ (sparesAll_pure _)
    refine (sparesAll_load _).bind fun done => sparesAll_ite ?_ (hidle _)
    refine (sparesAll_lift spares_finalHorizonRead).bind fun final => ?_
    refine (sparesAll_lift spares_transportEmpty).bind fun empty => sparesAll_ite ?_ (hidle _)
    exact (sparesAll_decideEnd _ _).bind fun _ => sparesAll_pure _
  refine sparesAll_get_bind fun w => sparesAll_ite ?_ (hdrain _)
  exact (sparesAll_renderUntil _).bind fun rendered => sparesAll_ite (hdrain _) (sparesAll_pure _)

theorem sparesAll_roundEvent (authority : UInt64) (progressed : Bool) :
    SparesAll .worker (roundEvent authority progressed) := by
  refine (sparesAll_lift spares_eventRingPeek).bind fun peeked => ?_
  split
  · refine sparesAll_ite ((sparesAll_applyEvent _).bind fun applied => ?_)
      (sparesAll_roundRender _ _)
    refine sparesAll_ite (sparesAll_pure _) ?_
    exact (sparesAll_renderFailure _).bind fun _ => sparesAll_pure _
  · exact sparesAll_roundRender _ _
  · exact sparesAll_giveUp _ _ _ _

theorem sparesAll_mainRound (authority : UInt64) : SparesAll .worker (mainRound authority) := by
  refine (sparesAll_load _).bind fun latched => sparesAll_ite (sparesAll_pure _) ?_
  refine sparesAll_get_bind fun w => (sparesAll_lift (spares_horizonTryObserve _)).bind
    fun observed => ?_
  split
  · refine (sparesAll_modify _).bind fun _ => sparesAll_wake.bind fun _ => ?_
    exact sparesAll_roundEvent _ _
  · exact sparesAll_roundEvent _ _
  · exact sparesAll_giveUp _ _ _ _

theorem sparesAll_quiesce : SparesAll .worker quiesce := by
  refine SparesAll.bind (sparesAll_iterating fun _ => (sparesAll_load _).bind fun attached => ?_)
    fun _ => ?_
  · exact sparesAll_ite (sparesAll_wait.bind fun _ => sparesAll_pure _) (sparesAll_pure _)
  · refine sparesAll_lift ((spares_op fun _ _ => rfl).bind fun _ => ?_)
    exact (spares_op fun _ _ => rfl).bind fun _ => spares_op fun _ _ => rfl

theorem sparesAll_workerRun : SparesAll .worker workerRun := by
  refine sparesAll_workerStart.bind fun _ => ?_
  refine (sparesAll_iterating fun authority => sparesAll_mainRound authority).bind fun exit => ?_
  cases exit with
  | stopped => exact sparesAll_pure _
  | barrier => exact sparesAll_quiesce
  | failed =>
      refine sparesAll_abortOutputBarrier.bind fun aborted => sparesAll_ite ?_ ?_
      · exact (sparesAll_op fun _ _ => rfl).bind fun _ => sparesAll_quiesce
      · refine sparesAll_lift ((spares_op fun _ _ => rfl).bind fun _ => ?_)
        exact (spares_op fun _ _ => rfl).bind fun _ => spares_op fun _ _ => rfl

/-- The threads beside the owner are watched from the start. -/
theorem watched_foreign (calls : Calls) (party : Party) (h : party ≠ .owner) :
    Watched (foreign party) (fun _ _ => True) ((started calls).threads party) {} := by
  cases party with
  | owner => exact absurd rfl h
  | worker => exact sparesAll_workerRun {} {}
  | control index => exact spares_controlRun (calls.control index) {}

end Run

end EspNp2.LiveService.ForeignThreads
