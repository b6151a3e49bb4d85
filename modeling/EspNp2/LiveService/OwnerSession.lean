import EspNp2.GuestAdapter.SinkBinding
import EspNp2.LiveService.Quiescence

/-!
What the owner has done in a run, and a monitor of it. The story is read off the steps of the
owner alone; the session adds what the owner may rely on because no other thread writes its
words. The monitor accepts a lost `first_fatal` only where a checkpoint may fail.
-/

namespace EspNp2.LiveService.OwnerSession

open EspNp2.GuestAdapter.AdapterOperations
open EspNp2.GuestAdapter.AdapterState
open EspNp2.GuestAdapter.SinkBinding (healthy)
open EspNp2.Library.Concurrent
open EspNp2.LiveService.LifecycleMonitor (LiveState.late)
open EspNp2.LiveService.LiveSystem
open EspNp2.LiveService.OwnerThread
open EspNp2.LiveService.ServiceMemory
open EspNp2.LiveService.Transport

section Story

/-- A checkpoint that goes on: the adapter it was called with, whether a run was open then, and
the state that it has read first. -/
structure CheckpointCall where
  adapter : Adapter
  held : Bool
  first : Option LiveState := none
deriving DecidableEq, Repr

/-- What the steps of the owner show: the answer to its first attach, its last event slot, the
bytes that it has pushed since its last event, and its events with the bytes pushed for each. -/
structure Story where
  attached : Option LiveResult := none
  slot : Event := ⟨0, 0, 0, 0⟩
  bytes : Nat := 0
  events : List (Event × Nat) := []
  call : Option CheckpointCall := none
deriving DecidableEq, Repr

def CheckpointCall.read (c : CheckpointCall) (state : LiveState) : CheckpointCall :=
  { c with first := c.first <|> some state }

def Story.tell (s : Story) : OpLabel → Story
  | ⟨.load .state, state⟩ => { s with call := s.call.map (CheckpointCall.read · state) }
  | ⟨.store (.eventSlot _) event, _⟩ => { s with slot := event }
  | ⟨.store .byteHead _, _⟩ => { s with bytes := s.bytes + 1 }
  | ⟨.store .eventHead _, _⟩ =>
      { s with events := s.events ++ [(s.slot, s.bytes)], bytes := 0 }
  | ⟨.note (.attachGuest result), _⟩ => { s with attached := s.attached <|> some result }
  | ⟨.note (.checkpointCalled adapter), _⟩ =>
      { s with call := some ⟨adapter, s.bytes ≠ 0, none⟩ }
  | ⟨.note (.ownerCheckpoint _), _⟩ => { s with call := none }
  | _ => s

/-- The story of the owner in a run. -/
def story (labels : List LiveLabel) : Story :=
  labels.foldl (fun s label => if label.1 = .owner then s.tell label.2 else s) {}

/-- The checkpoint does not come to its finalization with an open run: it finds the state
`running`, or the stop and no run. -/
def CheckpointCall.spared (c : CheckpointCall) : Bool :=
  c.first.any fun state => state = .running || state = .stopRequested && !c.held

end Story

section Session

/-- The words that the owner alone writes once its guest is attached. -/
def Owned (cell : Cell) : Bool :=
  cell ∈ [.eventHead, .ownerValid, .ownerFinalizing, .horizonFrame, .finalHorizonSequence,
    .finalHorizonLow, .finalHorizonHigh]

structure Session extends Story where
  /-- The memory as the owner has written it. -/
  view : Memory := startedMemory
  running : Bool := false
  /-- The owner's own `first_fatal` has won. -/
  lost : Bool := false
  stopSeen : Bool := false
  /-- The state has been read as `running` since the last event. -/
  ran : Bool := false
  /-- The event ring has a free slot. -/
  room : Bool := false
  /-- The mailbox of the horizon is empty. -/
  vacant : Bool := false
  /-- The state has been read as `running` in this checkpoint when no run was open. -/
  excused : Bool := false
  drained : Bool := false
  completed : Bool := false

variable {w w' : Session} {label : OpLabel}

/-- The owner's first attach was refused. -/
def Session.refused (w : Session) : Bool := w.attached.any (· ≠ .ok)

/-- Nothing more is asked of the owner. -/
def Session.gone (w : Session) : Bool := w.lost || w.completed || w.refused

def learn (w : Session) : (cell : Cell) → cell.Value → Session
  | .state, state => { w with
      ran := w.ran || state = .running
      excused := w.excused || (w.call.isSome && w.bytes = 0 && state = .running)
      stopSeen := w.stopSeen || LiveState.late state }
  | .stopIntent, intent => { w with stopSeen := w.stopSeen || intent }
  | .producerClosing, closing => { w with stopSeen := w.stopSeen || closing }
  | .eventTail, tail => { w with room := w.room || w.view .eventHead - tail < eventCapacity }
  | .horizonState, state => { w with vacant := w.vacant || state = .empty }
  | _, _ => w

def write (w : Session) (cell : Cell) (value : cell.Value) : Session :=
  let written := { w with view := Function.update w.view cell value }
  match cell with
  | .eventHead => { written with room := false, ran := false }
  | .horizonState => { written with vacant := false }
  | _ => written

def advance (w : Session) : OpLabel → Session
  | ⟨.load cell, value⟩ => learn w cell value
  | ⟨.store cell value, _⟩ => write w cell value
  | ⟨.compareExchange .state .startedUnattached .running, true⟩ => { w with running := true }
  | ⟨.compareExchange .state .stopRequested .draining, true⟩ => { w with drained := true }
  | ⟨.compareExchangeWeak .state _ .failing, true⟩ => { w with lost := true }
  | ⟨.note (.checkpointCalled _), _⟩ => { w with excused := false }
  | ⟨.note (.ownerCheckpoint _), _⟩ => { w with completed := w.completed || w.drained }
  | _ => w

def tell (w : Session) (label : OpLabel) : Session :=
  { advance w label with toStory := w.toStory.tell label }

/-- The final horizon is the last frame, and no event is later. -/
def Session.finalized (w : Session) : Bool :=
  w.drained && w.bytes = 0 && w.view .finalHorizonSequence = 2 &&
    w.view .finalHorizonLow = (w.view .horizonFrame).toUInt32 &&
    w.view .finalHorizonHigh = (w.view .horizonFrame >>> 32).toUInt32 &&
    w.events.all fun entry => entry.1.frameTimestamp ≤ w.view .horizonFrame

/-- The owner may fail outside a checkpoint, and in one that nothing is asked of. -/
def Session.excusable (w : Session) : Bool :=
  match w.call with
  | none => true
  | some c => w.excused || !healthy c.adapter || c.first.isSome && !c.spared

/-- A checkpoint of which something is asked has finalized the run. -/
def Session.answers (w : Session) (result : LiveResult) : Bool :=
  match w.call with
  | none => true
  | some c => w.excused || !healthy c.adapter || !c.spared || result = .ok && w.finalized

def accepts (w : Session) : OpLabel → Bool
  | ⟨.store .eventHead head, _⟩ =>
      w.room && w.ran && head = w.view .eventHead + 1 &&
        (w.bytes = 0 || w.slot.opcode = 3 && w.slot.payload.toNat = w.bytes)
  | ⟨.store .byteHead _, _⟩ => w.ran && w.call.isNone
  | ⟨.store .producerClosing _, _⟩ => w.stopSeen
  | ⟨.store .stopIntent _, _⟩ | ⟨.store .eventTail _, _⟩ => false
  | ⟨.compareExchange .state .stopRequested .draining, _⟩ => w.running
  | ⟨.compareExchangeWeak .state _ .failing, true⟩ => w.excusable
  | ⟨.note (.ownerCheckpoint result), _⟩ => w.answers result
  | _ => true

def observe (w : Session) (label : OpLabel) : Option Session :=
  if w.gone || accepts w label then some (tell w label) else none

def expectsLoad (w : Session) : (cell : Cell) → cell.Value → Prop
  | .state, state => w.running = true → w.drained = false →
      (state = .running ∨ state = .stopRequested) ∧ (w.stopSeen = true → state = .stopRequested)
  | .firstErrorLatched, latched => latched = false
  | .eventHead, head => w.running = true → head = w.view .eventHead
  | .ownerValid, valid => w.running = true → valid = w.view .ownerValid
  | .ownerFinalizing, finalizing => w.running = true → finalizing = w.view .ownerFinalizing
  | .finalHorizonSequence, sequence =>
      w.running = true → sequence = w.view .finalHorizonSequence
  | .eventTail, tail => w.room = true → w.view .eventHead - tail < eventCapacity
  | .horizonState, state => w.vacant = true → state = .empty
  | _, _ => True

/-- What the owner reads as long as something is asked of it. -/
def expects (w : Session) (label : OpLabel) : Prop :=
  w.gone = false → match label with
    | ⟨.load cell, value⟩ => expectsLoad w cell value
    | ⟨.compareExchange .state .stopRequested .draining, done⟩ =>
        w.running = true → w.stopSeen = true → w.drained = false → done = true
    | _ => True

def session : Monitor Session Op Result where
  expects := expects
  observe := observe

end Session

section Growth

/-- Within a call nothing is forgotten. -/
structure Follows (w w' : Session) : Prop where
  attached : w'.attached = w.attached
  completed : w'.completed = w.completed
  lost : w.lost = true → w'.lost = true
  running : w.running = true → w'.running = true
  stopSeen : w.stopSeen = true → w'.stopSeen = true
  drained : w.drained = true → w'.drained = true
  excused : w.excused = true → w'.excused = true
  outside : w.call = none → w'.call = none
  call : ∀ c, w.call = some c → ∃ c', w'.call = some c' ∧ c'.adapter = c.adapter ∧
    c'.held = c.held ∧ ∀ state, c.first = some state → c'.first = some state

/-- Only knowledge is gained. -/
structure Grows (w w' : Session) : Prop extends Follows w w' where
  slot : w'.slot = w.slot
  bytes : w'.bytes = w.bytes
  events : w'.events = w.events
  view : ∀ cell, Owned cell = true → w'.view cell = w.view cell
  isRunning : w'.running = w.running
  isLost : w'.lost = w.lost
  isDrained : w'.drained = w.drained
  ran : w.ran = true → w'.ran = true
  room : w.room = true → w'.room = true
  vacant : w.vacant = true → w'.vacant = true

variable {w w' w'' : Session} {label : OpLabel}

theorem Follows.refl (w : Session) : Follows w w :=
  ⟨rfl, rfl, id, id, id, id, id, id, fun c h => ⟨c, h, rfl, rfl, fun _ => id⟩⟩

theorem Follows.trans (h : Follows w w') (h' : Follows w' w'') : Follows w w'' where
  attached := h'.attached.trans h.attached
  completed := h'.completed.trans h.completed
  lost hlost := h'.lost (h.lost hlost)
  running hrunning := h'.running (h.running hrunning)
  stopSeen hseen := h'.stopSeen (h.stopSeen hseen)
  drained hdrained := h'.drained (h.drained hdrained)
  excused hexcused := h'.excused (h.excused hexcused)
  outside hnone := h'.outside (h.outside hnone)
  call c hc := by
    obtain ⟨c', hc', hadapter, hheld, hfirst⟩ := h.call c hc
    obtain ⟨c'', hc'', hadapter', hheld', hfirst'⟩ := h'.call c' hc'
    exact ⟨c'', hc'', hadapter'.trans hadapter, hheld'.trans hheld,
      fun state hstate => hfirst' state (hfirst state hstate)⟩

theorem Grows.refl (w : Session) : Grows w w :=
  ⟨.refl w, rfl, rfl, rfl, fun _ _ => rfl, rfl, rfl, rfl, id, id, id⟩

theorem Grows.trans (h : Grows w w') (h' : Grows w' w'') : Grows w w'' where
  toFollows := h.toFollows.trans h'.toFollows
  slot := h'.slot.trans h.slot
  bytes := h'.bytes.trans h.bytes
  events := h'.events.trans h.events
  view cell hcell := (h'.view cell hcell).trans (h.view cell hcell)
  isRunning := h'.isRunning.trans h.isRunning
  isLost := h'.isLost.trans h.isLost
  isDrained := h'.isDrained.trans h.isDrained
  ran hran := h'.ran (h.ran hran)
  room hroom := h'.room (h.room hroom)
  vacant hvacant := h'.vacant (h.vacant hvacant)

theorem Follows.gone (h : Follows w w') (hgone : w.gone = true) : w'.gone = true := by
  simp only [Session.gone, Session.refused, Bool.or_eq_true] at hgone ⊢
  rw [h.attached, h.completed]
  exact hgone.imp (Or.imp h.lost id) id

theorem Grows.gone_eq (h : Grows w w') : w'.gone = w.gone := by
  simp only [Session.gone, Session.refused, h.attached, h.completed, h.isLost]

theorem Follows.isSome (h : Follows w w') (hcall : w.call.isSome = true) :
    w'.call.isSome = true := by
  obtain ⟨c, hc⟩ := Option.isSome_iff_exists.mp hcall
  obtain ⟨c', hc', -⟩ := h.call c hc
  rw [hc']
  rfl

theorem Follows.excusable (h : Follows w w') (hw : w.excusable = true) : w'.excusable = true := by
  cases hcall : w.call with
  | none => rw [Session.excusable, h.outside hcall]
  | some c =>
      obtain ⟨c', hc', hadapter, hheld, hfirst⟩ := h.call c hcall
      rw [Session.excusable, hcall] at hw
      rw [Session.excusable, hc']
      simp only [Bool.or_eq_true, Bool.and_eq_true, hadapter] at hw ⊢
      rcases hw with (hexcused | hhealthy) | ⟨hsome, hspared⟩
      · exact .inl (.inl (h.excused hexcused))
      · exact .inl (.inr hhealthy)
      · obtain ⟨state, hstate⟩ := Option.isSome_iff_exists.mp hsome
        have hstate' := hfirst state hstate
        refine .inr ⟨by rw [hstate']; rfl, ?_⟩
        rw [CheckpointCall.spared, hstate', hheld]
        rwa [CheckpointCall.spared, hstate] at hspared

theorem excusable_outside (h : w.call = none) : w.excusable = true := by
  rw [Session.excusable, h]

theorem follows_read (w : Session) (state : LiveState) {w' : Session}
    (hcall : w'.call = w.call.map (CheckpointCall.read · state)) :
    (w.call = none → w'.call = none) ∧ ∀ c, w.call = some c → ∃ c', w'.call = some c' ∧
      c'.adapter = c.adapter ∧ c'.held = c.held ∧
        ∀ state, c.first = some state → c'.first = some state := by
  refine ⟨fun hnone => by rw [hcall, hnone]; rfl, fun c hc => ?_⟩
  refine ⟨c.read state, by rw [hcall, hc]; rfl, rfl, rfl, fun first hfirst => ?_⟩
  rw [CheckpointCall.read, hfirst]
  rfl

/-- A load only brings knowledge. -/
theorem grows_load (w : Session) (cell : Cell) (value : cell.Value) :
    Grows w (tell w ⟨.load cell, value⟩) := by
  have hkeeps : ∀ {b c : Bool}, b = true → (b || c) = true := by
    rintro b c rfl
    rfl
  cases cell with
  | state =>
      obtain ⟨hnone, hsome⟩ := @follows_read w value (tell w ⟨.load .state, value⟩) rfl
      exact ⟨⟨rfl, rfl, id, id, hkeeps, id, hkeeps, hnone, hsome⟩, rfl, rfl, rfl, fun _ _ => rfl,
        rfl, rfl, rfl, hkeeps, id, id⟩
  | stopIntent | producerClosing =>
      exact ⟨⟨rfl, rfl, id, id, hkeeps, id, id, id, fun c h => ⟨c, h, rfl, rfl, fun _ => id⟩⟩,
        rfl, rfl, rfl, fun _ _ => rfl, rfl, rfl, rfl, id, id, id⟩
  | eventTail =>
      exact ⟨⟨rfl, rfl, id, id, id, id, id, id, fun c h => ⟨c, h, rfl, rfl, fun _ => id⟩⟩,
        rfl, rfl, rfl, fun _ _ => rfl, rfl, rfl, rfl, id, hkeeps, id⟩
  | horizonState =>
      exact ⟨⟨rfl, rfl, id, id, id, id, id, id, fun c h => ⟨c, h, rfl, rfl, fun _ => id⟩⟩,
        rfl, rfl, rfl, fun _ _ => rfl, rfl, rfl, rfl, id, id, hkeeps⟩
  | _ => exact .refl w

/-- An operation that the session does not look at. -/
def Plain : Op → Bool
  | .compareExchange cell _ _ => cell ∈ [.transactionGate, .firstErrorLatched, .firstError]
  | .exchange .. | .wait | .wake | .hook _ => true
  | .note (.firstFatal _) | .note (.reportProducerFailure _) => true
  | _ => false

theorem tell_plain {request : Op} (h : Plain request = true) (w : Session)
    (reply : Result request) : tell w ⟨request, reply⟩ = w ∧ accepts w ⟨request, reply⟩ = true := by
  cases request with
  | compareExchange cell expected desired =>
      cases cell <;> first | exact ⟨rfl, rfl⟩ | cases h
  | exchange | wait | wake | hook => exact ⟨rfl, rfl⟩
  | note mark => cases mark <;> first | exact ⟨rfl, rfl⟩ | cases h
  | _ => cases h

/-- A word that nothing is known about. -/
def Idle (cell : Cell) : Bool :=
  cell ∈ [.transactionGate, .guestAttached, .producerDone, .failureCategory, .failureOrigin,
    .failureSubcode, .firstErrorSequence, .stop]

theorem grows_store (cell : Cell) (h : Idle cell = true) (w : Session) (value : cell.Value) :
    Grows w (tell w ⟨.store cell value, ()⟩) ∧ accepts w ⟨.store cell value, ()⟩ = true := by
  have hview : ∀ other, Owned other = true → Function.update w.view cell value other =
    w.view other := by
    rintro other hother
    refine Function.update_of_ne ?_ _ _
    rintro rfl
    revert h hother
    cases other <;> simp [Owned, Idle]
  have hgrows : ∀ w', w' = { w with view := Function.update w.view cell value } → Grows w w' := by
    rintro w' rfl
    exact ⟨⟨rfl, rfl, id, id, id, id, id, id, fun c h => ⟨c, h, rfl, rfl, fun _ => id⟩⟩,
      rfl, rfl, rfl, hview, rfl, rfl, rfl, id, id, id⟩
  cases cell <;> first | exact ⟨hgrows _ rfl, rfl⟩ | cases h

end Growth

section Steps

variable {α β σ : Type} {w w' : Session} {post : Session → α → Prop}

theorem follows_store (w : Session) (cell : Cell) (value : cell.Value) :
    Follows w (tell w ⟨.store cell value, ()⟩) := by
  cases cell <;>
    exact ⟨rfl, rfl, id, id, id, id, id, id, fun c h => ⟨c, h, rfl, rfl, fun _ => id⟩⟩

/-- A load does not change what has been written. -/
theorem learn_fields (w : Session) (cell : Cell) (value : cell.Value) :
    (learn w cell value).running = w.running ∧ (learn w cell value).drained = w.drained ∧
      (learn w cell value).lost = w.lost ∧ (learn w cell value).completed = w.completed ∧
      (learn w cell value).view = w.view := by
  unfold learn
  split <;> exact ⟨rfl, rfl, rfl, rfl, rfl⟩

theorem write_fields (w : Session) (cell : Cell) (value : cell.Value) :
    (write w cell value).running = w.running ∧ (write w cell value).drained = w.drained ∧
      (write w cell value).lost = w.lost ∧ (write w cell value).completed = w.completed ∧
      (write w cell value).view = Function.update w.view cell value ∧
      (write w cell value).stopSeen = w.stopSeen ∧ (write w cell value).excused = w.excused := by
  unfold write
  dsimp only
  split <;> exact ⟨rfl, rfl, rfl, rfl, rfl, rfl, rfl⟩

/-- What has happened stays so. -/
theorem tell_keeps (w : Session) (label : OpLabel) :
    (w.running = true → (tell w label).running = true) ∧
      (w.drained = true → (tell w label).drained = true) ∧
      (w.lost = true → (tell w label).lost = true) ∧
        (w.completed = true → (tell w label).completed = true) := by
  change (w.running = true → (advance w label).running = true) ∧
    (w.drained = true → (advance w label).drained = true) ∧
    (w.lost = true → (advance w label).lost = true) ∧
      (w.completed = true → (advance w label).completed = true)
  unfold advance
  split
  · obtain ⟨hrunning, hdrained, hlost, hcompleted, -⟩ := learn_fields w ‹Cell› ‹_›
    rw [hrunning, hdrained, hlost, hcompleted]
    exact ⟨id, id, id, id⟩
  · obtain ⟨hrunning, hdrained, hlost, hcompleted, -⟩ := write_fields w ‹Cell› ‹_›
    rw [hrunning, hdrained, hlost, hcompleted]
    exact ⟨id, id, id, id⟩
  all_goals simp +contextual

/-- The answer to the first attach stays. -/
theorem attached_tell {s : Story} {result : LiveResult} (h : s.attached = some result)
    (label : OpLabel) : (s.tell label).attached = some result := by
  unfold Story.tell
  split <;> first | exact h | (rw [h]; rfl)

theorem refused_tell (h : w.refused = true) (label : OpLabel) : (tell w label).refused = true := by
  obtain ⟨result, hresult, hne⟩ := Option.any_eq_true _ _ |>.mp h
  have hsame : (tell w label).attached = some result := attached_tell hresult label
  rw [Session.refused, hsame]
  exact hne

theorem gone_tell (h : w.gone = true) (label : OpLabel) : (tell w label).gone = true := by
  obtain ⟨-, -, hlost, hcompleted⟩ := tell_keeps w label
  simp only [Session.gone, Bool.or_eq_true] at h ⊢
  exact h.imp (Or.imp hlost hcompleted) (refused_tell · label)

/-- Nothing is asked of an owner whose session is over. -/
theorem watched_gone (program : Code α) (h : w.gone = true) :
    Watched session (fun w' _ => w'.gone = true) program w := by
  refine ⟨fun _ w => w.gone = true, ?_, h⟩
  intro program w h
  cases program with
  | done value => exact h
  | op request next => exact fun reply _ => ⟨_, if_pos (by simp [h]), gone_tell h _⟩
  | loop body start next => exact h

theorem watched_tell {request : Op} {next : Result request → Code α}
    (h : ∀ reply, expects w ⟨request, reply⟩ → accepts w ⟨request, reply⟩ = true ∧
      Watched session post (next reply) (tell w ⟨request, reply⟩)) :
    Watched session post (.op request next) w := by
  refine watched_op_iff.mpr fun reply hexpects => ?_
  obtain ⟨haccepts, hnext⟩ := h reply hexpects
  exact ⟨_, if_pos (by simp [haccepts]), hnext⟩

theorem watched_plain {request : Op} {next : Result request → Code α} (h : Plain request = true)
    (hnext : ∀ reply, Watched session post (next reply) w) :
    Watched session post (.op request next) w := by
  refine watched_tell fun reply hexpects => ?_
  obtain ⟨htell, haccepts⟩ := tell_plain h w reply
  rw [htell]
  exact ⟨haccepts, hnext reply⟩

theorem watched_load {cell : Cell} {next : cell.Value → Code α} (hopen : w.gone = false)
    (hnext : ∀ value, expectsLoad w cell value →
      Watched session post (next value) (tell w ⟨.load cell, value⟩)) :
    Watched session post (.op (.load cell) next) w :=
  watched_tell fun reply hexpects => ⟨rfl, hnext reply (hexpects hopen)⟩

theorem watched_store {cell : Cell} {value : cell.Value} {next : Unit → Code α}
    (haccepts : accepts w ⟨.store cell value, ()⟩ = true)
    (hnext : Watched session post (next ()) (tell w ⟨.store cell value, ()⟩)) :
    Watched session post (.op (.store cell value) next) w :=
  watched_tell fun _ _ => ⟨haccepts, hnext⟩

/-- A program of the thread among those that work on its fields. -/
theorem watched_lift {L : Type} {program : Code α} {rest : α → StateT L Code β} {fields : L}
    {post : Session → β × L → Prop}
    (h : Watched session (fun w' value => Watched session post (rest value fields) w') program w) :
    Watched session post ((liftM program >>= rest) fields) w :=
  Watched.bind (Watched.bind (h.mono fun _ _ hnext => watched_done_iff.mpr hnext))

theorem watched_lift_plain {L : Type} {request : Op} (h : Plain request = true)
    {rest : Result request → StateT L Code β} {fields : L} {post : Session → β × L → Prop}
    (hrest : ∀ reply, Watched session post (rest reply fields) w) :
    Watched session post ((liftM (operate request) >>= rest) fields) w :=
  watched_lift (watched_plain h fun reply => watched_done_iff.mpr (hrest reply))

theorem watched_modify {L : Type} {change : L → L} {rest : PUnit → StateT L Code β} {fields : L}
    {post : Session → β × L → Prop} (h : Watched session post (rest ⟨⟩ (change fields)) w) :
    Watched session post ((modify change >>= rest) fields) w :=
  h

theorem watched_get {L : Type} {rest : L → StateT L Code β} {fields : L}
    {post : Session → β × L → Prop} (h : Watched session post (rest fields fields) w) :
    Watched session post ((get >>= rest) fields) w :=
  h

/-- A loop over the fields of the owner keeps an invariant. -/
theorem watched_iterating {L : Type} {body : σ → StateT L Code (σ ⊕ β)} {start : σ} {fields : L}
    {post : Session → β × L → Prop} (J : Session → σ → L → Prop) (hstart : J w start fields)
    (hbody : ∀ w value fields, J w value fields → Watched session
      (fun w' result => Sum.elim (fun again => J w' again result.2)
        (fun value => post w' (value, result.2)) result.1) (body value fields) w) :
    Watched session post (iterating body start fields) w := by
  refine watched_iterate (fun w round => J w round.1 round.2) hstart ?_
  rintro w ⟨value, fields⟩ hJ
  refine Watched.bind ((hbody w value fields hJ).mono ?_)
  rintro w' ⟨result, fields'⟩ hresult
  cases result with
  | inl again => exact watched_done_iff.mpr hresult
  | inr value => exact watched_done_iff.mpr hresult

end Steps

end EspNp2.LiveService.OwnerSession
