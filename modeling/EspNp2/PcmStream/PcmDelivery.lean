import EspNp2.Library.WorldContract
import EspNp2.PcmStream.Quanta
import EspNp2.PcmStream.RingSlots

/-!
From the renderer through the ring of slots to the sink: every frame that the ring has taken
reaches the sink once, in order, whatever the sink answers.
-/

namespace EspNp2.PcmStream.PcmDelivery

open EspNp2.Library.CallProgram
open EspNp2.Library.LabelledRun
open EspNp2.Library.WorldContract
open EspNp2.LiveService.ServiceMemory
open EspNp2.LiveService.PcmOutput (RingStatus PcmRing OutputState OutputStatus OutputController
  quantumFrames bytesPerFrame)
open Quanta
open RingSlots

section Controller

/-- A call of the sink that the controller was given. -/
inductive SinkCall where
  | start
  | submit (view : SinkView)
  | finish
  | abort
deriving DecidableEq, Repr

/-- The sink may return a number that is none of its results. -/
abbrev SinkReply (_ : SinkCall) : Type := Option SinkResult

structure Stream where
  ring : SlotRing := {}
  output : OutputController := {}

abbrev StreamCode := StateT Stream (Program SinkCall SinkReply)

def sinkCall (call : SinkCall) : StreamCode (Option SinkResult) :=
  liftM (perform call : Program SinkCall SinkReply (Option SinkResult))

def setState (state : OutputState) : StreamCode Unit :=
  modify fun stream => { stream with output := { stream.output with state := state } }

/-- `translate_result`, and the state that an accepted call leads to. -/
def translateResult (accepted : OutputState) (result : Option SinkResult) :
    StreamCode OutputStatus :=
  match result with
  | none => do
      setState .failed
      return .fatal
  | some .retry => return .retry
  | some .fatal => do
      setState .failed
      return .fatal
  | some .accepted => do
      setState accepted
      return .ok

def outputStart : StreamCode OutputStatus := do
  if (← get).output.state ≠ .initial then return .stateError
  else translateResult .started (← sinkCall .start)

def slotValid (output : OutputController) (slot : Slot) : Bool :=
  let full : Bool := slot.validFrames = quantumFrames
  let part : Bool := slot.validFrames > 0 && !full
  if !full && !part || slot.validFrames > quantumFrames ||
      slot.sequence ≠ output.expectedSequence || slot.frameOffset ≠ output.expectedFrameOffset then
    false
  else if full then slot.flags = 0
  else slot.flags = flagFinalPartial

/-- The end of `np2_pcm_output_step`, when the sink has accepted a slot. -/
def acceptSlot (validFrames : ℕ) : StreamCode OutputStatus := do
  let stream ← get
  let frames := UInt64.ofNat validFrames
  let bytes := UInt64.ofNat (validFrames * bytesPerFrame)
  if stream.output.acceptedFrames > (-1 : UInt64) - frames ∨
      stream.output.acceptedBytes > (-1 : UInt64) - bytes then
    setState .failed
    return .fatal
  else if stream.ring.consume.1 ≠ .ok then
    setState .failed
    return .ringError
  else
    modify fun stream => {
      ring := stream.ring.consume.2
      output := { stream.output with
        expectedFrameOffset := stream.output.expectedFrameOffset + frames
        acceptedFrames := stream.output.acceptedFrames + frames
        acceptedBytes := stream.output.acceptedBytes + bytes
        expectedSequence := stream.output.expectedSequence + 1 } }
    return .consumed

def submitSlot (slot : Slot) : StreamCode OutputStatus := do
  match ← sinkCall (.submit slot.view) with
  | some .accepted => acceptSlot slot.validFrames
  | some .retry => return .retry
  | _ =>
      setState .failed
      return .fatal

def outputStep : StreamCode OutputStatus := do
  let stream ← get
  if stream.output.state ≠ .started then return .stateError
  else
    match stream.ring.tryPeek with
    | (.empty, _) => return .empty
    | (.ok, some slot) =>
        if slotValid stream.output slot = false then return .slotError else submitSlot slot
    | _ => return .ringError

def outputFinish : StreamCode OutputStatus := do
  let stream ← get
  if stream.output.state ≠ .started then return .stateError
  else if stream.ring.occupancy ≠ 0 then return .stateError
  else translateResult .finished (← sinkCall .finish)

def outputAbort : StreamCode OutputStatus := do
  let stream ← get
  if stream.output.state ≠ .started ∧ stream.output.state ≠ .failed then return .stateError
  else translateResult .aborted (← sinkCall .abort)

end Controller

section Calls

/-- Frames in memory. -/
structure Pcm where
  bytes : List UInt8
  frameCount : ℕ
  enough : frameCount * bytesPerFrame ≤ bytes.length
  fits : bytes.length ≤ sizeMax

/-- The calls of the renderer and of the worker. -/
inductive StreamCall where
  | append (pcm : Pcm) (frameOffset : UInt64)
  | finishRing (finalFrame : UInt64)
  | start
  | step
  | finish
  | abort

inductive Outcome where
  | appended (status : RingStatus) (consumed : ℕ)
  | ring (status : RingStatus)
  | output (status : OutputStatus)
deriving DecidableEq, Repr

def StreamCall.code : StreamCall → StreamCode Outcome
  | .append pcm frameOffset =>
      modifyGet fun stream =>
        let (status, consumed, ring) := stream.ring.append pcm.bytes pcm.frameCount frameOffset
        (.appended status consumed, { stream with ring := ring })
  | .finishRing finalFrame =>
      modifyGet fun stream =>
        let (status, ring) := stream.ring.finish finalFrame
        (.ring status, { stream with ring := ring })
  | .start => do return .output (← outputStart)
  | .step => do return .output (← outputStep)
  | .finish => do return .output (← outputFinish)
  | .abort => do return .output (← outputAbort)

def performAll : List StreamCall → StreamCode (List Outcome)
  | [] => return []
  | call :: calls => do
      let outcome ← call.code
      let outcomes ← performAll calls
      return outcome :: outcomes

/-- The bytes that a call has put into the ring, by what it has answered. -/
def takenBytes : StreamCall → Outcome → List UInt8
  | .append pcm _, .appended _ consumed => pcm.bytes.take (consumed * bytesPerFrame)
  | _, _ => []

def streamBytes (calls : List StreamCall) (outcomes : List Outcome) : List UInt8 :=
  (List.zipWith takenBytes calls outcomes).flatten

end Calls

section Sink

/-- What a sink may be called for next. -/
inductive SinkPhase where
  | closed
  | started
  | retrying (view : SinkView)
  | failed
  | ended
deriving DecidableEq, Repr

def reached (reply : Option SinkResult) (accepted retried : SinkPhase) : SinkPhase :=
  match reply with
  | some .accepted => accepted
  | some .retry => retried
  | _ => .failed

theorem reached_failed {reply : Option SinkResult} {accepted retried : SinkPhase}
    (haccepted : reply ≠ some .accepted) (hretry : reply ≠ some .retry) :
    reached reply accepted retried = .failed := by
  unfold reached
  split
  · exact absurd rfl haccepted
  · exact absurd rfl hretry
  · rfl

/-- The phase that a reply leads to, when the call is in order. A view that is to be retried is
the only one that may be submitted; a sink that has failed may only be aborted. -/
def SinkPhase.next (phase : SinkPhase) (call : SinkCall) (reply : Option SinkResult) :
    Option SinkPhase :=
  match phase, call with
  | .closed, .start => some (reached reply .started .closed)
  | .started, .submit view => some (reached reply .started (.retrying view))
  | .retrying retried, .submit view =>
      if view = retried then some (reached reply .started (.retrying view)) else none
  | .started, .finish => some (reached reply .ended .started)
  | .started, .abort => some (reached reply .ended .started)
  | .retrying view, .abort => some (reached reply .ended (.retrying view))
  | .failed, .abort => some (reached reply .ended .failed)
  | _, _ => none

/-- What a sink has seen: `phase` is lost at the first call that is out of order. -/
structure SinkHistory where
  phase : Option SinkPhase := some .closed
  accepted : List SinkView := []
deriving DecidableEq, Repr

def SinkHistory.note (w : SinkHistory) (call : SinkCall) (reply : Option SinkResult) :
    SinkHistory where
  phase := w.phase.bind fun phase => phase.next call reply
  accepted :=
    match call, reply with
    | .submit view, some .accepted => w.accepted ++ [view]
    | _, _ => w.accepted

/-- The sink answers as it likes. -/
def answers (w : SinkHistory) (call : SinkCall) (reply : SinkReply call) (w' : SinkHistory) :
    Prop :=
  w' = w.note call reply

def SinkHistory.InOrder (w : SinkHistory) : Prop := w.phase.isSome = true

end Sink

section Invariant

/-- The state of the controller against what the sink has seen. -/
def Agrees (w : SinkHistory) (output : OutputController) (sent slots : List SinkView) : Prop :=
  match output.state with
  | .initial => w.phase = some .closed ∧ w.accepted = sent ∧ sent = [] ∧
      output.expectedSequence = 0 ∧ output.expectedFrameOffset = 0
  | .started => w.accepted = sent ∧ output.expectedSequence = UInt32.ofNat sent.length ∧
      output.expectedFrameOffset = UInt64.ofNat ((sent.map SinkView.validFrames).sum) ∧
      (w.phase = some .started ∨
        ∃ view, w.phase = some (.retrying view) ∧ slots.head? = some view)
  | .failed => w.phase = some .started ∨ (∃ view, w.phase = some (.retrying view)) ∨
      w.phase = some .failed
  | _ => w.phase = some .ended

structure Inv (bytes : List UInt8) (w : SinkHistory) (s : Stream) (queue : PcmRing)
    (sent : List SinkView) : Prop where
  shows : Shows s.ring queue
  tiled : Tiled bytes sent queue
  accepted : w.accepted <+: sent ++ queue.slots
  agrees : Agrees w s.output sent queue.slots

/-- The stream stands between two calls, when the ring has taken some bytes. -/
def Held (bytes : List UInt8) (w : SinkHistory) (s : Stream) : Prop :=
  ∃ queue sent, Inv bytes w s queue sent

theorem held_nil : Held [] {} {} :=
  ⟨{}, [], shows_nil, tiled_nil, List.prefix_refl _, rfl, rfl, rfl, rfl, rfl⟩

variable {bytes : List UInt8} {w w' : SinkHistory} {s s' : Stream} {queue queue' : PcmRing}
  {sent slots slots' : List SinkView} {output : OutputController}

theorem Agrees.inOrder (h : Agrees w output sent slots) : w.InOrder := by
  rw [SinkHistory.InOrder]
  unfold Agrees at h
  split at h
  · rw [h.1]
    rfl
  · obtain ⟨_, _, _, hphase | ⟨view, hphase, _⟩⟩ := h <;> rw [hphase] <;> rfl
  · obtain hphase | ⟨view, hphase⟩ | hphase := h <;> rw [hphase] <;> rfl
  · rw [h]
    rfl

theorem Held.inOrder (h : Held bytes w s) : w.InOrder := by
  obtain ⟨queue, sent, hinv⟩ := h
  exact hinv.agrees.inOrder

/-- The view that may be submitted again stays the first of the queue. -/
theorem Agrees.extend (h : Agrees w output sent slots) (hslots : slots <+: slots') :
    Agrees w output sent slots' := by
  cases hstate : output.state with
  | started =>
    simp only [Agrees, hstate] at h ⊢
    obtain ⟨haccepted, hsequence, hoffset, hphase⟩ := h
    refine ⟨haccepted, hsequence, hoffset, hphase.imp_right ?_⟩
    rintro ⟨view, hphase, hview⟩
    obtain ⟨more, rfl⟩ := hslots
    refine ⟨view, hphase, ?_⟩
    rw [List.head?_append, hview]
    rfl
  | _ => simpa only [Agrees, hstate] using h

theorem Inv.grow {ring : SlotRing} {bytes' : List UInt8} (h : Inv bytes w s queue sent)
    (hshows : Shows ring queue') (htiled : Tiled bytes' sent queue')
    (hslots : queue.slots <+: queue'.slots) :
    Inv bytes' w { s with ring := ring } queue' sent where
  shows := hshows
  tiled := htiled
  accepted := h.accepted.trans ((List.prefix_append_right_inj sent).mpr hslots)
  agrees := h.agrees.extend hslots

/-- A reply that changes neither the ring nor what the sink has accepted. -/
theorem Inv.react (h : Inv bytes w s queue sent) (haccepted : w'.accepted = w.accepted)
    (hring : s'.ring = s.ring) (hagrees : Agrees w' s'.output sent queue.slots) :
    Held bytes w' s' := by
  refine ⟨queue, sent, ?_, h.tiled, ?_, hagrees⟩
  · rw [hring]
    exact h.shows
  · rw [haccepted]
    exact h.accepted

end Invariant

section Operations

/-- What a call may answer. -/
def Expected : StreamCall → Outcome → Prop
  | .append pcm _, .appended status consumed => status ≠ .invariant ∧ consumed ≤ pcm.frameCount
  | .finishRing _, .ring status => status ≠ .invariant
  | .start, .output status | .step, .output status | .finish, .output status
  | .abort, .output status => status ≠ .slotError ∧ status ≠ .ringError
  | _, _ => False

abbrev Keeps {α : Type} (pre : SinkHistory → Stream → Prop) (code : StreamCode α)
    (post : SinkHistory → α → Stream → Prop) : Prop :=
  Meets answers SinkHistory.InOrder pre code post

/-- After an output call. -/
def Answered (bytes : List UInt8) (w : SinkHistory) (status : OutputStatus) (s : Stream) : Prop :=
  (status ≠ .slotError ∧ status ≠ .ringError) ∧ Held bytes w s

variable {bytes : List UInt8}

theorem append_keeps (pcm : Pcm) (frameOffset : UInt64) :
    Keeps (Held bytes) (StreamCall.append pcm frameOffset).code fun w outcome s =>
      Expected (.append pcm frameOffset) outcome ∧
        Held (bytes ++ takenBytes (.append pcm frameOffset) outcome) w s := by
  rintro trace w s horder ⟨queue, sent, h⟩
  refine safe_done horder ?_
  obtain ⟨hstatus, hconsumed, hshows⟩ :=
    h.shows.append frameOffset pcm.enough pcm.fits
  have hframes : pcm.frameCount < 2 ^ 64 := by
    have henough := pcm.enough
    have hfits := pcm.fits
    rw [bytesPerFrame] at henough
    rw [sizeMax] at hfits
    omega
  obtain ⟨hinvariant, hcount, hslots, htiled⟩ :=
    h.tiled.append frameOffset pcm.enough hframes
  rw [← hstatus] at hinvariant
  rw [← hconsumed] at hcount htiled
  exact ⟨⟨hinvariant, hcount⟩, _, _, h.grow hshows htiled hslots⟩

theorem finishRing_keeps (finalFrame : UInt64) :
    Keeps (Held bytes) (StreamCall.finishRing finalFrame).code fun w outcome s =>
      Expected (.finishRing finalFrame) outcome ∧ Held bytes w s := by
  rintro trace w s horder ⟨queue, sent, h⟩
  refine safe_done horder ?_
  obtain ⟨hstatus, hshows⟩ := h.shows.finish finalFrame
  obtain ⟨hinvariant, hslots, htiled⟩ := h.tiled.finish finalFrame
  rw [← hstatus] at hinvariant
  exact ⟨hinvariant, _, _, h.grow hshows htiled hslots⟩

/-- The reply of the sink, and the state that it leads to. -/
theorem translateResult_keeps {pre : SinkHistory → Stream → Prop}
    {post : SinkHistory → OutputStatus → Stream → Prop} {accepted : OutputState}
    (result : Option SinkResult)
    (haccepted : result = some .accepted → ∀ w s, pre w s →
      post w .ok { s with output := { s.output with state := accepted } })
    (hretry : result = some .retry → ∀ w s, pre w s → post w .retry s)
    (hfatal : result ≠ some .accepted → result ≠ some .retry → ∀ w s, pre w s →
      post w .fatal { s with output := { s.output with state := .failed } }) :
    Keeps pre (translateResult accepted result) post := by
  intro trace w s horder hpre
  match result with
  | none => exact safe_done horder (hfatal nofun nofun w s hpre)
  | some .fatal => exact safe_done horder (hfatal nofun nofun w s hpre)
  | some .retry => exact safe_done horder (hretry rfl w s hpre)
  | some .accepted => exact safe_done horder (haccepted rfl w s hpre)

/-- The sink has answered a call that it was made in order. -/
def Asked (bytes : List UInt8) (only : Stream → Prop) (call : SinkCall) (w : SinkHistory)
    (reply : Option SinkResult) (s : Stream) : Prop :=
  ∃ w₀ queue sent, Inv bytes w₀ s queue sent ∧ only s ∧ w = w₀.note call reply

variable {w : SinkHistory} {phase : SinkPhase} {call : SinkCall} {reply : Option SinkResult}

theorem note_phase (h : w.phase = some phase) :
    (w.note call reply).phase = phase.next call reply := by
  change (w.phase.bind fun phase => phase.next call reply) = _
  rw [h]
  rfl

theorem sinkCall_keeps {pre : SinkHistory → Stream → Prop} (bytes : List UInt8)
    (only : Stream → Prop)
    (hpre : ∀ w s, pre w s → Held bytes w s ∧ only s)
    (horder : ∀ w s queue sent reply, Inv bytes w s queue sent → only s →
      (w.note call reply).InOrder) :
    Keeps pre (sinkCall call) (Asked bytes only call) := by
  refine meets_perform fun w s reply w' _ h hw' => ?_
  obtain ⟨⟨queue, sent, hinv⟩, honly⟩ := hpre w s h
  subst hw'
  exact ⟨horder w s queue sent reply hinv honly, w, queue, sent, hinv, honly, rfl⟩

theorem outputStart_keeps : Keeps (Held bytes) outputStart (Answered bytes) := by
  refine meets_get_bind fun current => meets_ite (fun hstate => ?_) fun hstate => ?_
  · exact meets_pure fun w s h => ⟨⟨nofun, nofun⟩, h.1⟩
  have hinitial : ∀ w s queue sent, Inv bytes w s queue sent → s.output.state = .initial →
      w.phase = some .closed ∧ w.accepted = sent ∧ sent = [] ∧
        s.output.expectedSequence = 0 ∧ s.output.expectedFrameOffset = 0 := by
    intro w s queue sent h hstate
    simpa only [Agrees, hstate] using h.agrees
  refine Meets.bind (sinkCall_keeps bytes (fun s => s.output.state = .initial) ?_ ?_) fun reply =>
    translateResult_keeps reply ?_ ?_ ?_
  · rintro w s ⟨h, rfl⟩
    exact ⟨h, not_not.mp hstate⟩
  · intro w s queue sent reply h hstate
    rw [SinkHistory.InOrder, note_phase (hinitial w s queue sent h hstate).1]
    rfl
  · rintro rfl w s ⟨w₀, queue, sent, h, hstate, rfl⟩
    obtain ⟨hphase, haccepted, rfl, hsequence, hoffset⟩ := hinitial w₀ s queue sent h hstate
    refine ⟨⟨nofun, nofun⟩, h.react rfl rfl ⟨haccepted, hsequence, hoffset, .inl ?_⟩⟩
    rw [note_phase hphase]
    rfl
  · rintro rfl w s ⟨w₀, queue, sent, h, hstate, rfl⟩
    obtain ⟨hphase, hrest⟩ := hinitial w₀ s queue sent h hstate
    refine ⟨⟨nofun, nofun⟩, h.react rfl rfl ?_⟩
    simp only [Agrees, hstate]
    refine ⟨?_, hrest⟩
    rw [note_phase hphase]
    rfl
  · rintro haccepted hretry w s ⟨w₀, queue, sent, h, hstate, rfl⟩
    obtain ⟨hphase, _⟩ := hinitial w₀ s queue sent h hstate
    refine ⟨⟨nofun, nofun⟩, h.react rfl rfl (.inr (.inr ?_))⟩
    rw [note_phase hphase, SinkPhase.next, reached_failed haccepted hretry]

/-- A controller with nothing in its ring has nothing to try again. -/
theorem Inv.phase_of_empty {s : Stream} {queue : PcmRing} {sent : List SinkView}
    (h : Inv bytes w s queue sent) (hstate : s.output.state = .started)
    (hempty : queue.slots = []) : w.phase = some .started ∧ w.accepted = sent := by
  have hagrees := h.agrees
  simp only [Agrees, hstate, hempty] at hagrees
  obtain ⟨haccepted, _, _, hphase | ⟨view, _, hview⟩⟩ := hagrees
  · exact ⟨hphase, haccepted⟩
  · cases hview

theorem Inv.slots_of_occupancy {s : Stream} {queue : PcmRing} {sent : List SinkView}
    (h : Inv bytes w s queue sent) (hoccupancy : s.ring.occupancy = 0) : queue.slots = [] := by
  rw [← List.length_eq_zero_iff, ← h.shows.occupancy, hoccupancy]
  rfl

/-- When the sink has finished a stream that has ended, it has all of it. -/
theorem outputFinish_keeps : Keeps (Held bytes) outputFinish fun w status s =>
    Answered bytes w status s ∧
      (status = .ok → s.ring.finalized = true → w.accepted = quanta bytes true) := by
  refine meets_get_bind fun current => meets_ite (fun hstate => ?_) fun hstate =>
    meets_ite (fun hoccupancy => ?_) fun hoccupancy => ?_
  · exact meets_pure fun w s h => ⟨⟨⟨nofun, nofun⟩, h.1⟩, nofun⟩
  · exact meets_pure fun w s h => ⟨⟨⟨nofun, nofun⟩, h.1⟩, nofun⟩
  refine Meets.bind
    (sinkCall_keeps bytes (fun s => s.output.state = .started ∧ s.ring.occupancy = 0) ?_ ?_)
    fun reply => translateResult_keeps reply ?_ ?_ ?_
  · rintro w s ⟨h, rfl⟩
    exact ⟨h, not_not.mp hstate, not_not.mp hoccupancy⟩
  · rintro w s queue sent reply h ⟨hstate, hoccupancy⟩
    obtain ⟨hphase, _⟩ := h.phase_of_empty hstate (h.slots_of_occupancy hoccupancy)
    rw [SinkHistory.InOrder, note_phase hphase]
    rfl
  · rintro rfl w s ⟨w₀, queue, sent, h, ⟨hstate, hoccupancy⟩, rfl⟩
    have hempty := h.slots_of_occupancy hoccupancy
    obtain ⟨hphase, haccepted⟩ := h.phase_of_empty hstate hempty
    refine ⟨⟨⟨nofun, nofun⟩, h.react rfl rfl ?_⟩, fun _ hfinal => ?_⟩
    · change (w₀.note .finish (some .accepted)).phase = _
      rw [note_phase hphase]
      rfl
    · have hviews := h.tiled.views
      rw [hempty, List.append_nil, ← h.shows.finalized, hfinal] at hviews
      exact haccepted.trans hviews
  · rintro rfl w s ⟨w₀, queue, sent, h, ⟨hstate, hoccupancy⟩, rfl⟩
    obtain ⟨hphase, _⟩ := h.phase_of_empty hstate (h.slots_of_occupancy hoccupancy)
    have hagrees := h.agrees
    refine ⟨⟨⟨nofun, nofun⟩, h.react rfl rfl ?_⟩, nofun⟩
    simp only [Agrees, hstate] at hagrees ⊢
    refine ⟨hagrees.1, hagrees.2.1, hagrees.2.2.1, .inl ?_⟩
    rw [note_phase hphase]
    rfl
  · rintro haccepted hretry w s ⟨w₀, queue, sent, h, ⟨hstate, hoccupancy⟩, rfl⟩
    obtain ⟨hphase, _⟩ := h.phase_of_empty hstate (h.slots_of_occupancy hoccupancy)
    refine ⟨⟨⟨nofun, nofun⟩, h.react rfl rfl (.inr (.inr ?_))⟩, nofun⟩
    rw [note_phase hphase, SinkPhase.next, reached_failed haccepted hretry]

theorem outputAbort_keeps : Keeps (Held bytes) outputAbort (Answered bytes) := by
  refine meets_get_bind fun current => meets_ite (fun hstate => ?_) fun hstate => ?_
  · exact meets_pure fun w s h => ⟨⟨nofun, nofun⟩, h.1⟩
  have hphase : ∀ w s queue sent, Inv bytes w s queue sent →
      s.output.state = .started ∨ s.output.state = .failed →
      w.phase = some .started ∨ (∃ view, w.phase = some (.retrying view)) ∨
        w.phase = some .failed := by
    intro w s queue sent h hstate
    have hagrees := h.agrees
    rcases hstate with hstate | hstate
    · simp only [Agrees, hstate] at hagrees
      obtain ⟨_, _, _, hphase | ⟨view, hphase, _⟩⟩ := hagrees
      · exact .inl hphase
      · exact .inr (.inl ⟨view, hphase⟩)
    · simpa only [Agrees, hstate] using hagrees
  have hnext : ∀ w s queue sent reply, Inv bytes w s queue sent →
      s.output.state = .started ∨ s.output.state = .failed →
      ∃ phase, w.phase = some phase ∧
        (w.note .abort reply).phase = some (reached reply .ended phase) := by
    intro w s queue sent reply h hstate
    rcases hphase w s queue sent h hstate with h | ⟨view, h⟩ | h <;>
      exact ⟨_, h, note_phase h⟩
  refine Meets.bind
    (sinkCall_keeps bytes (fun s => s.output.state = .started ∨ s.output.state = .failed) ?_ ?_)
    fun reply => translateResult_keeps reply ?_ ?_ ?_
  · rintro w s ⟨h, rfl⟩
    rw [not_and_or, not_not, not_not] at hstate
    exact ⟨h, hstate⟩
  · intro w s queue sent reply h hstate
    obtain ⟨phase, _, hnote⟩ := hnext w s queue sent reply h hstate
    rw [SinkHistory.InOrder, hnote]
    rfl
  · rintro rfl w s ⟨w₀, queue, sent, h, hstate, rfl⟩
    obtain ⟨phase, _, hnote⟩ := hnext w₀ s queue sent _ h hstate
    exact ⟨⟨nofun, nofun⟩, h.react rfl rfl hnote⟩
  · rintro rfl w s ⟨w₀, queue, sent, h, hstate, rfl⟩
    obtain ⟨phase, hsame, hnote⟩ := hnext w₀ s queue sent _ h hstate
    refine ⟨⟨nofun, nofun⟩, h.react rfl rfl ?_⟩
    have hagrees := h.agrees
    have hkept : (w₀.note .abort (some .retry)).phase = w₀.phase := by
      rw [hnote, hsame]
      rfl
    rcases hstate with hstate | hstate
    all_goals
      simp only [Agrees, hstate] at hagrees ⊢
      rw [hkept]
      exact hagrees
  · rintro haccepted hretry w s ⟨w₀, queue, sent, h, hstate, rfl⟩
    obtain ⟨phase, _, hnote⟩ := hnext w₀ s queue sent reply h hstate
    refine ⟨⟨nofun, nofun⟩, h.react rfl rfl (.inr (.inr ?_))⟩
    rw [hnote, reached_failed haccepted hretry]

/-- The slot at the tail is the one that the controller waits for. -/
theorem Inv.slotValid {s : Stream} {queue : PcmRing} {sent : List SinkView} {slot : Slot}
    {views : List SinkView} (h : Inv bytes w s queue sent) (hstate : s.output.state = .started)
    (hsound : slot.Sound) (hslots : queue.slots = slot.view :: views) :
    slotValid s.output slot = true := by
  have hagrees := h.agrees
  simp only [Agrees, hstate] at hagrees
  obtain ⟨_, hexpected, hoffset, _⟩ := hagrees
  obtain ⟨hsequence, hframe, _, hshape⟩ := h.tiled.next hslots
  change slot.sequence = _ at hsequence
  change slot.frameOffset = _ at hframe
  rw [PcmDelivery.slotValid, hexpected, hoffset, hsequence, hframe]
  rcases hshape with ⟨hfull, hflag⟩ | ⟨hpositive, hshort, hflag⟩
  · change slot.validFrames = _ at hfull
    change decide (slot.flags = flagFinalPartial) = false at hflag
    have hzero : slot.flags = 0 := hsound.flags.resolve_right (of_decide_eq_false hflag)
    simp [hfull, hzero]
  · change 0 < slot.validFrames at hpositive
    change slot.validFrames < quantumFrames at hshort
    change decide (slot.flags = flagFinalPartial) = true at hflag
    simp [hpositive, Nat.ne_of_lt hshort, Nat.le_of_lt hshort, of_decide_eq_true hflag]

/-- The first view of the queue has been submitted. -/
def Submitted (bytes : List UInt8) (view : SinkView) (w : SinkHistory)
    (reply : Option SinkResult) (s : Stream) : Prop :=
  ∃ w₀ queue sent views, Inv bytes w₀ s queue sent ∧ s.output.state = .started ∧
    queue.slots = view :: views ∧ w = w₀.note (.submit view) reply

theorem Inv.submitted_phase {s : Stream} {queue : PcmRing} {sent views : List SinkView}
    {view : SinkView} (h : Inv bytes w s queue sent) (reply : Option SinkResult)
    (hstate : s.output.state = .started) (hslots : queue.slots = view :: views) :
    w.accepted = sent ∧
      (w.note (.submit view) reply).phase = some (reached reply .started (.retrying view)) := by
  have hagrees := h.agrees
  simp only [Agrees, hstate] at hagrees
  obtain ⟨haccepted, _, _, hphase | ⟨retried, hphase, hview⟩⟩ := hagrees
  · exact ⟨haccepted, note_phase hphase⟩
  · rw [hslots] at hview
    obtain rfl : view = retried := Option.some.inj hview
    refine ⟨haccepted, (note_phase hphase).trans ?_⟩
    rw [SinkPhase.next, if_pos rfl]

theorem acceptSlot_keeps (slot : Slot) :
    Keeps (fun w s => Submitted bytes slot.view w (some .accepted) s)
      (acceptSlot slot.validFrames) (Answered bytes) := by
  refine meets_get_bind fun current => meets_ite (fun hover => ?_) fun hroom =>
    meets_ite (fun hconsume => ?_) fun hconsume => ?_
  · rintro trace w s horder ⟨⟨w₀, queue, sent, views, h, hstate, hslots, rfl⟩, rfl⟩
    obtain ⟨haccepted, hphase⟩ := h.submitted_phase (some .accepted) hstate hslots
    refine safe_done horder ⟨⟨nofun, nofun⟩, queue, sent, h.shows, h.tiled, ?_, .inl hphase⟩
    change w₀.accepted ++ [slot.view] <+: _
    rw [haccepted, hslots]
    exact (List.prefix_append_right_inj sent).mpr ⟨views, rfl⟩
  · rintro trace w s horder ⟨⟨w₀, queue, sent, views, h, hstate, hslots, rfl⟩, rfl⟩
    exact absurd (h.shows.consume hslots).1 hconsume
  · rintro trace w s horder ⟨⟨w₀, queue, sent, views, h, hstate, hslots, rfl⟩, rfl⟩
    obtain ⟨haccepted, hphase⟩ := h.submitted_phase (some .accepted) hstate hslots
    have hagrees := h.agrees
    simp only [Agrees, hstate] at hagrees
    obtain ⟨_, hsequence, hoffset, _⟩ := hagrees
    refine safe_done horder ⟨⟨nofun, nofun⟩, { queue with slots := views }, sent ++ [slot.view],
      (h.shows.consume hslots).2, h.tiled.send hslots, ?_, ?_⟩
    · change w₀.accepted ++ [slot.view] <+: _
      rw [haccepted]
      exact List.prefix_append _ _
    · simp only [Agrees, hstate]
      refine ⟨?_, ?_, ?_, .inl hphase⟩
      · change w₀.accepted ++ [slot.view] = _
        rw [haccepted]
      · rw [hsequence, List.length_append, UInt32.ofNat_add]
        rfl
      · rw [hoffset, List.map_append, List.sum_append, UInt64.ofNat_add]
        simp [Slot.view]

theorem submitSlot_keeps (slot : Slot) :
    Keeps (fun w s => ∃ queue sent views, Inv bytes w s queue sent ∧
      s.output.state = .started ∧ queue.slots = slot.view :: views)
      (submitSlot slot) (Answered bytes) := by
  have hcall : Keeps (fun w s => ∃ queue sent views, Inv bytes w s queue sent ∧
      s.output.state = .started ∧ queue.slots = slot.view :: views)
      (sinkCall (.submit slot.view)) (Submitted bytes slot.view) := by
    refine meets_perform fun w s reply w' _ h hw' => ?_
    obtain ⟨queue, sent, views, hinv, hstate, hslots⟩ := h
    subst hw'
    refine ⟨?_, w, queue, sent, views, hinv, hstate, hslots, rfl⟩
    rw [SinkHistory.InOrder, (hinv.submitted_phase reply hstate hslots).2]
    rfl
  have hfailed : ∀ reply, reply ≠ some SinkResult.accepted → reply ≠ some .retry →
      Keeps (fun w s => Submitted bytes slot.view w reply s)
        (do setState .failed; return OutputStatus.fatal) (Answered bytes) := by
    rintro reply haccepted hretry trace w s horder ⟨w₀, queue, sent, views, h, hstate, hslots, rfl⟩
    obtain ⟨_, hphase⟩ := h.submitted_phase reply hstate hslots
    rw [reached_failed haccepted hretry] at hphase
    have hsame : (w₀.note (.submit slot.view) reply).accepted = w₀.accepted := by
      match reply with
      | none | some .fatal | some .retry => rfl
      | some .accepted => exact absurd rfl haccepted
    exact safe_done horder ⟨⟨nofun, nofun⟩, h.react hsame rfl (.inr (.inr hphase))⟩
  refine Meets.bind hcall fun reply => ?_
  match reply with
  | some .accepted => exact acceptSlot_keeps slot
  | some .retry =>
      refine meets_pure ?_
      rintro w s ⟨w₀, queue, sent, views, h, hstate, hslots, rfl⟩
      obtain ⟨_, hphase⟩ := h.submitted_phase (some .retry) hstate hslots
      have hagrees := h.agrees
      refine ⟨⟨nofun, nofun⟩, h.react rfl rfl ?_⟩
      simp only [Agrees, hstate] at hagrees ⊢
      refine ⟨hagrees.1, hagrees.2.1, hagrees.2.2.1, .inr ⟨slot.view, hphase, ?_⟩⟩
      rw [hslots]
      rfl
  | some .fatal => exact hfailed _ nofun nofun
  | none => exact hfailed _ nofun nofun

theorem outputStep_keeps : Keeps (Held bytes) outputStep (Answered bytes) := by
  refine meets_get_bind fun current => meets_ite (fun hstate => ?_) fun hstate => ?_
  · exact meets_pure fun w s h => ⟨⟨nofun, nofun⟩, h.1⟩
  rintro trace w s horder ⟨⟨queue, sent, h⟩, rfl⟩
  have hstarted : s.output.state = .started := not_not.mp hstate
  cases hslots : queue.slots with
  | nil =>
      rw [h.shows.tryPeek_nil hslots]
      exact safe_done horder ⟨⟨nofun, nofun⟩, queue, sent, h⟩
  | cons view views =>
      obtain ⟨slot, hpeek, hsound, rfl⟩ := h.shows.tryPeek_cons hslots
      rw [hpeek]
      dsimp only
      rw [if_neg (by rw [h.slotValid hstarted hsound hslots]; exact nofun)]
      exact submitSlot_keeps slot trace w s horder ⟨queue, sent, views, h, hstarted, hslots⟩

theorem code_keeps (call : StreamCall) :
    Keeps (Held bytes) call.code fun w outcome s =>
      Expected call outcome ∧ Held (bytes ++ takenBytes call outcome) w s := by
  have hanswered : ∀ {code : StreamCode OutputStatus} {call : StreamCall},
      (∀ status, Expected call (.output status) ↔ status ≠ .slotError ∧ status ≠ .ringError) →
      (∀ status, takenBytes call (.output status) = []) →
      Keeps (Held bytes) code (Answered bytes) →
      Keeps (Held bytes) (do return Outcome.output (← code)) fun w outcome s =>
        Expected call outcome ∧ Held (bytes ++ takenBytes call outcome) w s := by
    intro code call hexpected htaken hcode
    refine Meets.bind hcode fun status => meets_pure fun w s h => ?_
    rw [hexpected, htaken, List.append_nil]
    exact h
  cases call with
  | append pcm frameOffset => exact append_keeps pcm frameOffset
  | finishRing finalFrame =>
      refine (finishRing_keeps finalFrame).mono fun w outcome s h => ?_
      have htaken : takenBytes (.finishRing finalFrame) outcome = [] := rfl
      rwa [htaken, List.append_nil]
  | start => exact hanswered (fun _ => Iff.rfl) (fun _ => rfl) outputStart_keeps
  | step => exact hanswered (fun _ => Iff.rfl) (fun _ => rfl) outputStep_keeps
  | finish =>
      refine hanswered (fun _ => Iff.rfl) (fun _ => rfl) ?_
      exact outputFinish_keeps.mono fun w status s h => h.1
  | abort => exact hanswered (fun _ => Iff.rfl) (fun _ => rfl) outputAbort_keeps

theorem performAll_keeps (bytes : List UInt8) (calls : List StreamCall) :
    Keeps (Held bytes) (performAll calls) fun w outcomes s =>
      List.Forall₂ Expected calls outcomes ∧ Held (bytes ++ streamBytes calls outcomes) w s := by
  induction calls generalizing bytes with
  | nil =>
      refine meets_pure fun w s h => ⟨.nil, ?_⟩
      simpa [streamBytes] using h
  | cons call calls ih =>
      refine Meets.bind (code_keeps call) fun outcome => ?_
      rintro trace w s horder ⟨hexpected, hheld⟩
      have hrest : Keeps (Held (bytes ++ takenBytes call outcome))
          (do let outcomes ← performAll calls; return outcome :: outcomes) fun w outcomes s =>
            List.Forall₂ Expected (call :: calls) outcomes ∧
              Held (bytes ++ streamBytes (call :: calls) outcomes) w s := by
        refine Meets.bind (ih _) fun outcomes => meets_pure fun w s h => ⟨.cons hexpected h.1, ?_⟩
        simpa [streamBytes, List.append_assoc] using h.2
      exact hrest trace w s horder hheld

end Operations

section Delivery

/-- What a run of calls has brought to the sink. -/
structure Delivered (calls : List StreamCall) (outcomes : List Outcome) (w : SinkHistory)
    (s : Stream) : Prop where
  expected : List.Forall₂ Expected calls outcomes
  views : w.accepted <+: quanta (streamBytes calls outcomes) s.ring.finalized
  bytes : (w.accepted.map SinkView.pcm).flatten <+: streamBytes calls outcomes

theorem Held.delivered {calls : List StreamCall} {outcomes : List Outcome} {w : SinkHistory}
    {s : Stream} (h : Held (streamBytes calls outcomes) w s)
    (hexpected : List.Forall₂ Expected calls outcomes) : Delivered calls outcomes w s := by
  obtain ⟨queue, sent, hinv⟩ := h
  have hviews := hinv.accepted
  rw [hinv.tiled.views, ← hinv.shows.finalized] at hviews
  refine ⟨hexpected, hviews, List.IsPrefix.trans ?_ (quanta_bytes_isPrefix _ s.ring.finalized)⟩
  obtain ⟨later, hlater⟩ := hviews
  refine ⟨(later.map SinkView.pcm).flatten, ?_⟩
  rw [← hlater, List.map_append, List.flatten_append]

/-- Whatever the sink answers, the frames that the ring has taken reach it in quanta, each once and
in order; no call is out of order at any point. When it finishes a stream that has ended, it has
every frame. -/
theorem pcm_delivery (calls : List StreamCall) :
    (∀ {labels rest w}, Run (Step answers) (performAll calls {}, {}) labels (rest, w) →
      w.InOrder) ∧
    (∀ {labels outcomes s w},
      Run (Step answers) (performAll calls {}, {}) labels (.done (outcomes, s), w) →
        Delivered calls outcomes w s) ∧
    (∀ {labels outcomes status s w},
      Run (Step answers)
          ((do let outcomes ← performAll calls; let status ← outputFinish
               return (outcomes, status) : StreamCode (List Outcome × OutputStatus)) {}, {})
          labels (.done ((outcomes, status), s), w) →
        status = .ok → s.ring.finalized = true →
        w.accepted = quanta (streamBytes calls outcomes) true ∧
          (w.accepted.map SinkView.pcm).flatten = streamBytes calls outcomes) := by
  have hall := performAll_keeps [] calls
  refine ⟨fun hrun => hall.stopped held_nil.inOrder held_nil hrun, fun hrun => ?_,
    fun hrun hok hfinal => ?_⟩
  · obtain ⟨hexpected, hheld⟩ := hall.result held_nil.inOrder held_nil hrun
    exact hheld.delivered hexpected
  · have hfinish : Keeps (Held [])
        (do let outcomes ← performAll calls; let status ← outputFinish
            return (outcomes, status) : StreamCode (List Outcome × OutputStatus))
        fun w result s => result.2 = .ok → s.ring.finalized = true →
          w.accepted = quanta (streamBytes calls result.1) true := by
      refine Meets.bind hall fun outcomes => meets_before ?_ fun w s h => h.2
      refine Meets.bind outputFinish_keeps fun status => meets_pure fun w s h => ?_
      exact h.2
    have hviews := hfinish.result held_nil.inOrder held_nil hrun hok hfinal
    refine ⟨hviews, ?_⟩
    rw [hviews, quanta_true_bytes]

/-- The first frames of a stream, more than a quantum of them. -/
def firstFrames : Pcm :=
  ⟨(List.range 1200).map UInt8.ofNat, 300, by decide +kernel, by decide +kernel⟩

/-- The frames behind them, which end in the middle of a quantum. -/
def lastFrames : Pcm :=
  ⟨(List.range' 1200 724).map UInt8.ofNat, 181, by decide +kernel, by decide +kernel⟩

def streamCalls : List StreamCall :=
  [.append firstFrames 0, .start, .step, .step, .append lastFrames 300, .finishRing 481, .step,
    .step, .step, .step]

/-- A sink that takes every view when it is submitted again. -/
def retryingSink (w : SinkHistory) (call : SinkCall) : SinkReply call × SinkHistory :=
  let reply : Option SinkResult :=
    match call, w.phase with
    | .submit _, some .started => some .retry
    | _, _ => some .accepted
  (reply, w.note call reply)

theorem pcm_delivery_retried : ∃ labels outcomes s w,
    Run (Step answers)
      ((do let outcomes ← performAll streamCalls; let status ← outputFinish
           return (outcomes, status) : StreamCode (List Outcome × OutputStatus)) {}, {})
      labels (.done ((outcomes, .ok), s), w) ∧
    outcomes = [.appended .ok 300, .output .ok, .output .retry, .output .consumed,
      .appended .ok 181, .ring .ok, .output .retry, .output .consumed, .output .retry,
      .output .consumed] ∧
    w.accepted.map SinkView.validFrames = [240, 240, 1] ∧
    (w.accepted.map SinkView.pcm).flatten = firstFrames.bytes ++ lastFrames.bytes := by
  let start : Program SinkCall SinkReply ((List Outcome × OutputStatus) × Stream) × SinkHistory :=
    ((do let outcomes ← performAll streamCalls; let status ← outputFinish
         return (outcomes, status) : StreamCode (List Outcome × OutputStatus)) {}, {})
  have hvalue : (execute retryingSink 9 start).2.1.value?.map
      (fun result => (result.1, result.2.ring.finalized)) =
        some (([.appended .ok 300, .output .ok, .output .retry, .output .consumed,
          .appended .ok 181, .ring .ok, .output .retry, .output .consumed, .output .retry,
          .output .consumed], .ok), true) := by
    decide +kernel
  obtain ⟨⟨result, s⟩, hdone, hresult⟩ := Option.map_eq_some_iff.mp hvalue
  obtain ⟨rfl, hfinal⟩ := Prod.mk.inj hresult
  have hrun := execute_result answers retryingSink (fun _ _ => rfl) hdone
  obtain ⟨hviews, hbytes⟩ := (pcm_delivery streamCalls).2.2 hrun rfl hfinal
  refine ⟨_, _, s, _, hrun, rfl, ?_, ?_⟩
  · rw [hviews]
    decide +kernel
  · rw [hbytes]
    decide +kernel

end Delivery

end EspNp2.PcmStream.PcmDelivery
