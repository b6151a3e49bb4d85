import EspNp2.AudioTransport.HorizonMailbox

/-!
Monitors of the two parties of the horizon mailbox.  They follow a call through its
phases and keep a copy of the party's own clock.  Both threads are watched: the producer
stores only while it owns the empty mailbox, and the consumer empties it only after it has
read and recorded a horizon.
-/

namespace EspNp2.AudioTransport.HorizonMonitor

open Library.Concurrent
open HorizonMailbox

inductive Phase where
  | idle
  /-- A publish call that has stored nothing. -/
  | called (horizon : Horizon)
  /-- The producer has found the mailbox empty and made so many stores. -/
  | owner (horizon : Horizon) (stores : Nat)
  | published (horizon : Horizon)
  /-- An observe call that has not found the mailbox full. -/
  | polled
  /-- The consumer has found the mailbox full and loaded these words. -/
  | reader (words : List UInt32)
  /-- The consumer has advanced its clock to the horizon. -/
  | settled (horizon : Horizon)
  | recorded (horizon : Horizon)
  | emptied (horizon : Horizon)
deriving DecidableEq, Repr

/-- The phase of a party and its clock. -/
structure Watch where
  phase : Phase := .idle
  frame : UInt64 := 0
  terminal : UInt32 := 0
deriving DecidableEq, Repr

def Watch.goTo (w : Watch) (phase : Phase) : Watch := { w with phase := phase }

section Producer

/-- The store that comes next, and how the producer's watch goes on with it. -/
def observeStore (w : Watch) (horizon : Horizon) : (stores : Nat) → (cell : Cell) → cell.Value →
    Option Watch
  | 0, .horizonFrameLo, value =>
      if value = frameLo horizon.frame then some (w.goTo (.owner horizon 1)) else none
  | 1, .horizonFrameHi, value =>
      if value = frameHi horizon.frame then some (w.goTo (.owner horizon 2)) else none
  | 2, .horizonFlags, value =>
      if value = horizon.flags then some (w.goTo (.owner horizon 3)) else none
  | 3, .terminalResetOrdinal, value =>
      if value = horizon.terminalResetOrdinal then some (w.goTo (.owner horizon 4)) else none
  | 4, .committedFrameOwner, value =>
      if value = horizon.frame then
        some { phase := .owner horizon 5, frame := horizon.frame, terminal := w.terminal }
      else none
  | 5, .terminalPublishedOwner, value =>
      if value = 1 ∧ horizon.flags = flagTerminal then
        some { phase := .owner horizon 6, frame := w.frame, terminal := 1 }
      else none
  | 5, .horizonState, value =>
      if value = horizonFull ∧ horizon.flags ≠ flagTerminal then
        some (w.goTo (.published horizon))
      else none
  | 6, .horizonState, value =>
      if value = horizonFull then some (w.goTo (.published horizon)) else none
  | _, _, _ => none

def observeProducer (w : Watch) : OpLabel Op Result → Option Watch
  | ⟨.beginPublish, call⟩ =>
      if w.phase = .idle then some (w.goTo (.called call.horizon)) else none
  | ⟨.load .terminalPublishedOwner, _⟩ => some w
  | ⟨.load .committedFrameOwner, _⟩ => some w
  | ⟨.load .horizonState, state⟩ =>
      match w.phase with
      | .called horizon =>
          if state = horizonEmpty then
            if w.terminal = 0 ∧ w.frame ≤ horizon.frame then some (w.goTo (.owner horizon 0))
            else none
          else some w
      | _ => none
  | ⟨.store cell value, _⟩ =>
      match w.phase with
      | .owner horizon stores => observeStore w horizon stores cell value
      | _ => none
  | ⟨.finishPublish call status, _⟩ =>
      match w.phase with
      | .called horizon =>
          if status ≠ .ok ∧ call.horizon = horizon then some (w.goTo .idle) else none
      | .published horizon =>
          if status = .ok ∧ call.horizon = horizon then some (w.goTo .idle) else none
      | _ => none
  | _ => none

def producerMonitor : Monitor Watch Op Result where
  expects w
    | ⟨.load .terminalPublishedOwner, value⟩ => value = w.terminal
    | ⟨.load .committedFrameOwner, value⟩ => value = w.frame
    | _ => True
  observe := observeProducer

theorem watched_publishPayload {w : Watch} {horizon : Horizon}
    (hphase : w.phase = .owner horizon 0) :
    Watched producerMonitor (fun w status => status = .ok ∧ w.phase = .published horizon)
      (publishPayload horizon) w := by
  have hstore : ∀ {w : Watch} {stores : Nat} {cell : Cell} {value : cell.Value} {w' : Watch},
      w.phase = .owner horizon stores → observeStore w horizon stores cell value = some w' →
        producerMonitor.observe w ⟨.store cell value, ()⟩ = some w' := by
    intro w stores cell value w' hw hobserve
    simpa [producerMonitor, observeProducer, hw] using hobserve
  have hfull : ∀ {w : Watch}, w.phase = .owner horizon 6 →
      producerMonitor.observe w ⟨.store .horizonState horizonFull, ()⟩ =
        some (w.goTo (.published horizon)) := by
    intro w hw
    refine hstore hw ?_
    simp [observeStore]
  refine watched_op_iff.mpr fun _ _ => ⟨_, hstore hphase (if_pos rfl), ?_⟩
  refine watched_op_iff.mpr fun _ _ => ⟨_, hstore rfl (if_pos rfl), ?_⟩
  refine watched_op_iff.mpr fun _ _ => ⟨_, hstore rfl (if_pos rfl), ?_⟩
  refine watched_op_iff.mpr fun _ _ => ⟨_, hstore rfl (if_pos rfl), ?_⟩
  refine watched_op_iff.mpr fun _ _ => ⟨_, hstore rfl (if_pos rfl), ?_⟩
  by_cases hflags : horizon.flags = flagTerminal
  · simp only [hflags, if_true]
    refine watched_op_iff.mpr fun _ _ => ⟨_, hstore rfl (if_pos ⟨rfl, hflags⟩), ?_⟩
    refine watched_op_iff.mpr fun _ _ => ⟨_, hfull rfl, ?_⟩
    exact watched_done_iff.mpr ⟨rfl, rfl⟩
  · simp only [hflags, if_false]
    refine watched_op_iff.mpr fun _ _ => ⟨_, hstore rfl (if_pos ⟨rfl, hflags⟩), ?_⟩
    exact watched_done_iff.mpr ⟨rfl, rfl⟩

/-- The end of a publish call: nothing was stored, or the horizon was published. -/
def Settled (horizon : Horizon) (w : Watch) (status : HorizonStatus) : Prop :=
  (status ≠ .ok ∧ w.phase = .called horizon) ∨ (status = .ok ∧ w.phase = .published horizon)

theorem watched_horizonPublish {w : Watch} {horizon : Horizon}
    (hphase : w.phase = .called horizon) :
    Watched producerMonitor (Settled horizon) (horizonPublish horizon) w := by
  refine watched_op_iff.mpr fun terminal hterminal => ⟨w, rfl, ?_⟩
  have hterminal' : terminal = w.terminal := hterminal
  dsimp only [Thread.bind]
  split
  · exact watched_done_iff.mpr (.inl ⟨by decide, hphase⟩)
  · rename_i hzero
    refine watched_op_iff.mpr fun committed hcommitted => ⟨w, rfl, ?_⟩
    have hcommitted' : committed = w.frame := hcommitted
    dsimp only [Thread.bind]
    split
    · exact watched_done_iff.mpr (.inl ⟨by decide, hphase⟩)
    · rename_i hframe
      refine watched_op_iff.mpr fun state _ => ?_
      dsimp only [Thread.bind]
      by_cases hstate : state = horizonEmpty
      · have howns : w.terminal = 0 ∧ w.frame ≤ horizon.frame := by
          rw [← hterminal', ← hcommitted']
          exact ⟨not_not.mp hzero, UInt64.not_lt.mp hframe⟩
        refine ⟨w.goTo (.owner horizon 0), ?_, ?_⟩
        · simp [producerMonitor, observeProducer, hphase, hstate, howns]
        · rw [if_neg (not_not.mpr hstate)]
          have hpayload : Watched producerMonitor (fun w status => status = .ok ∧
              w.phase = .published horizon) (publishPayload horizon) (w.goTo (.owner horizon 0)) :=
            watched_publishPayload rfl
          exact Watched.mono hpayload fun w status h => Or.inr h
      · refine ⟨w, ?_, ?_⟩
        · simp [producerMonitor, observeProducer, hphase, hstate]
        · rw [if_pos hstate]
          exact watched_done_iff.mpr (.inl ⟨by decide, hphase⟩)

theorem watched_publishCall {w : Watch} (call : PublishCall)
    (hphase : w.phase = .called call.horizon) :
    Watched producerMonitor (Settled call.horizon) call.code w := by
  cases call with
  | horizonPublish frame => exact watched_horizonPublish hphase
  | terminalHorizonPublish frame workloadBound resetOrdinal =>
      unfold PublishCall.code
      dsimp only
      split
      · exact watched_done_iff.mpr (.inl ⟨by decide, hphase⟩)
      · split
        · exact watched_done_iff.mpr (.inl ⟨by decide, hphase⟩)
        · exact watched_horizonPublish hphase

theorem watched_producer : Watched producerMonitor (fun _ _ => True) producer {} := by
  refine watched_iterate (fun w _ => w.phase = .idle) rfl ?_
  rintro w ⟨⟩ hidle
  refine watched_op_iff.mpr fun call _ => ⟨w.goTo (.called call.horizon), ?_, ?_⟩
  · simp [producerMonitor, observeProducer, hidle]
  · have hcall : Watched producerMonitor (Settled call.horizon) call.code
        (w.goTo (.called call.horizon)) := watched_publishCall call rfl
    change Watched producerMonitor _ (Thread.bind call.code _) _
    refine Watched.bind (Watched.mono hcall fun w status hsettled => ?_)
    refine watched_op_iff.mpr fun _ _ => ⟨w.goTo .idle, ?_, watched_done_iff.mpr rfl⟩
    rcases hsettled with ⟨hstatus, hphase⟩ | ⟨hstatus, hphase⟩ <;>
      simp [producerMonitor, observeProducer, hphase, hstatus]

end Producer

section Consumer

/-- The horizon of four loaded words. -/
def horizonOfWords (low high flags resetOrdinal : UInt32) : Horizon :=
  ⟨joinFrame high low, flags, resetOrdinal⟩

def observeConsumer (w : Watch) : OpLabel Op Result → Option Watch
  | ⟨.beginObserve, _⟩ => if w.phase = .idle then some (w.goTo .polled) else none
  | ⟨.load .horizonState, state⟩ =>
      if w.phase = .polled then
        some (if state = horizonFull then w.goTo (.reader []) else w)
      else none
  | ⟨.load .horizonFrameLo, low⟩ =>
      match w.phase with
      | .reader [] => some (w.goTo (.reader [low]))
      | _ => none
  | ⟨.load .horizonFrameHi, high⟩ =>
      match w.phase with
      | .reader [low] => some (w.goTo (.reader [low, high]))
      | _ => none
  | ⟨.load .horizonFlags, flags⟩ =>
      match w.phase with
      | .reader [low, high] => some (w.goTo (.reader [low, high, flags]))
      | _ => none
  | ⟨.load .terminalResetOrdinal, resetOrdinal⟩ =>
      match w.phase with
      | .reader [low, high, flags] => some (w.goTo (.reader [low, high, flags, resetOrdinal]))
      | _ => none
  | ⟨.load .committedFrameReconstructed, _⟩ =>
      match w.phase with
      | .reader [_, _, _, _] => some w
      | _ => none
  | ⟨.store .committedFrameReconstructed frame, _⟩ =>
      match w.phase with
      | .reader [low, high, flags, resetOrdinal] =>
          if frame = joinFrame high low then
            some { phase := .settled (horizonOfWords low high flags resetOrdinal)
                   frame := frame
                   terminal := w.terminal }
          else none
      | _ => none
  | ⟨.record observation, _⟩ =>
      if w.phase = .settled observation then some (w.goTo (.recorded observation)) else none
  | ⟨.store .horizonState state, _⟩ =>
      match w.phase with
      | .recorded horizon =>
          if state = horizonEmpty then some (w.goTo (.emptied horizon)) else none
      | _ => none
  | ⟨.finishObserve _ reply, _⟩ =>
      match w.phase, reply with
      | .polled, .observed .retry none => some (w.goTo .idle)
      | .polled, .pending false => some (w.goTo .idle)
      | .reader [], .pending true => some (w.goTo .idle)
      | .emptied horizon, .observed .ok (some observation) =>
          if observation = horizon then some (w.goTo .idle) else none
      | _, _ => none
  | _ => none

def consumerMonitor : Monitor Watch Op Result where
  expects w
    | ⟨.load .committedFrameReconstructed, value⟩ =>
        match w.phase with
        | .reader [low, high, _, _] => value = w.frame ∧ w.frame ≤ joinFrame high low
        | _ => True
    | _ => True
  observe := observeConsumer

/-- The end of an observe call. -/
def Answered (w : Watch) : ObserveReply → Prop
  | .observed .retry none => w.phase = .polled
  | .observed .ok (some observation) => w.phase = .emptied observation
  | .pending value => w.phase = if value then .reader [] else .polled
  | _ => False

theorem watched_tryObserveDetail {w : Watch} (hphase : w.phase = .polled) :
    Watched consumerMonitor Answered tryObserveDetail w := by
  have hempty : ∀ {w : Watch} {horizon : Horizon}, w.phase = .recorded horizon →
      consumerMonitor.observe w ⟨.store .horizonState horizonEmpty, ()⟩ =
        some (w.goTo (.emptied horizon)) := by
    intro w horizon hw
    simp [consumerMonitor, observeConsumer, hw]
  refine watched_op_iff.mpr fun state _ => ?_
  dsimp only [Thread.bind]
  by_cases hstate : state = horizonFull
  · refine ⟨w.goTo (.reader []), ?_, ?_⟩
    · simp [consumerMonitor, observeConsumer, hphase, hstate]
    rw [if_neg (not_not.mpr hstate)]
    refine watched_op_iff.mpr fun low _ => ⟨_, rfl, ?_⟩
    refine watched_op_iff.mpr fun high _ => ⟨_, rfl, ?_⟩
    refine watched_op_iff.mpr fun flags _ => ⟨_, rfl, ?_⟩
    refine watched_op_iff.mpr fun resetOrdinal _ => ⟨_, rfl, ?_⟩
    refine watched_op_iff.mpr fun committed hcommitted => ⟨_, rfl, ?_⟩
    obtain ⟨hframe, hle⟩ : committed = w.frame ∧ w.frame ≤ joinFrame high low := hcommitted
    dsimp only [Thread.bind]
    split
    · rename_i hlt
      rw [hframe] at hlt
      exact absurd hle (UInt64.not_le.mpr hlt)
    · refine watched_op_iff.mpr fun _ _ => ⟨_, if_pos rfl, ?_⟩
      refine watched_op_iff.mpr fun _ _ => ⟨_, if_pos rfl, ?_⟩
      refine watched_op_iff.mpr fun _ _ => ⟨_, hempty rfl, ?_⟩
      exact watched_done_iff.mpr rfl
  · refine ⟨w, ?_, ?_⟩
    · simp [consumerMonitor, observeConsumer, hphase, hstate]
    · rw [if_pos hstate]
      exact watched_done_iff.mpr hphase

theorem watched_horizonPending {w : Watch} (hphase : w.phase = .polled) :
    Watched consumerMonitor Answered horizonPending w := by
  refine watched_op_iff.mpr fun state _ => ?_
  refine ⟨if state = horizonFull then w.goTo (.reader []) else w, ?_, watched_done_iff.mpr ?_⟩
  · simp [consumerMonitor, observeConsumer, hphase]
  · by_cases hstate : state = horizonFull
    · simp [Answered, hstate, Watch.goTo]
    · simp [Answered, hstate, hphase]

theorem observe_finish {w : Watch} {call : ObserveCall} {reply : ObserveReply}
    (h : Answered w reply) :
    consumerMonitor.observe w ⟨.finishObserve call reply, ()⟩ = some (w.goTo .idle) := by
  unfold Answered at h
  split at h
  · simp only [consumerMonitor, observeConsumer, h]
  · simp only [consumerMonitor, observeConsumer, h, if_true]
  · rename_i value
    cases value with
    | false => simp only [consumerMonitor, observeConsumer, h, Bool.false_eq_true, if_false]
    | true => simp only [consumerMonitor, observeConsumer, h, if_true]
  · exact h.elim

theorem watched_consumer : Watched consumerMonitor (fun _ _ => True) consumer {} := by
  refine watched_iterate (fun w _ => w.phase = .idle) rfl ?_
  rintro w ⟨⟩ hidle
  refine watched_op_iff.mpr fun call _ => ⟨w.goTo .polled, ?_, ?_⟩
  · simp only [consumerMonitor, observeConsumer, hidle, if_true]
  · have hcall : Watched consumerMonitor Answered (ObserveCall.code call) (w.goTo .polled) := by
      cases call with
      | tryObserveDetail => exact watched_tryObserveDetail rfl
      | horizonPending => exact watched_horizonPending rfl
    change Watched consumerMonitor _ (Thread.bind (ObserveCall.code call) _) _
    refine Watched.bind (Watched.mono hcall fun w reply hanswered => ?_)
    exact watched_op_iff.mpr fun _ _ =>
      ⟨w.goTo .idle, observe_finish hanswered, watched_done_iff.mpr rfl⟩

end Consumer

end EspNp2.AudioTransport.HorizonMonitor
