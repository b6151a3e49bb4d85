import EspNp2.BinaryDataPlane.TransferTrace

/-!
What an endpoint of a host-to-device transfer sees, over every run of the
manager: contiguous `consume` calls that never exceed the announced size, at most
one `finish`, and exactly one `terminal` that ends it.
-/

namespace EspNp2.BinaryDataPlane.ReceiveLifecycle

open EspNp2.Library.LabelledRun
open EspNp2.BinaryDataPlane.BinaryCodec
open EspNp2.BinaryDataPlane.Transfer
open EspNp2.BinaryDataPlane.TransferContract
open EspNp2.BinaryDataPlane.TransferTrace

variable {W : Type}

def callbacks (after : List Event) : List Event :=
  (session after).filter isCallback

def consumedLength : Event → Nat
  | .consume _ _ bytes _ => bytes.length
  | _ => 0

def consumedBytes (calls : List Event) : Nat :=
  (calls.map consumedLength).sum

def isFinish : Event → Bool
  | .finish .. => true
  | _ => false

def isAbort : Event → Bool
  | .abort .. => true
  | _ => false

def isTerminal : Event → Bool
  | .terminal .. => true
  | _ => false

/-- The calls a receiving endpoint gets in the session that began last, when `ended` says whether
its transfer is over. A later session has its own list of calls, so `terminal_last` says nothing
past the next `begin`. -/
structure ReceiveSafe (context : Option Nat) (size : Nat) (ended : Prop) (calls : List Event) :
    Prop where
  endpoint : ∀ call ∈ calls, calledOn call = context
  consume_contiguous : ∀ before offset bytes result after,
    calls = before ++ .consume context offset bytes result :: after →
    offset.toNat = consumedBytes before ∧ 0 < bytes.length
  consume_total : consumedBytes calls ≤ size
  never_produces : ∀ offset requested result bytes,
    .produce context offset requested result bytes ∉ calls
  finish_once : calls.countP isFinish ≤ 1
  finish_full : ∀ before result after, calls = before ++ .finish context result :: after →
    consumedBytes before = size
  abort_once : ended → .finish context .ok ∉ calls → calls.countP isAbort = 1
  abort_only : ¬ (ended ∧ .finish context .ok ∉ calls) → calls.countP isAbort = 0
  terminal_once : ended → calls.countP isTerminal = 1
  terminal_only : ¬ ended → calls.countP isTerminal = 0
  terminal_last : ∀ before info reason after,
    calls = before ++ .terminal context info reason :: after → after = []

/-- What a call may be, given the calls before it. -/
def CallAllowed (context : Option Nat) (size : Nat) (before : List Event) (call : Event) : Prop :=
  calledOn call = context ∧ before.countP isTerminal = 0 ∧
    match call with
    | .consume _ offset bytes _ =>
        offset.toNat = consumedBytes before ∧ 0 < bytes.length ∧
          consumedBytes before + bytes.length ≤ size
    | .produce .. => False
    | .finish .. => consumedBytes before = size
    | _ => True

/-- The counts of a receiving endpoint's calls in each phase. -/
def Ledger (context : Option Nat) (size : Nat) (calls : List Event) : Phase → Prop
  | .receiving context' size' consumed =>
      context' = context ∧ size' = size ∧ consumedBytes calls = consumed ∧
        calls.countP isFinish = 0 ∧ .finish context .ok ∉ calls ∧
        calls.countP isAbort = 0 ∧ calls.countP isTerminal = 0
  | .failing context' _ =>
      context' = context ∧ calls.countP isFinish ≤ 1 ∧ .finish context .ok ∉ calls ∧
        calls.countP isAbort = 0 ∧ calls.countP isTerminal = 0
  | .aborted context' _ =>
      context' = context ∧ calls.countP isFinish ≤ 1 ∧ .finish context .ok ∉ calls ∧
        calls.countP isAbort = 1 ∧ calls.countP isTerminal = 0
  | .finished context' _ =>
      context' = context ∧ calls.countP isFinish ≤ 1 ∧ .finish context .ok ∈ calls ∧
        calls.countP isAbort = 0 ∧ calls.countP isTerminal = 0
  | .idle =>
      calls.countP isFinish ≤ 1 ∧ calls.countP isTerminal = 1 ∧
        (calls.countP isAbort = 1 ∧ .finish context .ok ∉ calls ∨
          calls.countP isAbort = 0 ∧ .finish context .ok ∈ calls)
  | .sending .. => False

structure Lifecycle (context : Option Nat) (size : Nat) (calls : List Event) (phase : Phase) :
    Prop where
  bounded : consumedBytes calls ≤ size
  allowed : AtEach (CallAllowed context size) calls
  ledger : Ledger context size calls phase

variable {context : Option Nat} {size : Nat} {calls : List Event} {phase next : Phase}

@[simp] theorem consumedBytes_snoc (calls : List Event) (call : Event) :
    consumedBytes (calls ++ [call]) = consumedBytes calls + consumedLength call := by
  simp [consumedBytes]

theorem Lifecycle.snoc (h : Lifecycle context size calls phase) {call : Event}
    (hallowed : CallAllowed context size calls call)
    (hbounded : consumedBytes calls + consumedLength call ≤ size)
    (hledger : Ledger context size (calls ++ [call]) next) :
    Lifecycle context size (calls ++ [call]) next :=
  ⟨by rw [consumedBytes_snoc]; exact hbounded, atEach_snoc_iff.mpr ⟨h.allowed, hallowed⟩, hledger⟩

/-- One step of the life cycle of a receiving transfer. -/
theorem lifecycle_step {event : Event} (h : Lifecycle context size calls phase)
    (hstep : Step phase event next) (hrest : startsTransfer event = false) :
    Lifecycle context size (if isCallback event then calls ++ [event] else calls) next := by
  have hbounded := h.bounded
  have hledger := h.ledger
  cases hstep with
  | beginRx => simp [startsTransfer] at hrest
  | beginTx _ _ _ => simp [startsTransfer] at hrest
  | beginFailed => exact h
  | consume hoffset hnonempty hfits =>
      obtain ⟨rfl, rfl, hconsumed, hfinish, hok, habort, hterminal⟩ := hledger
      refine h.snoc ⟨rfl, hterminal, hoffset.trans hconsumed.symm, hnonempty, ?_⟩ ?_ ?_
      · rw [hconsumed]
        exact hfits
      · rw [hconsumed]
        exact hfits
      · simp [Ledger, consumedLength, isFinish, isAbort, isTerminal, hconsumed, hfinish, hok,
          habort, hterminal]
  | consumeFailed hoffset hnonempty hfits =>
      obtain ⟨rfl, rfl, hconsumed, hfinish, hok, habort, hterminal⟩ := hledger
      refine h.snoc ⟨rfl, hterminal, hoffset.trans hconsumed.symm, hnonempty, ?_⟩ ?_ ?_
      · rw [hconsumed]
        exact hfits
      · rw [hconsumed]
        exact hfits
      · simp [Ledger, isFinish, isAbort, isTerminal, hfinish, hok, habort, hterminal]
  | produce _ _ _ _ _ => exact hledger.elim
  | produceFailed _ _ => exact hledger.elim
  | send _ => exact hledger.elim
  | sendFailed _ => exact hledger.elim
  | controlRx _ => exact h
  | controlRxFailed _ =>
      obtain ⟨rfl, rfl, -, hfinish, hok, habort, hterminal⟩ := hledger
      exact ⟨h.bounded, h.allowed, rfl, hfinish.le.trans (by omega), hok, habort, hterminal⟩
  | controlTx _ => exact hledger.elim
  | controlTxFailed _ => exact hledger.elim
  | finishRx =>
      obtain ⟨rfl, rfl, hconsumed, hfinish, hok, habort, hterminal⟩ := hledger
      refine h.snoc ⟨rfl, hterminal, hconsumed⟩ hbounded ?_
      simp [Ledger, isFinish, isAbort, isTerminal, hfinish, habort, hterminal]
  | finishRxFailed =>
      obtain ⟨rfl, rfl, hconsumed, hfinish, hok, habort, hterminal⟩ := hledger
      refine h.snoc ⟨rfl, hterminal, hconsumed⟩ hbounded ?_
      simp [Ledger, isFinish, isAbort, isTerminal, hfinish, hok, habort, hterminal]
  | finishTx _ => exact hledger.elim
  | finishTxFailed _ => exact hledger.elim
  | abortRx =>
      obtain ⟨rfl, rfl, -, hfinish, hok, habort, hterminal⟩ := hledger
      refine h.snoc ⟨rfl, hterminal, trivial⟩ hbounded ?_
      simp [Ledger, isFinish, isAbort, isTerminal, hfinish, hok, habort, hterminal]
  | abortTx => exact hledger.elim
  | abortFailing =>
      obtain ⟨rfl, hfinish, hok, habort, hterminal⟩ := hledger
      refine h.snoc ⟨rfl, hterminal, trivial⟩ hbounded ?_
      simp [Ledger, isFinish, isAbort, isTerminal, hfinish, hok, habort, hterminal]
  | terminalAborted _ =>
      obtain ⟨rfl, hfinish, hok, habort, hterminal⟩ := hledger
      refine h.snoc ⟨rfl, hterminal, trivial⟩ hbounded ?_
      simp [Ledger, isFinish, isAbort, isTerminal, hfinish, hok, habort, hterminal]
  | terminalFinished _ _ _ =>
      obtain ⟨rfl, hfinish, hok, habort, hterminal⟩ := hledger
      refine h.snoc ⟨rfl, hterminal, trivial⟩ hbounded ?_
      simp [Ledger, isFinish, isAbort, isTerminal, hfinish, hok, habort, hterminal]
  | replay _ => exact h

/-- The calls of a receiving transfer follow its life cycle until the next
transfer starts. -/
theorem lifecycle_run {events : List Event}
    (hrun : Run Step (.receiving context size 0) events phase)
    (hrest : ∀ event ∈ events, startsTransfer event = false) :
    Lifecycle context size (events.filter isCallback) phase := by
  have hstart : Lifecycle context size [] (.receiving context size 0) :=
    ⟨Nat.zero_le _, atEach_nil _, by simp [Ledger, consumedBytes]⟩
  refine hrun.invariant (P := fun events phase =>
    (∀ event ∈ events, startsTransfer event = false) →
      Lifecycle context size (events.filter isCallback) phase) (fun _ => hstart) ?_ hrest
  intro events phase event next ih hstep hrest
  have hcalls := ih fun other hother => hrest other (by simp [hother])
  have hnext := lifecycle_step hcalls hstep (hrest event (by simp))
  rw [List.filter_append]
  cases hcallback : isCallback event <;> simpa [hcallback] using hnext

/-- The transfer whose `begin` is followed by the calls `after` is over. -/
def Ended (d : Device (Traced W)) (after : List Event) : Prop :=
  d.manager.active = false ∨ session after ≠ after

theorem Lifecycle.receiveSafe {ended : Prop} (h : Lifecycle context size calls phase)
    (hended : ended → phase = .idle)
    (hrunning : ¬ ended → ∃ consumed, phase = .receiving context size consumed) :
    ReceiveSafe context size ended calls := by
  have hallowed := h.allowed
  have hledger := h.ledger
  have hfinish : calls.countP isFinish ≤ 1 := by
    by_cases hend : ended
    · rw [hended hend] at hledger
      exact hledger.1
    · obtain ⟨consumed, rfl⟩ := hrunning hend
      exact hledger.2.2.2.1.le.trans (by omega)
  refine
    { endpoint := fun call hcall => ?_
      consume_contiguous := fun before offset bytes result after hsplit => ?_
      consume_total := h.bounded
      never_produces := fun offset requested result bytes hcall => ?_
      finish_once := hfinish
      finish_full := fun before result after hsplit => (hallowed _ _ _ hsplit).2.2
      abort_once := fun hend hok => ?_
      abort_only := fun hnot => ?_
      terminal_once := fun hend => ?_
      terminal_only := fun hend => ?_
      terminal_last := fun before info reason after hsplit => ?_ }
  · obtain ⟨before, after, hsplit⟩ := List.append_of_mem hcall
    exact (hallowed _ _ _ hsplit).1
  · obtain ⟨-, -, hoffset, hnonempty, -⟩ := hallowed _ _ _ hsplit
    exact ⟨hoffset, hnonempty⟩
  · obtain ⟨before, after, hsplit⟩ := List.append_of_mem hcall
    exact (hallowed _ _ _ hsplit).2.2
  · rw [hended hend] at hledger
    rcases hledger.2.2 with ⟨habort, -⟩ | ⟨-, hsuccess⟩
    · exact habort
    · exact absurd hsuccess hok
  · by_cases hend : ended
    · rw [hended hend] at hledger
      rcases hledger.2.2 with ⟨-, hok⟩ | ⟨habort, -⟩
      · exact absurd ⟨hend, hok⟩ hnot
      · exact habort
    · obtain ⟨consumed, rfl⟩ := hrunning hend
      exact hledger.2.2.2.2.2.1
  · rw [hended hend] at hledger
    exact hledger.2.1
  · obtain ⟨consumed, rfl⟩ := hrunning hend
    exact hledger.2.2.2.2.2.2
  · cases after with
    | nil => rfl
    | cons call after =>
        have hbefore := (hallowed (before ++ [.terminal context info reason]) call after
          (by simp [hsplit])).2.1
        simp [isTerminal] at hbefore

/-- The session of a receiving transfer ends in the phase its calls lead to. -/
theorem exists_session_phase {before after : List Event} {size : UInt64} {last : Phase}
    (hreaches : Reaches (before ++ .begin context .hostToDevice size .ok :: after) last) :
    ∃ phase, Lifecycle context size.toNat (callbacks after) phase ∧
      (session after ≠ after → phase = .idle) ∧ (session after = after → phase = last) := by
  obtain ⟨started, phase, hbegin, hsession, hmore, hlast⟩ := exists_session hreaches rfl
  cases hbegin
  exact ⟨phase, lifecycle_run hsession fun event => startsTransfer_of_mem_session, hmore, hlast⟩

/-- Receive-side safety: whatever the endpoints, the output and the incoming
frames do, every host-to-device transfer that began gives its endpoint a safe
sequence of calls, and the counters of a running one are the bytes consumed. -/
theorem receive_lifecycle (nextTransferId : UInt32) (output : OutputSink W) (world : W)
    (ops : List (Operation W)) {before after : List Event} {context : Option Nat} {size : UInt64}
    (hbegin : (tracedRun nextTransferId output world ops).world.events =
      before ++ .begin context .hostToDevice size .ok :: after) :
    ReceiveSafe context size.toNat (Ended (tracedRun nextTransferId output world ops) after)
        (callbacks after) ∧
      (¬ Ended (tracedRun nextTransferId output world ops) after →
        let manager := (tracedRun nextTransferId output world ops).manager
        manager.active = true ∧ manager.direction = .hostToDevice ∧
          manager.endpoint.context = context ∧ manager.totalBytes = size ∧
          manager.transferredBytes.toNat = consumedBytes (callbacks after) ∧
          manager.expectedOffset = manager.transferredBytes) := by
  have hholds := traced_run nextTransferId output world ops
  generalize tracedRun nextTransferId output world ops = d at hbegin hholds ⊢
  cases hactive : d.manager.active with
  | false =>
      have hreaches := (hholds.inactive hactive).1
      rw [hbegin] at hreaches
      obtain ⟨phase, hlifecycle, hmore, hlast⟩ := exists_session_phase hreaches
      have hended : Ended d after := .inl hactive
      refine ⟨hlifecycle.receiveSafe (fun _ => ?_) (fun hnot => absurd hended hnot),
        fun hnot => absurd hended hnot⟩
      by_cases hsame : session after = after
      · exact hlast hsame
      · exact hmore hsame
  | true =>
      obtain ⟨-, -, hpositioned, -, phase', hreaches, hmatches⟩ := hholds.active hactive
      rw [hbegin] at hreaches
      obtain ⟨phase, hlifecycle, hmore, hlast⟩ := exists_session_phase hreaches
      have hledger := hlifecycle.ledger
      have hrunning : ¬ Ended d after → d.manager.direction = .hostToDevice ∧
          phase = .receiving d.manager.endpoint.context d.manager.totalBytes.toNat
            d.manager.transferredBytes.toNat := by
        intro hnot
        obtain rfl := hlast (by simpa [Ended, hactive] using hnot)
        cases hdirection : d.manager.direction with
        | hostToDevice =>
            exact ⟨rfl, (matches_rx (p := progressOf d.manager) hdirection).mp hmatches⟩
        | deviceToHost =>
            obtain ⟨sent, rfl, -⟩ := (matches_tx (p := progressOf d.manager) hdirection).mp hmatches
            exact hledger.elim
      constructor
      · refine hlifecycle.receiveSafe (fun hended => ?_) (fun hnot => ?_)
        · rcases hended with hidle | hdifferent
          · simp [hactive] at hidle
          · exact hmore hdifferent
        · obtain ⟨-, rfl⟩ := hrunning hnot
          obtain ⟨hcontext, htotal, -⟩ := hledger
          exact ⟨_, by rw [hcontext, htotal]⟩
      · intro hnot
        obtain ⟨hdirection, rfl⟩ := hrunning hnot
        obtain ⟨hcontext, htotal, hconsumed, -⟩ := hledger
        exact ⟨hactive, hdirection, hcontext, UInt64.toNat_inj.mp htotal, hconsumed.symm,
          hpositioned.offset_eq⟩

/-- An endpoint that accepts everything. -/
def acceptingEndpoint (context : Nat) : TransferEndpoint Unit :=
  { context := some context
    begin := some fun w _ _ => (.ok, w)
    consume := some fun w _ _ => (.ok, w)
    produce := some fun w _ requested => ((.ok, List.replicate requested 0), w)
    finish := some fun w => (.ok, w)
    abort := some fun w _ => w
    terminal := some fun w _ _ => w }

/-- A transfer of five bytes in three frames, the first of which comes twice. -/
def finishedReceive : List (Operation Unit) :=
  [.beginRx 5 (acceptingEndpoint 7) {},
    .handleDecodedFrame (decodedImage .data 0 1 0 0 0 [10, 20]) 3,
    .handleDecodedFrame (decodedImage .data 0 1 0 0 0 [10, 20]) 4,
    .handleDecodedFrame (decodedImage .data 0 1 1 2 0 [30]) 5,
    .handleDecodedFrame (decodedImage .data 0 1 2 3 0 [40, 50]) 6, .poll 9]

def acceptingSink : OutputSink Unit := { write := some fun _ _ => (true, ()) }

/-- The calls after its `begin`. -/
def finishedReceiveCalls : List Event :=
  (tracedRun 1 acceptingSink () finishedReceive).world.events.tail

theorem receive_lifecycle_finishedReceive :
    ReceiveSafe (some 7) (5 : UInt64).toNat
        (Ended (tracedRun 1 acceptingSink () finishedReceive) finishedReceiveCalls)
        (callbacks finishedReceiveCalls) ∧
      (callbacks finishedReceiveCalls).take 4 =
        [.consume (some 7) 0 [10, 20] .ok, .consume (some 7) 2 [30] .ok,
          .consume (some 7) 3 [40, 50] .ok, .finish (some 7) .ok] := by
  have hevents : (tracedRun 1 acceptingSink () finishedReceive).world.events =
      [] ++ .begin (some 7) .hostToDevice 5 .ok :: finishedReceiveCalls := by
    decide +kernel
  constructor
  · exact (receive_lifecycle 1 acceptingSink () finishedReceive hevents).1
  · decide +kernel

end EspNp2.BinaryDataPlane.ReceiveLifecycle
