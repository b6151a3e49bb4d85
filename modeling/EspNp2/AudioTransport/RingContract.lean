import EspNp2.AudioTransport.RingSides

/-!
The transport rings are bounded queues in every interleaving, and the reset barriers of the
event ring are numbered without a gap.
-/

namespace EspNp2.AudioTransport.RingContract

open Library.Concurrent
open Library.LabelledRun
open Library.SharedRing
open TransportRings
open RingSides
open LiveService.ServiceMemory (Event)

section Systems

abbrev EventLabel := Side × RingLabel Event EventPush EventAsk (Option UInt32)

def eventSystem (producerResetOrdinal : UInt32) (slots : Nat → Event) :
    System Side EventOp Result (fun _ => Unit) (RingMemory Event) where
  threads
    | .producer => eventProducer producerResetOrdinal
    | .consumer => eventConsumer
  state := ⟨0, 0, slots⟩

def byteSystem (slots : Nat → UInt8) :
    System Side ByteOp Result (fun _ => Unit) (RingMemory UInt8) where
  threads
    | .producer => byteProducer
    | .consumer => byteConsumer
  state := ⟨0, 0, slots⟩

def spscSystem {E : Type} (slots : Nat → E) :
    System Side (SpscOp E) Result (fun _ => Unit) (RingMemory E) where
  threads
    | .producer => spscProducer
    | .consumer => spscConsumer
  state := ⟨0, 0, slots⟩

end Systems

section Ordinals

/-- The producer's reset ordinal behind these labels. -/
def resetOrdinal (start : UInt32) (labels : List EventLabel) : UInt32 :=
  labels.foldl (fun ordinal label =>
    match label with
    | (.producer, ⟨.finishPush (some after) _ _, _⟩) => after
    | _ => ordinal) start

/-- The ordinals of the reset barriers that were enqueued. -/
def resetOrdinals (labels : List EventLabel) : List UInt32 :=
  labels.flatMap fun
    | (.producer, ⟨.finishPush (some _) events .ok, _⟩) => events.map Event.payload
    | _ => []

/-- A call that enqueues no reset barrier leaves the ordinal. -/
def KeepsOrdinal (start : UInt32) (earlier : List EventLabel) : EventLabel → Prop
  | (.producer, ⟨.finishPush (some after) _ status, _⟩) =>
      status ≠ .ok → after = resetOrdinal start earlier
  | _ => True

structure OrdinalContract (start : UInt32) (labels : List EventLabel) : Prop where
  consecutive : (resetOrdinals labels).map UInt32.toNat =
    List.range' (start.toNat + 1) (resetOrdinals labels).length
  keeps : AtEach (KeepsOrdinal start) labels

/-- The monitor follows the producer's ordinal. -/
def ordinalMonitor : Side → Monitor UInt32 EventOp Result
  | .producer =>
      { expects := fun _ _ => True
        observe := fun ordinal label =>
          match label with
          | ⟨.finishPush (some after) events status, _⟩ =>
              if status = .ok then
                if ordinal ≠ 0xffffffff ∧ after = ordinal + 1 ∧
                    events.map Event.payload = [ordinal + 1] then
                  some after
                else none
              else if after = ordinal then some after else none
          | _ => some ordinal }
  | .consumer => { expects := fun _ _ => True, observe := fun ordinal _ => some ordinal }

theorem ordinal_eventRingEnqueue (event : Event) (ordinal : UInt32) :
    Watched (ordinalMonitor .producer) (fun ordinal' _ => ordinal' = ordinal)
      (eventRingEnqueue event) ordinal := by
  refine watched_op_iff.mpr fun head _ => ⟨ordinal, rfl, ?_⟩
  refine watched_op_iff.mpr fun tail _ => ⟨ordinal, rfl, ?_⟩
  dsimp only [Thread.bind]
  split
  · exact watched_done_iff.mpr rfl
  split
  · exact watched_done_iff.mpr rfl
  · refine watched_op_iff.mpr fun _ _ => ⟨ordinal, rfl, ?_⟩
    refine watched_op_iff.mpr fun _ _ => ⟨ordinal, rfl, ?_⟩
    exact watched_done_iff.mpr rfl

theorem ordinal_eventProducer (start : UInt32) :
    Watched (ordinalMonitor .producer) (fun _ _ => True) (eventProducer start) start := by
  refine watched_iterate (fun ordinal ordinal' => ordinal = ordinal') rfl ?_
  rintro ordinal _ rfl
  refine watched_op_iff.mpr fun call _ => ⟨ordinal, rfl, ?_⟩
  cases call with
  | enqueue event =>
      change Watched _ _ (Thread.bind (eventRingEnqueue event) _) _
      refine Watched.bind ((ordinal_eventRingEnqueue event ordinal).mono ?_)
      rintro _ status rfl
      exact watched_op_iff.mpr fun _ _ => ⟨_, rfl, watched_done_iff.mpr rfl⟩
  | resetEnqueue event =>
      change Watched _ _ (Thread.bind (resetEventRingEnqueue event ordinal) _) _
      refine Watched.bind ?_
      unfold resetEventRingEnqueue
      split
      · refine watched_done_iff.mpr (watched_op_iff.mpr fun _ _ => ⟨ordinal, ?_, ?_⟩)
        · simp [ordinalMonitor]
        · exact watched_done_iff.mpr rfl
      · rename_i hallowed
        rw [not_or] at hallowed
        refine Watched.bind ((ordinal_eventRingEnqueue _ ordinal).mono ?_)
        rintro current status rfl
        refine watched_done_iff.mpr (watched_op_iff.mpr fun _ _ => ?_)
        refine ⟨if status = .ok then current + 1 else current, ?_, watched_done_iff.mpr rfl⟩
        by_cases hstatus : status = .ok
        · simp [ordinalMonitor, hstatus, hallowed.2]
        · simp [ordinalMonitor, hstatus]

/-- What the ordinals of a run have come to. -/
structure Numbered (start : UInt32) (labels : List EventLabel) (ordinal : UInt32) : Prop where
  current : resetOrdinal start labels = ordinal
  consecutive : (resetOrdinals labels).map UInt32.toNat =
    List.range' (start.toNat + 1) (resetOrdinals labels).length
  count : ordinal.toNat = start.toNat + (resetOrdinals labels).length
  keeps : AtEach (KeepsOrdinal start) labels

theorem resetOrdinal_snoc (start : UInt32) (labels : List EventLabel) (label : EventLabel) :
    resetOrdinal start (labels ++ [label]) = resetOrdinal (resetOrdinal start labels) [label] := by
  simp [resetOrdinal]

theorem resetOrdinals_snoc (labels : List EventLabel) (label : EventLabel) :
    resetOrdinals (labels ++ [label]) = resetOrdinals labels ++ resetOrdinals [label] := by
  simp [resetOrdinals]

/-- A step that is no end of a reset call. -/
theorem Numbered.keep {start ordinal : UInt32} {labels : List EventLabel} {label : EventLabel}
    (h : Numbered start labels ordinal)
    (hordinal : resetOrdinal (resetOrdinal start labels) [label] = resetOrdinal start labels)
    (hordinals : resetOrdinals [label] = []) (hkeeps : KeepsOrdinal start labels label) :
    Numbered start (labels ++ [label]) ordinal := by
  refine ⟨?_, ?_, ?_, atEach_snoc_iff.mpr ⟨h.keeps, hkeeps⟩⟩
  · rw [resetOrdinal_snoc, hordinal, h.current]
  · rw [resetOrdinals_snoc, hordinals, List.append_nil]
    exact h.consecutive
  · rw [resetOrdinals_snoc, hordinals, List.append_nil]
    exact h.count

theorem numbered_step {start ordinal ordinal' : UInt32} {labels : List EventLabel}
    {request : EventOp} {reply : Result request} (h : Numbered start labels ordinal)
    (hobserve : (ordinalMonitor .producer).observe ordinal ⟨request, reply⟩ = some ordinal') :
    Numbered start (labels ++ [(.producer, ⟨request, reply⟩)]) ordinal' := by
  cases request with
  | finishPush detail events status =>
      cases detail with
      | none =>
          obtain rfl : ordinal = ordinal' := Option.some.inj hobserve
          exact h.keep rfl rfl trivial
      | some after =>
          simp only [ordinalMonitor] at hobserve
          split at hobserve
          · rename_i hok
            subst hok
            split at hobserve
            · rename_i hnext
              obtain ⟨hmax, rfl, hpayload⟩ := hnext
              cases hobserve
              have hordinals : resetOrdinals
                  [((.producer, ⟨.finishPush (some (ordinal + 1)) events .ok, reply⟩) : EventLabel)]
                    =
                    [ordinal + 1] := by
                simpa [resetOrdinals] using hpayload
              have hlt : ordinal.toNat < 0xffffffff := by
                refine Nat.lt_of_le_of_ne (Nat.le_of_lt_succ ordinal.toNat_lt) fun heq => hmax ?_
                exact UInt32.toNat_inj.mp heq
              have hsucc : (ordinal + 1).toNat = ordinal.toNat + 1 := by
                rw [UInt32.toNat_add, show (1 : UInt32).toNat = 1 from rfl]
                omega
              refine ⟨resetOrdinal_snoc _ _ _, ?_, ?_, atEach_snoc_iff.mpr ⟨h.keeps, nofun⟩⟩
              · rw [resetOrdinals_snoc, hordinals, List.map_append, h.consecutive,
                  List.length_append,
                  List.length_singleton, List.range'_concat, List.map_singleton, hsucc, h.count,
                  Nat.one_mul]
                congr 2
                omega
              · rw [resetOrdinals_snoc, hordinals, List.length_append, hsucc, h.count]
                rfl
            · cases hobserve
          · rename_i hstatus
            split at hobserve
            · rename_i hafter
              cases hobserve
              subst hafter
              refine h.keep h.current.symm ?_ fun _ => h.current.symm
              cases status <;> first | rfl | exact absurd rfl hstatus
            · cases hobserve
  | _ =>
      obtain rfl : ordinal = ordinal' := Option.some.inj hobserve
      exact h.keep rfl rfl trivial

theorem event_ordinals {start : UInt32} {slots : Nat → Event} {labels : List EventLabel}
    {last : System Side EventOp Result (fun _ => Unit) (RingMemory Event)}
    (hrun : Run (Step Acts) (eventSystem start slots) labels last) :
    OrdinalContract start labels := by
  have hwatched : ∀ side, Watched (ordinalMonitor side) (fun _ _ => True)
      ((eventSystem start slots).threads side) start := by
    rintro (_ | _)
    · exact ordinal_eventProducer start
    · refine ⟨fun _ _ => True, ?_, trivial⟩
      rintro (_ | _ | _) ordinal - <;> simp [ordinalMonitor]
  obtain ⟨watches, hnumbered, -⟩ := system_invariant
    (I := fun labels _ watches => Numbered start labels (watches .producer))
    (run_stepIf hrun) hwatched ⟨rfl, rfl, rfl, atEach_nil _⟩ (by
      rintro labels memory watches side request reply memory' h - -
      cases side with
      | producer => exact ⟨trivial, fun ordinal hobserve => numbered_step h hobserve⟩
      | consumer =>
          refine ⟨trivial, fun ordinal _ => ?_⟩
          exact h.keep rfl rfl trivial)
  exact ⟨hnumbered.consecutive, hnumbered.keeps⟩

end Ordinals

section Contract

/-- The three rings of the transport are bounded queues in every interleaving of their sides. -/
structure TransportContract : Prop where
  eventRing : ∀ ordinal slots labels last,
    Run (Step Acts) (eventSystem ordinal slots) labels last →
      RingContract eventRing eventRefusals ⟨0, 0, slots⟩ labels last.state ∧
        OrdinalContract ordinal labels
  byteRing : ∀ slots labels last, Run (Step Acts) (byteSystem slots) labels last →
    RingContract byteRing byteRefusals ⟨0, 0, slots⟩ labels last.state
  spscQueue : ∀ (E : Type) (slots : Nat → E) labels last,
    Run (Step Acts) (spscSystem slots) labels last →
      RingContract spscRing spscRefusals ⟨0, 0, slots⟩ labels last.state

theorem watched_eventSystem (ordinal : UInt32) (slots : Nat → Event) (side : Side) :
    Watched (monitors eventRing eventRefusals side) (fun _ _ => True)
      ((eventSystem ordinal slots).threads side)
      {} := by
  cases side with
  | producer => exact watched_eventProducer ordinal
  | consumer => exact watched_eventConsumer

theorem watched_byteSystem (slots : Nat → UInt8) (side : Side) :
    Watched (monitors byteRing byteRefusals side) (fun _ _ => True)
      ((byteSystem slots).threads side) {} := by
  cases side with
  | producer => exact watched_byteProducer
  | consumer => exact watched_byteConsumer

theorem watched_spscSystem {E : Type} (slots : Nat → E) (side : Side) :
    Watched (monitors spscRing spscRefusals side) (fun _ _ => True)
      ((spscSystem slots).threads side) {} := by
  cases side with
  | producer => exact watched_spscProducer
  | consumer => exact watched_spscConsumer

theorem transport_rings_are_queues : TransportContract where
  eventRing := fun ordinal slots _ _ hrun =>
    ⟨ring_contract hrun (watched_eventSystem ordinal slots) rfl, event_ordinals hrun⟩
  byteRing := fun slots _ _ hrun => ring_contract hrun (watched_byteSystem slots) rfl
  spscQueue := fun _ slots _ _ hrun => ring_contract hrun (watched_spscSystem slots) rfl

/-- The environment that always pushes the same bytes and pops so many. -/
def serveBytes (bytes : List UInt8) (count : Nat) (memory : RingMemory UInt8) :
    (request : ByteOp) → Result request × RingMemory UInt8
  | .loadHead => (memory.head, memory)
  | .loadTail => (memory.tail, memory)
  | .storeHead index => ((), { memory with head := index })
  | .storeTail index => ((), { memory with tail := index })
  | .readSlot position => (memory.slots position, memory)
  | .writeSlot position byte =>
      ((), { memory with slots := Function.update memory.slots position byte })
  | .beginPush => (bytes, memory)
  | .finishPush _ _ _ => ((), memory)
  | .beginTake => (.pop count, memory)
  | .finishTake _ _ _ => ((), memory)

theorem acts_serveBytes (bytes : List UInt8) (count : Nat) (memory : RingMemory UInt8)
    (request : ByteOp) : Acts memory request (serveBytes bytes count memory request).1
      (serveBytes bytes count memory request).2 := by
  cases request <;> constructor

/-- The consumer pops two bytes while the producer is about to return. -/
def popSchedule : List Side :=
  List.replicate 7 .producer ++ List.replicate 9 .consumer

theorem popSchedule_returns :
    (execute (serveBytes [7, 8, 9] 2) (fun _ _ => true) popSchedule (byteSystem fun _ => 0)).any
      (fun result => (audit byteRing ⟨0, 0, fun _ => 0⟩ result.1).returned = [7, 8] &&
        (audit byteRing ⟨0, 0, fun _ => 0⟩ result.1).accepted = []) = true := by
  decide +kernel

theorem transport_rings_pop : ∃ labels last,
    Run (Step Acts) (byteSystem fun _ => 0) labels last ∧
      (audit byteRing ⟨0, 0, fun _ => 0⟩ labels).returned = [7, 8] ∧
      RingContract byteRing byteRefusals ⟨0, 0, fun _ => 0⟩ labels last.state := by
  have hreturns := popSchedule_returns
  rw [Option.any_eq_true] at hreturns
  obtain ⟨⟨labels, last⟩, hexecute, hresult⟩ := hreturns
  simp only [Bool.and_eq_true, decide_eq_true_eq] at hresult
  have hrun := run_of_stepIf (execute_run (acts_serveBytes [7, 8, 9] 2) hexecute)
  exact ⟨labels, last, hrun, hresult.1, transport_rings_are_queues.byteRing _ labels last hrun⟩

end Contract

end EspNp2.AudioTransport.RingContract
