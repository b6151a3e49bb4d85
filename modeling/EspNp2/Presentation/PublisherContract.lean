import EspNp2.Presentation.PublisherInvariant

/-!
What holds of the frame publisher in every interleaving: the display holds one slot at a time, and
what it sees there is one submitted frame, whole, until it gives the slot back.
-/

namespace EspNp2.Presentation.PublisherContract

open EspNp2.Library.Concurrent
open EspNp2.Library.LabelledRun
open EspNp2.Library.Overwriting
open FrameSource
open Publisher
open PublisherWatch
open PublisherInvariant

section Contract

variable (target : Target) (slots : Slots)

/-- What the calls of a run may do and answer. The producer only writes into the slot that it has
claimed; a submit call that fails has changed no slot; a frame that is acquired comes with its
view and with a new token, and the token that is current is the only one that can be released. -/
def Answers (earlier : List Label) : Label → Prop
  | (.producer, ⟨.copyRow slot offset row, _⟩) =>
      (audit earlier).states slot = .writing ∧ offset + row.length ≤ (slots slot).capacity
  | (.producer, ⟨.storeFrame slot _, _⟩) => (audit earlier).states slot = .writing
  | (.producer, ⟨.finishSubmit source status, _⟩) =>
      (audit earlier).claimed = none ∧
        if status = .ok then
          ∃ publication, (audit earlier).published.getLast? = some publication ∧
            publication.source = source
        else (audit earlier).touched = false
  | (.consumer, ⟨.finishAcquire status acquired, _⟩) =>
      match acquired with
      | some (view, token) => status = .ok ∧ (audit earlier).current = none ∧
          ∃ slot publication, (audit earlier).held = some (slot, publication) ∧
            token.slotIndex.toNat = slot ∧
            view = frameView slots publication.source (rowBytesOf target publication.source) slot
              publication.sequence
      | none => status = if (audit earlier).current = none then .noFrame else .busy
  | (.consumer, ⟨.finishRelease token status left, _⟩) =>
      if (audit earlier).current = some token then status = .ok ∧ left = noToken
      else status = .invalidToken ∧ left = token
  | _ => True

/-- What the emulator and the display are promised after a run. -/
structure FrameContract (labels : List Label) (memory : Memory) : Prop where
  writing : ∀ slot, memory.slotState slot = .writing ↔ (audit labels).claimed = some slot
  acquired : ∀ slot other, memory.slotState slot = .acquired → memory.slotState other = .acquired →
    slot = other
  held : ∀ slot, memory.slotState slot = .acquired ↔
    ∃ publication, (audit labels).held = some (slot, publication)
  shown : ∀ slot publication, (audit labels).held = some (slot, publication) →
    publication ∈ (audit labels).published ∧
      Shows target slots (memory.bytes slot) (memory.frame slot) slot publication
  numbers : (audit labels).published.map Publication.sequence =
    (List.range (audit labels).published.length).map fun index => UInt64.ofNat (index + 1)
  lengths : ∀ slot, (memory.bytes slot).length = (slots slot).capacity
  issued : (∀ slot, (audit labels).leases slot < 2 ^ 32) → (audit labels).issued.Nodup
  answers : AtEach (Answers target slots) labels

def RunInv (labels : List Label) (memory : Memory) (watches : Party → Watch) : Prop :=
  Inv target slots (audit labels) memory (watches .producer) (watches .consumer) ∧
    AtEach (Answers target slots) labels

variable {target slots} {labels : List Label} {memory memory' : Memory} {watches : Party → Watch}
  {request : Op} {reply : Result request} {w : Watch}

theorem answers_producer
    (h : Inv target slots (audit labels) memory (watches .producer) (watches .consumer))
    (hobserve : (producerMonitor target slots).observe (watches .producer) ⟨request, reply⟩ =
      some w) :
    Answers target slots labels (.producer, ⟨request, reply⟩) := by
  have hproducer := h.producer
  cases request with
  | copyRow slot offset row =>
      simp only [producerMonitor, observeProducer] at hobserve
      split at hobserve
      case h_2 => cases hobserve
      case h_1 source claimed replacedPending rows hphase =>
        obtain ⟨⟨rfl, hrows, rfl, rfl⟩, -⟩ := Option.ite_none_right_eq_some.mp hobserve
        rw [ProducerOk, hphase] at hproducer
        obtain ⟨hclaimed, -, -, hcopied⟩ := hproducer
        refine ⟨(h.writing slot).mpr hclaimed, ?_⟩
        rw [row_length]
        exact hcopied.room hrows
  | storeFrame slot view =>
      simp only [producerMonitor, observeProducer] at hobserve
      split at hobserve
      case h_2 => cases hobserve
      case h_1 source claimed replacedPending hphase =>
        obtain ⟨⟨rfl, -⟩, -⟩ := Option.ite_none_right_eq_some.mp hobserve
        rw [ProducerOk, hphase] at hproducer
        exact (h.writing slot).mpr hproducer.1
  | finishSubmit source status =>
      simp only [producerMonitor, observeProducer] at hobserve
      split at hobserve
      case h_4 => cases hobserve
      case h_1 wanted scan hphase =>
        obtain ⟨⟨-, hstatus⟩, -⟩ := Option.ite_none_right_eq_some.mp hobserve
        rw [ProducerOk, hphase] at hproducer
        refine ⟨hproducer.1, ?_⟩
        rw [if_neg]
        · exact hproducer.2.2.2.1
        · rcases hstatus with rfl | rfl <;> rintro ⟨⟩
      case h_2 wanted scan hphase =>
        obtain ⟨⟨-, hstatus⟩, -⟩ := Option.ite_none_right_eq_some.mp hobserve
        rw [ProducerOk, hphase] at hproducer
        refine ⟨hproducer.1, ?_⟩
        rw [if_neg]
        · exact hproducer.2.2.2.1
        · rw [hstatus]
          split <;> rintro ⟨⟩
      case h_3 wanted hphase =>
        obtain ⟨⟨rfl, rfl⟩, -⟩ := Option.ite_none_right_eq_some.mp hobserve
        rw [ProducerOk, hphase] at hproducer
        refine ⟨hproducer.1, ?_⟩
        rw [if_pos rfl]
        exact hproducer.2.2
  | _ => trivial

theorem Inv.heldFrame {a : Audit} {p c : Watch} (h : Inv target slots a memory p c)
    {slot : SlotIndex} (hheld : c.held = some slot) :
    ∃ publication, a.held = some (slot, publication) ∧ publication ∈ a.published ∧
      Shows target slots (memory.bytes slot) (memory.frame slot) slot publication := by
  obtain ⟨publication, hcontents, hmem, hshows⟩ :=
    h.stored slot (.inr ((h.acquired slot).mpr hheld))
  refine ⟨publication, ?_, hmem, hshows⟩
  rw [h.held, hheld, Option.bind_some, hcontents]
  rfl

theorem answers_consumer
    (h : Inv target slots (audit labels) memory (watches .producer) (watches .consumer))
    (hobserve : consumerMonitor.observe (watches .consumer) ⟨request, reply⟩ = some w) :
    Answers target slots labels (.consumer, ⟨request, reply⟩) := by
  have hconsumer := h.consumer
  cases request with
  | finishAcquire status acquired =>
      simp only [consumerMonitor, observeConsumer] at hobserve
      split at hobserve
      case h_3 => cases hobserve
      case h_1 failed hphase =>
        obtain ⟨⟨rfl, hstatus⟩, -⟩ := Option.ite_none_right_eq_some.mp hobserve
        rw [ConsumerOk, hphase] at hconsumer
        rw [Answers, hconsumer.1, Watch.token]
        rcases hstatus with ⟨rfl, hheld⟩ | ⟨rfl, hfailed⟩
        · rw [if_neg fun hnone => hheld (Option.map_eq_none_iff.mp hnone)]
        · rw [hconsumer.2 (List.ne_nil_of_mem (hfailed 0))]
          rfl
      case h_2 slot view hphase =>
        obtain ⟨⟨rfl, rfl⟩, -⟩ := Option.ite_none_right_eq_some.mp hobserve
        rw [ConsumerOk, hphase] at hconsumer
        obtain ⟨hheld, hcurrent, hframe⟩ := hconsumer
        obtain ⟨publication, hpublication, -, hshows⟩ := Inv.heldFrame h hheld
        refine ⟨rfl, hcurrent, slot, publication, hpublication, slotToken_index .., ?_⟩
        rw [← hframe]
        exact hshows.view
  | finishRelease token status left =>
      simp only [consumerMonitor, observeConsumer] at hobserve
      rw [Answers]
      split at hobserve
      case h_3 => cases hobserve
      case h_1 given hphase =>
        obtain ⟨⟨rfl, hstatus, hleft, htoken⟩, -⟩ := Option.ite_none_right_eq_some.mp hobserve
        rw [ConsumerOk, hphase] at hconsumer
        rw [hconsumer, if_neg htoken]
        exact ⟨hstatus, hleft⟩
      case h_2 given hphase =>
        obtain ⟨⟨rfl, hstatus, hleft⟩, -⟩ := Option.ite_none_right_eq_some.mp hobserve
        rw [ConsumerOk, hphase] at hconsumer
        rw [hconsumer.2, if_pos rfl]
        exact ⟨hstatus, hleft⟩
  | _ => trivial

theorem runInv_step {party : Party} (h : RunInv target slots labels memory watches)
    (hacts : Acts memory request reply memory') :
    (monitors target slots party).expects (watches party) ⟨request, reply⟩ ∧
      ∀ w, (monitors target slots party).observe (watches party) ⟨request, reply⟩ = some w →
        RunInv target slots (labels ++ [(party, ⟨request, reply⟩)]) memory'
          (Function.update watches party w) := by
  obtain ⟨hinv, hanswers⟩ := h
  cases party with
  | producer =>
      obtain ⟨hexpects, hnext⟩ := inv_producer hinv hacts
      refine ⟨hexpects, fun w hobserve => ⟨?_, ?_⟩⟩
      · rw [audit_snoc]
        exact hnext w hobserve
      · exact atEach_snoc_iff.mpr ⟨hanswers, answers_producer hinv hobserve⟩
  | consumer =>
      obtain ⟨hexpects, hnext⟩ := inv_consumer hinv hacts
      refine ⟨hexpects, fun w hobserve => ⟨?_, ?_⟩⟩
      · rw [audit_snoc]
        exact hnext w hobserve
      · exact atEach_snoc_iff.mpr ⟨hanswers, answers_consumer hinv hobserve⟩

theorem watched_parties (party : Party) :
    Watched (monitors target slots party) (fun _ _ => True)
      ((PublisherSystem.initial target slots memory).threads party) {} := by
  cases party with
  | producer => exact watched_producer
  | consumer => exact watched_consumer

theorem initPublisher_memory (h : initPublisher target slots = (.ok, some memory)) :
    memory = { bytes := fun slot => (slots slot).bytes } := by
  rw [initPublisher] at h
  split at h
  · cases h
  split at h
  · cases h
  · exact (Option.some.inj (Prod.mk.inj h).2).symm

theorem run_runInv (hinit : initPublisher target slots = (.ok, some memory))
    {last : PublisherSystem}
    (hrun : Run (Step Acts) (PublisherSystem.initial target slots memory) labels last) :
    ∃ watches, RunInv target slots labels last.state watches := by
  obtain rfl := initPublisher_memory hinit
  obtain ⟨watches, hinv, -⟩ := system_invariant (I := RunInv target slots) (run_stepIf hrun)
    watched_parties ⟨inv_initial target slots, atEach_nil _⟩
    (fun _ _ _ _ _ _ _ h _ hacts => runInv_step h hacts)
  exact ⟨watches, hinv⟩

/-- In every interleaving of submit, acquire and release calls the display holds at most one slot,
and sees one submitted frame there, whole and unchanged, until it releases the token. -/
theorem publisher_contract (hinit : initPublisher target slots = (.ok, some memory))
    {last : PublisherSystem}
    (hrun : Run (Step Acts) (PublisherSystem.initial target slots memory) labels last) :
    FrameContract target slots labels last.state := by
  obtain ⟨watches, hinv, hanswers⟩ := run_runInv hinit hrun
  have hstate : ∀ slot, last.state.slotState slot = .acquired ↔
      (watches .consumer).held = some slot := by
    intro slot
    rw [← hinv.states]
    exact hinv.acquired slot
  have hheld : ∀ {slot publication}, (audit labels).held = some (slot, publication) →
      (watches .consumer).held = some slot := by
    intro slot publication hpublication
    rw [hinv.held] at hpublication
    obtain ⟨other, hother, hcontents⟩ := Option.bind_eq_some_iff.mp hpublication
    obtain ⟨_, _, hsame⟩ := Option.map_eq_some_iff.mp hcontents
    rw [hother, (Prod.mk.inj hsame).1]
  refine ⟨?_, ?_, ?_, ?_, hinv.numbers, hinv.lengths, fun hleases => (hinv.issued.tokens hleases).1,
    hanswers⟩
  · intro slot
    rw [← hinv.states]
    exact hinv.writing slot
  · intro slot other hslot hother
    have hsame := (hstate slot).mp hslot
    rw [(hstate other).mp hother] at hsame
    exact (Option.some.inj hsame).symm
  · intro slot
    constructor
    · intro hslot
      obtain ⟨publication, hpublication, -⟩ := Inv.heldFrame hinv ((hstate slot).mp hslot)
      exact ⟨publication, hpublication⟩
    · rintro ⟨publication, hpublication⟩
      exact (hstate slot).mpr (hheld hpublication)
  · intro slot publication hpublication
    obtain ⟨shown, hshown, hmem, hshows⟩ := Inv.heldFrame hinv (hheld hpublication)
    rw [hpublication] at hshown
    obtain rfl : publication = shown := (Prod.mk.inj (Option.some.inj hshown)).2
    exact ⟨hmem, hshows⟩

end Contract

section Example

/-- A frame with padding behind its rows, for two slots of which one is larger. -/
def paddedFrame : SourceView :=
  ⟨4096, fun index => UInt8.ofNat (index + 1), 1, 2, 4, 16, .rgb565le, 7, 9⟩

def twoSlots : Slots
  | 0 => ⟨16, [0, 0, 0, 0]⟩
  | 1 => ⟨32, [0, 0, 0, 0, 0, 0]⟩

def wordTarget : Target := ⟨2 ^ 32, Nat.le_refl _⟩

theorem initPublisher_twoSlots : initPublisher wordTarget twoSlots =
    (.ok, some { bytes := fun slot => (twoSlots slot).bytes }) := by
  rw [initPublisher, if_neg (by decide), if_neg (by decide)]

/-- The environment that always submits the frame, and releases the first slot or acquires. -/
def serve (memory : Memory) : (request : Op) → Result request × Memory
  | .loadState slot => (memory.slotState slot, memory)
  | .casState slot expected desired =>
      if memory.slotState slot = expected then
        (true, { memory with slotState := Function.update memory.slotState slot desired })
      else (false, memory)
  | .storeState slot state =>
      ((), { memory with slotState := Function.update memory.slotState slot state })
  | .loadLease slot => (memory.slotLease slot, memory)
  | .storeLease slot lease =>
      ((), { memory with slotLease := Function.update memory.slotLease slot lease })
  | .copyRow slot offset row => ((), { memory with
      bytes := Function.update memory.bytes slot (overwrite (memory.bytes slot) offset row) })
  | .storeFrame slot view => ((), { memory with frame := Function.update memory.frame slot view })
  | .loadFrame slot => (memory.frame slot, memory)
  | .loadSequence => (memory.publishedSequence, memory)
  | .storeSequence sequence => ((), { memory with publishedSequence := sequence })
  | .countCoalesced => ((), { memory with coalescedCount := memory.coalescedCount + 1 })
  | .countDropped => ((), { memory with droppedCount := memory.droppedCount + 1 })
  | .beginSubmit => (paddedFrame, memory)
  | .finishSubmit _ _ => ((), memory)
  | .beginConsume =>
      (if memory.slotState firstSlot = .acquired then
        .release (slotToken firstSlot (memory.slotLease firstSlot))
      else .acquire, memory)
  | .finishAcquire _ _ => ((), memory)
  | .finishRelease _ _ _ => ((), memory)

theorem acts_serve (memory : Memory) (request : Op) :
    Acts memory request (serve memory request).1 (serve memory request).2 := by
  cases request with
  | casState slot expected desired =>
      rw [serve]
      split
      case isTrue hstate => exact .swap desired hstate
      case isFalse hstate => exact .keep desired hstate
  | _ => constructor

/-- The display acquires the first frame while the second one is written. -/
def overlapSchedule : List Party :=
  List.replicate 12 .producer ++ List.replicate 9 .consumer ++ List.replicate 7 .producer

theorem overlapSchedule_acquires :
    (execute serve (fun _ _ => true) overlapSchedule
      (PublisherSystem.initial wordTarget twoSlots
        { bytes := fun slot => (twoSlots slot).bytes })).any
        (fun result => (audit result.1).issued = [slotToken 0 1] ∧
          (audit result.1).claimed = some 1 ∧ result.2.state.bytes 0 = [1, 2, 5, 6]) = true := by
  decide +kernel

theorem publisher_contract_overlap : ∃ labels last,
    Run (Step Acts) (PublisherSystem.initial wordTarget twoSlots
      { bytes := fun slot => (twoSlots slot).bytes }) labels last ∧
      ((audit labels).issued = [slotToken 0 1] ∧ (audit labels).claimed = some 1 ∧
        last.state.bytes 0 = [1, 2, 5, 6]) ∧
      FrameContract wordTarget twoSlots labels last.state := by
  have hacquires := overlapSchedule_acquires
  rw [Option.any_eq_true] at hacquires
  obtain ⟨⟨labels, last⟩, hexecute, hresult⟩ := hacquires
  have hrun := run_of_stepIf (execute_run acts_serve hexecute)
  exact ⟨labels, last, hrun, of_decide_eq_true hresult,
    publisher_contract initPublisher_twoSlots hrun⟩

end Example

end EspNp2.Presentation.PublisherContract
