import Mathlib.Data.UInt
import EspNp2.AudioTransport.HorizonInvariant

/-!
What holds of the horizon mailbox in every interleaving: the consumer observes each
published horizon once, whole and in order, a publication that fails leaves no trace, and a
terminal horizon is the last one.
-/

namespace EspNp2.AudioTransport.HorizonContract

open Library.Concurrent
open Library.LabelledRun
open HorizonMailbox
open HorizonMonitor
open HorizonInvariant

/-- What the calls of a run may answer: a publication that fails has stored nothing, and the
consumer never meets a horizon that goes back. -/
def Answers (earlier : List Label) : Label → Prop
  | (.producer, ⟨.finishPublish _ status, _⟩) => status ≠ .ok → (audit earlier).stores = 0
  | (.consumer, ⟨.finishObserve _ (.observed status _), _⟩) => status ≠ .nonmonotonic
  | _ => True

/-- What the two parties of the mailbox are promised after a run. -/
structure MailboxContract (labels : List Label) (memory : Memory) : Prop where
  observed : (audit labels).observed <+: (audit labels).published
  complete : (audit labels).published.dropLast <+: (audit labels).observed
  emptied : memory .horizonState = horizonEmpty → (audit labels).observed = (audit labels).published
  returned : (audit labels).returned <+: (audit labels).published ∧
    (audit labels).published.length ≤ (audit labels).returned.length + 1
  delivered : (audit labels).delivered <+: (audit labels).observed ∧
    (audit labels).observed.length ≤ (audit labels).delivered.length + 1
  sorted : ((audit labels).published.map Horizon.frame).Pairwise (· ≤ ·)
  terminal : ∀ before horizon after, (audit labels).published = before ++ horizon :: after →
    horizon.flags = flagTerminal → after = []
  answers : AtEach Answers labels

def monitors : Party → Monitor Watch Op Result
  | .producer => producerMonitor
  | .consumer => consumerMonitor

def RunInv (labels : List Label) (memory : Memory) (watches : Party → Watch) : Prop :=
  Inv (audit labels) memory (watches .producer) (watches .consumer) ∧ AtEach Answers labels

variable {labels : List Label} {memory memory' : Memory} {watches : Party → Watch}
  {request : Op} {reply : Result request} {w : Watch}

theorem answers_producer (h : ProducerOk (audit labels) memory (watches .producer))
    (hobserve : producerMonitor.observe (watches .producer) ⟨request, reply⟩ = some w) :
    Answers labels (.producer, ⟨request, reply⟩) := by
  cases request with
  | finishPublish call status =>
      intro hstatus
      simp only [producerMonitor, observeProducer] at hobserve
      split at hobserve
      · rename_i horizon hphase
        rw [ProducerOk, hphase] at h
        exact h.2.2
      · simp [hstatus] at hobserve
      · cases hobserve
  | _ => trivial

theorem answers_consumer
    (hobserve : consumerMonitor.observe (watches .consumer) ⟨request, reply⟩ = some w) :
    Answers labels (.consumer, ⟨request, reply⟩) := by
  cases request with
  | finishObserve call answer =>
      cases answer with
      | pending value => trivial
      | observed status observation =>
          rintro rfl
          simp [consumerMonitor, observeConsumer] at hobserve
  | _ => trivial

theorem runInv_step {party : Party} (h : RunInv labels memory watches)
    (hacts : Acts memory request reply memory') :
    (monitors party).expects (watches party) ⟨request, reply⟩ ∧
      ∀ w, (monitors party).observe (watches party) ⟨request, reply⟩ = some w →
        RunInv (labels ++ [(party, ⟨request, reply⟩)]) memory'
          (Function.update watches party w) := by
  obtain ⟨hinv, hanswers⟩ := h
  cases party with
  | producer =>
      obtain ⟨hexpects, hnext⟩ := inv_producer hinv hacts
      refine ⟨hexpects, fun w hobserve => ⟨?_, ?_⟩⟩
      · rw [audit_snoc]
        exact hnext w hobserve
      · exact atEach_snoc_iff.mpr ⟨hanswers, answers_producer hinv.producer hobserve⟩
  | consumer =>
      obtain ⟨hexpects, hnext⟩ := inv_consumer hinv hacts
      refine ⟨hexpects, fun w hobserve => ⟨?_, ?_⟩⟩
      · rw [audit_snoc]
        exact hnext w hobserve
      · exact atEach_snoc_iff.mpr ⟨hanswers, answers_consumer hobserve⟩

theorem watched_parties (party : Party) :
    Watched (monitors party) (fun _ _ => True) (MailboxSystem.initial.threads party) {} := by
  cases party with
  | producer => exact watched_producer
  | consumer => exact watched_consumer

theorem run_runInv {last : MailboxSystem}
    (hrun : Run (Step Acts) MailboxSystem.initial labels last) :
    ∃ watches, RunInv labels last.state watches := by
  obtain ⟨watches, hinv, -⟩ := system_invariant (I := RunInv) (run_stepIf hrun) watched_parties
    ⟨inv_initial, atEach_nil _⟩ (fun _ _ _ _ _ _ _ h _ hacts => runInv_step h hacts)
  exact ⟨watches, hinv⟩

/-- The horizons that are published and not observed. -/
theorem observed_published {a : Audit} {p c : Watch} (h : Inv a memory p c) :
    a.observed = a.published ∨ ∃ horizon, a.published = a.observed ++ [horizon] := by
  by_cases hempty : memory .horizonState = horizonEmpty
  · exact .inl (h.empty hempty)
  · have hfull := (h.full hempty).1
    have hconsumer := h.consumer
    by_cases hphase : ∃ horizon, c.phase = .recorded horizon
    · obtain ⟨horizon, hphase⟩ := hphase
      rw [ConsumerOk, hphase] at hconsumer
      exact .inl hconsumer.2.2
    · obtain ⟨horizon, hpublished, -⟩ := h.pending hfull fun horizon hrecorded =>
        hphase ⟨horizon, hrecorded⟩
      exact .inr ⟨horizon, hpublished⟩

theorem returned_published {a : Audit} {p : Watch} (h : ProducerOk a memory p) :
    a.published = a.returned ∨ ∃ horizon, a.published = a.returned ++ [horizon] := by
  unfold ProducerOk at h
  split at h
  · exact .inl h.symm
  · exact .inl h.1.symm
  · exact .inl h.1.symm
  · exact .inr ⟨_, h⟩
  · exact h.elim

theorem delivered_observed {a : Audit} {c : Watch} (h : ConsumerOk a memory c) :
    a.observed = a.delivered ∨ ∃ horizon, a.observed = a.delivered ++ [horizon] := by
  unfold ConsumerOk at h
  split at h
  · exact .inl h.symm
  · exact .inl h.symm
  · exact .inl h.1.symm
  · exact .inl h.1.symm
  · exact .inr ⟨_, h.1⟩
  · exact .inr ⟨_, h⟩
  · exact h.elim

theorem isPrefix_of_snoc {left right : List Horizon}
    (h : left = right ∨ ∃ horizon, left = right ++ [horizon]) :
    right <+: left ∧ left.length ≤ right.length + 1 := by
  rcases h with rfl | ⟨horizon, rfl⟩
  · exact ⟨List.prefix_rfl, by omega⟩
  · exact ⟨List.prefix_append _ _, by simp⟩

/-- In every interleaving of the two parties the consumer observes what was published, in
order, whole, and each horizon once before the next one is published. -/
theorem mailbox_contract {last : MailboxSystem}
    (hrun : Run (Step Acts) MailboxSystem.initial labels last) :
    MailboxContract labels last.state := by
  obtain ⟨watches, hinv, hanswers⟩ := run_runInv hrun
  have hobserved := observed_published hinv
  refine ⟨?_, ?_, hinv.empty, isPrefix_of_snoc (returned_published hinv.producer),
    isPrefix_of_snoc (delivered_observed hinv.consumer), hinv.sorted, hinv.last, hanswers⟩
  · exact (isPrefix_of_snoc (hobserved.imp_left Eq.symm)).1
  · rcases hobserved with hsame | ⟨horizon, hpublished⟩
    · rw [hsame]
      exact List.dropLast_prefix _
    · rw [hpublished]
      exact ⟨[], by rw [List.append_nil, List.dropLast_concat]⟩

/-- The environment that always asks for the same two calls. -/
def serve (call : PublishCall) (memory : Memory) : (request : Op) → Result request × Memory
  | .load cell => (memory cell, memory)
  | .store cell value => ((), Function.update memory cell value)
  | .record _ => ((), memory)
  | .beginPublish => (call, memory)
  | .finishPublish _ _ => ((), memory)
  | .beginObserve => (.tryObserveDetail, memory)
  | .finishObserve _ _ => ((), memory)

theorem acts_serve (call : PublishCall) (memory : Memory) (request : Op) :
    Acts memory request (serve call memory request).1 (serve call memory request).2 := by
  cases request <;> constructor

/-- A horizon that needs both words of the frame. -/
def wideCall : PublishCall := .terminalHorizonPublish (2 ^ 33 + 7) (2 ^ 40) 3

/-- The consumer observes the horizon before the publish call has returned. -/
def eagerSchedule : List Party :=
  List.replicate 11 .producer ++ List.replicate 11 .consumer ++ List.replicate 4 .producer

theorem eagerSchedule_delivers :
    (execute (serve wideCall) (fun _ _ => true) eagerSchedule MailboxSystem.initial).any
      (fun result =>
      (audit result.1).delivered = [⟨2 ^ 33 + 7, flagTerminal, 3⟩]) = true := by
  decide +kernel

theorem mailbox_contract_wide : ∃ labels last,
    Run (Step Acts) MailboxSystem.initial labels last ∧
      (audit labels).delivered = [⟨2 ^ 33 + 7, flagTerminal, 3⟩] ∧
      MailboxContract labels last.state := by
  have hdelivers := eagerSchedule_delivers
  rw [Option.any_eq_true] at hdelivers
  obtain ⟨⟨labels, last⟩, hexecute, hresult⟩ := hdelivers
  have hrun := run_of_stepIf (execute_run (acts_serve wideCall) hexecute)
  exact ⟨labels, last, hrun, of_decide_eq_true hresult, mailbox_contract hrun⟩

end EspNp2.AudioTransport.HorizonContract
