import EspNp2.AudioTransport.HorizonMonitor

/-!
The invariant of the horizon mailbox.  The labels of a run tell which horizons were
published, which were recorded by an observation and which calls have returned; between a
publication and the observation of it the mailbox belongs to the consumer, and otherwise to
the producer.
-/

namespace EspNp2.AudioTransport.HorizonInvariant

open Library.Concurrent
open Library.LabelledRun
open HorizonMailbox
open HorizonMonitor

section Audit

/-- What the labels of a run tell. -/
structure Audit where
  /-- The horizon of the last publish call. -/
  current : Horizon := ⟨0, flagNone, 0⟩
  /-- The stores of that call. -/
  stores : Nat := 0
  /-- The horizons for which the producer has stored FULL. -/
  published : List Horizon := []
  /-- The horizons whose publish call has returned OK. -/
  returned : List Horizon := []
  /-- The horizons that an observation has recorded. -/
  observed : List Horizon := []
  /-- The horizons that a successful observation has returned. -/
  delivered : List Horizon := []
deriving DecidableEq, Repr

def Audit.add (a : Audit) : Label → Audit
  | (.producer, ⟨.beginPublish, call⟩) =>
      { a with current := PublishCall.horizon call, stores := 0 }
  | (.producer, ⟨.store .horizonState _, _⟩) =>
      { a with stores := a.stores + 1, published := a.published ++ [a.current] }
  | (.producer, ⟨.store _ _, _⟩) => { a with stores := a.stores + 1 }
  | (.producer, ⟨.finishPublish call .ok, _⟩) =>
      { a with returned := a.returned ++ [call.horizon] }
  | (.consumer, ⟨.record observation, _⟩) => { a with observed := a.observed ++ [observation] }
  | (.consumer, ⟨.finishObserve _ (.observed .ok (some observation)), _⟩) =>
      { a with delivered := a.delivered ++ [observation] }
  | _ => a

def audit (labels : List Label) : Audit := labels.foldl Audit.add {}

@[simp] theorem audit_snoc (labels : List Label) (label : Label) :
    audit (labels ++ [label]) = (audit labels).add label := by
  simp [audit]

end Audit

section Invariant

variable {a : Audit} {memory : Memory} {p c : Watch} {horizon : Horizon}

/-- The mailbox words carry a horizon. -/
structure Carries (memory : Memory) (horizon : Horizon) : Prop where
  low : memory .horizonFrameLo = frameLo horizon.frame
  high : memory .horizonFrameHi = frameHi horizon.frame
  flags : memory .horizonFlags = horizon.flags
  ordinal : memory .terminalResetOrdinal = horizon.terminalResetOrdinal

/-- The first words of the mailbox. -/
def mailboxWords (memory : Memory) : List UInt32 :=
  [memory .horizonFrameLo, memory .horizonFrameHi, memory .horizonFlags,
    memory .terminalResetOrdinal]

/-- How far the producer's stores have come. -/
structure Writing (a : Audit) (memory : Memory) (p : Watch) (horizon : Horizon) (stores : Nat) :
    Prop where
  current : a.current = horizon
  empty : memory .horizonState = horizonEmpty
  low : 0 < stores → memory .horizonFrameLo = frameLo horizon.frame
  high : 1 < stores → memory .horizonFrameHi = frameHi horizon.frame
  flags : 2 < stores → memory .horizonFlags = horizon.flags
  ordinal : 3 < stores → memory .terminalResetOrdinal = horizon.terminalResetOrdinal
  before : stores ≤ 4 → p.frame ≤ horizon.frame
  after : 4 < stores → p.frame = horizon.frame
  running : stores ≤ 5 → p.terminal = 0
  closed : 5 < stores → p.terminal = 1
  fresh : ∀ h ∈ a.published, h.flags ≠ flagTerminal

def ProducerOk (a : Audit) (memory : Memory) (p : Watch) : Prop :=
  match p.phase with
  | .idle => a.returned = a.published
  | .called horizon => a.returned = a.published ∧ a.current = horizon ∧ a.stores = 0
  | .owner horizon stores => a.returned = a.published ∧ Writing a memory p horizon stores
  | .published horizon => a.published = a.returned ++ [horizon]
  | _ => False

def ConsumerOk (a : Audit) (memory : Memory) (c : Watch) : Prop :=
  match c.phase with
  | .idle | .polled => a.delivered = a.observed
  | .reader words => a.delivered = a.observed ∧ memory .horizonState = horizonFull ∧
      words = (mailboxWords memory).take words.length ∧ words.length ≤ 4 ∧ a.observed ≠ a.published
  | .settled horizon => a.delivered = a.observed ∧ memory .horizonState = horizonFull ∧
      Carries memory horizon ∧ c.frame = horizon.frame ∧ a.observed ≠ a.published
  | .recorded horizon => a.observed = a.delivered ++ [horizon] ∧
      memory .horizonState = horizonFull ∧ a.observed = a.published
  | .emptied horizon => a.observed = a.delivered ++ [horizon]
  | _ => False

structure Inv (a : Audit) (memory : Memory) (p c : Watch) : Prop where
  ownerFrame : memory .committedFrameOwner = p.frame
  ownerTerminal : memory .terminalPublishedOwner = p.terminal
  readerFrame : memory .committedFrameReconstructed = c.frame
  producer : ProducerOk a memory p
  consumer : ConsumerOk a memory c
  empty : memory .horizonState = horizonEmpty → a.observed = a.published
  full : memory .horizonState ≠ horizonEmpty → memory .horizonState = horizonFull ∧
    ∃ earlier horizon, a.published = earlier ++ [horizon] ∧ Carries memory horizon ∧
      (a.observed = earlier ∨ ∃ h, c.phase = .recorded h)
  sorted : (a.published.map Horizon.frame).Pairwise (· ≤ ·)
  bounded : ∀ h ∈ a.published, h.frame ≤ p.frame
  last : ∀ before h after, a.published = before ++ h :: after → h.flags = flagTerminal → after = []
  terminal : ∀ h ∈ a.published, h.flags = flagTerminal → p.terminal ≠ 0
  reached : c.frame = 0 ∨ ∃ h ∈ a.published, c.frame = h.frame

theorem inv_initial : Inv (audit []) Memory.initial {} {} := by
  constructor <;> simp [audit, ProducerOk, ConsumerOk, Memory.initial]

theorem joinFrame_split (frame : UInt64) : joinFrame (frameHi frame) (frameLo frame) = frame := by
  have hlow : frame.toNat % 2 ^ 32 < 2 ^ 32 := Nat.mod_lt _ (by decide)
  have hhigh : frame.toNat / 2 ^ 32 < 2 ^ 32 := by
    have := frame.toNat_lt
    omega
  have hshift : (frame.toNat / 2 ^ 32) <<< 32 % 2 ^ 64 = (frame.toNat / 2 ^ 32) <<< 32 := by
    apply Nat.mod_eq_of_lt
    rw [Nat.shiftLeft_eq]
    omega
  have h32 : UInt64.toNat 32 % 64 = 32 := by decide
  apply UInt64.toNat_inj.mp
  rw [joinFrame, frameHi, frameLo, UInt64.toNat_or, UInt64.toNat_shiftLeft]
  simp only [UInt32.toNat_toUInt64, UInt64.toNat_toUInt32, UInt64.toNat_shiftRight, h32,
    Nat.shiftRight_eq_div_pow]
  rw [Nat.mod_eq_of_lt hhigh, hshift, ← Nat.shiftLeft_add_eq_or_of_lt hlow, Nat.shiftLeft_eq]
  omega

theorem Carries.unique {other : Horizon} (h : Carries memory horizon) (h' : Carries memory other) :
    horizon = other := by
  obtain ⟨frame, flags, ordinal⟩ := horizon
  obtain ⟨frame', flags', ordinal'⟩ := other
  have hframe : frame = frame' := by
    rw [← joinFrame_split frame, ← joinFrame_split frame', ← h.high, ← h.low, ← h'.high, ← h'.low]
  rw [hframe, show flags = flags' from h.flags.symm.trans h'.flags,
    show ordinal = ordinal' from h.ordinal.symm.trans h'.ordinal]

theorem full_ne_empty : horizonFull ≠ horizonEmpty := by decide

/-- In a full mailbox the consumer has yet to observe the last horizon. -/
theorem Inv.pending (h : Inv a memory p c) (hfull : memory .horizonState = horizonFull)
    (hphase : ∀ h, c.phase ≠ .recorded h) :
    ∃ horizon, a.published = a.observed ++ [horizon] ∧ Carries memory horizon := by
  obtain ⟨-, earlier, horizon, hpublished, hcarries, hobserved | ⟨h', hrecorded⟩⟩ :=
    h.full (by rw [hfull]; exact full_ne_empty)
  · exact ⟨horizon, by rw [hobserved, hpublished], hcarries⟩
  · exact absurd hrecorded (hphase h')

/-- While the mailbox is empty the consumer holds nothing of it. -/
theorem ConsumerOk.of_empty {a' : Audit} {memory' : Memory} (h : ConsumerOk a memory c)
    (hempty : memory .horizonState = horizonEmpty) (hobserved : a'.observed = a.observed)
    (hdelivered : a'.delivered = a.delivered) : ConsumerOk a' memory' c := by
  have hnot : memory .horizonState ≠ horizonFull := by
    rw [hempty]
    exact full_ne_empty.symm
  unfold ConsumerOk at h ⊢
  split at h
  · rwa [hobserved, hdelivered]
  · rwa [hobserved, hdelivered]
  · exact absurd h.2.1 hnot
  · exact absurd h.2.1 hnot
  · exact absurd h.2.1 hnot
  · rwa [hobserved, hdelivered]
  · exact h.elim

/-- A store of the producer that leaves the mailbox empty. -/
theorem Inv.write {memory' : Memory} {p' : Watch} (h : Inv a memory p c)
    (hempty : memory .horizonState = horizonEmpty)
    (hstate : memory' .horizonState = memory .horizonState)
    (hreader : memory' .committedFrameReconstructed = memory .committedFrameReconstructed)
    (hframe : memory' .committedFrameOwner = p'.frame)
    (hterminal : memory' .terminalPublishedOwner = p'.terminal)
    (hadvance : p.frame ≤ p'.frame) (hkeep : p.terminal ≠ 0 → p'.terminal ≠ 0)
    (hproducer : ProducerOk { a with stores := a.stores + 1 } memory' p') :
    Inv { a with stores := a.stores + 1 } memory' p' c where
  ownerFrame := hframe
  ownerTerminal := hterminal
  readerFrame := hreader.trans h.readerFrame
  producer := hproducer
  consumer := h.consumer.of_empty hempty rfl rfl
  empty := fun _ => h.empty hempty
  full := fun hfull => absurd (hstate.trans hempty) hfull
  sorted := h.sorted
  bounded := fun horizon hmem => UInt64.le_trans (h.bounded horizon hmem) hadvance
  last := h.last
  terminal := fun horizon hmem hflags => hkeep (h.terminal horizon hmem hflags)
  reached := h.reached

/-- The publication of a horizon. -/
theorem Inv.publish {stores : Nat} {p' : Watch} (h : Inv a memory p c)
    (hphase : p.phase = .owner horizon stores) (hstores : 4 < stores)
    (hflags : stores ≤ 5 → horizon.flags ≠ flagTerminal)
    (hp' : p' = p.goTo (.published horizon)) :
    Inv { a with stores := a.stores + 1, published := a.published ++ [a.current] }
      (Function.update memory .horizonState horizonFull) p' c := by
  have hproducer := h.producer
  rw [ProducerOk, hphase] at hproducer
  obtain ⟨hreturned, hwriting⟩ := hproducer
  have hobserved := h.empty hwriting.empty
  have hframe := hwriting.after hstores
  subst hp'
  rw [hwriting.current]
  refine ⟨?_, ?_, ?_, ?_, h.consumer.of_empty hwriting.empty rfl rfl, ?_, ?_, ?_, ?_, ?_, ?_, ?_⟩
  · simpa [Watch.goTo] using h.ownerFrame
  · simpa [Watch.goTo] using h.ownerTerminal
  · simpa using h.readerFrame
  · simp [ProducerOk, Watch.goTo, hreturned]
  · intro hempty
    simp [full_ne_empty] at hempty
  · intro _
    refine ⟨by simp, a.published, horizon, rfl, ?_, .inl hobserved⟩
    exact ⟨by simpa using hwriting.low (by omega), by simpa using hwriting.high (by omega),
      by simpa using hwriting.flags (by omega), by simpa using hwriting.ordinal (by omega)⟩
  · simp only [List.map_append, List.map_cons, List.map_nil, List.pairwise_append]
    refine ⟨h.sorted, List.pairwise_singleton _ _, ?_⟩
    intro frame hmem frame' hmem'
    obtain ⟨other, hother, rfl⟩ := List.mem_map.mp hmem
    obtain rfl : frame' = horizon.frame := by simpa using hmem'
    exact hframe ▸ h.bounded other hother
  · intro other hmem
    rcases List.mem_append.mp hmem with hmem | hmem
    · exact h.bounded other hmem
    · obtain rfl : other = horizon := by simpa using hmem
      exact UInt64.le_of_eq hframe.symm
  · intro before other after hsplit hterminal
    by_contra hafter
    have hmem : other ∈ a.published := by
      obtain ⟨front, hfront⟩ := List.eq_nil_or_concat after |>.resolve_left hafter
      obtain ⟨final, rfl⟩ := hfront
      rw [List.concat_eq_append, ← List.cons_append, ← List.append_assoc] at hsplit
      have hinit := (List.append_inj' hsplit rfl).1
      rw [hinit]
      simp
    exact hwriting.fresh other hmem hterminal
  · intro other hmem hterminal
    rcases List.mem_append.mp hmem with hmem | hmem
    · exact h.terminal other hmem hterminal
    · obtain rfl : other = horizon := by simpa using hmem
      have hlast : 5 < stores := by
        by_contra hle
        exact hflags (by omega) hterminal
      change p.terminal ≠ 0
      rw [hwriting.closed hlast]
      decide
  · rcases h.reached with hzero | ⟨other, hmem, hsame⟩
    · exact .inl hzero
    · exact .inr ⟨other, List.mem_append_left _ hmem, hsame⟩

/-- A step of the producer that leaves the memory as it is. -/
theorem Inv.producerPhase {phase : Phase} (h : Inv a memory p c) (current : Horizon) (stores : Nat)
    (returned : List Horizon)
    (hproducer : ProducerOk { a with current := current, stores := stores, returned := returned }
      memory (p.goTo phase)) :
    Inv { a with current := current, stores := stores, returned := returned } memory
      (p.goTo phase) c :=
  ⟨h.ownerFrame, h.ownerTerminal, h.readerFrame, hproducer, h.consumer, h.empty, h.full, h.sorted,
    h.bounded, h.last, h.terminal, h.reached⟩

theorem inv_store {stores : Nat} {cell : Cell} {value : cell.Value} {p' : Watch}
    (h : Inv a memory p c) (hphase : p.phase = .owner horizon stores)
    (hobserve : observeStore p horizon stores cell value = some p') :
    Inv (a.add (.producer, ⟨.store cell value, ()⟩)) (Function.update memory cell value) p' c := by
  have hproducer := h.producer
  rw [ProducerOk, hphase] at hproducer
  obtain ⟨hreturned, hw⟩ := hproducer
  have hframe := h.ownerFrame
  have hterminal := h.ownerTerminal
  revert hobserve
  fun_cases observeStore p horizon stores cell value
  all_goals intro hobserve
  all_goals cases hobserve
  · refine h.write hw.empty (by simp) (by simp) (by simpa) (by simpa) (UInt64.le_refl _) id ?_
    refine ⟨hreturned, ?_⟩
    constructor <;> simp [hw.current, hw.empty, Watch.goTo, hw.before, hw.running]
    exact hw.fresh
  · refine h.write hw.empty (by simp) (by simp) (by simpa) (by simpa) (UInt64.le_refl _) id ?_
    refine ⟨hreturned, ?_⟩
    constructor <;> simp [hw.current, hw.empty, Watch.goTo, hw.before, hw.running, hw.low]
    exact hw.fresh
  · refine h.write hw.empty (by simp) (by simp) (by simpa) (by simpa) (UInt64.le_refl _) id ?_
    refine ⟨hreturned, ?_⟩
    constructor <;> simp [hw.current, hw.empty, Watch.goTo, hw.before, hw.running, hw.low, hw.high]
    exact hw.fresh
  · refine h.write hw.empty (by simp) (by simp) (by simpa) (by simpa) (UInt64.le_refl _) id ?_
    refine ⟨hreturned, ?_⟩
    constructor <;> simp [hw.current, hw.empty, Watch.goTo, hw.before, hw.running, hw.low,
      hw.high, hw.flags]
    exact hw.fresh
  · refine h.write hw.empty (by simp) (by simp) (by simp) (by simpa) (hw.before (by simp)) id ?_
    refine ⟨hreturned, ?_⟩
    constructor <;> simp [hw.current, hw.empty, hw.running, hw.low, hw.high, hw.flags,
      hw.ordinal]
    exact hw.fresh
  · rename_i hvalue
    obtain ⟨rfl, hflags⟩ := hvalue
    refine h.write hw.empty (by simp) (by simp) (by simpa) (by simp) (UInt64.le_refl _)
      (by simp) ?_
    refine ⟨hreturned, ?_⟩
    constructor <;> simp [hw.current, hw.empty, hw.after, hw.low, hw.high, hw.flags,
      hw.ordinal]
    exact hw.fresh
  · rename_i hvalue
    obtain ⟨rfl, hflags⟩ := hvalue
    exact h.publish hphase (by omega) (fun _ => hflags) rfl
  · exact h.publish hphase (by omega) (by omega) rfl

theorem inv_owner (h : Inv a memory p c) (hphase : p.phase = .called horizon)
    (hempty : memory .horizonState = horizonEmpty) (hterminal : p.terminal = 0)
    (hframe : p.frame ≤ horizon.frame) : Inv a memory (p.goTo (.owner horizon 0)) c := by
  have hproducer := h.producer
  rw [ProducerOk, hphase] at hproducer
  obtain ⟨hreturned, hcurrent, -⟩ := hproducer
  refine h.producerPhase a.current a.stores a.returned ⟨hreturned, ?_⟩
  constructor <;> simp [hcurrent, hempty, hterminal, hframe, Watch.goTo]
  intro other hmem hflags
  exact h.terminal other hmem hflags hterminal

theorem inv_producer {request : Op} {reply : Result request} {memory' : Memory}
    (h : Inv a memory p c) (hacts : Acts memory request reply memory') :
    producerMonitor.expects p ⟨request, reply⟩ ∧
      ∀ p', producerMonitor.observe p ⟨request, reply⟩ = some p' →
        Inv (a.add (.producer, ⟨request, reply⟩)) memory' p' c := by
  have hproducer := h.producer
  cases hacts with
  | load cell =>
      cases cell with
      | terminalPublishedOwner =>
          refine ⟨h.ownerTerminal, ?_⟩
          rintro p' ⟨⟩
          exact h
      | committedFrameOwner =>
          refine ⟨h.ownerFrame, ?_⟩
          rintro p' ⟨⟩
          exact h
      | horizonState =>
          refine ⟨trivial, fun p' hobserve => ?_⟩
          simp only [producerMonitor, observeProducer] at hobserve
          split at hobserve
          · rename_i horizon hphase
            split at hobserve
            · rename_i hempty
              split at hobserve
              · rename_i howns
                cases hobserve
                exact inv_owner h hphase hempty howns.1 howns.2
              · cases hobserve
            · cases hobserve
              exact h
          · cases hobserve
      | _ => exact ⟨trivial, fun p' hobserve => by cases hobserve⟩
  | store cell value =>
      refine ⟨trivial, fun p' hobserve => ?_⟩
      simp only [producerMonitor, observeProducer] at hobserve
      split at hobserve
      · rename_i horizon stores hphase
        exact inv_store h hphase hobserve
      · cases hobserve
  | beginPublish call =>
      refine ⟨trivial, fun p' hobserve => ?_⟩
      simp only [producerMonitor, observeProducer] at hobserve
      split at hobserve
      · rename_i hphase
        cases hobserve
        rw [ProducerOk, hphase] at hproducer
        exact h.producerPhase _ _ _ ⟨hproducer, rfl, rfl⟩
      · cases hobserve
  | finishPublish call status =>
      refine ⟨trivial, fun p' hobserve => ?_⟩
      simp only [producerMonitor, observeProducer] at hobserve
      split at hobserve
      · rename_i horizon hphase
        split at hobserve
        · rename_i hstatus
          cases hobserve
          rw [ProducerOk, hphase] at hproducer
          have hadd : a.add (.producer, ⟨.finishPublish call status, ()⟩) = a := by
            cases status <;> first | rfl | exact absurd rfl hstatus.1
          rw [hadd]
          exact h.producerPhase a.current a.stores a.returned hproducer.1
        · cases hobserve
      · rename_i horizon hphase
        split at hobserve
        · rename_i hstatus
          cases hobserve
          obtain ⟨rfl, rfl⟩ := hstatus
          rw [ProducerOk, hphase] at hproducer
          exact h.producerPhase _ _ _ hproducer.symm
        · cases hobserve
      · cases hobserve
  | _ => exact ⟨trivial, fun p' hobserve => by cases hobserve⟩

/-- A step of the consumer that the producer does not see. -/
theorem ProducerOk.keep {memory' : Memory} (h : ProducerOk a memory p)
    (observed delivered : List Horizon)
    (hmemory : ∀ cell, cell ≠ .committedFrameReconstructed → memory' cell = memory cell) :
    ProducerOk { a with observed := observed, delivered := delivered } memory' p := by
  unfold ProducerOk at h ⊢
  split
  · rename_i hphase
    rwa [hphase] at h
  · rename_i hphase
    rwa [hphase] at h
  · rename_i horizon stores hphase
    rw [hphase] at h
    obtain ⟨hreturned, hw⟩ := h
    refine ⟨hreturned, hw.current, ?_, ?_, ?_, ?_, ?_, hw.before, hw.after, hw.running, hw.closed,
      hw.fresh⟩
    · rw [hmemory _ (by decide)]
      exact hw.empty
    · rw [hmemory _ (by decide)]
      exact hw.low
    · rw [hmemory _ (by decide)]
      exact hw.high
    · rw [hmemory _ (by decide)]
      exact hw.flags
    · rw [hmemory _ (by decide)]
      exact hw.ordinal
  · rename_i hphase
    rwa [hphase] at h
  · rename_i hidle hcalled howner hpublished
    split at h
    · exact hidle ‹_›
    · exact hcalled _ ‹_›
    · exact howner _ _ ‹_›
    · exact hpublished _ ‹_›
    · exact h

/-- The producer does not own a mailbox that is not empty. -/
theorem ProducerOk.of_full {memory' : Memory} (h : ProducerOk a memory p)
    (hfull : memory .horizonState = horizonFull) : ProducerOk a memory' p := by
  unfold ProducerOk at h ⊢
  split at h
  · exact h
  · exact h
  · exact absurd (h.2.empty.symm.trans hfull) full_ne_empty.symm
  · exact h
  · exact h.elim

/-- A step of the consumer that leaves the memory as it is. -/
theorem Inv.consumerPhase {phase : Phase} (h : Inv a memory p c) (delivered : List Horizon)
    (hphase : ∀ h, c.phase ≠ .recorded h)
    (hconsumer : ConsumerOk { a with delivered := delivered } memory (c.goTo phase)) :
    Inv { a with delivered := delivered } memory p (c.goTo phase) where
  ownerFrame := h.ownerFrame
  ownerTerminal := h.ownerTerminal
  readerFrame := h.readerFrame
  producer := h.producer.keep a.observed delivered fun _ _ => rfl
  consumer := hconsumer
  empty := h.empty
  full := by
    intro hstate
    obtain ⟨hfull, earlier, horizon, hpublished, hcarries, hobserved | ⟨h', hrecorded⟩⟩ :=
      h.full hstate
    · exact ⟨hfull, earlier, horizon, hpublished, hcarries, .inl hobserved⟩
    · exact absurd hrecorded (hphase h')
  sorted := h.sorted
  bounded := h.bounded
  last := h.last
  terminal := h.terminal
  reached := h.reached

theorem Carries.join (h : Carries memory horizon) :
    joinFrame (memory .horizonFrameHi) (memory .horizonFrameLo) = horizon.frame := by
  rw [h.high, h.low, joinFrame_split]

theorem Carries.ofWords (h : Carries memory horizon) :
    horizonOfWords (memory .horizonFrameLo) (memory .horizonFrameHi) (memory .horizonFlags)
      (memory .terminalResetOrdinal) = horizon := by
  rw [horizonOfWords, h.join, h.flags, h.ordinal]

/-- The consumer's clock has not passed the last horizon. -/
theorem Inv.clock_le {earlier : List Horizon} (h : Inv a memory p c)
    (hpublished : a.published = earlier ++ [horizon]) : c.frame ≤ horizon.frame := by
  have hsorted := h.sorted
  rw [hpublished, List.map_append, List.pairwise_append] at hsorted
  rcases h.reached with hzero | ⟨other, hmem, hsame⟩
  · rw [hzero]
    exact UInt64.zero_le
  · rw [hsame]
    rw [hpublished] at hmem
    rcases List.mem_append.mp hmem with hmem | hmem
    · exact hsorted.2.2 _ (List.mem_map_of_mem hmem) _ (by simp)
    · obtain rfl : other = horizon := by simpa using hmem
      exact UInt64.le_refl _

/-- The words that a reader has loaded are those of the mailbox. -/
theorem Inv.reading {words : List UInt32} (h : Inv a memory p c)
    (hphase : c.phase = .reader words) :
    memory .horizonState = horizonFull ∧ words = (mailboxWords memory).take words.length ∧
      ∃ horizon, a.published = a.observed ++ [horizon] ∧ Carries memory horizon := by
  have hconsumer := h.consumer
  rw [ConsumerOk, hphase] at hconsumer
  obtain ⟨-, hfull, hwords, -, -⟩ := hconsumer
  refine ⟨hfull, hwords, h.pending hfull ?_⟩
  rw [hphase]
  exact fun _ => nofun

/-- The next word of a reader. -/
theorem Inv.readWord {words : List UInt32} {word : UInt32} (h : Inv a memory p c)
    (hphase : c.phase = .reader words)
    (hword : words ++ [word] = (mailboxWords memory).take (words.length + 1))
    (hlength : words.length < 4) : Inv a memory p (c.goTo (.reader (words ++ [word]))) := by
  have hconsumer := h.consumer
  rw [ConsumerOk, hphase] at hconsumer
  obtain ⟨hdelivered, hfull, -, -, hne⟩ := hconsumer
  refine h.consumerPhase a.delivered (by simp [hphase]) ⟨hdelivered, hfull, ?_, ?_, hne⟩
  · rw [List.length_append]
    exact hword
  · rw [List.length_append]
    exact hlength

/-- The store of the consumer's clock. -/
theorem Inv.settle (h : Inv a memory p c)
    (hphase : c.phase = .reader (mailboxWords memory)) (hcarries : Carries memory horizon)
    (hmem : horizon ∈ a.published) :
    Inv a (Function.update memory .committedFrameReconstructed horizon.frame) p
      { phase := .settled horizon, frame := horizon.frame, terminal := c.terminal } := by
  have hconsumer := h.consumer
  rw [ConsumerOk, hphase] at hconsumer
  obtain ⟨hdelivered, hfull, -, -, hne⟩ := hconsumer
  have hcarries' : Carries (Function.update memory .committedFrameReconstructed horizon.frame)
      horizon := ⟨hcarries.low, hcarries.high, hcarries.flags, hcarries.ordinal⟩
  refine ⟨h.ownerFrame, h.ownerTerminal, by simp, ?_, ?_, h.empty, ?_, h.sorted, h.bounded, h.last,
    h.terminal, .inr ⟨horizon, hmem, rfl⟩⟩
  · exact h.producer.keep a.observed a.delivered fun cell hcell => Function.update_of_ne hcell _ _
  · exact ⟨hdelivered, hfull, hcarries', rfl, hne⟩
  · intro _
    obtain ⟨last, hpublished, hlast⟩ := h.pending hfull (by simp [hphase])
    obtain rfl := hlast.unique hcarries
    exact ⟨hfull, a.observed, last, hpublished, hcarries', .inl rfl⟩

/-- The observation is recorded once. -/
theorem Inv.record (h : Inv a memory p c) (hphase : c.phase = .settled horizon) :
    Inv { a with observed := a.observed ++ [horizon] } memory p (c.goTo (.recorded horizon)) := by
  have hconsumer := h.consumer
  rw [ConsumerOk, hphase] at hconsumer
  obtain ⟨hdelivered, hfull, hcarries, -, -⟩ := hconsumer
  obtain ⟨last, hpublished, hlast⟩ := h.pending hfull (by simp [hphase])
  obtain rfl := hlast.unique hcarries
  refine ⟨h.ownerFrame, h.ownerTerminal, h.readerFrame, ?_, ?_, fun _ => hpublished.symm, ?_,
    h.sorted, h.bounded, h.last, h.terminal, h.reached⟩
  · exact h.producer.keep _ a.delivered fun _ _ => rfl
  · exact ⟨by rw [← hdelivered], hfull, hpublished.symm⟩
  · intro _
    exact ⟨hfull, a.observed, last, hpublished, hcarries, .inr ⟨last, rfl⟩⟩

/-- The mailbox goes back to the producer. -/
theorem Inv.release (h : Inv a memory p c) (hphase : c.phase = .recorded horizon) :
    Inv a (Function.update memory .horizonState horizonEmpty) p (c.goTo (.emptied horizon)) := by
  have hconsumer := h.consumer
  rw [ConsumerOk, hphase] at hconsumer
  obtain ⟨hobserved, hfull, hsame⟩ := hconsumer
  refine ⟨h.ownerFrame, h.ownerTerminal, h.readerFrame, h.producer.of_full hfull, hobserved,
    fun _ => hsame, ?_, h.sorted, h.bounded, h.last, h.terminal, h.reached⟩
  intro hstate
  simp at hstate

theorem inv_finishObserve {call : ObserveCall} {reply : ObserveReply} {c' : Watch}
    (h : Inv a memory p c)
    (hobserve : consumerMonitor.observe c ⟨.finishObserve call reply, ()⟩ = some c') :
    Inv (a.add (.consumer, ⟨.finishObserve call reply, ()⟩)) memory p c' := by
  have hconsumer := h.consumer
  simp only [consumerMonitor, observeConsumer] at hobserve
  split at hobserve
  · rename_i hphase
    cases hobserve
    rw [ConsumerOk, hphase] at hconsumer
    exact h.consumerPhase a.delivered (by simp [hphase]) hconsumer
  · rename_i hphase
    cases hobserve
    rw [ConsumerOk, hphase] at hconsumer
    exact h.consumerPhase a.delivered (by simp [hphase]) hconsumer
  · rename_i hphase
    cases hobserve
    rw [ConsumerOk, hphase] at hconsumer
    exact h.consumerPhase a.delivered (by simp [hphase]) hconsumer.1
  · rename_i horizon observation hphase
    split at hobserve
    · rename_i hsame
      cases hobserve
      subst hsame
      rw [ConsumerOk, hphase] at hconsumer
      exact h.consumerPhase _ (by simp [hphase]) hconsumer.symm
    · cases hobserve
  · cases hobserve

/-- A reader that has loaded all the words has loaded those of the next horizon. -/
theorem Inv.readAll {low high flags resetOrdinal : UInt32} (h : Inv a memory p c)
    (hphase : c.phase = .reader [low, high, flags, resetOrdinal]) :
    [low, high, flags, resetOrdinal] = mailboxWords memory ∧
      ∃ horizon, a.published = a.observed ++ [horizon] ∧ Carries memory horizon ∧
        joinFrame high low = horizon.frame ∧
        horizonOfWords low high flags resetOrdinal = horizon := by
  obtain ⟨-, hwords, horizon, hpublished, hcarries⟩ := h.reading hphase
  obtain ⟨rfl, rfl, rfl, rfl⟩ : low = memory .horizonFrameLo ∧ high = memory .horizonFrameHi ∧
      flags = memory .horizonFlags ∧ resetOrdinal = memory .terminalResetOrdinal := by
    simpa [mailboxWords] using hwords
  exact ⟨rfl, horizon, hpublished, hcarries, hcarries.join, hcarries.ofWords⟩

theorem inv_beginObserve {call : ObserveCall} {c' : Watch} (h : Inv a memory p c)
    (hobserve : consumerMonitor.observe c ⟨.beginObserve, call⟩ = some c') :
    Inv (a.add (.consumer, ⟨.beginObserve, call⟩)) memory p c' := by
  have hconsumer := h.consumer
  simp only [consumerMonitor, observeConsumer] at hobserve
  split at hobserve
  · rename_i hphase
    cases hobserve
    rw [ConsumerOk, hphase] at hconsumer
    exact h.consumerPhase a.delivered (by simp [hphase]) hconsumer
  · cases hobserve

/-- A look at the state opens the mailbox when it is full. -/
theorem inv_loadHorizonState {c' : Watch} (h : Inv a memory p c)
    (hobserve : consumerMonitor.observe c ⟨.load .horizonState, memory .horizonState⟩ = some c') :
    Inv a memory p c' := by
  have hconsumer := h.consumer
  simp only [consumerMonitor, observeConsumer] at hobserve
  split at hobserve
  · rename_i hphase
    rw [ConsumerOk, hphase] at hconsumer
    cases hobserve
    split
    · rename_i hfull
      obtain ⟨horizon, hpublished, -⟩ := h.pending hfull (by simp [hphase])
      refine h.consumerPhase a.delivered (by simp [hphase]) ⟨hconsumer, hfull, rfl, by simp, ?_⟩
      rw [hpublished]
      simp
    · exact h
  · cases hobserve

/-- The consumer's clock as it is before the store of the next one. -/
theorem inv_loadReconstructed (h : Inv a memory p c) :
    consumerMonitor.expects c
      ⟨.load .committedFrameReconstructed, memory .committedFrameReconstructed⟩ := by
  simp only [consumerMonitor]
  split
  · rename_i low high flags resetOrdinal hphase
    obtain ⟨-, horizon, hpublished, -, hframe, -⟩ := h.readAll hphase
    refine ⟨h.readerFrame, ?_⟩
    rw [hframe]
    exact h.clock_le hpublished
  · trivial

theorem inv_load {cell : Cell} {c' : Watch} (h : Inv a memory p c)
    (hobserve : consumerMonitor.observe c ⟨.load cell, memory cell⟩ = some c') :
    Inv a memory p c' := by
  cases cell with
  | horizonState => exact inv_loadHorizonState h hobserve
  | horizonFrameLo =>
      simp only [consumerMonitor, observeConsumer] at hobserve
      split at hobserve
      · rename_i hphase
        cases hobserve
        exact h.readWord hphase rfl (by decide)
      · cases hobserve
  | horizonFrameHi =>
      simp only [consumerMonitor, observeConsumer] at hobserve
      split at hobserve
      · rename_i low hphase
        cases hobserve
        obtain ⟨-, hwords, -⟩ := h.reading hphase
        exact h.readWord hphase (by simpa [mailboxWords] using hwords) (by simp)
      · cases hobserve
  | horizonFlags =>
      simp only [consumerMonitor, observeConsumer] at hobserve
      split at hobserve
      · rename_i low high hphase
        cases hobserve
        obtain ⟨-, hwords, -⟩ := h.reading hphase
        exact h.readWord hphase (by simpa [mailboxWords] using hwords) (by simp)
      · cases hobserve
  | terminalResetOrdinal =>
      simp only [consumerMonitor, observeConsumer] at hobserve
      split at hobserve
      · rename_i low high flags hphase
        cases hobserve
        obtain ⟨-, hwords, -⟩ := h.reading hphase
        exact h.readWord hphase (by simpa [mailboxWords] using hwords) (by simp)
      · cases hobserve
  | committedFrameReconstructed =>
      simp only [consumerMonitor, observeConsumer] at hobserve
      split at hobserve
      · cases hobserve
        exact h
      · cases hobserve
  | _ => cases hobserve

/-- The consumer stores its clock behind the words, and the state behind the record. -/
theorem inv_storeReader {cell : Cell} {value : cell.Value} {c' : Watch} (h : Inv a memory p c)
    (hobserve : consumerMonitor.observe c ⟨.store cell value, ()⟩ = some c') :
    Inv a (Function.update memory cell value) p c' := by
  cases cell with
  | committedFrameReconstructed =>
      simp only [consumerMonitor, observeConsumer] at hobserve
      split at hobserve
      · rename_i low high flags resetOrdinal hphase
        split at hobserve
        · rename_i hvalue
          cases hobserve
          obtain ⟨hwords, horizon, hpublished, hcarries, hframe, hhorizon⟩ := h.readAll hphase
          rw [hwords] at hphase
          rw [hframe] at hvalue
          subst hvalue
          rw [hhorizon]
          exact h.settle hphase hcarries (by simp [hpublished])
        · cases hobserve
      · cases hobserve
  | horizonState =>
      simp only [consumerMonitor, observeConsumer] at hobserve
      split at hobserve
      · rename_i horizon hphase
        split at hobserve
        · rename_i hvalue
          cases hobserve
          subst hvalue
          exact h.release hphase
        · cases hobserve
      · cases hobserve
  | _ => cases hobserve

theorem inv_record {observation : Horizon} {c' : Watch} (h : Inv a memory p c)
    (hobserve : consumerMonitor.observe c ⟨.record observation, ()⟩ = some c') :
    Inv (a.add (.consumer, ⟨.record observation, ()⟩)) memory p c' := by
  simp only [consumerMonitor, observeConsumer] at hobserve
  split at hobserve
  · rename_i hphase
    cases hobserve
    exact h.record hphase
  · cases hobserve

theorem inv_consumer {request : Op} {reply : Result request} {memory' : Memory}
    (h : Inv a memory p c) (hacts : Acts memory request reply memory') :
    consumerMonitor.expects c ⟨request, reply⟩ ∧
      ∀ c', consumerMonitor.observe c ⟨request, reply⟩ = some c' →
        Inv (a.add (.consumer, ⟨request, reply⟩)) memory' p c' := by
  cases hacts with
  | load cell =>
      refine ⟨?_, fun c' hobserve => inv_load h hobserve⟩
      cases cell with
      | committedFrameReconstructed => exact inv_loadReconstructed h
      | _ => trivial
  | store cell value => exact ⟨trivial, fun c' hobserve => inv_storeReader h hobserve⟩
  | record observation => exact ⟨trivial, fun c' hobserve => inv_record h hobserve⟩
  | beginObserve call => exact ⟨trivial, fun c' hobserve => inv_beginObserve h hobserve⟩
  | finishObserve call reply => exact ⟨trivial, fun c' hobserve => inv_finishObserve h hobserve⟩
  | _ => exact ⟨trivial, fun c' hobserve => by cases hobserve⟩

end Invariant

end EspNp2.AudioTransport.HorizonInvariant
