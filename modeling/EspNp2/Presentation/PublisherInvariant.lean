import EspNp2.Presentation.PublisherWatch

/-!
What the labels of a run tell about the publisher, and the invariant that ties them to the memory
and to the two watches.
-/

namespace EspNp2.Presentation.PublisherInvariant

open EspNp2.Library.Concurrent
open EspNp2.Library.Overwriting
open FrameSource
open Publisher
open PublisherWatch

section Audit

structure Publication where
  source : SourceView
  sequence : UInt64

/-- What the labels of a run tell. -/
structure Audit where
  states : SlotIndex → SlotState := fun _ => .free
  /-- The frame of the current submit call, and the slot that it has claimed. -/
  source : Option SourceView := none
  claimed : Option SlotIndex := none
  /-- Whether the current submit call has changed a slot. -/
  touched : Bool := false
  published : List Publication := []
  /-- The last frame that was published in a slot. -/
  contents : SlotIndex → Option Publication := fun _ => none
  /-- The slot that the consumer has, and its frame. -/
  held : Option (SlotIndex × Publication) := none
  /-- The frames acquired so far, with the number of those published at that moment. -/
  acquired : List (Publication × ℕ) := []
  /-- The leases counted for a slot. -/
  leases : SlotIndex → ℕ := fun _ => 0
  issued : List Token := []
  /-- The sequences of the frames that acquire calls have returned. -/
  returned : List UInt64 := []
  /-- The token that has not been given back. -/
  current : Option Token := none
  /-- Since the current acquire call began there was a moment without a pending frame. -/
  quiet : Bool := true

def Audit.publish (a : Audit) (slot : SlotIndex) (state : SlotState) : Audit :=
  let publications := a.source.toList.map fun source =>
    (⟨source, UInt64.ofNat (a.published.length + 1)⟩ : Publication)
  { a with
    states := Function.update a.states slot state
    claimed := none
    touched := true
    published := a.published ++ publications
    contents := Function.update a.contents slot publications.head? }

def Audit.acquire (a : Audit) (slot : SlotIndex) : Audit :=
  { a with
    states := Function.update a.states slot .acquired
    held := (a.contents slot).map fun publication => (slot, publication)
    acquired := a.acquired ++
      (a.contents slot).toList.map fun publication => (publication, a.published.length) }

/-- What a label adds, but for the moments without a pending frame. -/
def Audit.note (a : Audit) : Label → Audit
  | (.producer, ⟨.beginSubmit, source⟩) => { a with source := some source, touched := false }
  | (.producer, ⟨.casState slot _ desired, true⟩) =>
      { a with
        states := Function.update a.states slot desired
        claimed := some slot
        touched := true }
  | (.producer, ⟨.copyRow .., _⟩) => { a with touched := true }
  | (.producer, ⟨.storeFrame .., _⟩) => { a with touched := true }
  | (.producer, ⟨.storeState slot state, _⟩) => a.publish slot state
  | (.consumer, ⟨.beginConsume, _⟩) => { a with quiet := false }
  | (.consumer, ⟨.casState slot _ .acquired, true⟩) => a.acquire slot
  | (.consumer, ⟨.casState slot _ desired, true⟩) =>
      { a with states := Function.update a.states slot desired, held := none }
  | (.consumer, ⟨.storeLease slot _, _⟩) =>
      { a with leases := Function.update a.leases slot (a.leases slot + 1) }
  | (.consumer, ⟨.finishAcquire _ (some acquired), _⟩) =>
      { a with
        issued := a.issued ++ [acquired.2]
        returned := a.returned ++ [acquired.1.publishedSequence]
        current := some acquired.2 }
  | (.consumer, ⟨.finishRelease _ .ok _, _⟩) => { a with current := none }
  | _ => a

def Audit.add (a : Audit) (label : Label) : Audit :=
  let noted := a.note label
  { noted with quiet := noted.quiet || decide (∀ slot, noted.states slot ≠ .pending) }

def audit (labels : List Label) : Audit := labels.foldl Audit.add {}

@[simp] theorem audit_snoc (labels : List Label) (label : Label) :
    audit (labels ++ [label]) = (audit labels).add label := by
  simp [audit]

end Audit

section Invariant

variable (target : Target) (slots : Slots)

/-- The bytes of a frame, without padding. -/
def visibleRows (source : SourceView) : List UInt8 :=
  source.rows (rowBytesOf target source) source.height.toNat

/-- A slot shows a frame: its rows, and the view of them. -/
structure Shows (bytes : List UInt8) (view : FrameView) (slot : SlotIndex)
    (publication : Publication) : Prop where
  fits : Fits target slots publication.source slot
  view : view = frameView slots publication.source (rowBytesOf target publication.source) slot
    publication.sequence
  rows : bytes.take (visibleRows target publication.source).length =
    visibleRows target publication.source

/-- What the producer has seen of the slots is still so. When the consumer has had one of them,
those that were seen before are free. -/
structure Scanned (states : SlotIndex → SlotState) (scan : SlotIndex → Scan) : Prop where
  clear : ∀ slot, scan slot ≠ .unseen → states slot ≠ .pending
  free : ∀ slot, scan slot = .free → states slot = .free
  taken : ∀ slot, scan slot = .taken → ∀ other, other ≠ slot → scan other ≠ .unseen →
    states other = .free ∧ scan other ≠ .taken

/-- So many rows of the current frame are in the claimed slot. -/
structure Copied (bytes : List UInt8) (source : SourceView) (slot : SlotIndex) (count : ℕ) :
    Prop where
  fits : Fits target slots source slot
  bound : count ≤ source.height.toNat
  rows : bytes.take (count * rowBytesOf target source) =
    source.rows (rowBytesOf target source) count

def ProducerOk (a : Audit) (memory : Memory) (p : Watch) : Prop :=
  match p.phase with
  | .idle => a.claimed = none ∧ p.sequence = UInt64.ofNat a.published.length
  | .scanning source scan => a.claimed = none ∧ p.sequence = UInt64.ofNat a.published.length ∧
      a.source = some source ∧ a.touched = false ∧ Scanned a.states scan
  | .refused source _ => a.claimed = none ∧ p.sequence = UInt64.ofNat a.published.length ∧
      a.source = some source ∧ a.touched = false ∧ (checkedSizes target source).isSome ∧
        ∃ slot, ¬ Fits target slots source slot
  | .copying source slot _ rows => a.claimed = some slot ∧ a.source = some source ∧
      p.sequence = UInt64.ofNat a.published.length ∧
      Copied target slots (memory.bytes slot) source slot rows
  | .numbered source slot _ => a.claimed = some slot ∧ a.source = some source ∧
      p.sequence = UInt64.ofNat (a.published.length + 1) ∧
      Copied target slots (memory.bytes slot) source slot source.height.toNat
  | .described source slot _ => a.claimed = some slot ∧ a.source = some source ∧
      p.sequence = UInt64.ofNat (a.published.length + 1) ∧
      Copied target slots (memory.bytes slot) source slot source.height.toNat ∧
      memory.frame slot = frameView slots source (rowBytesOf target source) slot p.sequence
  | .published source => a.claimed = none ∧ p.sequence = UInt64.ofNat a.published.length ∧
      ∃ publication, a.published.getLast? = some publication ∧ publication.source = source
  | _ => False

def ConsumerOk (a : Audit) (memory : Memory) (c : Watch) : Prop :=
  match c.phase with
  | .idle => a.current = c.token
  | .acquiring failed => a.current = c.token ∧ (failed ≠ [] → c.held = none)
  | .releasing _ => a.current = c.token
  | .swapped slot => c.held = some slot ∧ a.current = none
  | .leased slot => c.held = some slot ∧ a.current = none
  | .viewed slot view => c.held = some slot ∧ a.current = none ∧ memory.frame slot = view
  | .released token => c.held = none ∧ a.current = some token
  | _ => False

/-- The leases are numbers that are given out once, as long as they have not wrapped around. -/
structure Issued (leases : SlotIndex → ℕ) (issued : List Token) (c : Watch) : Prop where
  counted : ∀ slot, leases slot < 2 ^ 32 → c.leases slot = UInt32.ofNat (leases slot)
  tokens : (∀ slot, leases slot < 2 ^ 32) → issued.Nodup ∧
    ∀ token ∈ issued, ∃ slot lease, token = slotToken slot (UInt32.ofNat lease) ∧
      lease ≤ leases slot ∧
      ((c.phase = .leased slot ∨ ∃ view, c.phase = .viewed slot view) → lease < leases slot)

structure Inv (a : Audit) (memory : Memory) (p c : Watch) : Prop where
  states : a.states = memory.slotState
  lengths : ∀ slot, (memory.bytes slot).length = (slots slot).capacity
  writing : ∀ slot, a.states slot = .writing ↔ a.claimed = some slot
  numbers : a.published.map Publication.sequence =
    (List.range a.published.length).map fun index => UInt64.ofNat (index + 1)
  stored : ∀ slot, a.states slot = .pending ∨ a.states slot = .acquired →
    ∃ publication, a.contents slot = some publication ∧ publication ∈ a.published ∧
      Shows target slots (memory.bytes slot) (memory.frame slot) slot publication
  sequence : memory.publishedSequence = p.sequence
  producer : ProducerOk target slots a memory p
  leases : memory.slotLease = c.leases
  acquired : ∀ slot, a.states slot = .acquired ↔ c.held = some slot
  held : a.held = c.held.bind fun slot => (a.contents slot).map fun publication =>
    (slot, publication)
  consumer : ConsumerOk a memory c
  issued : Issued a.leases a.issued c

theorem inv_initial :
    Inv target slots {} { bytes := fun slot => (slots slot).bytes } {} {} where
  states := rfl
  lengths _ := rfl
  writing _ := ⟨nofun, nofun⟩
  numbers := rfl
  stored _ h := by simp at h
  sequence := rfl
  producer := ⟨rfl, rfl⟩
  leases := rfl
  acquired _ := ⟨nofun, nofun⟩
  held := rfl
  consumer := rfl
  issued := ⟨fun _ _ => rfl, fun _ => ⟨List.nodup_nil, nofun⟩⟩

variable {target slots} {a : Audit} {memory memory' : Memory} {p c w : Watch} {label : Label}

theorem Inv.add (h : Inv target slots (a.note label) memory p c) :
    Inv target slots (a.add label) memory p c :=
  ⟨h.states, h.lengths, h.writing, h.numbers, h.stored, h.sequence, h.producer, h.leases,
    h.acquired, h.held, h.consumer, h.issued⟩

section Scans

variable {states : SlotIndex → SlotState} {scan : SlotIndex → Scan} {slot : SlotIndex}

/-- A slot is free when it is seen to be neither pending nor acquired, while nothing is written. -/
theorem free_of_ne {state : SlotState} (hwriting : state ≠ .writing) (hpending : state ≠ .pending)
    (hacquired : state ≠ .acquired) : state = .free := by
  cases state with
  | free => rfl
  | writing => exact absurd rfl hwriting
  | pending => exact absurd rfl hpending
  | acquired => exact absurd rfl hacquired

theorem Scanned.look {seen : Scan} (h : Scanned states scan)
    (hclear : seen ≠ .unseen → states slot ≠ .pending)
    (hfree : seen = .free → states slot = .free)
    (htaken : seen = .taken → ∀ other, other ≠ slot → scan other ≠ .unseen →
      states other = .free ∧ scan other ≠ .taken)
    (hothers : ∀ other, other ≠ slot → scan other = .taken → seen ≠ .unseen →
      states slot = .free ∧ seen ≠ .taken) :
    Scanned states (Function.update scan slot seen) := by
  refine ⟨fun other hother => ?_, fun other hother => ?_, fun other hother third hthird hseen => ?_⟩
  · by_cases hslot : other = slot
    · subst hslot
      exact hclear (by rwa [Function.update_self] at hother)
    · exact h.clear other (by rwa [Function.update_of_ne hslot] at hother)
  · by_cases hslot : other = slot
    · subst hslot
      exact hfree (by rwa [Function.update_self] at hother)
    · exact h.free other (by rwa [Function.update_of_ne hslot] at hother)
  · by_cases hslot : other = slot
    · subst hslot
      rw [Function.update_self] at hother
      rw [Function.update_of_ne hthird] at hseen ⊢
      exact htaken hother third hthird hseen
    · rw [Function.update_of_ne hslot] at hother
      by_cases hslot' : third = slot
      · subst hslot'
        rw [Function.update_self] at hseen ⊢
        exact hothers other hslot hother hseen
      · rw [Function.update_of_ne hslot'] at hseen ⊢
        exact h.taken other hother third hthird hseen

theorem Scanned.load (h : Scanned states scan) (hwriting : ∀ slot, states slot ≠ .writing)
    (hone : ∀ slot other, states slot = .acquired → states other = .acquired → slot = other)
    (hfirst : scan slot = .unseen → ∀ other, scan other ≠ .taken) :
    Scanned states (Function.update scan slot ((scan slot).load (states slot))) := by
  have hsame : (scan slot).load (states slot) = scan slot →
      Scanned states (Function.update scan slot ((scan slot).load (states slot))) := by
    intro hload
    rw [hload, Function.update_eq_self]
    exact h
  cases hscan : scan slot with
  | unseen =>
      by_cases hpending : states slot = .pending
      · rw [hscan, hpending] at hsame
        rw [hpending]
        exact hsame rfl
      · have hload : Scan.load .unseen (states slot) = .clear := by
          cases hstate : states slot with
          | pending => exact absurd hstate hpending
          | _ => rfl
        rw [hload]
        refine h.look (fun _ => hpending) nofun nofun fun other _ hother _ => ?_
        exact absurd hother (hfirst hscan other)
  | clear =>
      have hpending : states slot ≠ .pending := h.clear slot (by rw [hscan]; exact nofun)
      have hothers : ∀ other, other ≠ slot → scan other = .taken → states slot = .free :=
        fun other hne hother =>
          (h.taken other hother slot (Ne.symm hne) (by rw [hscan]; exact nofun)).1
      by_cases hfree : states slot = .free
      · rw [hfree]
        exact h.look (fun _ => hpending) (fun _ => hfree) nofun fun _ _ _ _ => ⟨hfree, nofun⟩
      · have hload : Scan.load .clear (states slot) = .taken := by
          cases hstate : states slot with
          | free => exact absurd hstate hfree
          | _ => rfl
        have hacquired : states slot = .acquired := by
          by_contra hother
          exact hfree (free_of_ne (hwriting slot) hpending hother)
        rw [hload]
        refine h.look (fun _ => hpending) nofun (fun _ other hne hseen => ⟨?_, ?_⟩)
          fun other hne hother _ => absurd (hothers other hne hother) hfree
        · refine free_of_ne (hwriting other) (h.clear other hseen) fun hother => ?_
          exact hne (hone other slot hother hacquired)
        · exact fun hother => hfree (hothers other hne hother)
  | free =>
      rw [hscan] at hsame
      exact hsame rfl
  | taken =>
      rw [hscan] at hsame
      exact hsame rfl

/-- The consumer only takes pending slots, and only gives slots back. -/
theorem Scanned.update {state : SlotState} (h : Scanned states scan) (hpending : state ≠ .pending)
    (hnew : state = .free ∨ states slot = .pending) :
    Scanned (Function.update states slot state) scan := by
  have hfree : ∀ {other}, states other = .free →
    Function.update states slot state other = .free := by
    intro other hother
    rw [Function.update_apply]
    split
    case isFalse => exact hother
    case isTrue hsame =>
      subst hsame
      rcases hnew with hnew | hnew
      · exact hnew
      · rw [hother] at hnew
        cases hnew
  refine ⟨fun other hseen => ?_, fun other hother => hfree (h.free other hother),
    fun other hother third hthird hseen =>
      (h.taken other hother third hthird hseen).imp_left hfree⟩
  rw [Function.update_apply]
  split
  · exact hpending
  · exact h.clear other hseen

end Scans

section Producer

variable {source : SourceView} {slot : SlotIndex} {replacedPending : Bool}

theorem inv_beginSubmit (h : Inv target slots a memory p c) (hphase : p.phase = .idle) :
    Inv target slots (a.note (.producer, ⟨.beginSubmit, source⟩)) memory
      (p.goTo (.scanning source fun _ => .unseen)) c := by
  have hproducer := h.producer
  rw [ProducerOk, hphase] at hproducer
  exact { h with producer := ⟨hproducer.1, hproducer.2, rfl, rfl, nofun, nofun, nofun⟩ }

theorem Inv.noWriting (h : Inv target slots a memory p c) (hclaimed : a.claimed = none)
    (slot : SlotIndex) : a.states slot ≠ .writing := by
  intro hwriting
  have hslot := (h.writing slot).mp hwriting
  rw [hclaimed] at hslot
  cases hslot

theorem inv_look {scan : SlotIndex → Scan} {seen : Scan} (h : Inv target slots a memory p c)
    (hphase : p.phase = .scanning source scan)
    (hscan : Scanned a.states (Function.update scan slot seen)) :
    Inv target slots a memory (p.goTo (.scanning source (Function.update scan slot seen))) c := by
  have hproducer := h.producer
  rw [ProducerOk, hphase] at hproducer
  obtain ⟨hclaimed, hsequence, hsource, htouched, -⟩ := hproducer
  exact { h with producer := ⟨hclaimed, hsequence, hsource, htouched, hscan⟩ }

theorem inv_loadState {scan : SlotIndex → Scan} (h : Inv target slots a memory p c)
    (hphase : p.phase = .scanning source scan)
    (hfirst : scan slot = .unseen → ∀ other, scan other ≠ .taken) :
    Inv target slots a memory (p.goTo (.scanning source
      (Function.update scan slot ((scan slot).load (memory.slotState slot))))) c := by
  refine inv_look h hphase ?_
  have hproducer := h.producer
  rw [ProducerOk, hphase] at hproducer
  obtain ⟨hclaimed, -, -, -, hscan⟩ := hproducer
  rw [← h.states]
  refine hscan.load (h.noWriting hclaimed) (fun slot other hslot hother => ?_) hfirst
  have hheld := (h.acquired slot).mp hslot
  rw [(h.acquired other).mp hother] at hheld
  exact (Option.some.inj hheld).symm

/-- The producer has claimed a slot that it had found pending or free. -/
theorem inv_claim {scan : SlotIndex → Scan} {expected : SlotState}
    (h : Inv target slots a memory p c) (hphase : p.phase = .scanning source scan)
    (hfits : Fits target slots source slot) (hstate : memory.slotState slot = expected)
    (hexpected : expected ≠ .acquired) :
    Inv target slots (a.note (.producer, ⟨.casState slot expected .writing, true⟩))
      { memory with slotState := Function.update memory.slotState slot .writing }
      (p.goTo (.copying source slot replacedPending 0)) c := by
  have hproducer := h.producer
  rw [ProducerOk, hphase] at hproducer
  obtain ⟨hclaimed, hsequence, hsource, -, -⟩ := hproducer
  have hheld : c.held ≠ some slot := by
    intro hheld
    have hacquired := (h.acquired slot).mpr hheld
    rw [h.states, hstate] at hacquired
    exact hexpected hacquired
  refine { h with states := ?_, writing := ?_, stored := ?_, producer := ?_, acquired := ?_ }
  · exact congrArg (Function.update · slot SlotState.writing) h.states
  · intro other
    change Function.update a.states slot .writing other = .writing ↔ some slot = some other
    by_cases hother : other = slot
    · rw [hother, Function.update_self]
      exact ⟨fun _ => rfl, fun _ => rfl⟩
    · rw [Function.update_of_ne hother]
      refine ⟨fun hwriting => absurd hwriting (h.noWriting hclaimed other), fun hsame => ?_⟩
      exact absurd (Option.some.inj hsame).symm hother
  · intro other hother
    change Function.update a.states slot .writing other = _ ∨
      Function.update a.states slot .writing other = _ at hother
    by_cases hslot : other = slot
    · rw [hslot, Function.update_self] at hother
      exact hother.elim nofun nofun
    · rw [Function.update_of_ne hslot] at hother
      exact h.stored other hother
  · exact ⟨rfl, hsource, hsequence, hfits, Nat.zero_le _, by rw [Nat.zero_mul]; rfl⟩
  · intro other
    change Function.update a.states slot .writing other = .acquired ↔ _
    by_cases hslot : other = slot
    · rw [hslot, Function.update_self]
      exact ⟨nofun, fun hsome => absurd hsome hheld⟩
    · rw [Function.update_of_ne hslot]
      exact h.acquired other

/-- A frame that fits leaves room for each of its rows. -/
theorem Copied.room {bytes : List UInt8} {rows : ℕ} (h : Copied target slots bytes source slot rows)
    (hrows : rows < source.height.toNat) :
    rows * rowBytesOf target source + rowBytesOf target source ≤ (slots slot).capacity := by
  obtain ⟨sizes, hsizes, hroom⟩ := h.fits
  obtain ⟨-, -, -, -, hvisible, -⟩ := checkedSizes_exact hsizes
  rw [rowBytesOf_eq hsizes]
  calc rows * sizes.rowBytes + sizes.rowBytes = (rows + 1) * sizes.rowBytes :=
        (Nat.succ_mul ..).symm
    _ ≤ source.height.toNat * sizes.rowBytes := Nat.mul_le_mul_right _ hrows
    _ ≤ (slots slot).capacity := by rwa [← hvisible]

theorem Copied.succ {bytes : List UInt8} {rows : ℕ} (h : Copied target slots bytes source slot rows)
    (hrows : rows < source.height.toNat) (hlength : bytes.length = (slots slot).capacity) :
    Copied target slots (overwrite bytes (rows * rowBytesOf target source)
      (source.row (rowBytesOf target source) rows)) source slot (rows + 1) := by
  refine ⟨h.fits, hrows, ?_⟩
  have hroom := h.room hrows
  have htake := overwrite_take (source.row (rowBytesOf target source) rows)
    (show rows * rowBytesOf target source ≤ bytes.length by omega)
  rw [row_length] at htake
  rw [Nat.succ_mul, htake, h.rows, rows_succ]

theorem inv_copyRow {rows : ℕ} (h : Inv target slots a memory p c)
    (hphase : p.phase = .copying source slot replacedPending rows)
    (hrows : rows < source.height.toNat) {offset : ℕ} {row : List UInt8}
    (hoffset : offset = rows * rowBytesOf target source)
    (hrow : row = source.row (rowBytesOf target source) rows) :
    Inv target slots (a.note (.producer, ⟨.copyRow slot offset row, ()⟩))
      { memory with
        bytes := Function.update memory.bytes slot (overwrite (memory.bytes slot) offset row) }
      (p.goTo (.copying source slot replacedPending (rows + 1))) c := by
  have hproducer := h.producer
  rw [ProducerOk, hphase] at hproducer
  obtain ⟨hclaimed, hsource, hsequence, hcopied⟩ := hproducer
  subst hoffset hrow
  refine { h with lengths := ?_, stored := ?_, producer := ?_ }
  · intro other
    dsimp only
    by_cases hother : other = slot
    · have hlength := h.lengths slot
      rw [hother, Function.update_self, overwrite_length, hlength]
      rw [row_length, hlength]
      exact hcopied.room hrows
    · rw [Function.update_of_ne hother]
      exact h.lengths other
  · intro other hother
    dsimp only
    have hne : other ≠ slot := by
      rintro rfl
      have hwriting := (h.writing other).mpr hclaimed
      change a.states other = _ ∨ a.states other = _ at hother
      rw [hwriting] at hother
      exact hother.elim nofun nofun
    rw [Function.update_of_ne hne]
    exact h.stored other hother
  · refine ⟨hclaimed, hsource, hsequence, ?_⟩
    dsimp only
    rw [Function.update_self]
    exact hcopied.succ hrows (h.lengths slot)

theorem inv_storeSequence (h : Inv target slots a memory p c)
    (hphase : p.phase = .copying source slot replacedPending source.height.toNat) :
    Inv target slots a { memory with publishedSequence := p.sequence + 1 }
      { p with phase := .numbered source slot replacedPending, sequence := p.sequence + 1 } c := by
  have hproducer := h.producer
  rw [ProducerOk, hphase] at hproducer
  obtain ⟨hclaimed, hsource, hsequence, hcopied⟩ := hproducer
  refine { h with sequence := rfl, producer := ⟨hclaimed, hsource, ?_, hcopied⟩ }
  dsimp only
  rw [hsequence, UInt64.ofNat_add]
  rfl

theorem inv_storeFrame (h : Inv target slots a memory p c)
    (hphase : p.phase = .numbered source slot replacedPending) {view : FrameView}
    (hview : view = frameView slots source (rowBytesOf target source) slot p.sequence) :
    Inv target slots (a.note (.producer, ⟨.storeFrame slot view, ()⟩))
      { memory with frame := Function.update memory.frame slot view }
      (p.goTo (.described source slot replacedPending)) c := by
  have hproducer := h.producer
  rw [ProducerOk, hphase] at hproducer
  obtain ⟨hclaimed, hsource, hsequence, hcopied⟩ := hproducer
  have hwriting := (h.writing slot).mpr hclaimed
  refine { h with stored := ?_, producer := ?_, consumer := ?_ }
  · intro other hother
    dsimp only
    have hne : other ≠ slot := by
      rintro rfl
      change a.states other = _ ∨ a.states other = _ at hother
      rw [hwriting] at hother
      exact hother.elim nofun nofun
    rw [Function.update_of_ne hne]
    exact h.stored other hother
  · refine ⟨hclaimed, hsource, hsequence, hcopied, ?_⟩
    dsimp only
    rw [Function.update_self]
    exact hview
  · have hconsumer := h.consumer
    cases hc : c.phase with
    | viewed held seen =>
        rw [ConsumerOk, hc] at hconsumer ⊢
        obtain ⟨hheld, hcurrent, hframe⟩ := hconsumer
        refine ⟨hheld, hcurrent, ?_⟩
        have hne : held ≠ slot := by
          rintro rfl
          have hacquired := (h.acquired held).mpr hheld
          rw [hwriting] at hacquired
          cases hacquired
        dsimp only
        rw [Function.update_of_ne hne]
        exact hframe
    | _ =>
        rw [ConsumerOk, hc] at hconsumer ⊢
        exact hconsumer

theorem inv_countCoalesced (h : Inv target slots a memory p c)
    (hphase : p.phase = .described source slot true) :
    Inv target slots a { memory with coalescedCount := memory.coalescedCount + 1 }
      (p.goTo (.described source slot false)) c := by
  have hproducer := h.producer
  rw [ProducerOk, hphase] at hproducer
  exact { h with producer := hproducer }

theorem inv_countDropped {scan : SlotIndex → Scan} (h : Inv target slots a memory p c)
    (hphase : p.phase = .scanning source scan) (hsizes : (checkedSizes target source).isSome)
    (htaken : ∀ slot, Fits target slots source slot → scan slot = .taken) :
    Inv target slots a { memory with droppedCount := memory.droppedCount + 1 }
      (p.goTo (.refused source scan)) c := by
  have hproducer := h.producer
  rw [ProducerOk, hphase] at hproducer
  obtain ⟨hclaimed, hsequence, hsource, htouched, hscan⟩ := hproducer
  refine { h with producer := ⟨hclaimed, hsequence, hsource, htouched, hsizes, ?_⟩ }
  -- Not both slots can be seen with the consumer.
  by_contra hfit
  have hall : ∀ slot, scan slot = .taken := fun slot =>
    htaken slot (not_not.mp fun hslot => hfit ⟨slot, hslot⟩)
  have hother := hscan.taken 0 (hall 0) 1 (by decide) (by rw [hall 1]; exact nofun)
  exact hother.2 (hall 1)

theorem inv_publish (h : Inv target slots a memory p c)
    (hphase : p.phase = .described source slot false) :
    Inv target slots (a.note (.producer, ⟨.storeState slot .pending, ()⟩))
      { memory with slotState := Function.update memory.slotState slot .pending }
      (p.goTo (.published source)) c := by
  have hproducer := h.producer
  rw [ProducerOk, hphase] at hproducer
  obtain ⟨hclaimed, hsource, hsequence, hcopied, hframe⟩ := hproducer
  let publication : Publication := ⟨source, UInt64.ofNat (a.published.length + 1)⟩
  have hpublish : a.publish slot .pending =
      { a with
        states := Function.update a.states slot .pending
        claimed := none
        touched := true
        published := a.published ++ [publication]
        contents := Function.update a.contents slot (some publication) } := by
    simp only [Audit.publish, hsource]
    rfl
  have hwriting : a.states slot = .writing := (h.writing slot).mpr hclaimed
  have hheld : c.held ≠ some slot := by
    intro hheld
    have hacquired := (h.acquired slot).mpr hheld
    rw [hwriting] at hacquired
    cases hacquired
  change Inv target slots (a.publish slot .pending) _ _ _
  rw [hpublish]
  refine { h with
    states := ?_, writing := ?_, numbers := ?_, stored := ?_, producer := ?_, acquired := ?_
    held := ?_ }
  · exact congrArg (Function.update · slot SlotState.pending) h.states
  · intro other
    dsimp only
    refine ⟨fun hother => ?_, nofun⟩
    by_cases hslot : other = slot
    · rw [hslot, Function.update_self] at hother
      cases hother
    · rw [Function.update_of_ne hslot] at hother
      rw [(h.writing other).mp hother] at hclaimed
      exact absurd (Option.some.inj hclaimed) hslot
  · dsimp only
    rw [List.map_append, h.numbers, List.length_append, List.length_singleton, List.range_succ,
      List.map_append]
    rfl
  · intro other hother
    dsimp only at hother ⊢
    by_cases hslot : other = slot
    · rw [hslot, Function.update_self]
      refine ⟨publication, rfl, List.mem_append_right _ (List.mem_singleton_self _),
        hcopied.fits, ?_, ?_⟩
      · rw [hframe, hsequence]
      · rw [visibleRows, rows_length]
        exact hcopied.rows
    · rw [Function.update_of_ne hslot] at hother ⊢
      obtain ⟨shown, hcontents, hmem, hshows⟩ := h.stored other hother
      exact ⟨shown, hcontents, List.mem_append_left _ hmem, hshows⟩
  · refine ⟨rfl, ?_, publication, List.getLast?_concat .., rfl⟩
    rw [List.length_append]
    exact hsequence
  · intro other
    dsimp only
    by_cases hslot : other = slot
    · rw [hslot, Function.update_self]
      exact ⟨nofun, fun hsome => absurd hsome hheld⟩
    · rw [Function.update_of_ne hslot]
      exact h.acquired other
  · dsimp only
    rw [h.held]
    cases hc : c.held with
    | none => rfl
    | some held =>
        have hne : held ≠ slot := fun hsame => hheld (by rw [hc, hsame])
        rw [Option.bind_some, Option.bind_some, Function.update_of_ne hne]

theorem inv_finishSubmit (h : Inv target slots a memory p c) {status : PresentationStatus}
    (hobserve : (producerMonitor target slots).observe p ⟨.finishSubmit source status,
      ()⟩ = some w) :
    Inv target slots a memory w c := by
  have hproducer := h.producer
  simp only [producerMonitor, observeProducer] at hobserve
  split at hobserve
  case h_4 => cases hobserve
  all_goals
    rename_i hphase
    rw [ProducerOk, hphase] at hproducer
    obtain ⟨-, hobserve⟩ := Option.ite_none_right_eq_some.mp hobserve
    obtain rfl := Option.some.inj hobserve
    exact { h with producer := ⟨hproducer.1, hproducer.2.1⟩ }

/-- A free slot that the producer has seen is still free. -/
theorem expects_casState {slot : SlotIndex} {expected desired : SlotState} {swapped : Bool}
    (h : Inv target slots a memory p c)
    (hacts : Acts memory (.casState slot expected desired) swapped memory') :
    (producerMonitor target slots).expects p ⟨.casState slot expected desired, swapped⟩ := by
  cases expected with
  | free =>
      intro source scan hphase hseen
      cases hacts with
      | swap => rfl
      | keep _ hstate =>
          have hproducer := h.producer
          rw [ProducerOk, hphase] at hproducer
          rw [← h.states] at hstate
          exact absurd (hproducer.2.2.2.2.free slot hseen) hstate
  | _ => trivial

/-- An exchange claims the slot for writing, or shows that the display has it. -/
theorem inv_casState {slot : SlotIndex} {expected desired : SlotState} {swapped : Bool}
    (h : Inv target slots a memory p c)
    (hacts : Acts memory (.casState slot expected desired) swapped memory')
    (hobserve : (producerMonitor target slots).observe p
      ⟨.casState slot expected desired, swapped⟩ = some w) :
    Inv target slots (a.note (.producer, ⟨.casState slot expected desired, swapped⟩)) memory' w
      c := by
  simp only [producerMonitor, observeProducer] at hobserve
  split at hobserve
  case h_2 => cases hobserve
  case h_1 source scan hphase =>
    obtain ⟨⟨hfits, rfl, hseen⟩, hnext⟩ := Option.ite_none_right_eq_some.mp hobserve
    cases hacts with
    | swap _ hstate =>
        cases hnext
        refine inv_claim h hphase hfits hstate ?_
        rcases hseen with ⟨rfl, -⟩ | ⟨rfl, -⟩ <;> rintro ⟨⟩
    | keep _ hstate =>
        cases hnext
        rw [← h.states] at hstate
        have hscan : Scanned a.states scan := by
          have hproducer := h.producer
          rw [ProducerOk, hphase] at hproducer
          exact hproducer.2.2.2.2
        refine inv_look h hphase ?_
        rcases hseen with ⟨rfl, -, hfirst⟩ | ⟨rfl, hfree, -⟩
        · exact hscan.look (fun _ => hstate) (by rintro ⟨⟩) (by rintro ⟨⟩)
            fun other _ hother => absurd hother (hfirst other)
        · exact absurd (hscan.free slot hfree) hstate

theorem inv_producer {request : Op} {reply : Result request} (h : Inv target slots a memory p c)
    (hacts : Acts memory request reply memory') :
    (producerMonitor target slots).expects p ⟨request, reply⟩ ∧
      ∀ p', (producerMonitor target slots).observe p ⟨request, reply⟩ = some p' →
        Inv target slots (a.add (.producer, ⟨request, reply⟩)) memory' p' c := by
  cases hacts with
  | loadState slot =>
      refine ⟨trivial, fun p' hobserve => Inv.add ?_⟩
      simp only [producerMonitor, observeProducer] at hobserve
      split at hobserve
      · rename_i source scan hphase
        obtain ⟨hfirst, hnext⟩ := Option.ite_none_right_eq_some.mp hobserve
        cases hnext
        exact inv_loadState h hphase hfirst
      · cases hobserve
  | @swap slot expected desired hstate =>
      have hacts := Acts.swap desired hstate
      exact ⟨expects_casState h hacts, fun p' hobserve => Inv.add (inv_casState h hacts hobserve)⟩
  | @keep slot expected desired hstate =>
      have hacts := Acts.keep desired hstate
      exact ⟨expects_casState h hacts, fun p' hobserve => Inv.add (inv_casState h hacts hobserve)⟩
  | copyRow slot offset row =>
      refine ⟨trivial, fun p' hobserve => Inv.add ?_⟩
      simp only [producerMonitor, observeProducer] at hobserve
      split at hobserve
      · rename_i source claimed replacedPending rows hphase
        obtain ⟨⟨rfl, hrows, hoffset, hrow⟩, hnext⟩ := Option.ite_none_right_eq_some.mp hobserve
        cases hnext
        exact inv_copyRow h hphase hrows hoffset hrow
      · cases hobserve
  | loadSequence =>
      refine ⟨h.sequence, fun p' hobserve => Inv.add ?_⟩
      obtain rfl := Option.some.inj hobserve
      exact h
  | storeSequence sequence =>
      refine ⟨trivial, fun p' hobserve => Inv.add ?_⟩
      simp only [producerMonitor, observeProducer] at hobserve
      split at hobserve
      · rename_i source slot replacedPending rows hphase
        obtain ⟨⟨rfl, rfl⟩, hnext⟩ := Option.ite_none_right_eq_some.mp hobserve
        cases hnext
        exact inv_storeSequence h hphase
      · cases hobserve
  | storeFrame slot view =>
      refine ⟨trivial, fun p' hobserve => Inv.add ?_⟩
      simp only [producerMonitor, observeProducer] at hobserve
      split at hobserve
      · rename_i source claimed replacedPending hphase
        obtain ⟨⟨rfl, hview⟩, hnext⟩ := Option.ite_none_right_eq_some.mp hobserve
        cases hnext
        exact inv_storeFrame h hphase hview
      · cases hobserve
  | countCoalesced =>
      refine ⟨trivial, fun p' hobserve => Inv.add ?_⟩
      simp only [producerMonitor, observeProducer] at hobserve
      split at hobserve
      · rename_i hphase
        cases hobserve
        exact inv_countCoalesced h hphase
      · cases hobserve
  | countDropped =>
      refine ⟨trivial, fun p' hobserve => Inv.add ?_⟩
      simp only [producerMonitor, observeProducer] at hobserve
      split at hobserve
      · rename_i source scan hphase
        obtain ⟨⟨hsizes, htaken⟩, hnext⟩ := Option.ite_none_right_eq_some.mp hobserve
        cases hnext
        exact inv_countDropped h hphase hsizes htaken
      · cases hobserve
  | storeState slot state =>
      refine ⟨trivial, fun p' hobserve => Inv.add ?_⟩
      simp only [producerMonitor, observeProducer] at hobserve
      split at hobserve
      · rename_i source claimed hphase
        obtain ⟨⟨rfl, rfl⟩, hnext⟩ := Option.ite_none_right_eq_some.mp hobserve
        cases hnext
        exact inv_publish h hphase
      · cases hobserve
  | beginSubmit source =>
      refine ⟨trivial, fun p' hobserve => Inv.add ?_⟩
      simp only [producerMonitor, observeProducer] at hobserve
      split at hobserve
      · rename_i hphase
        cases hobserve
        exact inv_beginSubmit h hphase
      · cases hobserve
  | finishSubmit source status =>
      exact ⟨trivial, fun p' hobserve => Inv.add (inv_finishSubmit h hobserve)⟩
  | _ => exact ⟨trivial, fun p' hobserve => by cases hobserve⟩

end Producer

section Consumer

variable {slot : SlotIndex}

theorem producerOk_states {p : Watch} (h : ProducerOk target slots a memory p)
    {states : SlotIndex → SlotState} {held : Option (SlotIndex × Publication)}
    {acquired : List (Publication × ℕ)}
    (hscan : ∀ scan, Scanned a.states scan → Scanned states scan) :
    ProducerOk target slots { a with states := states, held := held, acquired := acquired } memory
      p := by
  cases hphase : p.phase with
  | scanning source scan =>
      rw [ProducerOk, hphase] at h ⊢
      exact ⟨h.1, h.2.1, h.2.2.1, h.2.2.2.1, hscan scan h.2.2.2.2⟩
  | _ =>
      rw [ProducerOk, hphase] at h ⊢
      exact h

theorem Issued.next {leases : SlotIndex → ℕ} {issued : List Token} (h : Issued leases issued c)
    (hleases : w.leases = c.leases)
    (hphase : ∀ slot, (w.phase = .leased slot ∨ ∃ view, w.phase = .viewed slot view) →
      c.phase = .leased slot) : Issued leases issued w := by
  refine ⟨fun slot hslot => hleases ▸ h.counted slot hslot, fun hbound => ?_⟩
  obtain ⟨hnodup, htokens⟩ := h.tokens hbound
  refine ⟨hnodup, fun token htoken => ?_⟩
  obtain ⟨slot, lease, rfl, hle, hlt⟩ := htokens token htoken
  exact ⟨slot, lease, rfl, hle, fun hnext => hlt (.inl (hphase slot hnext))⟩

/-- A step of the consumer that changes neither the memory nor what it holds. -/
theorem inv_goTo {phase : Phase} (h : Inv target slots a memory p c)
    (hconsumer : ConsumerOk a memory (c.goTo phase))
    (hleased : ∀ slot, (phase = .leased slot ∨ ∃ view, phase = .viewed slot view) →
      c.phase = .leased slot) :
    Inv target slots a memory p (c.goTo phase) :=
  { h with consumer := hconsumer, issued := h.issued.next rfl hleased }

theorem inv_beginConsume {call : ConsumeCall} (h : Inv target slots a memory p c)
    (hobserve : consumerMonitor.observe c ⟨.beginConsume, call⟩ = some w) :
    Inv target slots (a.note (.consumer, ⟨.beginConsume, call⟩)) memory p w := by
  have hconsumer := h.consumer
  have hnote : Inv target slots (a.note (.consumer, ⟨.beginConsume, call⟩)) memory p c := { h with }
  cases call with
  | acquire =>
      simp only [consumerMonitor, observeConsumer] at hobserve
      split at hobserve
      case h_2 => cases hobserve
      case h_1 hphase =>
        cases hobserve
        rw [ConsumerOk, hphase] at hconsumer
        exact inv_goTo hnote ⟨hconsumer, fun hne => absurd rfl hne⟩
          fun slot hnext => hnext.elim (by rintro ⟨⟩) (by rintro ⟨_, ⟨⟩⟩)
  | release token =>
      simp only [consumerMonitor, observeConsumer] at hobserve
      split at hobserve
      case h_2 => cases hobserve
      case h_1 hphase =>
        cases hobserve
        rw [ConsumerOk, hphase] at hconsumer
        exact inv_goTo hnote hconsumer fun slot hnext => hnext.elim (by rintro ⟨⟩)
          (by rintro ⟨_, ⟨⟩⟩)

theorem inv_take {failed : List SlotIndex} (h : Inv target slots a memory p c)
    (hphase : c.phase = .acquiring failed) (hheld : c.held = none)
    (hstate : memory.slotState slot = .pending) :
    Inv target slots (a.note (.consumer, ⟨.casState slot .pending .acquired, true⟩))
      { memory with slotState := Function.update memory.slotState slot .acquired } p
      { c with phase := .swapped slot, held := some slot } := by
  have hconsumer := h.consumer
  rw [ConsumerOk, hphase] at hconsumer
  rw [← h.states] at hstate
  obtain ⟨publication, hcontents, hmem, hshows⟩ := h.stored slot (.inl hstate)
  have hacquire : a.acquire slot =
      { a with
        states := Function.update a.states slot .acquired
        held := some (slot, publication)
        acquired := a.acquired ++ [(publication, a.published.length)] } := by
    simp only [Audit.acquire, hcontents]
    rfl
  change Inv target slots (a.acquire slot) _ _ _
  rw [hacquire]
  refine { h with
    states := ?_, writing := ?_, stored := ?_, producer := ?_, acquired := ?_, held := ?_
    consumer := ?_, issued := ?_ }
  · exact congrArg (Function.update · slot SlotState.acquired) h.states
  · intro other
    dsimp only
    by_cases hother : other = slot
    · rw [hother, Function.update_self, ← h.writing slot, hstate]
      exact ⟨nofun, nofun⟩
    · rw [Function.update_of_ne hother]
      exact h.writing other
  · intro other hother
    dsimp only at hother ⊢
    by_cases hslot : other = slot
    · rw [hslot]
      exact ⟨publication, hcontents, hmem, hshows⟩
    · rw [Function.update_of_ne hslot] at hother
      exact h.stored other hother
  · exact producerOk_states h.producer fun scan hscan => hscan.update nofun (.inr hstate)
  · intro other
    dsimp only
    by_cases hother : other = slot
    · rw [hother, Function.update_self]
      exact ⟨fun _ => rfl, fun _ => rfl⟩
    · rw [Function.update_of_ne hother, h.acquired other, hheld]
      exact ⟨nofun, fun hsame => absurd (Option.some.inj hsame).symm hother⟩
  · dsimp only
    rw [Option.bind_some, hcontents]
    rfl
  · refine ⟨rfl, ?_⟩
    rw [hconsumer.1, Watch.token, hheld]
    rfl
  · exact h.issued.next rfl fun _ hnext => hnext.elim nofun nofun

theorem inv_giveBack {token : Token} (h : Inv target slots a memory p c)
    (hphase : c.phase = .releasing token) (hheld : c.held = some slot)
    (htoken : token = slotToken slot (c.leases slot)) :
    Inv target slots (a.note (.consumer, ⟨.casState slot .acquired .free, true⟩))
      { memory with slotState := Function.update memory.slotState slot .free } p
      { c with phase := .released token, held := none } := by
  have hconsumer := h.consumer
  rw [ConsumerOk, hphase] at hconsumer
  have hstate : a.states slot = .acquired := (h.acquired slot).mpr hheld
  refine { h with
    states := ?_, writing := ?_, stored := ?_, producer := ?_, acquired := ?_, held := rfl
    consumer := ?_, issued := ?_ }
  · exact congrArg (Function.update · slot SlotState.free) h.states
  · intro other
    change Function.update a.states slot .free other = .writing ↔ a.claimed = some other
    by_cases hother : other = slot
    · rw [hother, Function.update_self, ← h.writing slot, hstate]
      exact ⟨nofun, nofun⟩
    · rw [Function.update_of_ne hother]
      exact h.writing other
  · intro other hother
    change Function.update a.states slot .free other = _ ∨
      Function.update a.states slot .free other = _ at hother
    by_cases hslot : other = slot
    · rw [hslot, Function.update_self] at hother
      exact hother.elim nofun nofun
    · rw [Function.update_of_ne hslot] at hother
      exact h.stored other hother
  · exact producerOk_states h.producer fun scan hscan => hscan.update nofun (.inl rfl)
  · intro other
    change Function.update a.states slot .free other = .acquired ↔ none = some other
    by_cases hother : other = slot
    · rw [hother, Function.update_self]
      exact ⟨nofun, nofun⟩
    · rw [Function.update_of_ne hother, h.acquired other, hheld]
      exact ⟨fun hsame => absurd (Option.some.inj hsame).symm hother, nofun⟩
  · refine ⟨rfl, ?_⟩
    rw [htoken]
    exact hconsumer.trans (congrArg (Option.map _) hheld)
  · exact h.issued.next rfl fun _ hnext => hnext.elim nofun nofun

/-- The lease word counts as the number does, until it would wrap around. -/
theorem nextLease_ofNat {count : ℕ} (h : count + 1 < 2 ^ 32) :
    nextLease (UInt32.ofNat count) = UInt32.ofNat (count + 1) := by
  rw [nextLease, if_neg, UInt32.ofNat_add]
  · rfl
  · intro hmax
    have hnat := congrArg UInt32.toNat hmax
    rw [UInt32.toNat_ofNat_of_lt' (Nat.lt_of_succ_lt h)] at hnat
    have hlast : (-1 : UInt32).toNat = 2 ^ 32 - 1 := rfl
    omega

theorem inv_storeLease {lease : UInt32} (h : Inv target slots a memory p c)
    (hphase : c.phase = .swapped slot) (hlease : lease = nextLease (c.leases slot)) :
    Inv target slots (a.note (.consumer, ⟨.storeLease slot lease, ()⟩))
      { memory with slotLease := Function.update memory.slotLease slot lease } p
      { c with phase := .leased slot, leases := Function.update c.leases slot lease } := by
  have hconsumer := h.consumer
  rw [ConsumerOk, hphase] at hconsumer
  have hgrow : ∀ other, a.leases other ≤
      Function.update a.leases slot (a.leases slot + 1) other := by
    intro other
    rw [Function.update_apply]
    split
    case isTrue hsame => rw [hsame]; exact Nat.le_succ _
    case isFalse => exact Nat.le_refl _
  change Inv target slots
    { a with leases := Function.update a.leases slot (a.leases slot + 1) } _ _ _
  refine { h with leases := ?_, consumer := hconsumer, issued := ⟨?_, fun hleases => ?_⟩ }
  · exact congrArg (Function.update · slot lease) h.leases
  · intro other hother
    dsimp only at hother ⊢
    have hbefore := Nat.lt_of_le_of_lt (hgrow other) hother
    by_cases hsame : other = slot
    · subst hsame
      rw [Function.update_self] at hother
      rw [Function.update_self, Function.update_self, hlease, h.issued.counted other hbefore]
      exact nextLease_ofNat hother
    · rw [Function.update_of_ne hsame, Function.update_of_ne hsame]
      exact h.issued.counted other hbefore
  · obtain ⟨hnodup, htokens⟩ := h.issued.tokens fun other =>
      Nat.lt_of_le_of_lt (hgrow other) (hleases other)
    refine ⟨hnodup, fun token htoken => ?_⟩
    obtain ⟨issued, count, rfl, hle, -⟩ := htokens token htoken
    refine ⟨issued, count, rfl, Nat.le_trans hle (hgrow issued), fun hnext => ?_⟩
    rcases hnext with hnext | ⟨view, hnext⟩
    · obtain rfl : slot = issued := Phase.leased.inj hnext
      dsimp only
      rw [Function.update_self]
      exact Nat.lt_succ_of_le hle
    · cases hnext

theorem slotToken_inj {slot other : SlotIndex} {lease lease' : UInt32}
    (h : slotToken slot lease = slotToken other lease') : slot = other ∧ lease = lease' := by
  refine ⟨Fin.ext ?_, congrArg Token.lease h⟩
  rw [← slotToken_index slot lease, h, slotToken_index]

/-- The token of a new lease is not one of those before. -/
theorem Issued.give {leases : SlotIndex → ℕ} {issued : List Token} {view : FrameView}
    (h : Issued leases issued c) (hphase : c.phase = .viewed slot view) :
    Issued leases (issued ++ [slotToken slot (c.leases slot)]) (c.goTo .idle) := by
  refine ⟨h.counted, fun hleases => ?_⟩
  obtain ⟨hnodup, htokens⟩ := h.tokens hleases
  have hcounted := h.counted slot (hleases slot)
  constructor
  · refine List.nodup_append.mpr ⟨hnodup, List.pairwise_singleton ..,
      fun token htoken other hother => ?_⟩
    rw [List.mem_singleton.mp hother]
    rintro rfl
    obtain ⟨issued, count, hsame, -, hlt⟩ := htokens _ htoken
    obtain ⟨rfl, hlease⟩ := slotToken_inj hsame
    have hcount := hlt (.inr ⟨view, hphase⟩)
    rw [hcounted] at hlease
    have hnat := congrArg UInt32.toNat hlease
    rw [UInt32.toNat_ofNat_of_lt' (hleases slot),
      UInt32.toNat_ofNat_of_lt' (Nat.lt_trans hcount (hleases slot))] at hnat
    omega
  · intro token htoken
    rcases List.mem_append.mp htoken with htoken | htoken
    · obtain ⟨issued, count, rfl, hle, -⟩ := htokens token htoken
      exact ⟨issued, count, rfl, hle, fun hnext => hnext.elim nofun nofun⟩
    · refine ⟨slot, leases slot, ?_, Nat.le_refl _, fun hnext => hnext.elim nofun nofun⟩
      rw [List.mem_singleton.mp htoken, hcounted]

theorem inv_finishAcquire {status : PresentationStatus} {acquired : Option (FrameView × Token)}
    (h : Inv target slots a memory p c)
    (hobserve : consumerMonitor.observe c ⟨.finishAcquire status acquired, ()⟩ = some w) :
    Inv target slots (a.note (.consumer, ⟨.finishAcquire status acquired, ()⟩)) memory p w := by
  have hconsumer := h.consumer
  simp only [consumerMonitor, observeConsumer] at hobserve
  split at hobserve
  case h_3 => cases hobserve
  case h_1 failed hphase =>
    obtain ⟨⟨rfl, -⟩, hnext⟩ := Option.ite_none_right_eq_some.mp hobserve
    cases hnext
    rw [ConsumerOk, hphase] at hconsumer
    exact inv_goTo h hconsumer.1 fun slot hnext => hnext.elim (by rintro ⟨⟩) (by rintro ⟨_, ⟨⟩⟩)
  case h_2 slot view hphase =>
    obtain ⟨⟨-, rfl⟩, hnext⟩ := Option.ite_none_right_eq_some.mp hobserve
    cases hnext
    rw [ConsumerOk, hphase] at hconsumer
    obtain ⟨hheld, -, -⟩ := hconsumer
    let token := slotToken slot (c.leases slot)
    change Inv target slots
      { a with
        issued := a.issued ++ [token]
        returned := a.returned ++ [view.publishedSequence]
        current := some token } _ _ _
    refine { h with consumer := ?_, issued := h.issued.give hphase }
    exact (congrArg (Option.map fun slot => slotToken slot (c.leases slot)) hheld).symm

theorem inv_finishRelease {token left : Token} {status : PresentationStatus}
    (h : Inv target slots a memory p c)
    (hobserve : consumerMonitor.observe c ⟨.finishRelease token status left, ()⟩ = some w) :
    Inv target slots (a.note (.consumer, ⟨.finishRelease token status left, ()⟩)) memory p w := by
  have hconsumer := h.consumer
  simp only [consumerMonitor, observeConsumer] at hobserve
  split at hobserve
  case h_3 => cases hobserve
  case h_1 given hphase =>
    obtain ⟨⟨-, rfl, -⟩, hnext⟩ := Option.ite_none_right_eq_some.mp hobserve
    cases hnext
    rw [ConsumerOk, hphase] at hconsumer
    exact inv_goTo h hconsumer fun slot hnext => hnext.elim (by rintro ⟨⟩) (by rintro ⟨_, ⟨⟩⟩)
  case h_2 given hphase =>
    obtain ⟨⟨-, rfl, -⟩, hnext⟩ := Option.ite_none_right_eq_some.mp hobserve
    cases hnext
    rw [ConsumerOk, hphase] at hconsumer
    exact { h with
      consumer := (congrArg (Option.map _) hconsumer.1).symm
      issued := h.issued.next rfl fun _ hnext => hnext.elim (by rintro ⟨⟩) (by rintro ⟨_, ⟨⟩⟩) }

theorem inv_consumer {request : Op} {reply : Result request} (h : Inv target slots a memory p c)
    (hacts : Acts memory request reply memory') :
    consumerMonitor.expects c ⟨request, reply⟩ ∧
      ∀ c', consumerMonitor.observe c ⟨request, reply⟩ = some c' →
        Inv target slots (a.add (.consumer, ⟨request, reply⟩)) memory' p c' := by
  have hconsumer := h.consumer
  cases hacts with
  | loadState slot =>
      constructor
      · change memory.slotState slot = .acquired ↔ c.held = some slot
        rw [← h.states]
        exact h.acquired slot
      · intro c' hobserve
        simp only [consumerMonitor, observeConsumer] at hobserve
        refine Inv.add ?_
        split at hobserve
        case h_3 => cases hobserve
        all_goals
          cases hobserve
          exact h
  | @swap slot expected desired hstate =>
      constructor
      · cases expected with
        | acquired => exact fun _ => rfl
        | _ => trivial
      · intro c' hobserve
        simp only [consumerMonitor, observeConsumer] at hobserve
        split at hobserve
        case h_1 failed hphase =>
          obtain ⟨⟨rfl, rfl, hheld⟩, hnext⟩ := Option.ite_none_right_eq_some.mp hobserve
          rw [if_pos trivial] at hnext
          cases hnext
          exact Inv.add (inv_take h hphase hheld hstate)
        case h_2 token hphase =>
          obtain ⟨⟨rfl, rfl, hheld, htoken, -⟩, hnext⟩ :=
            Option.ite_none_right_eq_some.mp hobserve
          cases hnext
          exact Inv.add (inv_giveBack h hphase hheld htoken)
        case h_3 => cases hobserve
  | @keep slot expected desired hstate =>
      rw [← h.states] at hstate
      constructor
      · cases expected with
        | acquired => exact fun hheld => absurd ((h.acquired slot).mpr hheld) hstate
        | _ => trivial
      · intro c' hobserve
        simp only [consumerMonitor, observeConsumer] at hobserve
        split at hobserve
        case h_1 failed hphase =>
          obtain ⟨⟨rfl, rfl, hheld⟩, hnext⟩ := Option.ite_none_right_eq_some.mp hobserve
          rw [if_neg (by rintro ⟨⟩)] at hnext
          cases hnext
          rw [ConsumerOk, hphase] at hconsumer
          exact Inv.add (inv_goTo h ⟨hconsumer.1, fun _ => hheld⟩
            fun _ hnext => hnext.elim (by rintro ⟨⟩) (by rintro ⟨_, ⟨⟩⟩))
        case h_2 token hphase =>
          obtain ⟨⟨-, -, -, -, hswapped⟩, -⟩ := Option.ite_none_right_eq_some.mp hobserve
          cases hswapped
        case h_3 => cases hobserve
  | loadLease slot =>
      refine ⟨congrFun h.leases slot, fun c' hobserve => Inv.add ?_⟩
      obtain rfl := Option.some.inj hobserve
      exact h
  | storeLease slot lease =>
      refine ⟨trivial, fun c' hobserve => Inv.add ?_⟩
      simp only [consumerMonitor, observeConsumer] at hobserve
      split at hobserve
      case h_2 => cases hobserve
      case h_1 claimed hphase =>
        obtain ⟨⟨rfl, hlease⟩, hnext⟩ := Option.ite_none_right_eq_some.mp hobserve
        cases hnext
        exact inv_storeLease h hphase hlease
  | loadFrame slot =>
      refine ⟨trivial, fun c' hobserve => Inv.add ?_⟩
      simp only [consumerMonitor, observeConsumer] at hobserve
      split at hobserve
      case h_2 => cases hobserve
      case h_1 claimed hphase =>
        obtain ⟨rfl, hnext⟩ := Option.ite_none_right_eq_some.mp hobserve
        cases hnext
        rw [ConsumerOk, hphase] at hconsumer
        refine inv_goTo h ⟨hconsumer.1, hconsumer.2, rfl⟩ fun other hnext => ?_
        rcases hnext with hnext | ⟨view, hnext⟩
        · cases hnext
        · obtain ⟨rfl, -⟩ := Phase.viewed.inj hnext
          exact hphase
  | beginConsume call =>
      exact ⟨trivial, fun c' hobserve => Inv.add (inv_beginConsume h hobserve)⟩
  | finishAcquire status acquired =>
      exact ⟨trivial, fun c' hobserve => Inv.add (inv_finishAcquire h hobserve)⟩
  | finishRelease token status left =>
      exact ⟨trivial, fun c' hobserve => Inv.add (inv_finishRelease h hobserve)⟩
  | _ => exact ⟨trivial, fun c' hobserve => by cases hobserve⟩

end Consumer

end Invariant

end EspNp2.Presentation.PublisherInvariant
