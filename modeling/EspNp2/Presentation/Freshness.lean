import EspNp2.Presentation.PublisherContract

/-!
The frames that the display sees when every submitted frame fits into both slots: no submission is
dropped, and each acquisition gets the frame that was published last.
-/

namespace EspNp2.Presentation.Freshness

open EspNp2.Library.Concurrent
open EspNp2.Library.LabelledRun
open FrameSource
open Publisher
open PublisherWatch
open PublisherInvariant
open PublisherContract

section Order

variable (target : Target) (slots : Slots)

/-- A frame fits into both slots, unless its sizes are refused. -/
def roomy (source : SourceView) : Bool :=
  (checkedSizes target source).all fun sizes =>
    slotOrder.all fun slot => decide (sizes.visibleBytes ≤ (slots slot).capacity)

/-- Only such frames are submitted. -/
def submitsRoomy : Label → Bool
  | (_, ⟨.beginSubmit, source⟩) => roomy target slots source
  | _ => true

variable {target slots} in
theorem fits_of_roomy {source : SourceView} {sizes : Sizes} (h : roomy target slots source = true)
    (hsizes : checkedSizes target source = some sizes) (slot : SlotIndex) :
    Fits target slots source slot := by
  rw [roomy, hsizes, Option.all_some, List.all_eq_true] at h
  exact ⟨sizes, hsizes, of_decide_eq_true (h slot (mem_slotOrder slot))⟩

/-- The consumer has taken a frame that it has not returned yet. -/
def handing : Phase → Bool
  | .swapped _ | .leased _ | .viewed .. => true
  | _ => false

def entrySequence (entry : Publication × ℕ) : UInt64 := UInt64.ofNat entry.2

/-- A moment without a pending frame has been noted. -/
def Quiet (a : Audit) : Prop := (∀ slot, a.states slot ≠ .pending) → a.quiet = true

/-- At most one frame is pending, which is the last one, and none while a frame is written. -/
structure Ordered (a : Audit) (c : Watch) : Prop where
  roomy : ∀ source, a.source = some source → roomy target slots source = true
  one : ∀ slot other, a.states slot = .pending → a.states other = .pending → slot = other
  exclusive : ∀ slot, a.claimed = some slot → ∀ other, a.states other ≠ .pending
  latest : ∀ slot, a.states slot = .pending → a.contents slot = a.published.getLast?
  numbered : ∀ entry ∈ a.acquired, 0 < entry.2 ∧ a.published[entry.2 - 1]? = some entry.1
  sorted : (a.acquired.map Prod.snd).Pairwise (· < ·)
  fresh : ∀ slot, a.states slot = .pending → ∀ entry ∈ a.acquired, entry.2 < a.published.length
  last : ∀ slot publication, a.held = some (slot, publication) →
    ∃ number, a.acquired.getLast? = some (publication, number)
  failed : ∀ failed, c.phase = .acquiring failed → ∀ slot ∈ failed, a.states slot = .pending →
    a.quiet = true
  returned : a.acquired.map entrySequence = a.returned ++
    if handing c.phase then a.acquired.getLast?.toList.map entrySequence else []

variable {target slots} {a : Audit} {memory memory' : Memory} {p c w : Watch} {label : Label}
  {slot : SlotIndex}

theorem quiet_add : Quiet (a.add label) := by
  intro hnone
  change (_ || decide (∀ slot, (a.note label).states slot ≠ .pending)) = true
  rw [Bool.or_eq_true]
  exact .inr (decide_eq_true hnone)

theorem Ordered.add (h : Ordered target slots (a.note label) c) :
    Ordered target slots (a.add label) c := by
  refine ⟨h.roomy, h.one, h.exclusive, h.latest, h.numbered, h.sorted, h.fresh, h.last, ?_,
    h.returned⟩
  intro failed hphase slot hslot hpending
  change (_ || _) = true
  rw [Bool.or_eq_true]
  exact .inl (h.failed failed hphase slot hslot hpending)

/-- A step that makes no frame pending. -/
theorem Ordered.settle {state : SlotState} (h : Ordered target slots a c)
    (hstate : state ≠ .pending) {claimed : Option SlotIndex} {touched : Bool}
    {held : Option (SlotIndex × Publication)}
    (hclaimed : ∀ other, claimed = some other → ∀ third,
      Function.update a.states slot state third ≠ .pending)
    (hheld : held = a.held ∨ held = none) :
    Ordered target slots
      { a with
        states := Function.update a.states slot state
        claimed := claimed
        touched := touched
        held := held } c := by
  have hbefore : ∀ {other}, Function.update a.states slot state other = .pending →
      a.states other = .pending := by
    intro other hother
    rw [Function.update_apply] at hother
    split at hother
    · exact absurd hother hstate
    · exact hother
  refine { h with
    one := fun other third hother hthird => h.one other third (hbefore hother) (hbefore hthird)
    exclusive := hclaimed
    latest := fun other hother => h.latest other (hbefore hother)
    fresh := fun other hother => h.fresh other (hbefore hother)
    last := ?_
    failed := fun failed hphase other hmem hother => h.failed failed hphase other hmem
      (hbefore hother) }
  intro other publication hsome
  rcases hheld with rfl | rfl
  · exact h.last other publication hsome
  · cases hsome

theorem Ordered.next (h : Ordered target slots a c)
    (hfailed : ∀ failed, w.phase = .acquiring failed → ∀ slot ∈ failed, a.states slot = .pending →
      a.quiet = true) (hhanding : handing w.phase = handing c.phase) :
    Ordered target slots a w := by
  refine { h with failed := hfailed, returned := ?_ }
  rw [hhanding]
  exact h.returned

theorem Ordered.publish (h : Ordered target slots a c) (hquiet : Quiet a) {source : SourceView}
    (hclaimed : a.claimed = some slot) (hsource : a.source = some source) :
    Ordered target slots (a.publish slot .pending) c := by
  let publication : Publication := ⟨source, UInt64.ofNat (a.published.length + 1)⟩
  have hpublish : a.publish slot .pending =
      { a with
        states := Function.update a.states slot .pending
        claimed := none
        touched := true
        published := a.published ++ [publication]
        contents := Function.update a.contents slot (some publication) } := by
    simp only [Audit.publish, hsource]
    rfl
  have honly : ∀ {other}, Function.update a.states slot .pending other = .pending →
    other = slot := by
    intro other hother
    by_contra hne
    rw [Function.update_of_ne hne] at hother
    exact h.exclusive slot hclaimed other hother
  have hlength : (a.published ++ [publication]).length = a.published.length + 1 :=
    List.length_append
  rw [hpublish]
  refine { h with one := ?_, exclusive := by rintro _ ⟨⟩, latest := ?_, numbered := ?_, fresh := ?_,
                  failed := ?_ }
  · intro other third hother hthird
    rw [honly hother, honly hthird]
  · intro other hother
    dsimp only
    rw [honly hother, Function.update_self, List.getLast?_concat]
  · intro entry hentry
    obtain ⟨hpositive, hget⟩ := h.numbered entry hentry
    refine ⟨hpositive, ?_⟩
    dsimp only
    rw [List.getElem?_append_left (List.getElem?_eq_some_iff.mp hget).1]
    exact hget
  · intro other _ entry hentry
    obtain ⟨-, hget⟩ := h.numbered entry hentry
    have hbound := (List.getElem?_eq_some_iff.mp hget).1
    dsimp only
    rw [hlength]
    omega
  · exact fun _ _ _ _ _ => hquiet (h.exclusive slot hclaimed)

theorem Ordered.take (h : Ordered target slots a c) {publication : Publication}
    (hstate : a.states slot = .pending) (hcontents : a.contents slot = some publication)
    (hphase : handing c.phase = false) :
    Ordered target slots (a.acquire slot) { c with phase := .swapped slot, held := some slot } := by
  have hacquire : a.acquire slot =
      { a with
        states := Function.update a.states slot .acquired
        held := some (slot, publication)
        acquired := a.acquired ++ [(publication, a.published.length)] } := by
    simp only [Audit.acquire, hcontents]
    rfl
  have hlast : a.published.getLast? = some publication :=
    (h.latest slot hstate).symm.trans hcontents
  have hpositive : 0 < a.published.length :=
    List.length_pos_iff.mpr fun hnil => by rw [hnil] at hlast; cases hlast
  have hnone : ∀ other, Function.update a.states slot .acquired other ≠ .pending := by
    intro other hother
    by_cases hsame : other = slot
    · rw [hsame, Function.update_self] at hother
      cases hother
    · rw [Function.update_of_ne hsame] at hother
      exact hsame (h.one other slot hother hstate)
  rw [hacquire]
  refine { h with
    one := fun other _ hother => absurd hother (hnone other)
    exclusive := fun _ _ => hnone
    latest := fun other hother => absurd hother (hnone other)
    numbered := ?_
    sorted := ?_
    fresh := fun other hother => absurd hother (hnone other)
    last := ?_
    failed := by rintro _ ⟨⟩
    returned := ?_ }
  · intro entry hentry
    rcases List.mem_append.mp hentry with hentry | hentry
    · exact h.numbered entry hentry
    · rw [List.mem_singleton.mp hentry]
      refine ⟨hpositive, ?_⟩
      rw [← hlast, List.getLast?_eq_getElem?]
  · dsimp only
    rw [List.map_append, List.pairwise_append]
    refine ⟨h.sorted, List.pairwise_singleton .., fun before hbefore number hnumber => ?_⟩
    obtain ⟨entry, hentry, rfl⟩ := List.mem_map.mp hbefore
    rw [List.mem_singleton.mp hnumber]
    exact h.fresh slot hstate entry hentry
  · intro other shown hshown
    obtain ⟨-, rfl⟩ := Prod.mk.inj (Option.some.inj hshown)
    exact ⟨_, List.getLast?_concat ..⟩
  · have hreturned := h.returned
    rw [hphase, if_neg (by rintro ⟨⟩), List.append_nil] at hreturned
    change (a.acquired ++ [_]).map entrySequence = a.returned ++
      (a.acquired ++ [_]).getLast?.toList.map entrySequence
    rw [List.map_append, hreturned, List.getLast?_concat]
    rfl

/-- The sequence in the view that an acquire call returns. -/
theorem Ordered.give (h : Ordered target slots a c) {publication : Publication}
    {acquired : FrameView × Token} (hheld : a.held = some (slot, publication))
    (hphase : handing c.phase = true) (hview : acquired.1.publishedSequence = publication.sequence)
    (hnumbers : a.published.map Publication.sequence =
      (List.range a.published.length).map fun index => UInt64.ofNat (index + 1)) :
    Ordered target slots
      { a with
        issued := a.issued ++ [acquired.2]
        returned := a.returned ++ [acquired.1.publishedSequence]
        current := some acquired.2 } (c.goTo .idle) := by
  obtain ⟨number, hlast⟩ := h.last slot publication hheld
  obtain ⟨hpositive, hget⟩ := h.numbered _ (List.mem_of_getLast? hlast)
  have hbound := (List.getElem?_eq_some_iff.mp hget).1
  have hsequence : publication.sequence = UInt64.ofNat number := by
    have hmapped := congrArg (fun list : List UInt64 => list[number - 1]?) hnumbers
    simp only [List.getElem?_map] at hmapped
    rw [hget, List.getElem?_range hbound, Option.map_some, Option.map_some] at hmapped
    refine (Option.some.inj hmapped).trans ?_
    rw [Nat.sub_add_cancel hpositive]
  refine { h with failed := nofun, returned := ?_ }
  have hreturned := h.returned
  rw [hphase, if_pos rfl, hlast] at hreturned
  change a.acquired.map entrySequence = (a.returned ++ [acquired.1.publishedSequence]) ++ []
  rw [hreturned, List.append_nil, hview, hsequence]
  rfl

theorem ordered_producer {request : Op} {reply : Result request}
    (hinv : Inv target slots a memory p c) (h : Ordered target slots a c) (hquiet : Quiet a)
    (hroomy : submitsRoomy target slots (.producer, ⟨request, reply⟩) = true)
    (hacts : Acts memory request reply memory')
    (hobserve : (producerMonitor target slots).observe p ⟨request, reply⟩ = some w) :
    Ordered target slots (a.add (.producer, ⟨request, reply⟩)) c := by
  have hproducer := hinv.producer
  apply Ordered.add
  cases request with
  | beginSubmit =>
      refine { h with roomy := ?_ }
      rintro source ⟨⟩
      exact hroomy
  | casState slot expected desired =>
      cases reply with
      | false => exact h
      | true =>
          simp only [producerMonitor, observeProducer] at hobserve
          split at hobserve
          case h_2 => cases hobserve
          case h_1 source scan hphase =>
            obtain ⟨⟨⟨sizes, hsizes, -⟩, rfl, hseen⟩, -⟩ :=
              Option.ite_none_right_eq_some.mp hobserve
            rw [ProducerOk, hphase] at hproducer
            obtain ⟨-, -, hsource, -, hscan⟩ := hproducer
            have hfits := fits_of_roomy (h.roomy source hsource) hsizes
            have hstate : a.states slot = expected := by
              cases hacts with
              | swap _ hstate => rw [hinv.states]; exact hstate
            have hnew : SlotState.writing ≠ .pending := by rintro ⟨⟩
            refine h.settle hnew (fun _ _ other hother => ?_) (.inl rfl)
            by_cases hsame : other = slot
            · rw [hsame, Function.update_self] at hother
              cases hother
            · rw [Function.update_of_ne hsame] at hother
              rcases hseen with ⟨rfl, -⟩ | ⟨-, -, hall⟩
              · exact hsame (h.one other slot hother hstate)
              · exact hscan.clear other (hall other (hfits other)) hother
  | storeState slot state =>
      simp only [producerMonitor, observeProducer] at hobserve
      split at hobserve
      case h_2 => cases hobserve
      case h_1 source claimed hphase =>
        obtain ⟨⟨rfl, rfl⟩, -⟩ := Option.ite_none_right_eq_some.mp hobserve
        rw [ProducerOk, hphase] at hproducer
        exact h.publish hquiet hproducer.1 hproducer.2.1
  | _ => first | exact h | exact { h with }

theorem ordered_beginConsume {reply : ConsumeCall} (h : Ordered target slots a c)
    (hobserve : consumerMonitor.observe c ⟨.beginConsume, reply⟩ = some w) :
    Ordered target slots (a.note (.consumer, ⟨.beginConsume, reply⟩)) w := by
  have hidle : c.phase = .idle ∧ handing w.phase = false ∧
      ∀ failed, w.phase = .acquiring failed → failed = [] := by
    cases reply with
    | acquire =>
        simp only [consumerMonitor, observeConsumer] at hobserve
        split at hobserve
        case h_2 => cases hobserve
        case h_1 hphase =>
          cases hobserve
          exact ⟨hphase, rfl, fun failed hfailed => (Phase.acquiring.inj hfailed).symm⟩
    | release token =>
        simp only [consumerMonitor, observeConsumer] at hobserve
        split at hobserve
        case h_2 => cases hobserve
        case h_1 hphase =>
          cases hobserve
          exact ⟨hphase, rfl, (by rintro _ ⟨⟩)⟩
  obtain ⟨hphase, hhanding, hempty⟩ := hidle
  have hnote : Ordered target slots { a with quiet := false } c :=
    { h with failed := by rw [hphase]; rintro _ ⟨⟩ }
  refine hnote.next (fun failed hfailed slot hslot => ?_) (by rw [hhanding, hphase]; rfl)
  rw [hempty failed hfailed] at hslot
  cases hslot

/-- The display takes a pending slot, finds it gone, or gives it back. -/
theorem ordered_exchange {expected desired : SlotState} {swapped : Bool}
    (hinv : Inv target slots a memory p c) (h : Ordered target slots a c)
    (hacts : Acts memory (.casState slot expected desired) swapped memory')
    (hobserve : consumerMonitor.observe c ⟨.casState slot expected desired, swapped⟩ = some w) :
    Ordered target slots (a.note (.consumer, ⟨.casState slot expected desired, swapped⟩)) w := by
  simp only [consumerMonitor, observeConsumer] at hobserve
  split at hobserve
  case h_3 => cases hobserve
  case h_1 failed hphase =>
    obtain ⟨⟨rfl, rfl, -⟩, hnext⟩ := Option.ite_none_right_eq_some.mp hobserve
    cases hacts with
    | swap _ hstate =>
        rw [if_pos rfl] at hnext
        cases hnext
        rw [← hinv.states] at hstate
        obtain ⟨publication, hcontents, -⟩ := hinv.stored slot (.inl hstate)
        exact h.take hstate hcontents (by rw [hphase]; rfl)
    | keep _ hstate =>
        rw [if_neg (by rintro ⟨⟩)] at hnext
        cases hnext
        rw [← hinv.states] at hstate
        refine h.next ?_ (by rw [hphase]; rfl)
        rintro _ ⟨⟩ other hother hpending
        rcases List.mem_cons.mp hother with rfl | hother
        · exact absurd hpending hstate
        · exact h.failed failed hphase other hother hpending
  case h_2 token hphase =>
    obtain ⟨⟨rfl, rfl, -, -, rfl⟩, hnext⟩ := Option.ite_none_right_eq_some.mp hobserve
    cases hnext
    have hfree : SlotState.free ≠ .pending := by rintro ⟨⟩
    have hnone : ∀ other, a.claimed = some other → ∀ third,
        Function.update a.states slot .free third ≠ .pending := by
      intro other hclaimed third
      rw [Function.update_apply]
      split
      · exact hfree
      · exact h.exclusive other hclaimed third
    exact (h.settle hfree hnone (.inr rfl)).next (by rintro _ ⟨⟩) (by rw [hphase]; rfl)

theorem ordered_finishAcquire {status : PresentationStatus} {acquired : Option (FrameView × Token)}
    (hinv : Inv target slots a memory p c) (h : Ordered target slots a c)
    (hobserve : consumerMonitor.observe c ⟨.finishAcquire status acquired, ()⟩ = some w) :
    Ordered target slots (a.note (.consumer, ⟨.finishAcquire status acquired, ()⟩)) w := by
  have hconsumer := hinv.consumer
  simp only [consumerMonitor, observeConsumer] at hobserve
  split at hobserve
  case h_3 => cases hobserve
  case h_1 failed hphase =>
    obtain ⟨⟨rfl, -⟩, hnext⟩ := Option.ite_none_right_eq_some.mp hobserve
    cases hnext
    exact h.next (by rintro _ ⟨⟩) (by rw [hphase]; rfl)
  case h_2 slot view hphase =>
    obtain ⟨⟨rfl, rfl⟩, hnext⟩ := Option.ite_none_right_eq_some.mp hobserve
    cases hnext
    rw [ConsumerOk, hphase] at hconsumer
    obtain ⟨hheld, -, hframe⟩ := hconsumer
    obtain ⟨publication, hpublication, -, hshows⟩ := Inv.heldFrame hinv hheld
    refine h.give hpublication (by rw [hphase]; rfl) ?_ hinv.numbers
    rw [← hframe, hshows.view]
    rfl

theorem ordered_finishRelease {token : Token} {status : PresentationStatus} {left : Token}
    (h : Ordered target slots a c)
    (hobserve : consumerMonitor.observe c ⟨.finishRelease token status left, ()⟩ = some w) :
    Ordered target slots (a.note (.consumer, ⟨.finishRelease token status left, ()⟩)) w := by
  simp only [consumerMonitor, observeConsumer] at hobserve
  split at hobserve
  case h_3 => cases hobserve
  case h_1 given hphase =>
    obtain ⟨⟨-, rfl, -⟩, hnext⟩ := Option.ite_none_right_eq_some.mp hobserve
    cases hnext
    exact h.next (by rintro _ ⟨⟩) (by rw [hphase]; rfl)
  case h_2 given hphase =>
    obtain ⟨⟨-, rfl, -⟩, hnext⟩ := Option.ite_none_right_eq_some.mp hobserve
    cases hnext
    have hnote : Ordered target slots { a with current := none } c := { h with }
    exact hnote.next (by rintro _ ⟨⟩) (by rw [hphase]; rfl)

theorem ordered_consumer {request : Op} {reply : Result request}
    (hinv : Inv target slots a memory p c)
    (h : Ordered target slots a c) (hacts : Acts memory request reply memory')
    (hobserve : consumerMonitor.observe c ⟨request, reply⟩ = some w) :
    Ordered target slots (a.add (.consumer, ⟨request, reply⟩)) w := by
  apply Ordered.add
  cases request with
  | beginConsume => exact ordered_beginConsume h hobserve
  | casState slot expected desired => exact ordered_exchange hinv h hacts hobserve
  | finishAcquire status acquired => exact ordered_finishAcquire hinv h hobserve
  | finishRelease token status left => exact ordered_finishRelease h hobserve
  | loadState slot =>
      simp only [consumerMonitor, observeConsumer] at hobserve
      split at hobserve
      case h_3 => cases hobserve
      all_goals
        cases hobserve
        exact h
  | loadLease slot =>
      obtain rfl := Option.some.inj hobserve
      exact h
  | storeLease slot lease =>
      simp only [consumerMonitor, observeConsumer] at hobserve
      split at hobserve
      case h_2 => cases hobserve
      case h_1 claimed hphase =>
        obtain ⟨⟨rfl, -⟩, hnext⟩ := Option.ite_none_right_eq_some.mp hobserve
        cases hnext
        have hnote : Ordered target slots (a.note (.consumer, ⟨.storeLease slot lease, reply⟩)) c :=
          { h with }
        exact hnote.next (by rintro _ ⟨⟩) (by rw [hphase]; rfl)
  | loadFrame slot =>
      simp only [consumerMonitor, observeConsumer] at hobserve
      split at hobserve
      case h_2 => cases hobserve
      case h_1 claimed hphase =>
        obtain ⟨-, hnext⟩ := Option.ite_none_right_eq_some.mp hobserve
        cases hnext
        exact h.next (by rintro _ ⟨⟩) (by rw [hphase]; rfl)
  | _ => cases hobserve

end Order

section Contract

variable (target : Target) (slots : Slots)

/-- No submission finds both slots taken, and the display is told that there is no frame only
when there was a moment without one. -/
def Answers (earlier : List Label) : Label → Prop
  | (.producer, ⟨.finishSubmit _ status, _⟩) => status ≠ .dropped ∧ status ≠ .capacityExceeded
  | (.consumer, ⟨.finishAcquire status _, _⟩) => status = .noFrame → (audit earlier).quiet = true
  | _ => True

/-- What the display is promised after a run: the frames that it acquires are those that were
published last at that moment, each is newer than the one before, and their sequences are
returned. -/
structure FreshContract (labels : List Label) (memory : Memory) : Prop where
  one : ∀ slot other, memory.slotState slot = .pending → memory.slotState other = .pending →
    slot = other
  latest : ∀ slot, memory.slotState slot = .pending → ∃ publication,
    (audit labels).published.getLast? = some publication ∧
      Shows target slots (memory.bytes slot) (memory.frame slot) slot publication
  numbered : ∀ entry ∈ (audit labels).acquired,
    0 < entry.2 ∧ (audit labels).published[entry.2 - 1]? = some entry.1
  sorted : ((audit labels).acquired.map Prod.snd).Pairwise (· < ·)
  returned : (audit labels).returned <+: (audit labels).acquired.map entrySequence ∧
    (audit labels).acquired.length ≤ (audit labels).returned.length + 1
  answers : AtEach Answers labels

def RunInv (labels : List Label) (memory : Memory) (watches : Party → Watch) : Prop :=
  PublisherContract.RunInv target slots labels memory watches ∧
    Ordered target slots (audit labels) (watches .consumer) ∧ Quiet (audit labels) ∧
    AtEach Answers labels

variable {target slots} {labels : List Label} {memory memory' : Memory} {watches : Party → Watch}
  {request : Op} {reply : Result request} {w : Watch}

theorem answers_producer {p c : Watch} (hinv : Inv target slots (audit labels) memory p c)
    (h : Ordered target slots (audit labels) c)
    (hobserve : (producerMonitor target slots).observe p ⟨request, reply⟩ = some w) :
    Answers labels (.producer, ⟨request, reply⟩) := by
  have hproducer := hinv.producer
  cases request with
  | finishSubmit source status =>
      simp only [producerMonitor, observeProducer] at hobserve
      split at hobserve
      case h_4 => cases hobserve
      case h_1 wanted scan hphase =>
        obtain ⟨⟨-, hstatus⟩, -⟩ := Option.ite_none_right_eq_some.mp hobserve
        rcases hstatus with rfl | rfl <;> exact ⟨(by rintro ⟨⟩), (by rintro ⟨⟩)⟩
      case h_2 wanted scan hphase =>
        rw [ProducerOk, hphase] at hproducer
        obtain ⟨-, -, hsource, -, hsome, slot, hfit⟩ := hproducer
        obtain ⟨sizes, hsizes⟩ := Option.isSome_iff_exists.mp hsome
        exact absurd (fits_of_roomy (h.roomy wanted hsource) hsizes slot) hfit
      case h_3 wanted hphase =>
        obtain ⟨⟨-, rfl⟩, -⟩ := Option.ite_none_right_eq_some.mp hobserve
        exact ⟨(by rintro ⟨⟩), (by rintro ⟨⟩)⟩
  | _ => trivial

theorem answers_consumer {c : Watch} (h : Ordered target slots (audit labels) c)
    (hquiet : Quiet (audit labels))
    (hobserve : consumerMonitor.observe c ⟨request, reply⟩ = some w) :
    Answers labels (.consumer, ⟨request, reply⟩) := by
  cases request with
  | finishAcquire status acquired =>
      rintro rfl
      simp only [consumerMonitor, observeConsumer] at hobserve
      split at hobserve
      case h_3 => cases hobserve
      case h_1 failed hphase =>
        obtain ⟨⟨-, hstatus⟩, -⟩ := Option.ite_none_right_eq_some.mp hobserve
        obtain ⟨-, hfailed⟩ := hstatus.resolve_left fun hbusy => by cases hbusy.1
        by_cases hnone : ∀ slot, (audit labels).states slot ≠ .pending
        · exact hquiet hnone
        · obtain ⟨slot, hpending⟩ := not_forall.mp hnone
          exact h.failed failed hphase slot (hfailed slot) (not_not.mp hpending)
      case h_2 slot view hphase =>
        obtain ⟨⟨hstatus, -⟩, -⟩ := Option.ite_none_right_eq_some.mp hobserve
        cases hstatus
  | _ => trivial

theorem runInv_step {party : Party} (h : RunInv target slots labels memory watches)
    (hroomy : submitsRoomy target slots (party, ⟨request, reply⟩) = true)
    (hacts : Acts memory request reply memory') :
    (monitors target slots party).expects (watches party) ⟨request, reply⟩ ∧
      ∀ w, (monitors target slots party).observe (watches party) ⟨request, reply⟩ = some w →
        RunInv target slots (labels ++ [(party, ⟨request, reply⟩)]) memory'
          (Function.update watches party w) := by
  obtain ⟨hrun, hordered, hquiet, hanswers⟩ := h
  obtain ⟨hexpects, hnext⟩ := PublisherContract.runInv_step hrun hacts
  refine ⟨hexpects, fun w hobserve => ⟨hnext w hobserve, ?_, ?_, ?_⟩⟩
  · rw [audit_snoc]
    cases party with
    | producer => exact ordered_producer hrun.1 hordered hquiet hroomy hacts hobserve
    | consumer => exact ordered_consumer hrun.1 hordered hacts hobserve
  · rw [audit_snoc]
    exact quiet_add
  · refine atEach_snoc_iff.mpr ⟨hanswers, ?_⟩
    cases party with
    | producer => exact answers_producer hrun.1 hordered hobserve
    | consumer => exact answers_consumer hordered hquiet hobserve

/-- When every submitted frame fits into both slots, the display gets the newest frame at each
acquisition, whatever the interleaving. -/
theorem freshness (hinit : initPublisher target slots = (.ok, some memory))
    {last : PublisherSystem}
    (hrun : Run (StepIf Acts fun _ label => submitsRoomy target slots label = true)
      (PublisherSystem.initial target slots memory) labels last) :
    FreshContract target slots labels last.state := by
  obtain rfl := initPublisher_memory hinit
  obtain ⟨watches, ⟨⟨hinv, -⟩, hordered, -, hanswers⟩, -⟩ := system_invariant
    (I := RunInv target slots) hrun watched_parties
    ⟨⟨inv_initial target slots, atEach_nil _⟩, ⟨nofun, nofun, nofun, nofun, nofun,
      List.Pairwise.nil, nofun, nofun, nofun, rfl⟩, fun _ => rfl, atEach_nil _⟩
    (fun _ _ _ _ _ _ _ h hroomy hacts => runInv_step h hroomy hacts)
  have hreturned := hordered.returned
  refine ⟨?_, ?_, hordered.numbered, hordered.sorted, ?_, hanswers⟩
  · rw [← hinv.states]
    exact hordered.one
  · intro slot hpending
    rw [← hinv.states] at hpending
    obtain ⟨publication, hcontents, -, hshows⟩ := hinv.stored slot (.inl hpending)
    exact ⟨publication, (hordered.latest slot hpending).symm.trans hcontents, hshows⟩
  · rw [← List.length_map (f := entrySequence), hreturned, List.length_append]
    refine ⟨List.prefix_append .., Nat.add_le_add_left ?_ _⟩
    split
    · cases (audit labels).acquired.getLast? with
      | none => exact Nat.zero_le _
      | some entry => exact Nat.le_refl _
    · exact Nat.zero_le _

/-- The display acquires two frames; one that was published between them is replaced. -/
def replacingSchedule : List Party :=
  List.replicate 12 .producer ++ List.replicate 9 .consumer ++ List.replicate 25 .producer ++
    List.replicate 15 .consumer

theorem replacingSchedule_returns :
    (execute serve (fun _ label => submitsRoomy wordTarget twoSlots label) replacingSchedule
      (PublisherSystem.initial wordTarget twoSlots
        { bytes := fun slot => (twoSlots slot).bytes })).any
        (fun result => (audit result.1).returned = [1, 3] ∧ result.2.state.coalescedCount = 1) =
      true := by
  decide +kernel

theorem freshness_replacing : ∃ labels last,
    Run (StepIf Acts fun _ label => submitsRoomy wordTarget twoSlots label = true)
      (PublisherSystem.initial wordTarget twoSlots { bytes := fun slot => (twoSlots slot).bytes })
      labels last ∧
      ((audit labels).returned = [1, 3] ∧ last.state.coalescedCount = 1) ∧
      FreshContract wordTarget twoSlots labels last.state := by
  have hreturns := replacingSchedule_returns
  rw [Option.any_eq_true] at hreturns
  obtain ⟨⟨labels, last⟩, hexecute, hresult⟩ := hreturns
  have hrun := execute_run acts_serve hexecute
  exact ⟨labels, last, hrun, of_decide_eq_true hresult, freshness initPublisher_twoSlots hrun⟩

end Contract

end EspNp2.Presentation.Freshness
