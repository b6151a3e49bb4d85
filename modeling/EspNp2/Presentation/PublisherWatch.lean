import EspNp2.Presentation.Publisher

/-!
Monitors of the two parties. The producer touches a slot only while it has claimed it, and tells
what it has seen of the slots that it has not; the consumer holds one slot at a time, under the
lease that it has counted.
-/

namespace EspNp2.Presentation.PublisherWatch

open EspNp2.Library.Concurrent
open FrameSource
open Publisher

/-- What the producer has seen of a slot in this call: that no frame is pending in it, that it is
free, or that the consumer has it. -/
inductive Scan where
  | unseen
  | clear
  | free
  | taken
deriving DecidableEq, Repr

def Scan.load : Scan → SlotState → Scan
  | .unseen, .pending => .unseen
  | .unseen, _ => .clear
  | .clear, .free => .free
  | .clear, _ => .taken
  | scan, _ => scan

inductive Phase where
  | idle
  /-- A submit call that has claimed no slot. -/
  | scanning (source : SourceView) (scan : SlotIndex → Scan)
  /-- A submit call that has found no slot. -/
  | refused (source : SourceView) (scan : SlotIndex → Scan)
  /-- The producer has claimed a slot and copied so many rows. -/
  | copying (source : SourceView) (slot : SlotIndex) (replacedPending : Bool) (rows : ℕ)
  | numbered (source : SourceView) (slot : SlotIndex) (replacedPending : Bool)
  | described (source : SourceView) (slot : SlotIndex) (replacedPending : Bool)
  | published (source : SourceView)
  /-- An acquire call that has found no frame in some slots. -/
  | acquiring (failed : List SlotIndex)
  | swapped (slot : SlotIndex)
  | leased (slot : SlotIndex)
  | viewed (slot : SlotIndex) (view : FrameView)
  | releasing (token : Token)
  | released (token : Token)

/-- A party between two operations. The consumer keeps the slot that it holds and the leases, the
producer the number of the last frame. -/
structure Watch where
  phase : Phase := .idle
  held : Option SlotIndex := none
  leases : SlotIndex → UInt32 := fun _ => 0
  sequence : UInt64 := 0

def Watch.goTo (w : Watch) (phase : Phase) : Watch := { w with phase := phase }

def Watch.token (w : Watch) : Option Token := w.held.map fun slot => slotToken slot (w.leases slot)

section Producer

variable (target : Target) (slots : Slots)

/-- The sizes of the frame fit into the slot. -/
def Fits (source : SourceView) (slot : SlotIndex) : Prop :=
  ∃ sizes, checkedSizes target source = some sizes ∧ sizes.visibleBytes ≤ (slots slot).capacity

def rowBytesOf (source : SourceView) : ℕ := ((checkedSizes target source).map Sizes.rowBytes).getD 0

open scoped Classical in
noncomputable def observeProducer (w : Watch) : OpLabel Op Result → Option Watch
  | ⟨.beginSubmit, source⟩ =>
      match w.phase with
      | .idle => some (w.goTo (.scanning source fun _ => .unseen))
      | _ => none
  | ⟨.loadState slot, state⟩ =>
      match w.phase with
      | .scanning source scan =>
          if scan slot = .unseen → ∀ other, scan other ≠ .taken then
            some (w.goTo (.scanning source (Function.update scan slot ((scan slot).load state))))
          else none
      | _ => none
  | ⟨.casState slot expected desired, swapped⟩ =>
      match w.phase with
      | .scanning source scan =>
          if Fits target slots source slot ∧ desired = .writing ∧
              (expected = .pending ∧ scan slot = .unseen ∧ (∀ other, scan other ≠ .taken) ∨
                expected = .free ∧ scan slot = .free ∧
                  ∀ other, Fits target slots source other → scan other ≠ .unseen) then
            if swapped then some (w.goTo (.copying source slot (expected = .pending) 0))
            else some (w.goTo (.scanning source (Function.update scan slot .clear)))
          else none
      | _ => none
  | ⟨.copyRow slot offset row, _⟩ =>
      match w.phase with
      | .copying source claimed replacedPending rows =>
          if slot = claimed ∧ rows < source.height.toNat ∧
              offset = rows * rowBytesOf target source ∧
              row = source.row (rowBytesOf target source) rows then
            some (w.goTo (.copying source claimed replacedPending (rows + 1)))
          else none
      | _ => none
  | ⟨.loadSequence, _⟩ => some w
  | ⟨.storeSequence sequence, _⟩ =>
      match w.phase with
      | .copying source slot replacedPending rows =>
          if rows = source.height.toNat ∧ sequence = w.sequence + 1 then
            some { w with phase := .numbered source slot replacedPending, sequence := sequence }
          else none
      | _ => none
  | ⟨.storeFrame slot view, _⟩ =>
      match w.phase with
      | .numbered source claimed replacedPending =>
          if slot = claimed ∧
              view = frameView slots source (rowBytesOf target source) slot w.sequence then
            some (w.goTo (.described source claimed replacedPending))
          else none
      | _ => none
  | ⟨.countCoalesced, _⟩ =>
      match w.phase with
      | .described source slot true => some (w.goTo (.described source slot false))
      | _ => none
  | ⟨.storeState slot state, _⟩ =>
      match w.phase with
      | .described source claimed false =>
          if slot = claimed ∧ state = .pending then some (w.goTo (.published source)) else none
      | _ => none
  | ⟨.countDropped, _⟩ =>
      match w.phase with
      | .scanning source scan =>
          if (checkedSizes target source).isSome ∧
              ∀ slot, Fits target slots source slot → scan slot = .taken then
            some (w.goTo (.refused source scan))
          else none
      | _ => none
  | ⟨.finishSubmit source status, _⟩ =>
      match w.phase with
      | .scanning wanted _ =>
          if source = wanted ∧ (status = .invalidFrame ∨ status = .aliased) then
            some (w.goTo .idle)
          else none
      | .refused wanted _ =>
          if source = wanted ∧ status = (if ∃ slot, Fits target slots wanted slot then .dropped
              else .capacityExceeded) then some (w.goTo .idle)
          else none
      | .published wanted =>
          if source = wanted ∧ status = .ok then some (w.goTo .idle) else none
      | _ => none
  | _ => none

/-- A slot that was seen to be free stays free, and the consumer has one slot at most. -/
noncomputable def producerMonitor : Monitor Watch Op Result where
  expects w
    | ⟨.casState slot .free _, swapped⟩ =>
        ∀ source scan, w.phase = .scanning source scan → scan slot = .free → swapped = true
    | ⟨.loadSequence, sequence⟩ => sequence = w.sequence
    | _ => True
  observe := observeProducer target slots

variable {target slots} {source : SourceView} {sizes : Sizes} {w : Watch}
  {scan : SlotIndex → Scan}

theorem fits_iff (hsizes : checkedSizes target source = some sizes) {slot : SlotIndex} :
    Fits target slots source slot ↔ sizes.visibleBytes ≤ (slots slot).capacity := by
  simp [Fits, hsizes]

theorem rowBytesOf_eq (hsizes : checkedSizes target source = some sizes) :
    rowBytesOf target source = sizes.rowBytes := by
  rw [rowBytesOf, hsizes]
  rfl

/-- What a pass knows of the slots that it has looked at. -/
def Claimed (target : Target) (slots : Slots) (source : SourceView) (scan : SlotIndex → Scan)
    (replacedPending : Bool) (found : Scan) (order : List SlotIndex) (w : Watch) :
    Option SlotIndex → Prop
  | some slot => w.phase = .copying source slot replacedPending 0
  | none => ∃ scan', w.phase = .scanning source scan' ∧ ∀ slot,
      (slot ∈ order → Fits target slots source slot → scan' slot = found) ∧
        (slot ∉ order → scan' slot = scan slot)

theorem Claimed.cons {replacedPending : Bool} {found seen : Scan} {order : List SlotIndex}
    {slot : SlotIndex} (hslot : slot ∉ order)
    (hseen : Fits target slots source slot → seen = found) {result : Option SlotIndex}
    (h : Claimed target slots source (Function.update scan slot seen) replacedPending found order
      w result) :
    Claimed target slots source scan replacedPending found (slot :: order) w result := by
  cases result with
  | some claimed => exact h
  | none =>
      obtain ⟨scan', hphase, hscan⟩ := h
      refine ⟨scan', hphase, fun other => ⟨fun hmem hfits => ?_, fun hother => ?_⟩⟩
      · rcases List.mem_cons.mp hmem with rfl | hmem
        · rw [(hscan other).2 hslot, Function.update_self]
          exact hseen hfits
        · exact (hscan other).1 hmem hfits
      · rw [List.mem_cons, not_or] at hother
        rw [(hscan other).2 hother.2, Function.update_of_ne hother.1]

section Steps

variable {α : Type} {post : Watch → α → Prop} {slot : SlotIndex}

theorem scanning_loadState {next : SlotState → Thread Op Result α}
    (hphase : w.phase = .scanning source scan)
    (hfirst : scan slot = .unseen → ∀ other, scan other ≠ .taken)
    (h : ∀ state, Watched (producerMonitor target slots) post (next state)
      (w.goTo (.scanning source (Function.update scan slot ((scan slot).load state))))) :
    Watched (producerMonitor target slots) post (.op (.loadState slot) next) w := by
  refine watched_op_iff.mpr fun state _ => ⟨_, ?_, h state⟩
  simp only [producerMonitor, observeProducer, hphase]
  exact if_pos hfirst

theorem scanning_casState {expected : SlotState} {next : Bool → Thread Op Result α}
    (hphase : w.phase = .scanning source scan) (hfits : Fits target slots source slot)
    (hseen : expected = .pending ∧ scan slot = .unseen ∧ (∀ other, scan other ≠ .taken) ∨
      expected = .free ∧ scan slot = .free ∧
        ∀ other, Fits target slots source other → scan other ≠ .unseen)
    (htrue : Watched (producerMonitor target slots) post (next true)
      (w.goTo (.copying source slot (expected = .pending) 0)))
    (hfalse : expected ≠ .free → Watched (producerMonitor target slots) post (next false)
      (w.goTo (.scanning source (Function.update scan slot .clear)))) :
    Watched (producerMonitor target slots) post
      (.op (.casState slot expected .writing) next) w := by
  refine watched_op_iff.mpr fun swapped hexpects => ?_
  have hobserve : (producerMonitor target slots).observe w
      ⟨.casState slot expected .writing, swapped⟩ =
        if swapped then some (w.goTo (.copying source slot (expected = .pending) 0))
        else some (w.goTo (.scanning source (Function.update scan slot .clear))) := by
    simp only [producerMonitor, observeProducer, hphase]
    exact if_pos ⟨hfits, rfl, hseen⟩
  cases swapped with
  | true => exact ⟨_, hobserve, htrue⟩
  | false =>
      refine ⟨_, hobserve, hfalse ?_⟩
      rintro rfl
      rcases hseen with ⟨hpending, _⟩ | ⟨_, hfree, _⟩
      · cases hpending
      · exact nomatch hexpects source scan hphase hfree

end Steps

/-- In the first pass a slot is claimed that holds a pending frame. -/
theorem watched_claimPending (hsizes : checkedSizes target source = some sizes)
    {order : List SlotIndex} (hnodup : order.Nodup) (hphase : w.phase = .scanning source scan)
    (hunseen : ∀ slot ∈ order, scan slot = .unseen) (hfirst : ∀ slot, scan slot ≠ .taken) :
    Watched (producerMonitor target slots) (Claimed target slots source scan true .clear order)
      (claimFrom slots sizes.visibleBytes .pending order) w := by
  induction order generalizing w scan with
  | nil => exact watched_done_iff.mpr ⟨scan, hphase, fun slot => ⟨nofun, fun _ => rfl⟩⟩
  | cons slot order ih =>
      obtain ⟨hslot, hrest⟩ := List.nodup_cons.mp hnodup
      have hothers : ∀ seen, ∀ other ∈ order, Function.update scan slot seen other = .unseen := by
        intro seen other hother
        have hne : other ≠ slot := fun h => hslot (h ▸ hother)
        rw [Function.update_of_ne hne]
        exact hunseen other (List.mem_cons_of_mem _ hother)
      have hclear : ∀ other, Function.update scan slot .clear other ≠ .taken := by
        intro other
        rw [Function.update_apply]
        split
        · exact nofun
        · exact hfirst other
      rw [claimFrom]
      split
      case isTrue hsmall =>
        have hsame : Function.update scan slot (scan slot) = scan := Function.update_eq_self ..
        refine (ih hrest (by rwa [hsame]) (hothers (scan slot))
          (by rwa [hsame])).mono fun w result h => ?_
        refine h.cons hslot fun hfits => ?_
        exact absurd ((fits_iff hsizes).mp hfits) (Nat.not_le_of_lt hsmall)
      case isFalse hroom =>
        have hfits : Fits target slots source slot :=
          (fits_iff hsizes).mpr (Nat.le_of_not_lt hroom)
        have hseen : scan slot = .unseen := hunseen slot (List.mem_cons_self ..)
        refine scanning_loadState hphase (fun _ => hfirst) fun state => ?_
        dsimp only [Thread.bind]
        split
        case isTrue hstate =>
          have hload : (scan slot).load state = .clear := by
            rw [hseen]
            cases state with
            | pending => exact absurd rfl hstate
            | _ => rfl
          refine (ih hrest rfl (hothers _) (by rwa [hload])).mono fun w result h => ?_
          exact h.cons hslot fun _ => hload
        case isFalse hstate =>
          obtain rfl : state = .pending := not_not.mp hstate
          have hsame : Function.update scan slot ((scan slot).load .pending) = scan := by
            rw [hseen]
            exact (congrArg _ hseen.symm).trans (Function.update_eq_self ..)
          rw [hsame]
          refine scanning_casState rfl hfits (.inl ⟨rfl, hseen, hfirst⟩) ?_ fun _ => ?_
          · exact watched_done_iff.mpr rfl
          · refine (ih hrest rfl (hothers .clear) hclear).mono fun w result h => ?_
            exact h.cons hslot fun _ => rfl

/-- In the second pass a slot is claimed that is free. -/
theorem watched_claimFree (hsizes : checkedSizes target source = some sizes)
    {order : List SlotIndex} (hnodup : order.Nodup) (hphase : w.phase = .scanning source scan)
    (hclear : ∀ slot ∈ order, Fits target slots source slot → scan slot = .clear)
    (hall : ∀ slot, Fits target slots source slot → scan slot ≠ .unseen) :
    Watched (producerMonitor target slots) (Claimed target slots source scan false .taken order)
      (claimFrom slots sizes.visibleBytes .free order) w := by
  induction order generalizing w scan with
  | nil => exact watched_done_iff.mpr ⟨scan, hphase, fun slot => ⟨nofun, fun _ => rfl⟩⟩
  | cons slot order ih =>
      obtain ⟨hslot, hrest⟩ := List.nodup_cons.mp hnodup
      have hothers : ∀ seen, ∀ other ∈ order, Fits target slots source other →
          Function.update scan slot seen other = .clear := by
        intro seen other hother hfits
        have hne : other ≠ slot := fun h => hslot (h ▸ hother)
        rw [Function.update_of_ne hne]
        exact hclear other (List.mem_cons_of_mem _ hother) hfits
      have hlooked : ∀ {seen}, seen ≠ .unseen → ∀ other, Fits target slots source other →
          Function.update scan slot seen other ≠ .unseen := by
        intro seen hseen other hfits
        rw [Function.update_apply]
        split
        · exact hseen
        · exact hall other hfits
      rw [claimFrom]
      split
      case isTrue hsmall =>
        have hsame : Function.update scan slot (scan slot) = scan := Function.update_eq_self ..
        refine (ih hrest (by rwa [hsame]) (hothers (scan slot))
          (by rwa [hsame])).mono fun w result h => ?_
        refine h.cons hslot fun hfits => ?_
        exact absurd ((fits_iff hsizes).mp hfits) (Nat.not_le_of_lt hsmall)
      case isFalse hroom =>
        have hfits : Fits target slots source slot :=
          (fits_iff hsizes).mpr (Nat.le_of_not_lt hroom)
        have hseen : scan slot = .clear := hclear slot (List.mem_cons_self ..) hfits
        refine scanning_loadState hphase (by rw [hseen]; exact nofun) fun state => ?_
        dsimp only [Thread.bind]
        split
        case isTrue hstate =>
          have hload : (scan slot).load state = .taken := by
            rw [hseen]
            cases state with
            | free => exact absurd rfl hstate
            | _ => rfl
          refine (ih hrest rfl (hothers _) (hlooked (by rw [hload]; exact nofun))).mono
            fun w result h => ?_
          exact h.cons hslot fun _ => hload
        case isFalse hstate =>
          obtain rfl : state = .free := not_not.mp hstate
          refine scanning_casState rfl hfits (.inr ⟨rfl, ?_, hlooked ?_⟩) ?_
            fun hne => absurd rfl hne
          · rw [Function.update_self, hseen]
            rfl
          · rw [hseen]
            exact nofun
          · exact watched_done_iff.mpr rfl

theorem slotOrder_nodup : slotOrder.Nodup := by decide

theorem mem_slotOrder : ∀ slot : SlotIndex, slot ∈ slotOrder := by decide

/-- When no slot is claimed, the consumer has every one that is large enough. -/
theorem watched_claimSlot (hsizes : checkedSizes target source = some sizes)
    (hphase : w.phase = .scanning source fun _ => .unseen) :
    Watched (producerMonitor target slots)
      (fun w result => match result with
        | some (slot, replacedPending) => w.phase = .copying source slot replacedPending 0
        | none => ∃ scan, w.phase = .scanning source scan ∧
            ∀ slot, Fits target slots source slot → scan slot = .taken)
      (claimSlot slots sizes.visibleBytes) w := by
  refine Watched.bind ((watched_claimPending hsizes slotOrder_nodup hphase
    (fun _ _ => rfl) (fun _ => nofun)).mono fun w result h => ?_)
  cases result with
  | some slot => exact watched_done_iff.mpr h
  | none =>
      obtain ⟨scan, hphase, hscan⟩ := h
      refine Watched.bind ((watched_claimFree hsizes slotOrder_nodup hphase
        (fun slot hmem => (hscan slot).1 hmem) (fun slot hfits => by
          rw [(hscan slot).1 (mem_slotOrder slot) hfits]
          exact nofun)).mono fun w result h => watched_done_iff.mpr ?_)
      cases result with
      | some slot => exact h
      | none =>
          obtain ⟨scan', hphase', hscan'⟩ := h
          exact ⟨scan', hphase', fun slot => (hscan' slot).1 (mem_slotOrder slot)⟩

theorem watched_copyRows (hsizes : checkedSizes target source = some sizes) {slot : SlotIndex}
    {replacedPending : Bool} (left row : ℕ) (hrows : row + left = source.height.toNat)
    (hphase : w.phase = .copying source slot replacedPending row) :
    Watched (producerMonitor target slots)
      (fun w _ => w.phase = .copying source slot replacedPending source.height.toNat)
      (copyRows target source sizes.rowBytes slot left row) w := by
  induction left generalizing w row with
  | zero =>
      refine watched_done_iff.mpr ?_
      rw [hphase, ← hrows, Nat.add_zero]
  | succ left ih =>
      obtain ⟨_, hpositive, hpitch, _, hvisible, hvisibleLt, hspan, hspanLt⟩ :=
        checkedSizes_exact hsizes
      have hrow : row < source.height.toNat := by omega
      have hoffset : row * sizes.rowBytes < target.size := by
        have hle := Nat.mul_le_mul_right sizes.rowBytes (Nat.le_of_lt hrow)
        omega
      have hstart : row * source.pitch < target.size := by
        have hle := Nat.mul_le_mul_right source.pitch (Nat.le_sub_one_of_lt hrow)
        omega
      rw [copyRows, Nat.mod_eq_of_lt hoffset, Nat.mod_eq_of_lt hstart]
      refine watched_op_iff.mpr fun _ _ =>
        ⟨w.goTo (.copying source slot replacedPending (row + 1)), ?_, ih _ (by omega) rfl⟩
      simp only [producerMonitor, observeProducer, hphase, rowBytesOf_eq hsizes]
      exact if_pos ⟨trivial, hrow, trivial, rfl⟩

theorem watched_publishFrame (hsizes : checkedSizes target source = some sizes) {slot : SlotIndex}
    {replacedPending : Bool} (hphase : w.phase = .copying source slot replacedPending 0) :
    Watched (producerMonitor target slots)
      (fun w status => status = .ok ∧ w.phase = .published source)
      (publishFrame target slots source sizes.rowBytes slot replacedPending) w := by
  refine Watched.bind ((watched_copyRows hsizes _ 0 (Nat.zero_add _) hphase).mono
    fun w _ hphase => ?_)
  refine watched_op_iff.mpr fun sequence hsequence => ⟨w, rfl, ?_⟩
  obtain rfl : sequence = w.sequence := hsequence
  let numbered : Watch :=
    { w with phase := .numbered source slot replacedPending, sequence := w.sequence + 1 }
  have hnumbered : (producerMonitor target slots).observe w
      ⟨.storeSequence (w.sequence + 1), ()⟩ = some numbered := by
    simp only [producerMonitor, observeProducer, hphase]
    exact if_pos ⟨trivial, trivial⟩
  have hdescribed : (producerMonitor target slots).observe numbered
      ⟨.storeFrame slot (frameView slots source sizes.rowBytes slot (w.sequence + 1)), ()⟩ =
        some (numbered.goTo (.described source slot replacedPending)) := by
    simp only [producerMonitor, observeProducer, numbered, rowBytesOf_eq hsizes]
    exact if_pos ⟨trivial, trivial⟩
  refine watched_op_iff.mpr fun _ _ => ⟨numbered, hnumbered, ?_⟩
  refine watched_op_iff.mpr fun _ _ =>
    ⟨numbered.goTo (.described source slot replacedPending), hdescribed, ?_⟩
  have hlast : ∀ {w : Watch}, w.phase = .described source slot false →
      Watched (producerMonitor target slots)
        (fun w status => status = .ok ∧ w.phase = .published source)
        (do perform (Op.storeState slot .pending); return PresentationStatus.ok) w := by
    intro w hphase
    refine watched_op_iff.mpr fun _ _ => ⟨w.goTo (.published source), ?_, ?_⟩
    · simp only [producerMonitor, observeProducer, hphase]
      exact if_pos ⟨trivial, trivial⟩
    · exact watched_done_iff.mpr ⟨rfl, rfl⟩
  cases replacedPending with
  | true =>
      refine watched_op_iff.mpr fun _ _ =>
        ⟨numbered.goTo (.described source slot false), rfl, hlast rfl⟩
  | false => exact hlast rfl

/-- How a submit call may end. -/
def SubmitSettled (target : Target) (slots : Slots) (source : SourceView) (w : Watch)
    (status : PresentationStatus) : Prop :=
  (∃ scan, w.phase = .scanning source scan ∧ (status = .invalidFrame ∨ status = .aliased)) ∨
    (∃ scan, w.phase = .refused source scan ∧
      (status = .dropped ∧ (∃ slot, Fits target slots source slot) ∨
        status = .capacityExceeded ∧ ¬ ∃ slot, Fits target slots source slot)) ∨
    w.phase = .published source ∧ status = .ok

theorem watched_submit (hphase : w.phase = .scanning source fun _ => .unseen) :
    Watched (producerMonitor target slots) (SubmitSettled target slots source)
      (submit target slots source) w := by
  rw [submit]
  split
  case h_1 => exact watched_done_iff.mpr (.inl ⟨_, hphase, .inl rfl⟩)
  case h_2 sizes hsizes =>
    split
    case isTrue => exact watched_done_iff.mpr (.inl ⟨_, hphase, .inr rfl⟩)
    case isFalse =>
      refine Watched.bind ((watched_claimSlot hsizes hphase).mono fun w result h => ?_)
      match result with
      | some (slot, replacedPending) =>
          exact (watched_publishFrame hsizes h).mono fun w status h => .inr (.inr ⟨h.2, h.1⟩)
      | none =>
          obtain ⟨scan, hphase, hscan⟩ := h
          have hany : (slotOrder.any fun slot =>
              decide ((slots slot).capacity ≥ sizes.visibleBytes)) = true ↔
                ∃ slot, Fits target slots source slot := by
            rw [List.any_eq_true]
            constructor
            · rintro ⟨slot, _, hroom⟩
              exact ⟨slot, (fits_iff hsizes).mpr (of_decide_eq_true hroom)⟩
            · rintro ⟨slot, hfits⟩
              exact ⟨slot, mem_slotOrder slot, decide_eq_true ((fits_iff hsizes).mp hfits)⟩
          refine watched_op_iff.mpr fun _ _ => ⟨w.goTo (.refused source scan), ?_, ?_⟩
          · simp only [producerMonitor, observeProducer, hphase]
            exact if_pos ⟨by rw [hsizes]; rfl, hscan⟩
          · refine watched_done_iff.mpr (.inr (.inl ⟨scan, rfl, ?_⟩))
            split
            case isTrue hroom => exact .inl ⟨rfl, hany.mp hroom⟩
            case isFalse hroom => exact .inr ⟨rfl, fun h => hroom (hany.mpr h)⟩

theorem watched_producer :
    Watched (producerMonitor target slots) (fun _ _ => True) (producer target slots) {} := by
  refine watched_iterate (fun w _ => w.phase = .idle) rfl ?_
  rintro w ⟨⟩ hidle
  refine watched_op_iff.mpr fun source _ => ⟨w.goTo (.scanning source fun _ => .unseen), ?_, ?_⟩
  · simp only [producerMonitor, observeProducer, hidle]
  · change Watched _ _ (Thread.bind (submit target slots source) _) _
    refine Watched.bind ((watched_submit rfl).mono fun w status hsettled => ?_)
    refine watched_op_iff.mpr fun _ _ => ⟨w.goTo .idle, ?_, watched_done_iff.mpr rfl⟩
    rcases hsettled with ⟨scan, hphase, hstatus⟩ | ⟨scan, hphase, hstatus⟩ | ⟨hphase, rfl⟩
    · simp only [producerMonitor, observeProducer, hphase]
      exact if_pos ⟨trivial, hstatus⟩
    · simp only [producerMonitor, observeProducer, hphase]
      rcases hstatus with ⟨rfl, hfits⟩ | ⟨rfl, hfits⟩
      · exact if_pos ⟨trivial, (if_pos hfits).symm⟩
      · exact if_pos ⟨trivial, (if_neg hfits).symm⟩
    · simp only [producerMonitor, observeProducer, hphase]
      exact if_pos ⟨trivial, trivial⟩

end Producer

section Consumer

open scoped Classical in
noncomputable def observeConsumer (w : Watch) : OpLabel Op Result → Option Watch
  | ⟨.beginConsume, .acquire⟩ =>
      match w.phase with
      | .idle => some (w.goTo (.acquiring []))
      | _ => none
  | ⟨.beginConsume, .release token⟩ =>
      match w.phase with
      | .idle => some (w.goTo (.releasing token))
      | _ => none
  | ⟨.loadState _, _⟩ =>
      match w.phase with
      | .acquiring _ => some w
      | .releasing _ => some w
      | _ => none
  | ⟨.casState slot expected desired, swapped⟩ =>
      match w.phase with
      | .acquiring failed =>
          if expected = .pending ∧ desired = .acquired ∧ w.held = none then
            if swapped then some { w with phase := .swapped slot, held := some slot }
            else some (w.goTo (.acquiring (slot :: failed)))
          else none
      | .releasing token =>
          if expected = .acquired ∧ desired = .free ∧ w.held = some slot ∧
              token = slotToken slot (w.leases slot) ∧ swapped = true then
            some { w with phase := .released token, held := none }
          else none
      | _ => none
  | ⟨.loadLease _, _⟩ => some w
  | ⟨.storeLease slot lease, _⟩ =>
      match w.phase with
      | .swapped claimed =>
          if slot = claimed ∧ lease = nextLease (w.leases slot) then
            some { w with phase := .leased slot, leases := Function.update w.leases slot lease }
          else none
      | _ => none
  | ⟨.loadFrame slot, view⟩ =>
      match w.phase with
      | .leased claimed => if slot = claimed then some (w.goTo (.viewed slot view)) else none
      | _ => none
  | ⟨.finishAcquire status acquired, _⟩ =>
      match w.phase with
      | .acquiring failed =>
          if acquired = none ∧ (status = .busy ∧ w.held ≠ none ∨
              status = .noFrame ∧ ∀ slot, slot ∈ failed) then some (w.goTo .idle)
          else none
      | .viewed slot view =>
          if status = .ok ∧ acquired = some (view, slotToken slot (w.leases slot)) then
            some (w.goTo .idle)
          else none
      | _ => none
  | ⟨.finishRelease token status left, _⟩ =>
      match w.phase with
      | .releasing given =>
          if token = given ∧ status = .invalidToken ∧ left = given ∧ w.token ≠ some given then
            some (w.goTo .idle)
          else none
      | .released given =>
          if token = given ∧ status = .ok ∧ left = noToken then some (w.goTo .idle) else none
      | _ => none
  | _ => none

/-- Only the consumer acquires and releases slots and counts leases. -/
noncomputable def consumerMonitor : Monitor Watch Op Result where
  expects w
    | ⟨.loadState slot, state⟩ => state = .acquired ↔ w.held = some slot
    | ⟨.casState slot .acquired _, swapped⟩ => w.held = some slot → swapped = true
    | ⟨.loadLease slot, lease⟩ => lease = w.leases slot
    | _ => True
  observe := observeConsumer

variable {w : Watch}

/-- No slot is acquired, or one of those that were looked at. -/
theorem watched_anyAcquired {failed : List SlotIndex} (hphase : w.phase = .acquiring failed)
    (order : List SlotIndex) :
    Watched consumerMonitor
      (fun w' busy => w' = w ∧
        if busy then w.held ≠ none else ∀ slot ∈ order, w.held ≠ some slot)
      (anyAcquired order) w := by
  induction order with
  | nil => exact watched_done_iff.mpr ⟨rfl, nofun⟩
  | cons slot order ih =>
      refine watched_op_iff.mpr fun state hstate => ⟨w, ?_, ?_⟩
      · simp only [consumerMonitor, observeConsumer, hphase]
      have hheld : state = .acquired ↔ w.held = some slot := hstate
      dsimp only [Thread.bind]
      split
      case isTrue hacquired =>
        refine watched_done_iff.mpr ⟨rfl, ?_⟩
        rw [hheld.mp hacquired]
        exact Option.some_ne_none slot
      case isFalse hacquired =>
        refine ih.mono fun w' busy h => ⟨h.1, ?_⟩
        cases busy with
        | true => exact h.2
        | false =>
            intro other hother
            rcases List.mem_cons.mp hother with rfl | hother
            · exact fun hsome => hacquired (hheld.mpr hsome)
            · exact h.2 other hother

/-- The lease of a slot that is held has been counted. -/
def Leased (w : Watch) : Prop := ∀ slot, w.held = some slot → w.leases slot ≠ 0

theorem nextLease_ne_zero (lease : UInt32) : nextLease lease ≠ 0 := by
  rw [nextLease]
  split
  case isTrue => decide
  case isFalse hmax =>
    intro hzero
    refine hmax ?_
    rw [← UInt32.add_sub_cancel lease 1, hzero]
    rfl

/-- How a scan for a pending frame may end. -/
def Acquired (failed order : List SlotIndex) (w : Watch) : Option (FrameView × Token) → Prop
  | none => ∃ failed', w.phase = .acquiring failed' ∧ ∀ slot ∈ failed ++ order, slot ∈ failed'
  | some acquired => ∃ slot, w.phase = .viewed slot acquired.1 ∧
      acquired.2 = slotToken slot (w.leases slot)

theorem watched_acquireFrom {failed : List SlotIndex} (hphase : w.phase = .acquiring failed)
    (hheld : w.held = none) (order : List SlotIndex) :
    Watched consumerMonitor (fun w result => Acquired failed order w result ∧ Leased w)
      (acquireFrom order) w := by
  induction order generalizing w failed with
  | nil =>
      refine watched_done_iff.mpr ⟨⟨failed, hphase, fun slot h => by simpa using h⟩, ?_⟩
      intro slot hslot
      rw [hheld] at hslot
      cases hslot
  | cons slot order ih =>
      refine watched_op_iff.mpr fun swapped _ => ?_
      cases swapped with
      | false =>
          refine ⟨w.goTo (.acquiring (slot :: failed)), ?_, ?_⟩
          · simp only [consumerMonitor, observeConsumer, hphase]
            exact if_pos ⟨trivial, trivial, hheld⟩
          have hrest : Watched consumerMonitor
              (fun w result => Acquired (slot :: failed) order w result ∧ Leased w)
              (acquireFrom order) (w.goTo (.acquiring (slot :: failed))) := ih rfl hheld
          refine hrest.mono fun w' result hresult => ⟨?_, hresult.2⟩
          have h := hresult.1
          cases result with
          | some acquired => exact h
          | none =>
              obtain ⟨failed', hphase', hfailed⟩ := h
              refine ⟨failed', hphase', fun other hother => hfailed other ?_⟩
              simp only [List.mem_append, List.mem_cons] at hother ⊢
              tauto
      | true =>
          let swapped : Watch := { w with phase := .swapped slot, held := some slot }
          refine ⟨swapped, ?_, ?_⟩
          · simp only [consumerMonitor, observeConsumer, hphase]
            exact if_pos ⟨trivial, trivial, hheld⟩
          refine watched_op_iff.mpr fun lease hlease => ⟨swapped, rfl, ?_⟩
          obtain rfl : lease = w.leases slot := hlease
          let leased : Watch := { swapped with
            phase := .leased slot
            leases := Function.update w.leases slot (nextLease (w.leases slot)) }
          refine watched_op_iff.mpr fun _ _ => ⟨leased, ?_, ?_⟩
          · simp only [consumerMonitor, observeConsumer, swapped]
            exact if_pos ⟨trivial, trivial⟩
          refine watched_op_iff.mpr fun view _ => ⟨leased.goTo (.viewed slot view), ?_, ?_⟩
          · simp only [consumerMonitor, observeConsumer, leased]
            exact if_pos trivial
          refine watched_op_iff.mpr fun given hgiven => ⟨_, rfl, ?_⟩
          refine watched_done_iff.mpr ⟨⟨slot, rfl, congrArg (slotToken slot) hgiven⟩, ?_⟩
          rintro other hother
          obtain rfl : slot = other := Option.some.inj hother
          change Function.update w.leases slot (nextLease (w.leases slot)) slot ≠ 0
          rw [Function.update_self]
          exact nextLease_ne_zero _

/-- How an acquire call may end. -/
def AcquireSettled (w : Watch) (result : PresentationStatus × Option (FrameView × Token)) : Prop :=
  Leased w ∧ match result.2 with
    | some acquired => result.1 = .ok ∧ ∃ slot, w.phase = .viewed slot acquired.1 ∧
        acquired.2 = slotToken slot (w.leases slot)
    | none => ∃ failed, w.phase = .acquiring failed ∧
        (result.1 = .busy ∧ w.held ≠ none ∨ result.1 = .noFrame ∧ ∀ slot, slot ∈ failed)

theorem watched_acquire (hphase : w.phase = .acquiring []) (hleased : Leased w) :
    Watched consumerMonitor AcquireSettled acquire w := by
  refine Watched.bind ((watched_anyAcquired hphase slotOrder).mono fun w' busy h => ?_)
  obtain ⟨rfl, hbusy⟩ := h
  cases busy with
  | true => exact watched_done_iff.mpr ⟨hleased, [], hphase, .inl ⟨rfl, hbusy⟩⟩
  | false =>
      have hheld : w'.held = none := by
        refine Option.eq_none_iff_forall_ne_some.mpr fun slot => ?_
        exact hbusy slot (mem_slotOrder slot)
      refine Watched.bind ((watched_acquireFrom hphase hheld slotOrder).mono fun w result h => ?_)
      obtain ⟨hacquired, hleased⟩ := h
      cases result with
      | some acquired => exact watched_done_iff.mpr ⟨hleased, rfl, hacquired⟩
      | none =>
          obtain ⟨failed, hphase, hfailed⟩ := hacquired
          refine watched_done_iff.mpr ⟨hleased, failed, hphase, .inr ⟨rfl, fun slot => ?_⟩⟩
          exact hfailed slot (mem_slotOrder slot)

theorem slotToken_index (slot : SlotIndex) (lease : UInt32) :
    (slotToken slot lease).slotIndex.toNat = slot := by
  change (UInt32.ofNat slot).toNat = slot
  rw [UInt32.toNat_ofNat']
  exact Nat.mod_eq_of_lt (Nat.lt_trans slot.isLt (by decide))

/-- How a release call may end: it succeeds for the token of the slot that is held, and for no
other. -/
def ReleaseSettled (token : Token) (w : Watch) (result : PresentationStatus × Token) : Prop :=
  Leased w ∧ (w.phase = .releasing token ∧ result = (.invalidToken, token) ∧
      w.token ≠ some token ∨ w.phase = .released token ∧ result = (.ok, noToken))

theorem watched_release {token : Token} (hphase : w.phase = .releasing token)
    (hleased : Leased w) :
    Watched consumerMonitor (ReleaseSettled token) (release token) w := by
  have hrefuse : w.token ≠ some token →
      Watched consumerMonitor (ReleaseSettled token) (.done (.invalidToken, token)) w :=
    fun htoken => watched_done_iff.mpr ⟨hleased, .inl ⟨hphase, rfl, htoken⟩⟩
  rw [release]
  split
  case isFalse hshape =>
    refine hrefuse fun htoken => hshape ?_
    obtain ⟨slot, hslot, rfl⟩ := Option.map_eq_some_iff.mp htoken
    refine ⟨?_, hleased slot hslot⟩
    rw [slotToken_index]
    exact slot.isLt
  case isTrue hshape =>
    set slot : SlotIndex := ⟨token.slotIndex.toNat, hshape.1⟩ with hslot
    have hindex : UInt32.ofNat slot = token.slotIndex := UInt32.ofNat_toNat
    have hown : w.token = some token → w.held = some slot ∧ w.leases slot = token.lease := by
      intro htoken
      obtain ⟨other, hother, rfl⟩ := Option.map_eq_some_iff.mp htoken
      have hsame : slot = other := Fin.ext (slotToken_index other (w.leases other))
      rw [hsame]
      exact ⟨hother, rfl⟩
    refine watched_op_iff.mpr fun state hstate => ⟨w, ?_, ?_⟩
    · simp only [consumerMonitor, observeConsumer, hphase]
    have hheld : state = .acquired ↔ w.held = some slot := hstate
    dsimp only [Thread.bind]
    split
    case isTrue hother => exact hrefuse fun htoken => hother (hheld.mpr (hown htoken).1)
    case isFalse hacquired =>
      refine watched_op_iff.mpr fun lease hlease => ⟨w, rfl, ?_⟩
      obtain rfl : lease = w.leases slot := hlease
      dsimp only [Thread.bind]
      split
      case isTrue hother => exact hrefuse fun htoken => hother (hown htoken).2
      case isFalse hsame =>
        have hslotHeld : w.held = some slot := hheld.mp (not_not.mp hacquired)
        have htoken : token = slotToken slot (w.leases slot) := by
          rw [slotToken, not_not.mp hsame, hindex]
        refine watched_op_iff.mpr fun swapped hswapped => ?_
        obtain rfl : swapped = true := hswapped hslotHeld
        refine ⟨{ w with phase := .released token, held := none }, ?_, ?_⟩
        · simp only [consumerMonitor, observeConsumer, hphase]
          exact if_pos ⟨trivial, trivial, hslotHeld, htoken, trivial⟩
        · exact watched_done_iff.mpr ⟨nofun, .inr ⟨rfl, rfl⟩⟩

theorem watched_consumer : Watched consumerMonitor (fun _ _ => True) consumer {} := by
  refine watched_iterate (fun w _ => w.phase = .idle ∧ Leased w) ⟨rfl, nofun⟩ ?_
  rintro w ⟨⟩ ⟨hidle, hleased⟩
  refine watched_op_iff.mpr fun call _ => ?_
  cases call with
  | acquire =>
      refine ⟨w.goTo (.acquiring []), ?_, ?_⟩
      · simp only [consumerMonitor, observeConsumer, hidle]
      change Watched _ _ (Thread.bind acquire _) _
      have hcall : Watched consumerMonitor AcquireSettled acquire (w.goTo (.acquiring [])) :=
        watched_acquire rfl hleased
      refine Watched.bind (hcall.mono fun w result h => ?_)
      obtain ⟨hleased, hresult⟩ := h
      obtain ⟨status, acquired⟩ := result
      refine watched_op_iff.mpr fun _ _ => ⟨w.goTo .idle, ?_, ?_⟩
      · cases acquired with
        | some acquired =>
            obtain ⟨rfl, slot, hphase, htoken⟩ := hresult
            simp only [consumerMonitor, observeConsumer, hphase]
            exact if_pos ⟨trivial, by rw [← htoken]⟩
        | none =>
            obtain ⟨failed, hphase, hstatus⟩ := hresult
            simp only [consumerMonitor, observeConsumer, hphase]
            exact if_pos ⟨trivial, hstatus⟩
      · exact watched_done_iff.mpr ⟨rfl, hleased⟩
  | release token =>
      refine ⟨w.goTo (.releasing token), ?_, ?_⟩
      · simp only [consumerMonitor, observeConsumer, hidle]
      change Watched _ _ (Thread.bind (release token) _) _
      have hcall : Watched consumerMonitor (ReleaseSettled token) (release token)
          (w.goTo (.releasing token)) := watched_release rfl hleased
      refine Watched.bind (hcall.mono fun w result h => ?_)
      obtain ⟨hleased, hresult⟩ := h
      refine watched_op_iff.mpr fun _ _ => ⟨w.goTo .idle, ?_, ?_⟩
      · rcases hresult with ⟨hphase, rfl, htoken⟩ | ⟨hphase, rfl⟩
        · simp only [consumerMonitor, observeConsumer, hphase]
          exact if_pos ⟨trivial, trivial, trivial, htoken⟩
        · simp only [consumerMonitor, observeConsumer, hphase]
          exact if_pos ⟨trivial, trivial, trivial⟩
      · exact watched_done_iff.mpr ⟨rfl, hleased⟩

end Consumer

noncomputable def monitors (target : Target) (slots : Slots) : Party → Monitor Watch Op Result
  | .producer => producerMonitor target slots
  | .consumer => consumerMonitor

end EspNp2.Presentation.PublisherWatch
