import EspNp2.LiveService.OwnerSession
import EspNp2.GuestAdapter.CommitStream
import EspNp2.GuestAdapter.SinkBinding

/-!
The transactions of the sink. Whatever a program of the adapter asks for, the owner's
transaction agrees with the stream of its calls, and no commit of an authorised transaction is
refused.
-/

namespace EspNp2.LiveService.SinkSession

open EspNp2.GuestAdapter.AdapterFrame
open EspNp2.GuestAdapter.AdapterOperations
open EspNp2.GuestAdapter.AdapterState
open EspNp2.GuestAdapter.CommitStream
open EspNp2.GuestAdapter.SinkBinding (Finishing)
open EspNp2.Library.CallProgram
open EspNp2.Library.Concurrent
open EspNp2.LiveService.LifecycleMonitor (LiveState.late)
open EspNp2.LiveService.OwnerSession
open EspNp2.LiveService.OwnerThread
open EspNp2.LiveService.ServiceMemory
open EspNp2.LiveService.Transport

section Terminated

variable {w w' : Session}

/-- The owner runs a guest, and nothing has ended its session. -/
structure Runs (w : Session) : Prop where
  opened : w.gone = false
  bound : w.running = true
  undrained : w.drained = false

theorem Runs.grows (h : Runs w) (hgrows : Grows w w') : Runs w' :=
  ⟨hgrows.gone_eq.trans h.opened, hgrows.isRunning.trans h.bound,
    hgrows.isDrained.trans h.undrained⟩

/-- What the owner has learned of the end of the production. -/
structure Terminated (w : Session) (terminated : Bool) (w' : Session) : Prop where
  grows : Grows w w'
  seen : terminated = true → w'.stopSeen = true
  ran : terminated = false → w'.ran = true
  excused : terminated = false → w.call.isSome = true → w.bytes = 0 → w'.excused = true

theorem watched_producerTerminated (h : Runs w) :
    Watched session (fun w' terminated => Terminated w terminated w') producerTerminated w := by
  refine watched_load h.opened fun intent _ => ?_
  have h₁ := grows_load w .stopIntent intent
  have hseen₁ : intent = true → (tell w ⟨.load .stopIntent, intent⟩).stopSeen = true := by
    rintro rfl
    exact Bool.or_true _
  generalize tell w ⟨.load .stopIntent, intent⟩ = w₁ at h₁ hseen₁ ⊢
  cases intent with
  | true => exact watched_done_iff.mpr ⟨h₁, hseen₁, by simp, by simp⟩
  | false =>
      refine watched_load (h.grows h₁).opened fun latched hlatched => ?_
      obtain rfl : latched = false := hlatched
      refine watched_load (h.grows h₁).opened fun closing _ => ?_
      have h₂ := h₁.trans (grows_load w₁ .producerClosing closing)
      have hseen₂ : closing = true → (tell w₁ ⟨.load .producerClosing, closing⟩).stopSeen =
        true := by
        rintro rfl
        exact Bool.or_true _
      change Watched _ _ _ (tell w₁ ⟨.load .producerClosing, closing⟩)
      generalize tell w₁ ⟨.load .producerClosing, closing⟩ = w₂ at h₂ hseen₂ ⊢
      cases closing with
      | true => exact watched_done_iff.mpr ⟨h₂, hseen₂, by simp, by simp⟩
      | false =>
          refine watched_load (h.grows h₂).opened fun state hstate => ?_
          have h₃ := h₂.trans (grows_load w₂ .state state)
          obtain ⟨hstates, -⟩ := hstate (h.grows h₂).bound (h.grows h₂).undrained
          refine watched_done_iff.mpr ⟨h₃, ?_, ?_, ?_⟩
          · intro hne
            obtain rfl : state = .stopRequested := hstates.resolve_left (by simpa using hne)
            exact Bool.or_true _
          · intro heq
            obtain rfl : state = .running := by simpa using heq
            exact Bool.or_true _
          · intro heq hcall hbytes
            obtain rfl : state = .running := by simpa using heq
            change (w₂.excused || (w₂.call.isSome && decide (w₂.bytes = 0) && true)) = true
            simp [h₂.isSome hcall, h₂.bytes, hbytes]

end Terminated

section Capacity

variable {w w' : Session} {t : Transaction}

theorem watched_eventRingOccupancy (h : Runs w) : Watched session (fun w' occupied => Grows w w' ∧
    (occupied < eventCapacity → w'.room = true)) eventRingOccupancy w := by
  refine watched_load h.opened fun head hhead => ?_
  obtain rfl : head = w.view .eventHead := hhead h.bound
  change Watched session _ _ w
  refine watched_load h.opened fun tail _ => ?_
  refine watched_done_iff.mpr ⟨grows_load w .eventTail tail, fun hroom => ?_⟩
  change (w.room || decide (w.view .eventHead - tail < eventCapacity)) = true
  simp [hroom]

theorem watched_byteRingOccupancy (h : Runs w) :
    Watched session (fun w' _ => Grows w w') byteRingOccupancy w := by
  refine watched_load h.opened fun head _ => ?_
  refine watched_load (w := w) h.opened fun tail _ => ?_
  exact watched_done_iff.mpr (grows_load w .byteTail tail)

theorem watched_horizonPending (h : Runs w) : Watched session (fun w' pending => Grows w w' ∧
    (pending = false → w'.vacant = true)) horizonPending w := by
  refine watched_load h.opened fun state _ => ?_
  refine watched_done_iff.mpr ⟨grows_load w .horizonState state, fun hpending => ?_⟩
  change (w.vacant || decide (state = .empty)) = true
  cases state with
  | empty => simp
  | full => simp at hpending

/-- The reservation waits until both rings have room and the mailbox is empty. -/
theorem watched_waitForCapacity (h : Runs w) (hreserved : t.reservedEvents = 0) (bytes : Nat) :
    Watched session (fun w' result => Grows w w' ∧ result.2 = t ∧
      (result.1 = .ok → w'.room = true ∧ w'.vacant = true)) (waitForCapacity bytes t) w := by
  refine watched_iterating (fun w' _ t' => Grows w w' ∧ t' = t) ⟨.refl w, rfl⟩ ?_
  rintro w₀ _ t ⟨h₀, rfl⟩
  refine watched_lift ((watched_producerTerminated (h.grows h₀)).mono ?_)
  rintro w₁ terminated hterminated
  have h₁ := h₀.trans hterminated.grows
  cases terminated with
  | true => exact watched_done_iff.mpr ⟨h₁, rfl, by simp⟩
  | false =>
      rw [if_neg Bool.false_ne_true]
      refine watched_get ?_
      refine watched_lift ((watched_eventRingOccupancy (h.grows h₁)).mono ?_)
      rintro w₂ events ⟨hgrows₂, hroom⟩
      have h₂ := h₁.trans hgrows₂
      refine watched_lift ((watched_byteRingOccupancy (h.grows h₂)).mono ?_)
      rintro w₃ occupied hgrows₃
      have h₃ := h₂.trans hgrows₃
      refine watched_lift ((watched_horizonPending (h.grows h₃)).mono ?_)
      rintro w₄ pending ⟨hgrows₄, hvacant⟩
      have h₄ := h₃.trans hgrows₄
      split
      · rename_i hfits
        rw [hreserved, UInt32.add_zero] at hfits
        have hroom₄ := hgrows₄.room (hgrows₃.room (hroom hfits.1))
        exact watched_done_iff.mpr ⟨h₄, rfl, fun _ => ⟨hroom₄, hvacant hfits.2.2.1⟩⟩
      · refine watched_plain rfl fun _ => watched_plain rfl fun _ => ?_
        exact watched_done_iff.mpr ⟨h₄, rfl⟩

end Capacity

section Fatal

variable {w w' : Session}

/-- A call of `first_fatal` while the guest runs ends the session. -/
theorem watched_firstFatal (h : Runs w) (hexcusable : w.excusable = true)
    {category : FailureCategory} (hcategory : category ≠ .none) (origin : FailureOrigin)
    (subcode : UInt32) : Watched session (fun w' _ => w'.gone = true)
      (firstFatal category origin subcode) w := by
  refine Watched.bind (Watched.mono (Q := fun w' _ => w'.gone = true) ?_
    fun w' _ hgone => watched_gone _ hgone)
  rw [firstFatalCall, if_neg hcategory]
  refine Watched.bind (Watched.mono (Q := fun w' _ => w'.gone = true) ?_
    fun w' _ hgone => watched_gone _ hgone)
  refine watched_iterate (fun w' _ => Grows w w') (.refl w) ?_
  rintro w₁ ⟨⟩ h₁
  refine watched_load (h.grows h₁).opened fun state hstate => ?_
  obtain ⟨hstates, -⟩ := hstate (h.grows h₁).bound (h.grows h₁).undrained
  have h₂ := h₁.trans (grows_load w₁ .state state)
  have hclosed : LiveState.closed state = false := by
    rcases hstates with rfl | rfl <;> rfl
  change Watched session _ (if LiveState.closed state = true then _ else _) _
  rw [if_neg (by simp [hclosed])]
  refine watched_tell fun won _ => ?_
  cases won with
  | true =>
      refine ⟨h₂.toFollows.excusable hexcusable, watched_done_iff.mpr ?_⟩
      change (true || _ || _) = true
      rfl
  | false => exact ⟨rfl, watched_done_iff.mpr h₂⟩

end Fatal

section Serving

/-- A transaction of `kind` is authorised, and its event is not enqueued. -/
structure Holds (kind : Kind) (m : Stream) (t : Transaction) (w : Session) : Prop where
  active : t.active = true
  owned : t.horizonOwned = true
  kind_eq : t.kind = some kind
  reserved : t.reservedEvents = 1
  uncommitted : t.runCommitted = false
  token : m.token = tokenSet t kind
  room : w.room = true
  vacant : w.vacant = true
  ran : w.ran = true

/-- What the transaction is in a phase of the stream. -/
def Agrees (m : Stream) (t : Transaction) (w : Session) : Prop :=
  match m.phase with
  | .idle => t.active = false ∧ t.horizonOwned = false ∧ t.reservedEvents = 0 ∧ w.bytes = 0
  | .reserved kind => Holds kind m t w ∧ t.reservedBytes = UInt32.ofNat (initialBytes kind) ∧
      w.bytes = 0
  | .running timestamp sequence count due => Holds .dataRun m t w ∧
      t.reservedBytes = (if due then 1 else 0) ∧ w.bytes = count ∧ sequence = m.sequence ∧
      m.horizon ≤ timestamp
  | .committed timestamp => t.active = true ∧ t.horizonOwned = true ∧
      (t.eventCommitted = true ∨ t.runCommitted = true) ∧ t.reservedEvents = 0 ∧
      m.token[1]? = some t.activeGeneration.toUInt64 ∧ w.bytes = 0 ∧ w.vacant = true ∧
      m.horizon ≤ timestamp

/-- The frame that no event is later than. -/
def limit (m : Stream) : UInt64 :=
  match m.phase with
  | .committed timestamp => timestamp
  | _ => m.horizon

/-- The owner's transaction and its session agree with the stream of the adapter's calls. -/
structure Serves (m : Stream) (t : Transaction) (w : Session) : Prop extends Runs w where
  valid : w.view .ownerValid = true
  unfinalized : w.view .ownerFinalizing = false
  unpublished : w.view .finalHorizonSequence = 0
  sequence : m.sequence = t.nextSequence
  horizon : m.horizon = t.committedFrame
  frame : w.view .horizonFrame = t.committedFrame
  events : ∀ entry ∈ w.events, entry.1.frameTimestamp ≤ limit m
  agrees : Agrees m t w

variable {m : Stream} {t : Transaction} {w w' : Session}

/-- What a transaction relies on is as before. -/
structure Carries (w w' : Session) : Prop extends Runs w' where
  bytes : w'.bytes = w.bytes
  events : w'.events = w.events
  view : ∀ cell, Owned cell = true → w'.view cell = w.view cell
  ran : w.ran = true → w'.ran = true
  room : w.room = true → w'.room = true
  vacant : w.vacant = true → w'.vacant = true

theorem Holds.carried {kind : Kind} (h : Holds kind m t w) (hcarries : Carries w w') :
    Holds kind m t w' :=
  ⟨h.active, h.owned, h.kind_eq, h.reserved, h.uncommitted, h.token, hcarries.room h.room,
    hcarries.vacant h.vacant, hcarries.ran h.ran⟩

theorem Agrees.carried (h : Agrees m t w) (hcarries : Carries w w') : Agrees m t w' := by
  unfold Agrees at h ⊢
  rw [hcarries.bytes]
  split at h
  · exact h
  · exact ⟨h.1.carried hcarries, h.2⟩
  · exact ⟨h.1.carried hcarries, h.2⟩
  · obtain ⟨hactive, howned, hcommitted, hreserved, htoken, hbytes, hvacant, hhorizon⟩ := h
    exact ⟨hactive, howned, hcommitted, hreserved, htoken, hbytes,
      hcarries.vacant hvacant, hhorizon⟩

theorem Serves.carried (h : Serves m t w) (hcarries : Carries w w') : Serves m t w' where
  toRuns := hcarries.toRuns
  valid := (hcarries.view .ownerValid rfl).trans h.valid
  unfinalized := (hcarries.view .ownerFinalizing rfl).trans h.unfinalized
  unpublished := (hcarries.view .finalHorizonSequence rfl).trans h.unpublished
  sequence := h.sequence
  horizon := h.horizon
  frame := (hcarries.view .horizonFrame rfl).trans h.frame
  events := hcarries.events ▸ h.events
  agrees := h.agrees.carried hcarries

theorem Runs.carries (h : Runs w) (hgrows : Grows w w') : Carries w w' :=
  ⟨h.grows hgrows, hgrows.bytes, hgrows.events, hgrows.view, hgrows.ran, hgrows.room, hgrows.vacant⟩

theorem Serves.grows (h : Serves m t w) (hgrows : Grows w w') : Serves m t w' :=
  h.carried (h.toRuns.carries hgrows)

/-- The stream takes the call with its reply, and the transaction agrees with it again. -/
def Served (m : Stream) (w : Session) (request : Call) (w' : Session)
    (result : Reply request × Transaction) : Prop :=
  Follows w w' ∧ ∃ m', GuestAdapter.CommitStream.observe m ⟨request, result.1⟩ = some m' ∧
    Serves m' result.2 w'

def Answered (m : Stream) (w : Session) (request : Call) (w' : Session)
    (result : Reply request × Transaction) : Prop :=
  w'.gone = true ∨ Served m w request w' result

theorem watched_guestContract {α : Type} {rest : Unit → Sink α}
    {post : Session → α × Transaction → Prop} (h : Runs w) (hexcusable : w.excusable = true)
    (hpost : ∀ w' result, w'.gone = true → post w' result) :
    Watched session post ((liftM guestContract >>= rest) t) w := by
  refine watched_lift (Watched.mono (Q := fun w' _ => w'.gone = true) ?_ fun w' _ hgone => ?_)
  · exact Watched.bind ((watched_firstFatal h hexcusable (by simp) _ _).mono
      fun w' _ hgone => watched_done_iff.mpr hgone)
  · exact (watched_gone _ hgone).mono fun w' result hgone => hpost w' result hgone

/-- A reservation while nothing is open. -/
theorem watched_reserve (h : Serves m t w) (hphase : m.phase = .idle) (kind : Kind) :
    Watched session (Answered m w (.reserveChecked kind (initialBytes kind)))
      (guestReserveChecked kind (initialBytes kind) t) w := by
  have hagrees := h.agrees
  simp only [Agrees, hphase] at hagrees
  obtain ⟨hactive, howned, hreserved, hbytes⟩ := hagrees
  have hinitial : initialBytes kind = if kind = .dataRun then 1 else 0 := by cases kind <;> rfl
  have hobserve : ∀ reply : Check × Token, GuestAdapter.CommitStream.observe m
      ⟨.reserveChecked kind (initialBytes kind), reply⟩ = some (if reply.1 = .ok then
        { m with phase := .reserved kind, token := reply.2 } else m) :=
    fun reply => if_pos ⟨hphase, rfl⟩
  have hrefused : ∀ w' (check : Check) (token : Token), check ≠ .ok → Grows w w' →
      Answered m w (.reserveChecked kind (initialBytes kind)) w' ((check, token), t) := by
    intro w' check token hcheck hgrows
    refine .inr ⟨hgrows.toFollows, m, (hobserve (check, token)).trans ?_, h.grows hgrows⟩
    rw [if_neg hcheck]
  refine watched_get ?_
  rw [if_neg (by simp [hactive, hinitial])]
  refine Watched.bind ((watched_waitForCapacity h.toRuns hreserved (initialBytes kind)).mono ?_)
  rintro w₁ ⟨check, t⟩ ⟨h₁, rfl, hcapacity⟩
  change Watched session _ ((if check = .ok then passGate kind (initialBytes kind)
    else pure (check, Vector.replicate 4 0) : Sink (Check × Token)) t) w₁
  split
  case isFalse hcheck => exact watched_done_iff.mpr (hrefused w₁ check _ hcheck h₁)
  rename_i hcheck
  obtain ⟨hroom, hvacant⟩ := hcapacity hcheck
  refine watched_plain rfl fun passed => ?_
  cases passed with
  | false => exact watched_done_iff.mpr (hrefused w₁ .terminated _ (by simp) h₁)
  | true =>
      refine watched_load (h.grows h₁).opened fun state _ => ?_
      have h₂ := h₁.trans (grows_load w₁ .state state)
      change Watched session _ ((if state = .running then _ else _ : Sink (Check × Token)) t) _
      split
      · rename_i hstate
        subst hstate
        refine watched_done_iff.mpr (.inr ⟨h₂.toFollows, _, hobserve _, ?_⟩)
        have hserves := h.grows h₂
        refine ⟨hserves.toRuns, hserves.valid, hserves.unfinalized, hserves.unpublished,
          hserves.sequence, hserves.horizon, hserves.frame, ?_, ?_⟩
        · simpa [limit, hphase] using hserves.events
        · refine ⟨⟨rfl, rfl, rfl, rfl, rfl, rfl, hroom, hvacant, Bool.or_true _⟩, rfl, ?_⟩
          exact h₂.bytes.trans hbytes
      · obtain ⟨hgrows, haccepts⟩ := grows_store .transactionGate rfl
          (tell w₁ ⟨.load .state, state⟩) .closed
        refine watched_store haccepts (watched_done_iff.mpr ?_)
        exact hrefused _ .terminated _ (by simp) (h₂.trans hgrows)

theorem tokenMatches_iff {token : Token} {kind : Kind} : tokenMatches t token kind = true ↔
    t.active = true ∧ token = tokenSet t kind ∧ t.kind = some kind := by
  simp [tokenMatches, and_assoc]

theorem Holds.tokenMatches {kind : Kind} (h : Holds kind m t w) :
    tokenMatches t m.token kind = true :=
  tokenMatches_iff.mpr ⟨h.active, h.token, h.kind_eq⟩

/-- One more byte is authorised as soon as the byte ring has room for it. -/
theorem watched_extend (h : Serves m t w) {timestamp sequence : UInt64} {count : Nat}
    (hphase : m.phase = .running timestamp sequence count false) :
    Watched session (Answered m w (.extendChecked m.token 1))
      (guestExtendChecked m.token 1 t) w := by
  have hagrees := h.agrees
  simp only [Agrees, hphase] at hagrees
  obtain ⟨hholds, hreserved, hbytes, hsequence, hhorizon⟩ := hagrees
  refine watched_get ?_
  rw [if_neg (by simp [hholds.tokenMatches, hholds.uncommitted])]
  refine Watched.bind (Watched.mono (Q := fun w' result => Grows w w' ∧ result.1 = .ok ∧
    result.2 = { t with reservedBytes := 1 }) ?_ ?_)
  · refine watched_iterating (fun w' _ t' => Grows w w' ∧ t' = t) ⟨.refl w, rfl⟩ ?_
    rintro w₁ ⟨⟩ t' ⟨h₁, rfl⟩
    refine watched_lift ((watched_byteRingOccupancy (h.grows h₁).toRuns).mono ?_)
    rintro w₂ occupied hgrows
    have h₂ := h₁.trans hgrows
    refine watched_get ?_
    split
    · refine watched_load (h.grows h₂).opened fun latched hlatched => ?_
      obtain rfl : latched = false := hlatched
      refine watched_plain rfl fun _ => watched_plain rfl fun _ => ?_
      exact watched_done_iff.mpr ⟨h₂, rfl⟩
    · refine watched_done_iff.mpr ⟨h₂, rfl, ?_⟩
      simp [hreserved]
  · rintro w' ⟨check, t'⟩ ⟨hgrows, rfl, rfl⟩
    have hserves := h.grows hgrows
    refine watched_done_iff.mpr (.inr ⟨hgrows.toFollows, { m with
      phase := .running timestamp sequence count true }, ?_, ?_⟩)
    · simp [GuestAdapter.CommitStream.observe, observeExtend, hphase]
    · refine ⟨hserves.toRuns, hserves.valid, hserves.unfinalized, hserves.unpublished,
        hserves.sequence, hserves.horizon, hserves.frame, ?_, ?_⟩
      · simpa [limit, hphase] using hserves.events
      · have hgrown := hholds.carried (h.toRuns.carries hgrows)
        exact ⟨⟨hgrown.active, hgrown.owned, hgrown.kind_eq, hgrown.reserved, hgrown.uncommitted,
          hgrown.token, hgrown.room, hgrown.vacant, hgrown.ran⟩, rfl, hgrows.bytes.trans hbytes,
          hsequence, hhorizon⟩

/-- A byte has been pushed. -/
structure Pushed (w w' : Session) : Prop extends Follows w w', Runs w' where
  bytes : w'.bytes = w.bytes + 1
  events : w'.events = w.events
  view : ∀ cell, Owned cell = true → w'.view cell = w.view cell
  ran : w.ran = true → w'.ran = true
  room : w.room = true → w'.room = true
  vacant : w.vacant = true → w'.vacant = true

theorem watched_byteRingPush (h : Runs w) (hran : w.ran = true) (hcall : w.call = none)
    (value : UInt8) :
    Watched session (fun w' status => if status = .ok then Pushed w w' else Grows w w')
      (byteRingPush value) w := by
  refine watched_load h.opened fun head _ => ?_
  refine watched_load (w := w) h.opened fun tail _ => ?_
  change Watched session _ (if head - tail > byteCapacity then _ else _) w
  split
  · exact watched_done_iff.mpr (Grows.refl w)
  split
  · exact watched_done_iff.mpr (Grows.refl w)
  refine watched_store rfl (watched_store ?_ (watched_done_iff.mpr ?_))
  · change (w.ran && w.call.isNone) = true
    rw [hran, hcall]
    rfl
  · have hview : ∀ cell, Owned cell = true → Function.update (Function.update w.view
        (.byteSlot (head &&& (byteCapacity - 1))) value) .byteHead (head + 1) cell =
          w.view cell := by
      intro cell hcell
      cases cell <;> first | rfl | cases hcell
    rw [if_pos rfl]
    exact ⟨(follows_store w _ _).trans (follows_store _ _ _), ⟨h.opened, h.bound, h.undrained⟩,
      rfl, rfl, hview, id, id, id⟩

/-- An authorised byte is pushed. -/
theorem watched_commitByte (h : Serves m t w) (hcall : w.call = none) {count : Nat}
    {timestamp sequence : UInt64} (value : UInt8) (hholds : Holds .dataRun m t w)
    (hreserved : t.reservedBytes = 1) (hbytes : w.bytes = count) (hsequence : sequence = m.sequence)
    (hhorizon : m.horizon ≤ timestamp) (hlimit : limit m = m.horizon)
    (hobserve : ∀ reply, GuestAdapter.CommitStream.observe m
      ⟨.commitPcmByte m.token timestamp sequence value, reply⟩ =
        some { m with phase := .running timestamp sequence (count + 1) false, token := reply }) :
    Watched session (Answered m w (.commitPcmByte m.token timestamp sequence value))
      (guestCommitPcmByte m.token sequence value t) w := by
  have hexcusable : w.excusable = true := by rw [Session.excusable, hcall]
  have hfatal : ∀ w', Grows w w' → Watched session
      (Answered m w (.commitPcmByte m.token timestamp sequence value))
        ((do guestContract; return m.token : Sink Token) t) w' := fun w' hgrows =>
    watched_guestContract (h.grows hgrows).toRuns (hgrows.toFollows.excusable hexcusable)
      fun _ _ hgone => .inl hgone
  refine watched_get ?_
  rw [if_neg (by simp [hholds.tokenMatches, hreserved, hsequence, h.sequence])]
  refine watched_lift ((watched_byteRingPush h.toRuns hholds.ran hcall value).mono ?_)
  rintro w₁ status hpush
  split
  · rename_i hstatus
    rw [if_pos hstatus] at hpush
    refine watched_plain rfl fun _ => watched_done_iff.mpr
      (.inr ⟨hpush.toFollows, _, hobserve _, ?_⟩)
    refine ⟨hpush.toRuns, (hpush.view .ownerValid rfl).trans h.valid,
      (hpush.view .ownerFinalizing rfl).trans h.unfinalized,
      (hpush.view .finalHorizonSequence rfl).trans h.unpublished, h.sequence, h.horizon,
      (hpush.view .horizonFrame rfl).trans h.frame, ?_, ?_⟩
    · have hevents := h.events
      rw [hlimit] at hevents
      rw [hpush.events]
      exact hevents
    · refine ⟨⟨hholds.active, hholds.owned, hholds.kind_eq, hholds.reserved, hholds.uncommitted,
        hholds.token, hpush.room hholds.room, hpush.vacant hholds.vacant, hpush.ran hholds.ran⟩,
        ?_, ?_, hsequence, hhorizon⟩
      · change t.reservedBytes - 1 = 0
        rw [hreserved]
        rfl
      · rw [hpush.bytes, hbytes]
  · rename_i hstatus
    rw [if_neg hstatus] at hpush
    exact hfatal w₁ hpush

/-- An event has been enqueued. -/
structure Enqueued (event : Event) (w w' : Session) : Prop extends Follows w w', Runs w' where
  bytes : w'.bytes = 0
  events : w'.events = w.events ++ [(event, w.bytes)]
  view : ∀ cell, Owned cell = true → cell ≠ .eventHead → w'.view cell = w.view cell
  vacant : w.vacant = true → w'.vacant = true

/-- A free slot has been found, so the event ring takes the event. -/
theorem watched_eventRingEnqueue (h : Runs w) (hroom : w.room = true) (hran : w.ran = true)
    {event : Event} (hevent : w.bytes = 0 ∨ event.opcode = 3 ∧ event.payload.toNat = w.bytes) :
    Watched session (fun w' status => status = .ok ∧ Enqueued event w w')
      (eventRingEnqueue event) w := by
  refine watched_load h.opened fun head hhead => ?_
  obtain rfl : head = w.view .eventHead := hhead h.bound
  refine watched_load (w := w) h.opened fun tail htail => ?_
  have hlt : w.view .eventHead - tail < eventCapacity := htail hroom
  have hle : ¬ w.view .eventHead - tail > eventCapacity := by
    rw [gt_iff_lt, UInt32.not_lt]
    exact UInt32.le_of_lt hlt
  have hne : w.view .eventHead - tail ≠ eventCapacity := by
    intro heq
    rw [heq] at hlt
    exact UInt32.lt_irrefl _ hlt
  change Watched session _ (if w.view .eventHead - tail > eventCapacity then _ else _)
    { w with room := w.room || decide (w.view .eventHead - tail < eventCapacity) }
  rw [if_neg hle, if_neg hne]
  refine watched_store rfl (watched_store ?_ (watched_done_iff.mpr ⟨rfl, ?_⟩))
  · change ((w.room || _) && w.ran && decide (w.view .eventHead + 1 = w.view .eventHead + 1) &&
      (decide (w.bytes = 0) || decide (event.opcode = 3) &&
        decide (event.payload.toNat = w.bytes))) = true
    simp [hroom, hran, hevent]
  · have hview : ∀ cell, Owned cell = true → cell ≠ .eventHead → Function.update (Function.update
        w.view (.eventSlot (w.view .eventHead &&& (eventCapacity - 1))) event) .eventHead
          (w.view .eventHead + 1) cell = w.view cell := by
      intro cell hcell hne
      cases cell <;> first | exact absurd rfl hne | rfl | cases hcell
    exact ⟨(grows_load w .eventTail tail).toFollows.trans ((follows_store _ _ _).trans
      (follows_store _ _ _)), ⟨h.opened, h.bound, h.undrained⟩, rfl, rfl, hview, id⟩

/-- The transaction whose event has been enqueued. -/
theorem Serves.enqueued (h : Serves m t w) {kind : Kind} (hholds : Holds kind m t w)
    {event : Event} {timestamp : UInt64} (henqueued : Enqueued event w w')
    (htimestamp : event.frameTimestamp = timestamp) (hhorizon : m.horizon ≤ timestamp)
    (hlimit : limit m = m.horizon) {t' : Transaction}
    (hcommitted : t'.eventCommitted = true ∨ t'.runCommitted = true)
      (hreserved : t'.reservedEvents = 0)
    (hnext : t'.nextSequence = t.nextSequence + 1) (hactive : t'.active = t.active)
    (howned : t'.horizonOwned = t.horizonOwned) (hgeneration : t'.activeGeneration =
      t.activeGeneration)
    (hframe : t'.committedFrame = t.committedFrame) :
    Serves { m with phase := .committed timestamp, sequence := m.sequence + 1 } t' w' where
  toRuns := henqueued.toRuns
  valid := (henqueued.view .ownerValid rfl (by simp)).trans h.valid
  unfinalized := (henqueued.view .ownerFinalizing rfl (by simp)).trans h.unfinalized
  unpublished := (henqueued.view .finalHorizonSequence rfl (by simp)).trans h.unpublished
  sequence := by rw [hnext, ← h.sequence]
  horizon := h.horizon.trans hframe.symm
  frame := (henqueued.view .horizonFrame rfl (by simp)).trans (h.frame.trans hframe.symm)
  events := by
    intro entry hentry
    have hevents := h.events
    rw [hlimit] at hevents
    rw [henqueued.events, List.mem_append, List.mem_singleton] at hentry
    rcases hentry with hbefore | rfl
    · exact UInt64.le_trans (hevents entry hbefore) hhorizon
    · exact htimestamp ▸ UInt64.le_refl _
  agrees := by
    refine ⟨hactive.trans hholds.active, howned.trans hholds.owned, hcommitted, hreserved, ?_,
      henqueued.bytes, henqueued.vacant hholds.vacant, hhorizon⟩
    rw [hholds.token, hgeneration]
    rfl

/-- A finished run is enqueued. -/
theorem watched_commitDataRun (h : Serves m t w) {run : DataRun} {count : Nat}
    (hphase : m.phase = .running run.frameTimestamp run.sequence count false)
    (hcount : run.count.toNat = count) (hpositive : 1 ≤ count)
    (hobserve : ∀ reply, GuestAdapter.CommitStream.observe m ⟨.commitDataRun m.token run, reply⟩ =
      some { m with
        phase := .committed run.frameTimestamp, sequence := m.sequence + 1, token := reply }) :
    Watched session (Served m w (.commitDataRun m.token run))
      (guestCommitDataRun m.token run t) w := by
  have hagrees := h.agrees
  simp only [Agrees, hphase] at hagrees
  obtain ⟨hholds, hreserved, hbytes, hsequence, hhorizon⟩ := hagrees
  have hne : run.count ≠ 0 := by
    rintro heq
    simp [heq] at hcount
    omega
  have hreserved : t.reservedBytes = 0 := hreserved
  refine watched_get ?_
  rw [if_neg (by
    simp [hholds.tokenMatches, hholds.reserved, hreserved, hsequence, h.sequence, hne])]
  refine watched_lift ((watched_eventRingEnqueue h.toRuns hholds.room hholds.ran
    (.inr ⟨rfl, hcount.trans hbytes.symm⟩)).mono ?_)
  rintro w₁ _ ⟨rfl, henqueued⟩
  refine watched_plain rfl fun _ => watched_done_iff.mpr ⟨henqueued.toFollows, _, hobserve _, ?_⟩
  exact h.enqueued hholds henqueued rfl hhorizon (by simp [limit, hphase])
    (.inr rfl) rfl rfl rfl rfl rfl rfl

/-- An authorised event is enqueued, if its ordinal is not used up. -/
theorem watched_commitEvent (h : Serves m t w) (hexcusable : w.excusable = true) {kind : Kind}
    (hphase : m.phase = .reserved kind) {event : GuestEvent}
    (hallows : Kind.allows kind event.opcode = true) (hsequence : event.sequence = m.sequence)
    (hhorizon : m.horizon ≤ event.frameTimestamp) :
    Watched session (Answered m w (.commitEvent m.token event))
      (guestCommitEvent m.token event t) w := by
  have hagrees := h.agrees
  simp only [Agrees, hphase] at hagrees
  obtain ⟨hholds, hreserved, hbytes⟩ := hagrees
  have hmatches :
    ¬ (tokenMatches t m.token .event = false ∧ tokenMatches t m.token .reset = false) := by
    have hkind := hholds.tokenMatches
    cases kind with
    | event => simp [hkind]
    | reset => simp [hkind]
    | dataRun => cases hallows
  have hobserve : ∀ reply, GuestAdapter.CommitStream.observe m ⟨.commitEvent m.token event, reply⟩ =
      some { m with
        phase := .committed event.frameTimestamp, sequence := m.sequence + 1, token := reply } := by
    intro reply
    simp only [GuestAdapter.CommitStream.observe, observeEvent, hphase]
    exact if_pos ⟨trivial, hallows, hsequence, hhorizon⟩
  have hfatal : Watched session (Answered m w (.commitEvent m.token event))
      ((do eventFatal; return m.token : Sink Token) t) w := by
    refine watched_lift (Watched.mono (Q := fun w' _ => w'.gone = true) ?_ fun w' _ hgone => ?_)
    · exact Watched.bind ((watched_firstFatal h.toRuns hexcusable (by simp) _ _).mono
        fun w' _ hgone => watched_done_iff.mpr hgone)
    · exact watched_done_iff.mpr (.inl hgone)
  have henqueue : ∀ (e : Event) (t₁ : Transaction), e.frameTimestamp = event.frameTimestamp →
      t₁ = { t with resetOrdinal := t₁.resetOrdinal } → ∀ w₁, Enqueued e w w₁ →
      Answered m w (.commitEvent m.token event) w₁ (m.token, { t₁ with
        reservedEvents := 0, eventCommitted := true, nextSequence := t₁.nextSequence + 1 }) := by
    intro e t₁ htimestamp ht₁ w₁ henqueued
    refine .inr ⟨henqueued.toFollows, _, hobserve _, ?_⟩
    rw [ht₁]
    exact h.enqueued hholds henqueued htimestamp hhorizon (by simp [limit, hphase]) (.inl rfl)
      rfl rfl rfl rfl rfl rfl
  refine watched_get ?_
  rw [if_neg (by simp [hmatches, hholds.reserved, hsequence, h.sequence])]
  refine Watched.bind (Watched.mono (Q := fun w' result =>
    (result.1 ≠ .ok ∧ w' = w ∧ result.2 = t) ∨ (result.1 = .ok ∧ ∃ e : Event,
      e.frameTimestamp = event.frameTimestamp ∧ Enqueued e w w' ∧
        result.2 = { t with resetOrdinal := result.2.resetOrdinal })) ?_ ?_)
  · rw [enqueueEvent]
    split
    · refine watched_get ?_
      split
      · exact watched_done_iff.mpr (.inl ⟨by simp, rfl, rfl⟩)
      · refine watched_lift ((watched_eventRingEnqueue h.toRuns hholds.room hholds.ran
          (.inl hbytes)).mono ?_)
        rintro w₁ _ ⟨rfl, henqueued⟩
        exact watched_done_iff.mpr (.inr ⟨rfl, _, rfl, henqueued, rfl⟩)
    · refine Watched.bind ((watched_eventRingEnqueue h.toRuns hholds.room hholds.ran
        (.inl hbytes)).mono ?_)
      rintro w₁ _ ⟨rfl, henqueued⟩
      exact watched_done_iff.mpr (.inr ⟨rfl, _, rfl, henqueued, rfl⟩)
  · rintro w₁ ⟨status, t₁⟩ (⟨hstatus, rfl, rfl⟩ | ⟨rfl, e, htimestamp, henqueued, ht₁⟩)
    · change Watched session _ ((if status = .ok then _ else _ : Sink Token) t₁) w₁
      rw [if_neg hstatus]
      exact hfatal
    · exact watched_plain rfl fun _ => watched_done_iff.mpr
        (henqueue e t₁ htimestamp ht₁ w₁ henqueued)

/-- A frame has been published. -/
structure Published (frame : UInt64) (w w' : Session) : Prop extends Follows w w', Runs w' where
  bytes : w'.bytes = w.bytes
  events : w'.events = w.events
  view : ∀ cell, Owned cell = true → cell ≠ .horizonFrame → w'.view cell = w.view cell
  frame : w'.view .horizonFrame = frame

/-- The publication of a frame that is not behind the last one, as far as the mailbox is empty. -/
theorem watched_producerPublish (h : Runs w) {frame : UInt64} (hframe : t.committedFrame ≤ frame) :
    Watched session (fun w' result =>
      (result.1 = .ok ∧ Published frame w w' ∧ result.2 = { t with committedFrame := frame }) ∨
      (result.1 = .retry ∧ w.vacant = false ∧ Grows w w' ∧ result.2 = t))
      (producerPublish frame t) w := by
  refine watched_get ?_
  refine watched_lift (Watched.mono (Q := fun w' status => (status = .ok ∧ Published frame w w') ∨
    (status = .retry ∧ w.vacant = false ∧ Grows w w')) ?_ ?_)
  · rw [horizonPublish, if_neg (UInt64.not_lt.mpr hframe)]
    refine watched_load h.opened fun state hstate => ?_
    have hgrows := grows_load w .horizonState state
    cases state with
    | full =>
        have hvacant : w.vacant = false := by
          rw [Bool.eq_false_iff]
          intro hvacant
          cases hstate hvacant
        exact watched_done_iff.mpr (.inr ⟨rfl, hvacant, hgrows⟩)
    | empty =>
        refine watched_store rfl (watched_store rfl (watched_done_iff.mpr (.inl ⟨rfl, ?_⟩)))
        have hview : ∀ cell, Owned cell = true → cell ≠ .horizonFrame → Function.update
            (Function.update w.view .horizonFrame frame) .horizonState .full cell =
              w.view cell := by
          intro cell hcell hne
          cases cell <;> first | exact absurd rfl hne | rfl | cases hcell
        exact ⟨hgrows.toFollows.trans ((follows_store _ _ _).trans (follows_store _ _ _)),
          ⟨h.opened, h.bound, h.undrained⟩, rfl, rfl, hview, rfl⟩
  · rintro w₁ status (⟨rfl, hpublished⟩ | ⟨rfl, hvacant, hgrows⟩)
    · exact watched_done_iff.mpr (.inl ⟨rfl, hpublished, rfl⟩)
    · exact watched_done_iff.mpr (.inr ⟨rfl, hvacant, hgrows, rfl⟩)

theorem watched_awaitReset (h : Runs w) (reset : Bool) :
    Watched session (fun w' result => Grows w w' ∧ result.2 = t) (awaitReset reset t) w := by
  cases reset with
  | false => exact watched_done_iff.mpr ⟨.refl w, rfl⟩
  | true =>
      refine watched_get ?_
      refine Watched.bind (Watched.mono (Q := fun w' _ => Grows w w') ?_ fun w' _ hgrows =>
        watched_done_iff.mpr ⟨hgrows, rfl⟩)
      refine watched_iterate (fun w' _ => Grows w w') (.refl w) ?_
      rintro w₁ ⟨⟩ h₁
      refine watched_load (h.grows h₁).opened fun latched hlatched => ?_
      obtain rfl : latched = false := hlatched
      refine watched_load (w := w₁) (h.grows h₁).opened fun ordinal _ => ?_
      change Watched session _ (if ordinal < t.resetOrdinal then _ else _) w₁
      split
      · exact watched_plain rfl fun _ => watched_done_iff.mpr h₁
      · exact watched_done_iff.mpr h₁

/-- The transaction is closed; the gate is opened again unless the production is over. -/
theorem watched_transactionClose (h : Runs w) :
    Watched session (fun w' result => Grows w w' ∧ result.2 = { t with
      active := false, horizonOwned := false, kind := none, eventCommitted := false
      runCommitted := false }) (transactionClose t) w := by
  refine watched_modify (watched_lift ((watched_producerTerminated h).mono ?_))
  rintro w₁ terminated hterminated
  cases terminated with
  | true =>
      obtain ⟨hgrows, haccepts⟩ := grows_store .transactionGate rfl w₁ .closed
      exact watched_store haccepts (watched_done_iff.mpr ⟨hterminated.grows.trans hgrows, rfl⟩)
  | false =>
      obtain ⟨hgrows, haccepts⟩ := grows_store .transactionGate rfl w₁ .opened
      exact watched_store haccepts (watched_done_iff.mpr ⟨hterminated.grows.trans hgrows, rfl⟩)

/-- The mailbox is empty, so the horizon of a committed record is published. -/
theorem watched_commitHorizon (h : Serves m t w) {timestamp : UInt64}
    (hphase : m.phase = .committed timestamp) :
    Watched session (Served m w (.commitHorizon m.token timestamp))
      (guestCommitHorizon m.token timestamp t) w := by
  have hagrees := h.agrees
  simp only [Agrees, hphase] at hagrees
  obtain ⟨hactive, howned, hcommitted, hreserved, hmatches, hbytes, hvacant, hhorizon⟩ := hagrees
  obtain ⟨_, htoken⟩ := Vector.getElem?_eq_some_iff.mp hmatches
  have hevents := h.events
  simp only [limit, hphase] at hevents
  refine watched_get ?_
  rw [if_neg (by
    simp only [hactive, howned, htoken, ne_eq, not_true_eq_false, or_false, reduceCtorEq, false_or]
    rintro ⟨hevent, hrun⟩
    rcases hcommitted with hcommitted | hcommitted
    · simp [hevent] at hcommitted
    · simp [hrun] at hcommitted)]
  refine Watched.bind ((watched_producerPublish h.toRuns (h.horizon ▸ hhorizon)).mono ?_)
  rintro w₁ ⟨status, t₁⟩ (⟨rfl, hpublished, rfl⟩ | ⟨-, hempty, -⟩)
  case inr => exact absurd (hvacant.symm.trans hempty) (by simp)
  refine Watched.bind ((watched_transactionClose hpublished.toRuns).mono ?_)
  rintro w₂ ⟨_, t₂⟩ ⟨hgrows₂, rfl⟩
  refine watched_lift_plain rfl fun _ => ?_
  refine Watched.bind ((watched_awaitReset (hpublished.toRuns.grows hgrows₂) _).mono ?_)
  rintro w₃ ⟨_, t₃⟩ ⟨hgrows₃, rfl⟩
  have hgrows := hgrows₂.trans hgrows₃
  have hview : ∀ cell, Owned cell = true → cell ≠ .horizonFrame → w₃.view cell = w.view cell :=
    fun cell hcell hne => (hgrows.view cell hcell).trans (hpublished.view cell hcell hne)
  refine watched_done_iff.mpr ⟨hpublished.toFollows.trans hgrows.toFollows,
    { m with phase := .idle, horizon := timestamp }, ?_, hpublished.toRuns.grows hgrows,
    (hview .ownerValid rfl (by simp)).trans h.valid,
    (hview .ownerFinalizing rfl (by simp)).trans h.unfinalized,
    (hview .finalHorizonSequence rfl (by simp)).trans h.unpublished, h.sequence, rfl,
    (hgrows.view .horizonFrame rfl).trans hpublished.frame, ?_, ?_⟩
  · simp [GuestAdapter.CommitStream.observe, observeHorizon, hphase]
  · rw [hgrows.events, hpublished.events]
    exact hevents
  · exact ⟨rfl, rfl, hreserved, hgrows.bytes.trans (hpublished.bytes.trans hbytes)⟩

/-- What the owner learns from the answer to a progress that it publishes. -/
def Progressed (w w' : Session) (check : Check) : Prop :=
  (check = .terminated ∧ w'.stopSeen = true) ∨
    ((check = .ok ∨ check = .retry) ∧ (w.call.isSome = true → w'.excused = true))

/-- Progress is published, or the mailbox is full, or the production is over. -/
theorem watched_publishProgress (h : Serves m t w) (hphase : m.phase = .idle) {frame : UInt64}
    (hframe : m.horizon ≤ frame) :
    Watched session (fun w' result => Served m w (.publishProgressChecked frame) w' result ∧
      Progressed w w' result.1) (guestPublishProgressChecked frame t) w := by
  have hagrees := h.agrees
  simp only [Agrees, hphase] at hagrees
  obtain ⟨hactive, howned, hreserved, hbytes⟩ := hagrees
  have hobserve : ∀ reply, GuestAdapter.CommitStream.observe m
    ⟨.publishProgressChecked frame, reply⟩ =
      some (if reply = .ok then { m with horizon := frame } else m) :=
    fun reply => if_pos ⟨hphase, hframe⟩
  refine watched_get ?_
  rw [if_neg (by simp [hactive, howned])]
  refine watched_lift (Watched.mono (Q := fun w' terminated => Terminated w terminated w') ?_ ?_)
  · refine Watched.bind ((watched_producerTerminated h.toRuns).mono ?_)
    rintro w₁ terminated hterminated
    cases terminated with
    | false => exact watched_done_iff.mpr hterminated
    | true =>
        refine watched_load (h.grows hterminated.grows).opened fun finalizing hfinalizing => ?_
        have heq := hfinalizing (h.grows hterminated.grows).bound
        rw [(h.grows hterminated.grows).unfinalized] at heq
        subst heq
        exact watched_done_iff.mpr hterminated
  · rintro w₁ terminated hterminated
    cases terminated with
    | true =>
        refine watched_done_iff.mpr ⟨⟨hterminated.grows.toFollows, m, hobserve _, ?_⟩,
          .inl ⟨rfl, hterminated.seen rfl⟩⟩
        exact h.grows hterminated.grows
    | false =>
        have hserves := h.grows hterminated.grows
        have hexcused := hterminated.excused rfl
        refine Watched.bind ((watched_producerPublish hserves.toRuns (h.horizon ▸ hframe)).mono ?_)
        rintro w₂ ⟨status, t₂⟩ (⟨rfl, hpublished, rfl⟩ | ⟨rfl, -, hgrows, rfl⟩)
        · refine watched_plain rfl fun _ => watched_done_iff.mpr ⟨⟨hterminated.grows.toFollows.trans
            hpublished.toFollows, { m with horizon := frame }, hobserve _, ?_⟩,
            .inr ⟨.inl rfl, fun hcall => hpublished.excused (hexcused hcall hbytes)⟩⟩
          refine ⟨hpublished.toRuns, (hpublished.view .ownerValid rfl (by simp)).trans
            hserves.valid,
            (hpublished.view .ownerFinalizing rfl (by simp)).trans hserves.unfinalized,
            (hpublished.view .finalHorizonSequence rfl (by simp)).trans hserves.unpublished,
            h.sequence, rfl, hpublished.frame, ?_, ?_⟩
          · intro entry hentry
            rw [hpublished.events] at hentry
            have hle := hserves.events entry hentry
            simp only [limit, hphase] at hle ⊢
            exact UInt64.le_trans hle hframe
          · simp only [Agrees, hphase]
            exact ⟨hactive, howned, hreserved,
              hpublished.bytes.trans (hterminated.grows.bytes.trans hbytes)⟩
        · refine watched_done_iff.mpr ⟨⟨hterminated.grows.toFollows.trans hgrows.toFollows, m,
            hobserve _, hserves.grows hgrows⟩,
            .inr ⟨.inr rfl, fun hcall => hgrows.excused (hexcused hcall hbytes)⟩⟩

/-- A byte that the stream allows is the next of its run. -/
theorem watched_handleByte {token : Token} {timestamp sequence : UInt64} {value : UInt8}
    (h : Serves m t w) (hnone : w.call = none)
    (hobserve : ∀ reply, ∃ m', GuestAdapter.CommitStream.observe m
      ⟨.commitPcmByte token timestamp sequence value, reply⟩ = some m') :
    Watched session (Answered m w (.commitPcmByte token timestamp sequence value))
      (handle (.commitPcmByte token timestamp sequence value) t) w := by
  obtain ⟨m', hm'⟩ := hobserve (Vector.replicate 4 0)
  have hagrees := h.agrees
  simp only [GuestAdapter.CommitStream.observe, observeByte] at hm'
  split at hm'
  · rename_i hphase
    split at hm'
    · rename_i hcond
      obtain ⟨rfl, hsequence, hhorizon⟩ := hcond
      simp only [Agrees, hphase] at hagrees
      refine watched_commitByte h hnone value hagrees.1 hagrees.2.1 hagrees.2.2
        hsequence hhorizon (by simp [limit, hphase]) fun reply => ?_
      simp only [GuestAdapter.CommitStream.observe, observeByte, hphase]
      exact if_pos ⟨trivial, hsequence, hhorizon⟩
    · cases hm'
  · rename_i hphase
    split at hm'
    · rename_i hcond
      obtain ⟨rfl, rfl, rfl⟩ := hcond
      simp only [Agrees, hphase] at hagrees
      obtain ⟨hholds, hreserved, hbytes, hsequence, hhorizon⟩ := hagrees
      refine watched_commitByte h hnone value hholds hreserved hbytes hsequence hhorizon
        (by simp [limit, hphase]) fun reply => ?_
      simp [GuestAdapter.CommitStream.observe, observeByte, hphase]
    · cases hm'
  · cases hm'

/-- A run that the stream allows is the one that is open. -/
theorem watched_handleRun {token : Token} {run : DataRun} (h : Serves m t w)
    (hobserve : ∀ reply, ∃ m', GuestAdapter.CommitStream.observe m
      ⟨.commitDataRun token run, reply⟩ = some m') :
    Watched session (Served m w (.commitDataRun token run))
      (handle (.commitDataRun token run) t) w := by
  obtain ⟨m', hm'⟩ := hobserve (Vector.replicate 4 0)
  simp only [GuestAdapter.CommitStream.observe, observeRun] at hm'
  split at hm'
  · rename_i hphase
    split at hm'
    · rename_i hcond
      obtain ⟨rfl, hrun, hsequence, hframe, hcount, hpositive, hmost⟩ := hcond
      rw [← hframe, ← hrun] at hphase
      refine watched_commitDataRun h hphase hcount hpositive fun reply => ?_
      simp only [GuestAdapter.CommitStream.observe, observeRun, hphase]
      exact if_pos ⟨trivial, trivial, hrun.trans hsequence, trivial, hcount, hpositive, hmost⟩
    · cases hm'
  · cases hm'

/-- Every call that the stream takes is answered. -/
theorem watched_handle (h : Serves m t w) (request : Call)
    (hcall : w.call = none ∨ Finishing request = true)
    (hobserve : ∀ reply, ∃ m', GuestAdapter.CommitStream.observe m ⟨request, reply⟩ = some m') :
    Watched session (Answered m w request) (handle request t) w := by
  have hserved : ∀ {program : Code (Reply request × Transaction)},
      Watched session (Served m w request) program w → Watched session
        (Answered m w request) program w :=
    fun hwatched => hwatched.mono fun _ _ => .inr
  cases request with
  | reserveChecked kind bytes =>
      obtain ⟨m', hm'⟩ := hobserve (.ok, Vector.replicate 4 0)
      simp only [GuestAdapter.CommitStream.observe, observeReserve] at hm'
      split at hm'
      · rename_i hcond
        obtain ⟨hphase, rfl⟩ := hcond
        exact watched_reserve h hphase kind
      · cases hm'
  | extendChecked token bytes =>
      obtain ⟨m', hm'⟩ := hobserve (.ok, Vector.replicate 4 0)
      simp only [GuestAdapter.CommitStream.observe, observeExtend] at hm'
      split at hm'
      · rename_i hphase
        split at hm'
        · rename_i hcond
          obtain ⟨rfl, rfl⟩ := hcond
          exact watched_extend h hphase
        · cases hm'
      · cases hm'
  | commitEvent token event =>
      have hnone := hcall.resolve_right (by simp [Finishing])
      obtain ⟨m', hm'⟩ := hobserve (Vector.replicate 4 0)
      simp only [GuestAdapter.CommitStream.observe, observeEvent] at hm'
      split at hm'
      · rename_i hphase
        split at hm'
        · rename_i hcond
          obtain ⟨rfl, hallows, hsequence, hhorizon⟩ := hcond
          exact watched_commitEvent h (excusable_outside hnone) hphase hallows hsequence hhorizon
        · cases hm'
      · cases hm'
  | commitPcmByte token timestamp sequence value =>
      exact watched_handleByte h (hcall.resolve_right (by simp [Finishing])) hobserve
  | commitDataRun token run => exact hserved (watched_handleRun h hobserve)
  | commitHorizon token timestamp =>
      obtain ⟨m', hm'⟩ := hobserve (Vector.replicate 4 0)
      simp only [GuestAdapter.CommitStream.observe, observeHorizon] at hm'
      split at hm'
      · rename_i hphase
        split at hm'
        · rename_i hcond
          obtain ⟨rfl, rfl⟩ := hcond
          exact hserved (watched_commitHorizon h hphase)
        · cases hm'
      · cases hm'
  | publishProgressChecked timestamp =>
      obtain ⟨m', hm'⟩ := hobserve .ok
      simp only [GuestAdapter.CommitStream.observe, observeProgress] at hm'
      split at hm'
      · rename_i hcond
        exact hserved ((watched_publishProgress h hcond.1 hcond.2).mono fun _ _ => And.left)
      · cases hm'
  | cpuPosition | schedule | cancel | isWork | irq | extension =>
      exact watched_plain rfl fun reply => watched_done_iff.mpr (.inr ⟨.refl w, m, rfl, h⟩)

/-- A program of the adapter whose calls are a well-formed stream. -/
theorem watched_serve {α : Type} {program : Program Call Reply α} {post : Stream → α → Prop}
    (h : Serves m t w)
    (hcalls : w.call = none ∨ Library.CallMonitor.Makes (fun label => Finishing label.1 = true)
      (fun _ => True) program)
    (hstream : Library.CallMonitor.Watched GuestAdapter.CommitStream.observe post program m) :
    Watched session (fun w' result => w'.gone = true ∨ Follows w w' ∧ ∃ m', post m' result.1 ∧
      Serves m' result.2 w') (serve program t) w := by
  induction program generalizing m t w with
  | done value => exact watched_done_iff.mpr (.inr ⟨.refl w, m, hstream, h⟩)
  | call request next ih =>
      refine Watched.bind ((watched_handle h request
        (hcalls.imp id fun hmakes => (hmakes (grant () request).1).1) fun reply => ?_).mono ?_)
      · obtain ⟨m', hm', -⟩ := hstream reply
        exact ⟨m', hm'⟩
      rintro w₁ ⟨reply, t₁⟩ (hgone | ⟨hfollows, m', hm', hserves⟩)
      · exact (watched_gone _ hgone).mono fun _ _ => .inl
      · obtain ⟨m'', hm'', hnext⟩ := hstream reply
        obtain rfl : m' = m'' := Option.some.inj (hm'.symm.trans hm'')
        refine (ih reply hserves (hcalls.imp hfollows.outside fun hmakes => (hmakes reply).2)
          hnext).mono ?_
        rintro w₂ ⟨value, t₂⟩ (hgone | ⟨hfollows', hrest⟩)
        · exact .inl hgone
        · exact .inr ⟨hfollows.trans hfollows', hrest⟩

theorem serve_bind {α β : Type} (p : Program Call Reply α) (rest : α → Program Call Reply β)
    (t : Transaction) :
    serve (p.bind rest) t = (serve p t).bind fun result => serve (rest result.1) result.2 := by
  induction p generalizing t with
  | done value => rfl
  | call request next ih =>
      change (handle request t).bind (fun result => serve ((next result.1).bind rest) result.2) =
        ((handle request t).bind fun result => serve (next result.1) result.2).bind _
      rw [Thread.bind_assoc]
      congr 1
      funext result
      exact ih result.1 result.2

/-- A program that only calls hooks leaves the owner's transaction alone. -/
theorem watched_hooks {α : Type} {program : Program Call Reply α} {Q : α → Prop}
    (hmakes : Library.CallMonitor.Makes IsHook Q program) :
    Watched session (fun w' result => w' = w ∧ result.2 = t ∧ Q result.1) (serve program t) w := by
  induction program with
  | done value => exact watched_done_iff.mpr ⟨rfl, rfl, hmakes⟩
  | call request next ih =>
      have hhook := (hmakes (grant () request).1).1
      cases request <;> first | exact hhook.elim | skip
      all_goals exact watched_plain rfl fun reply => ih reply (hmakes reply).2

end Serving

end EspNp2.LiveService.SinkSession
