import EspNp2.LiveService.LiveSystem

/-!
A monitor of the words that decide the life of the service. It knows how far a party is with
the first error, what the party has learned of the state, and what the worker has given back.
Every thread of the service is watched by it.
-/

namespace EspNp2.LiveService.LifecycleMonitor

open EspNp2.GuestAdapter.AdapterState
open EspNp2.Library.CallProgram
open EspNp2.Library.Concurrent
open EspNp2.LiveService.LiveSystem
open EspNp2.LiveService.OwnerThread
open EspNp2.LiveService.PcmOutput
open EspNp2.LiveService.ServiceMemory
open EspNp2.LiveService.Transport
open EspNp2.LiveService.WorkerThread

section Monitor

/-- How far a party is with a call of `first_fatal` that has won the state. -/
inductive FatalPhase where
  | clear
  | won
  | described
  | latched
  | reported
deriving DecidableEq, Repr

structure Watch where
  fatal : FatalPhase := .clear
  /-- The party has learned that the state has left `running` for good. -/
  late : Bool := false
  /-- The party has learned that `first_fatal` has won. -/
  known : Bool := false
  /-- The party has seen a quiescent end. -/
  quiescent : Bool := false
  /-- The party has seen such an end disturbed. -/
  disturbed : Bool := false
  attaching : Bool := false
  /-- The owner has taken the guest off. -/
  offline : Bool := false
  /-- The party has stopped a service without a guest. -/
  unattached : Bool := false
  done : Bool := false
  released : Bool := false
  safe : Bool := false
  /-- The clean end was not accepted. -/
  missed : Bool := false
  detached : Bool := false
  ended : Bool := false
deriving DecidableEq, Repr

def LiveState.late (state : LiveState) : Bool :=
  state ≠ .starting && state ≠ .startedUnattached && state ≠ .running

def LiveState.quiescent (state : LiveState) : Bool :=
  state = .stoppedQuiescent || state = .failedQuiescent

def observeLoad (party : Party) (w : Watch) : (cell : Cell) → cell.Value → Option Watch
  | .state, state => some { w with
      late := w.late || LiveState.late state
      known := w.known || state = .failing
      quiescent := w.quiescent || LiveState.quiescent state }
  | .firstErrorLatched, latched => some { w with
      late := w.late || latched
      known := w.known || latched }
  | .producerDone, done => some { w with done := w.done || done }
  | .guestAttached, attached =>
      if party = .worker then
        if attached then some w
        else if w.known || w.missed then some { w with detached := true } else none
      else some { w with disturbed := w.disturbed || w.quiescent && attached }
  | .workerSafe, safe => some { w with disturbed := w.disturbed || w.quiescent && !safe }
  | .sinkReachable, reachable =>
      some { w with disturbed := w.disturbed || w.quiescent && reachable }
  | _, _ => some w

def observeTerminal (party : Party) (w : Watch) (state : LiveState) : Option Watch :=
  match party, state with
  | .worker, .failedQuiescent =>
      if w.released && w.detached && w.safe && (w.known || w.missed) then
        some { w with ended := true }
      else none
  | .worker, .failedNotQuiescent =>
      if w.known && w.safe then some { w with ended := true } else none
  | .control _, .destroyed => if w.quiescent then some w else none
  | _, _ => none

def observeRelease (party : Party) (w : Watch) (reachable : Bool) : Option Watch :=
  match party, reachable with
  | .worker, false => some { w with released := true }
  | .control _, false => if w.quiescent then some w else none
  | _, _ => none

def observeAttached (party : Party) (w : Watch) (attached : Bool) : Option Watch :=
  if party = .owner ∧ w.attaching = attached then
    some { w with attaching := false, offline := !attached }
  else none

def observeStore (party : Party) (w : Watch) : (cell : Cell) → cell.Value → Option Watch
  | .state, state => observeTerminal party w state
  | .workerSafe, safe => if party = .worker then some { w with safe := safe } else none
  | .sinkReachable, reachable => observeRelease party w reachable
  | .guestAttached, attached => observeAttached party w attached
  | .producerDone, done =>
      if done && (w.offline && w.late && !w.attaching || w.unattached) then some w else none
  | .failureCategory, category =>
      if w.fatal = .won ∧ category ≠ .none then some { w with fatal := .described } else none
  | .failureOrigin, _ | .failureSubcode, _ | .firstErrorSequence, _ =>
      if w.fatal = .described then some w else none
  | .firstErrorLatched, _ | .firstError, _ => none
  | _, _ => some w

/-- The strong exchanges of `state`. -/
def observeExchange (party : Party) (w : Watch) (expected desired : LiveState) (done : Bool) :
    Option Watch :=
  match party, expected, desired with
  | .worker, .starting, .startedUnattached => some w
  | .owner, .startedUnattached, .running =>
      if w.attaching then none else some { w with attaching := done }
  | .worker, .draining, .stoppedQuiescent =>
      if w.done && w.released && w.safe then
        some (if done then { w with ended := true } else { w with missed := true })
      else none
  | .owner, .stopRequested, .draining | .control _, .stopRequested, .draining => some w
  | _, _, _ => none

/-- The weak exchanges of `state`: of `first_fatal` and of `request_stop`. -/
def observeClaim (party : Party) (w : Watch) (expected desired : LiveState) (done : Bool) :
    Option Watch :=
  match party, desired with
  | _, .failing =>
      if LiveState.closed expected ∨ w.fatal ≠ .clear then none
      else some (if done then { w with fatal := .won, late := true, known := true } else w)
  | .control _, .stopRequested =>
      if expected = .startedUnattached ∨ expected = .running then
        some (if done then
          { w with late := true, unattached := w.unattached || expected = .startedUnattached }
          else w)
      else none
  | _, _ => none

def observeCompareExchange (party : Party) (w : Watch) :
    (cell : Cell) → cell.Value → cell.Value → Bool → Option Watch
  | .state, expected, desired, done => observeExchange party w expected desired done
  | .firstErrorLatched, expected, desired, done =>
      if w.fatal = .described ∧ expected = false ∧ desired = true ∧ done = true then
        some { w with fatal := .latched }
      else none
  | .firstError, expected, desired, _ =>
      if w.fatal = .latched ∧ expected = 0 ∧ desired ≠ 0 then some w else none
  | .transactionGate, _, _, _ => some w
  | _, _, _, _ => none

def observeCompareExchangeWeak (party : Party) (w : Watch) :
    (cell : Cell) → cell.Value → cell.Value → Bool → Option Watch
  | .state, expected, desired, done => observeClaim party w expected desired done
  | _, _, _, _ => none

def observeSwap (party : Party) (w : Watch) : (cell : Cell) → cell.Value → Option Watch
  | .guestAttached, attached => observeAttached party w attached
  | _, _ => none

def observeNote (w : Watch) : Note → Option Watch
  | .firstFatal won =>
      if won then if w.fatal = .latched then some { w with fatal := .reported } else none
      else if w.fatal = .clear ∨ w.fatal = .reported then some w else none
  | .destroy result => if result = .notQuiescent ∧ w.disturbed = false then none else some w
  | _ => some w

def observeAlive (party : Party) (w : Watch) (label : OpLabel) : Option Watch :=
  match label with
  | ⟨.load cell, reply⟩ => observeLoad party w cell reply
  | ⟨.store cell value, _⟩ => observeStore party w cell value
  | ⟨.compareExchange cell expected desired, done⟩ =>
      observeCompareExchange party w cell expected desired done
  | ⟨.compareExchangeWeak cell expected desired, done⟩ =>
      observeCompareExchangeWeak party w cell expected desired done
  | ⟨.exchange cell value, _⟩ => observeSwap party w cell value
  | ⟨.note mark, _⟩ => observeNote w mark
  | _ => some w

/-- After its end the worker does nothing. -/
def observe (party : Party) (w : Watch) (label : OpLabel) : Option Watch :=
  if w.ended then none else observeAlive party w label

/-- What a party can read: a state of a started service; after its own win a closed one; and
the worker finds no end but its own. -/
def expects (party : Party) (w : Watch) (label : OpLabel) : Prop :=
  match label with
  | ⟨.load .state, state⟩ => state ≠ .uninitialized ∧ state ≠ .ready ∧
      (w.fatal ≠ .clear → LiveState.closed state = true) ∧
      (party = .worker → w.ended = false → LiveState.terminal state = false ∧ state ≠ .destroyed)
  | ⟨.compareExchange .firstErrorLatched false _, done⟩ => w.fatal = .described → done = true
  | _ => True

def monitor (party : Party) : Monitor Watch Op Result where
  expects := expects party
  observe := observe party

end Monitor

section Extends

/-- No call of `first_fatal` is going on. -/
def Idle (fatal : FatalPhase) : Prop := fatal = .clear ∨ fatal = .reported

/-- A party has only learned something. -/
structure Extends (w w' : Watch) : Prop where
  idle : Idle w'.fatal
  ended : w'.ended = false
  late : w.late = true → w'.late = true
  known : w.known = true → w'.known = true
  done : w.done = true → w'.done = true
  attaching : w'.attaching = w.attaching
  offline : w'.offline = w.offline
  unattached : w'.unattached = w.unattached
  released : w'.released = w.released
  safe : w'.safe = w.safe
  missed : w'.missed = w.missed
  detached : w'.detached = w.detached

variable {party : Party} {w w' w'' : Watch} {label : OpLabel}

theorem Extends.refl (hidle : Idle w.fatal) (hended : w.ended = false) : Extends w w :=
  ⟨hidle, hended, id, id, id, rfl, rfl, rfl, rfl, rfl, rfl, rfl⟩

theorem Extends.self (h : Extends w w') : Extends w' w' := .refl h.idle h.ended

theorem Extends.trans (h : Extends w w') (h' : Extends w' w'') : Extends w w'' where
  idle := h'.idle
  ended := h'.ended
  late hlate := h'.late (h.late hlate)
  known hknown := h'.known (h.known hknown)
  done hdone := h'.done (h.done hdone)
  attaching := h'.attaching.trans h.attaching
  offline := h'.offline.trans h.offline
  unattached := h'.unattached.trans h.unattached
  released := h'.released.trans h.released
  safe := h'.safe.trans h.safe
  missed := h'.missed.trans h.missed
  detached := h'.detached.trans h.detached

theorem observe_alive (hended : w.ended = false) (h : observeAlive party w label = some w') :
    observe party w label = some w' := by
  rw [observe, if_neg (by simp [hended])]
  exact h

/-- An operation that the monitor does not look at. -/
def Unseen : Op → Bool
  | .load cell => !(cell ∈ [.state, .firstErrorLatched, .producerDone, .guestAttached, .workerSafe,
      .sinkReachable])
  | .store cell _ => !(cell ∈ [.state, .workerSafe, .sinkReachable, .guestAttached, .producerDone,
      .failureCategory, .failureOrigin, .failureSubcode, .firstErrorSequence, .firstErrorLatched,
      .firstError])
  | .compareExchange cell _ _ => cell = .transactionGate
  | .compareExchangeWeak .. | .exchange .. => false
  | .note (.firstFatal _) | .note (.destroy _) => false
  | _ => true

theorem observe_unseen {request : Op} {reply : Result request} (hended : w.ended = false)
    (h : Unseen request = true) : observe party w ⟨request, reply⟩ = some w := by
  refine observe_alive hended ?_
  cases request with
  | load cell => cases cell <;> first | rfl | cases h
  | store cell value => cases cell <;> first | rfl | cases h
  | compareExchange cell expected desired => cases cell <;> first | rfl | cases h
  | compareExchangeWeak | exchange => cases h
  | note mark => cases mark <;> first | rfl | cases h
  | _ => rfl

end Extends

section Learning

variable {party : Party} {L α β σ : Type} {pre : Watch → Prop} {post : Watch → α → Prop}

/-- The monitor accepts a program of a party; the party has learned `post` at its end. -/
def LearnsCode (party : Party) (pre : Watch → Prop) (program : Code α)
    (post : Watch → α → Prop) : Prop :=
  ∀ w₀, Extends w₀ w₀ → pre w₀ →
    Watched (monitor party) (fun w value => Extends w₀ w ∧ post w value) program w₀

def Learns (party : Party) (pre : Watch → Prop) (program : StateT L Code α)
    (post : Watch → α → Prop) : Prop :=
  ∀ fields, LearnsCode party pre (program fields) fun w result => post w result.1

/-- No matter what the party has learned. -/
abbrev Always (_ : Watch) : Prop := True

abbrev Ever (_ : Watch) (_ : α) : Prop := True

theorem learnsCode_pure {value : α} (h : ∀ w, pre w → post w value) :
    LearnsCode party pre (pure value) post :=
  fun w₀ hself hpre => watched_done_iff.mpr ⟨hself, h w₀ hpre⟩

theorem LearnsCode.mono {program : Code α} {post' : Watch → α → Prop} {pre' : Watch → Prop}
    (h : LearnsCode party pre program post) (hpre : ∀ w, pre' w → pre w)
    (hpost : ∀ w value, post w value → post' w value) : LearnsCode party pre' program post' :=
  fun w₀ hself hpre' => (h w₀ hself (hpre w₀ hpre')).mono
    fun w value hresult => ⟨hresult.1, hpost w value hresult.2⟩

theorem LearnsCode.bind {Q : Watch → α → Prop} {first : Code α} {rest : α → Code β}
    {final : Watch → β → Prop} (h : LearnsCode party pre first Q)
    (hrest : ∀ value, LearnsCode party (fun w => Q w value) (rest value) final) :
    LearnsCode party pre (first >>= rest) final := by
  intro w₀ hself hpre
  refine Watched.bind ((h w₀ hself hpre).mono ?_)
  rintro w value ⟨hextends, hpost⟩
  refine (hrest value w hextends.self hpost).mono ?_
  rintro w' value' ⟨hextends', hfinal⟩
  exact ⟨hextends.trans hextends', hfinal⟩

theorem learnsCode_ite {c : Prop} [Decidable c] {first second : Code α}
    (hfirst : c → LearnsCode party pre first post)
    (hsecond : ¬ c → LearnsCode party pre second post) :
    LearnsCode party pre (if c then first else second) post := by
  split
  · exact hfirst ‹_›
  · exact hsecond ‹_›

/-- A round of a loop may always be followed by another one. -/
def RoundFact (post : Watch → β → Prop) (w : Watch) : σ ⊕ β → Prop
  | .inl _ => True
  | .inr value => post w value

theorem learnsCode_iterate {body : σ → Code (σ ⊕ β)} {start : σ} {post : Watch → β → Prop}
    (h : ∀ value, LearnsCode party Always (body value) (RoundFact post)) :
    LearnsCode party pre (iterate body start) post := by
  intro w₀ hself _
  refine watched_iterate (fun w _ => Extends w₀ w) hself ?_
  intro w value hextends
  refine (h value w hextends.self trivial).mono ?_
  rintro w' result ⟨hextends', hfact⟩
  cases result with
  | inl again => exact hextends.trans hextends'
  | inr value => exact ⟨hextends.trans hextends', hfact⟩

theorem learnsCode_op {request : Op} {post : Watch → Result request → Prop}
    (h : ∀ w reply, Extends w w → pre w → expects party w ⟨request, reply⟩ →
      ∃ w', observe party w ⟨request, reply⟩ = some w' ∧ Extends w w' ∧ post w' reply) :
    LearnsCode party pre (operate request) post := by
  intro w₀ hself hpre
  refine watched_op_iff.mpr fun reply hexpects => ?_
  obtain ⟨w', hobserve, hresult⟩ := h w₀ reply hself hpre hexpects
  exact ⟨w', hobserve, watched_done_iff.mpr hresult⟩

theorem learnsCode_unseen {request : Op} (h : Unseen request = true) :
    LearnsCode party pre (operate request) fun w _ => pre w :=
  learnsCode_op fun w _ hself hpre _ => ⟨w, observe_unseen hself.ended h, hself, hpre⟩

theorem learns_pure {value : α} (h : ∀ w, pre w → post w value) :
    Learns (L := L) party pre (pure value) post :=
  fun _ => learnsCode_pure h

theorem Learns.mono {program : StateT L Code α} {post' : Watch → α → Prop} {pre' : Watch → Prop}
    (h : Learns party pre program post) (hpre : ∀ w, pre' w → pre w)
    (hpost : ∀ w value, post w value → post' w value) : Learns party pre' program post' :=
  fun fields => (h fields).mono hpre fun w result => hpost w result.1

theorem Learns.bind {Q : Watch → α → Prop} {first : StateT L Code α} {rest : α → StateT L Code β}
    {final : Watch → β → Prop} (h : Learns party pre first Q)
    (hrest : ∀ value, Learns party (fun w => Q w value) (rest value) final) :
    Learns party pre (first >>= rest) final :=
  fun fields => LearnsCode.bind (h fields) fun result => hrest result.1 result.2

theorem learns_get_bind {rest : L → StateT L Code α}
    (h : ∀ fields, Learns party pre (rest fields) post) : Learns party pre (get >>= rest) post :=
  fun fields => h fields fields

theorem learns_modify {change : L → L} : Learns party pre (modify change) fun w _ => pre w :=
  fun _ => learnsCode_pure fun _ hpre => hpre

theorem learns_set {fields : L} :
    Learns (L := L) party pre (set fields) fun w _ => pre w :=
  fun _ => learnsCode_pure fun _ hpre => hpre

theorem learns_ite {c : Prop} [Decidable c] {first second : StateT L Code α}
    (hfirst : c → Learns party pre first post) (hsecond : ¬ c → Learns party pre second post) :
    Learns party pre (if c then first else second) post := by
  split
  · exact hfirst ‹_›
  · exact hsecond ‹_›

theorem learns_lift {program : Code α} (h : LearnsCode party pre program post) :
    Learns (L := L) party pre (liftM program) post :=
  fun _ => LearnsCode.bind h fun _ => learnsCode_pure fun _ hpost => hpost

theorem learns_iterating {body : σ → StateT L Code (σ ⊕ β)} {start : σ} {post : Watch → β → Prop}
    (h : ∀ value, Learns party Always (body value) (RoundFact post)) :
    Learns party pre (iterating body start) post := by
  intro fields
  refine learnsCode_iterate fun round => LearnsCode.bind (h round.1 round.2) fun result => ?_
  obtain ⟨result, fields'⟩ := result
  cases result with
  | inl again => exact learnsCode_pure fun _ _ => trivial
  | inr value => exact learnsCode_pure fun _ hpost => hpost

end Learning

section FirstFatal

variable {party : Party} {w : Watch} {pre : Watch → Prop}

/-- What the load of the state tells. -/
structure Reads (party : Party) (w : Watch) (state : LiveState) : Prop where
  started : state ≠ .uninitialized ∧ state ≠ .ready
  alive : party = .worker → LiveState.terminal state = false ∧ state ≠ .destroyed
  late : LiveState.late state = true → w.late = true
  known : state = .failing → w.known = true
  quiescent : LiveState.quiescent state = true → w.quiescent = true
  closed : w.fatal ≠ .clear → LiveState.closed state = true

theorem learnsCode_loadState : LearnsCode party pre (load .state) (Reads party) := by
  refine learnsCode_op fun w state hself _ hexpects => ?_
  refine ⟨_, observe_alive hself.ended rfl, ?_, ?_⟩
  · exact ⟨hself.idle, hself.ended, fun h => by simp [h], fun h => by simp [h], id, rfl, rfl, rfl,
      rfl, rfl, rfl, rfl⟩
  · obtain ⟨hinit, hready, hclosed, halive⟩ := hexpects
    exact ⟨⟨hinit, hready⟩, fun hparty => halive hparty hself.ended,
      fun h => by simp [h], fun h => by simp [h], fun h => by simp [h], hclosed⟩

theorem learnsCode_loadLatched : LearnsCode party pre (load .firstErrorLatched)
    fun w latched => latched = true → w.late = true ∧ w.known = true := by
  refine learnsCode_op fun w latched hself _ _ => ?_
  refine ⟨_, observe_alive hself.ended rfl, ?_, ?_⟩
  · exact ⟨hself.idle, hself.ended, fun h => by simp [h], fun h => by simp [h], id, rfl, rfl, rfl,
      rfl, rfl, rfl, rfl⟩
  · rintro rfl
    exact ⟨by simp, by simp⟩

theorem Reads.late_of_closed {state : LiveState} (h : Reads party w state)
    (hclosed : LiveState.closed state = true) : w.late = true := by
  refine h.late ?_
  cases state <;> first | rfl | exact absurd hclosed (by decide)

theorem Reads.known_of_closed {state : LiveState} (h : Reads party w state)
    (hclosed : LiveState.closed state = true) (hworker : party = .worker) : w.known = true := by
  refine h.known ?_
  obtain ⟨hterminal, hdestroyed⟩ := h.alive hworker
  cases state <;> first
    | rfl
    | exact absurd hclosed (by decide)
    | exact absurd hterminal (by decide)
    | exact absurd rfl h.started.1
    | exact absurd rfl hdestroyed

/-- What a party knows after a call of `first_fatal`. -/
def Ailing (party : Party) (w : Watch) : Prop :=
  w.late = true ∧ (party = .worker → w.known = true)

/-- The state is won by a party that has learned what `w₁` says. -/
def WonFrom (w₀ w : Watch) : Prop :=
  ∃ w₁, Extends w₀ w₁ ∧ w₁.late = true ∧ w₁.known = true ∧ w = { w₁ with fatal := .won }

theorem watched_firstFatalAttempt {w₀ w : Watch} (h : Extends w₀ w) :
    Watched (monitor party) (RoundPost (fun w _ => Extends w₀ w) fun w won =>
      if won = true then WonFrom w₀ w else Extends w₀ w ∧ Ailing party w) firstFatalAttempt w := by
  have hload : LearnsCode party Always (load .state) (Reads party) := learnsCode_loadState
  refine Watched.bind ((hload w h.self trivial).mono ?_)
  rintro w₁ state ⟨hextends, hreads⟩
  have h₁ := h.trans hextends
  split
  · rename_i hclosed
    refine watched_done_iff.mpr ⟨h₁, hreads.late_of_closed hclosed, ?_⟩
    exact hreads.known_of_closed hclosed
  · rename_i hopen
    have hclear : w₁.fatal = .clear := by
      by_contra hfatal
      exact hopen (hreads.closed hfatal)
    refine watched_op_iff.mpr fun won _ => ?_
    have hobserve : observe party w₁ ⟨.compareExchangeWeak .state state .failing, won⟩ =
        some (if won = true then { w₁ with fatal := .won, late := true, known := true }
          else w₁) := by
      refine observe_alive h₁.ended ?_
      simp [observeAlive, observeCompareExchangeWeak, observeClaim, hopen, hclear]
    refine ⟨_, hobserve, ?_⟩
    cases won with
    | false => exact watched_done_iff.mpr h₁
    | true =>
        refine watched_done_iff.mpr ⟨{ w₁ with late := true, known := true }, ?_, rfl, rfl, rfl⟩
        exact ⟨h₁.idle, h₁.ended, fun _ => rfl, fun _ => rfl, h₁.done, h₁.attaching, h₁.offline,
          h₁.unattached, h₁.released, h₁.safe, h₁.missed, h₁.detached⟩

theorem watched_firstFatalPublish {category : FailureCategory} (hcategory : category ≠ .none)
    (origin : FailureOrigin) (subcode : UInt32) (hended : w.ended = false) :
    Watched (monitor party) (fun w' latched => latched = true ∧ w' = { w with fatal := .latched })
      (firstFatalPublish category origin subcode) { w with fatal := .won } := by
  have hobserve : ∀ {phase phase' label},
      observeAlive party { w with fatal := phase } label = some { w with fatal := phase' } →
      observe party { w with fatal := phase } label = some { w with fatal := phase' } :=
    fun {phase _ _} h => observe_alive (w := { w with fatal := phase }) hended h
  have hcode : (if subcode = 0 then 1 else subcode) ≠ 0 := by
    split
    · decide
    · assumption
  refine watched_op_iff.mpr fun _ _ => ⟨{ w with fatal := .described }, ?_, ?_⟩
  · exact hobserve (if_pos ⟨rfl, hcategory⟩)
  refine watched_op_iff.mpr fun _ _ => ⟨{ w with fatal := .described }, hobserve rfl, ?_⟩
  refine watched_op_iff.mpr fun _ _ => ⟨{ w with fatal := .described }, hobserve rfl, ?_⟩
  refine watched_op_iff.mpr fun _ _ => ⟨{ w with fatal := .described }, hobserve rfl, ?_⟩
  refine watched_op_iff.mpr fun latched hexpects => ?_
  obtain rfl : latched = true := hexpects rfl
  refine ⟨{ w with fatal := .latched }, hobserve rfl, ?_⟩
  refine watched_op_iff.mpr fun _ _ => ⟨{ w with fatal := .latched }, hobserve rfl, ?_⟩
  refine watched_op_iff.mpr fun _ _ => ⟨{ w with fatal := .latched }, hobserve rfl, ?_⟩
  refine watched_op_iff.mpr fun _ _ => ⟨{ w with fatal := .latched }, hobserve rfl, ?_⟩
  refine watched_op_iff.mpr fun _ _ => ⟨{ w with fatal := .latched }, ?_, ?_⟩
  · exact hobserve (if_pos ⟨rfl, rfl, hcode⟩)
  refine watched_op_iff.mpr fun _ _ => ⟨{ w with fatal := .latched }, hobserve rfl, ?_⟩
  refine watched_op_iff.mpr fun _ _ => ⟨{ w with fatal := .latched }, hobserve rfl, ?_⟩
  exact watched_done_iff.mpr ⟨rfl, rfl⟩

/-- Every call of `first_fatal` is accepted; after it the service is failing or ended. -/
theorem learnsCode_firstFatal {category : FailureCategory} {origin : FailureOrigin}
    {subcode : UInt32} : LearnsCode party pre (firstFatal category origin subcode)
      fun w _ => category ≠ .none → Ailing party w := by
  intro w₀ hself _
  refine Watched.bind (p := firstFatalCall category origin subcode) ?_
  have hfalse : ∀ w, Extends w₀ w → (category ≠ .none → Ailing party w) →
      Watched (monitor party) (fun w _ => Extends w₀ w ∧ (category ≠ .none → Ailing party w))
        (do note (.firstFatal false); return false : Code Bool) w := by
    intro w hextends hailing
    refine watched_op_iff.mpr fun _ _ => ⟨w, ?_, watched_done_iff.mpr ⟨hextends, hailing⟩⟩
    exact observe_alive hextends.ended (if_pos hextends.idle)
  rw [firstFatalCall]
  split
  · rename_i hnone
    exact watched_done_iff.mpr (hfalse w₀ hself fun hne => absurd hnone hne)
  rename_i hcategory
  refine Watched.bind ((watched_iterate (fun w _ => Extends w₀ w) hself
    fun w _ hextends => watched_firstFatalAttempt hextends).mono ?_)
  intro w won hwon
  cases won with
  | false =>
      simp only [Bool.false_eq_true, if_false] at hwon
      exact watched_done_iff.mpr (hfalse w hwon.1 fun _ => hwon.2)
  | true =>
      simp only [if_true] at hwon
      obtain ⟨w₁, h₁, hlate, hknown, rfl⟩ := hwon
      refine (watched_firstFatalPublish hcategory origin subcode h₁.ended).mono ?_
      rintro w latched ⟨rfl, rfl⟩
      refine watched_op_iff.mpr fun _ _ => ⟨{ w₁ with fatal := .reported }, ?_, ?_⟩
      · exact observe_alive (w := { w₁ with fatal := .latched }) h₁.ended rfl
      · refine watched_done_iff.mpr ⟨?_, fun _ => ⟨hlate, fun _ => hknown⟩⟩
        exact ⟨.inr rfl, h₁.ended, h₁.late, h₁.known, h₁.done, h₁.attaching, h₁.offline,
          h₁.unattached, h₁.released, h₁.safe, h₁.missed, h₁.detached⟩

end FirstFatal

section Ignored

variable {α β σ : Type} {party : Party}

/-- A program whose operations the monitor does not look at. -/
def Ignored (program : Code α) : Prop :=
  ∀ party pre, LearnsCode party pre program Ever

theorem ignored_op {request : Op} (h : Unseen request = true) : Ignored (operate request) :=
  fun _ _ => (learnsCode_unseen h).mono (fun _ h => h) fun _ _ _ => trivial

theorem ignored_pure (value : α) : Ignored (pure value : Code α) :=
  fun _ _ => learnsCode_pure fun _ _ => trivial

theorem Ignored.bind {first : Code α} {rest : α → Code β} (h : Ignored first)
    (hrest : ∀ value, Ignored (rest value)) : Ignored (first >>= rest) :=
  fun party pre => (h party pre).bind fun value => hrest value party _

theorem ignored_ite {c : Prop} [Decidable c] {first second : Code α} (hfirst : Ignored first)
    (hsecond : Ignored second) : Ignored (if c then first else second) :=
  fun party pre => learnsCode_ite (fun _ => hfirst party pre) fun _ => hsecond party pre

theorem ignored_iterate {body : σ → Code (σ ⊕ β)} {start : σ} (h : ∀ value, Ignored (body value)) :
    Ignored (iterate body start) := by
  intro party pre
  refine learnsCode_iterate fun value => (h value party Always).mono (fun _ h => h) ?_
  intro w result _
  cases result <;> exact trivial

theorem ignored_eventRingOccupancy : Ignored eventRingOccupancy :=
  (ignored_op rfl).bind fun _ => (ignored_op rfl).bind fun _ => ignored_pure _

theorem ignored_byteRingOccupancy : Ignored byteRingOccupancy :=
  (ignored_op rfl).bind fun _ => (ignored_op rfl).bind fun _ => ignored_pure _

theorem ignored_eventRingPeek : Ignored eventRingPeek :=
  (ignored_op rfl).bind fun _ => (ignored_op rfl).bind fun _ =>
    ignored_ite (ignored_pure _) <| ignored_ite (ignored_pure _) <|
      (ignored_op rfl).bind fun _ => ignored_pure _

theorem ignored_eventRingConsume : Ignored eventRingConsume :=
  (ignored_op rfl).bind fun _ => (ignored_op rfl).bind fun _ =>
    ignored_ite (ignored_pure _) <| ignored_ite (ignored_pure _) <|
      (ignored_op rfl).bind fun _ => ignored_pure _

theorem ignored_eventRingEnqueue (event : Event) : Ignored (eventRingEnqueue event) :=
  (ignored_op rfl).bind fun _ => (ignored_op rfl).bind fun _ =>
    ignored_ite (ignored_pure _) <| ignored_ite (ignored_pure _) <|
      (ignored_op rfl).bind fun _ => (ignored_op rfl).bind fun _ => ignored_pure _

theorem ignored_loadBytes (position : UInt32) (count : Nat) :
    Ignored (loadBytes position count) := by
  induction count generalizing position with
  | zero => exact ignored_pure _
  | succ count ih =>
      exact (ignored_op rfl).bind fun _ => (ih _).bind fun _ => ignored_pure _

theorem ignored_byteRingPop (count : UInt32) : Ignored (byteRingPop count) := by
  refine Ignored.bind (ignored_ite (ignored_pure _) <| (ignored_op rfl).bind fun tail =>
    (ignored_op rfl).bind fun _ => ignored_ite (ignored_pure _) <| ignored_ite (ignored_pure _) <|
      (ignored_loadBytes tail _).bind fun _ => ignored_pure _) fun copied => ?_
  cases copied with
  | error status => exact ignored_pure _
  | ok bytes =>
      refine Ignored.bind (ignored_ite (ignored_pure _) ?_) fun _ => ignored_pure _
      exact (ignored_op rfl).bind fun _ => (ignored_op rfl).bind fun _ =>
        ignored_ite (ignored_pure _) <| ignored_ite (ignored_pure _) <|
          (ignored_op rfl).bind fun _ => ignored_pure _

theorem ignored_byteRingPush (value : UInt8) : Ignored (byteRingPush value) :=
  (ignored_op rfl).bind fun _ => (ignored_op rfl).bind fun _ =>
    ignored_ite (ignored_pure _) <| ignored_ite (ignored_pure _) <|
      (ignored_op rfl).bind fun _ => (ignored_op rfl).bind fun _ => ignored_pure _

theorem ignored_horizonPublish (committed frame : UInt64) :
    Ignored (horizonPublish committed frame) :=
  ignored_ite (ignored_pure _) <| (ignored_op rfl).bind fun _ => ignored_ite (ignored_pure _) <|
    (ignored_op rfl).bind fun _ => (ignored_op rfl).bind fun _ => ignored_pure _

theorem ignored_horizonTryObserve (reconstructed : UInt64) :
    Ignored (horizonTryObserve reconstructed) :=
  (ignored_op rfl).bind fun _ => ignored_ite (ignored_pure _) <| (ignored_op rfl).bind fun _ =>
    ignored_ite (ignored_pure _) <| (ignored_op rfl).bind fun _ => ignored_pure _

theorem ignored_horizonPending : Ignored horizonPending :=
  (ignored_op rfl).bind fun _ => ignored_pure _

theorem ignored_finalHorizonPublish (value : UInt64) : Ignored (finalHorizonPublish value) :=
  (ignored_op rfl).bind fun _ => (ignored_op rfl).bind fun _ => (ignored_op rfl).bind fun _ =>
    (ignored_op rfl).bind fun _ => ignored_op rfl

theorem ignored_finalHorizonRead : Ignored finalHorizonRead :=
  ignored_iterate fun _ => (ignored_op rfl).bind fun _ => ignored_ite (ignored_pure _) <|
    (ignored_op rfl).bind fun _ => (ignored_op rfl).bind fun _ => (ignored_op rfl).bind fun _ =>
      ignored_ite (ignored_pure _) (ignored_pure _)

theorem ignored_transportEmpty : Ignored transportEmpty := by
  refine ignored_horizonPending.bind fun _ => ignored_ite (ignored_pure _) ?_
  refine ignored_eventRingOccupancy.bind fun _ => ignored_ite (ignored_pure _) ?_
  exact ignored_byteRingOccupancy.bind fun _ => ignored_pure _

end Ignored

section Guest

variable {α : Type} {party : Party} {pre : Watch → Prop}

theorem learnsCode_discard {program : Code α} {post : Watch → Prop}
    (h : LearnsCode party pre program fun w _ => post w) :
    LearnsCode party pre (discard program) fun w _ => post w :=
  LearnsCode.bind h fun _ => learnsCode_pure fun _ hpost => hpost

theorem learnsCode_fatal {category : FailureCategory} (hcategory : category ≠ .none)
    {origin : FailureOrigin} {subcode : UInt32} :
    LearnsCode party pre (discard (firstFatal category origin subcode)) fun w _ => Ailing party w :=
  learnsCode_discard (learnsCode_firstFatal.mono (fun _ h => h) fun _ _ h => h hcategory)

theorem learns_fatal {L : Type} {category : FailureCategory} (hcategory : category ≠ .none)
    {origin : FailureOrigin} {subcode : UInt32} : Learns party pre
      (discard (liftM (firstFatal category origin subcode) : StateT L Code Bool))
      fun w _ => Ailing party w := by
  have hcall : Learns (L := L) party pre (liftM (firstFatal category origin subcode))
      fun w _ => Ailing party w :=
    learns_lift (learnsCode_firstFatal.mono (fun _ h => h) fun _ _ h => h hcategory)
  exact fun fields => LearnsCode.bind (hcall fields) fun _ => learnsCode_pure fun _ hpost => hpost

theorem learnsCode_guestContract : LearnsCode party pre guestContract Ever :=
  (learnsCode_fatal (by simp)).mono (fun _ h => h) fun _ _ _ => trivial

theorem learnsCode_producerTerminated : LearnsCode party pre producerTerminated Ever := by
  refine LearnsCode.bind (ignored_op rfl party pre) fun _ => ?_
  refine learnsCode_ite (fun _ => learnsCode_pure fun _ _ => trivial) fun _ => ?_
  refine LearnsCode.bind learnsCode_loadLatched fun _ => ?_
  refine learnsCode_ite (fun _ => learnsCode_pure fun _ _ => trivial) fun _ => ?_
  refine LearnsCode.bind (ignored_op rfl party _) fun _ => ?_
  refine learnsCode_ite (fun _ => learnsCode_pure fun _ _ => trivial) fun _ => ?_
  exact LearnsCode.bind learnsCode_loadState fun _ => learnsCode_pure fun _ _ => trivial

theorem learns_ignored {L : Type} {program : Code α} (h : Ignored program) :
    Learns (L := L) party pre (liftM program) Ever :=
  learns_lift (h party pre)

theorem learns_unit {L : Type} {change : L → L} :
    Learns party pre (modify change : StateT L Code PUnit) Ever :=
  learns_modify.mono (fun _ h => h) fun _ _ _ => trivial

theorem learns_contract {L : Type} {value : α} :
    Learns (L := L) party pre (do guestContract; return value) Ever :=
  (learns_lift learnsCode_guestContract).bind fun _ => learns_pure fun _ _ => trivial

theorem learns_waitForCapacity (bytes : Nat) : Learns party pre (waitForCapacity bytes) Ever := by
  refine learns_iterating fun _ => Learns.bind (learns_lift learnsCode_producerTerminated)
    fun _ => ?_
  refine learns_ite (fun _ => learns_pure fun _ _ => trivial) fun _ => learns_get_bind fun t => ?_
  refine Learns.bind (learns_ignored ignored_eventRingOccupancy) fun events => ?_
  refine Learns.bind (learns_ignored ignored_byteRingOccupancy) fun occupied => ?_
  refine Learns.bind (learns_ignored ignored_horizonPending) fun pending => ?_
  refine learns_ite (fun _ => learns_pure fun _ _ => trivial) fun _ => ?_
  refine Learns.bind (learns_ignored (ignored_op rfl)) fun _ => ?_
  exact Learns.bind (learns_ignored (ignored_op rfl)) fun _ => learns_pure fun _ _ => trivial

theorem learns_passGate (kind : Kind) (bytes : Nat) :
    Learns party pre (passGate kind bytes) Ever := by
  refine Learns.bind (learns_ignored (ignored_op rfl)) fun _ => ?_
  refine learns_ite (fun _ => ?_) fun _ => learns_pure fun _ _ => trivial
  refine Learns.bind (learns_lift learnsCode_loadState) fun _ =>
    learns_ite (fun _ => ?_) fun _ => ?_
  · exact Learns.bind learns_unit fun _ => learns_get_bind fun _ => learns_pure fun _ _ => trivial
  · exact Learns.bind (learns_ignored (ignored_op rfl)) fun _ => learns_pure fun _ _ => trivial

theorem learns_guestReserveChecked (kind : Kind) (bytes : Nat) :
    Learns party pre (guestReserveChecked kind bytes) Ever := by
  refine learns_get_bind fun t => learns_ite (fun _ => learns_contract) fun _ => ?_
  refine Learns.bind (learns_waitForCapacity bytes) fun check => ?_
  exact learns_ite (fun _ => learns_passGate kind bytes) fun _ => learns_pure fun _ _ => trivial

theorem learns_guestExtendChecked (token : Token) (bytes : Nat) :
    Learns party pre (guestExtendChecked token bytes) Ever := by
  refine learns_get_bind fun t => learns_ite (fun _ => learns_contract) fun _ => ?_
  refine Learns.bind (Q := Ever) (learns_iterating fun _ => ?_) fun _ =>
    learns_pure fun _ _ => trivial
  refine Learns.bind (learns_ignored ignored_byteRingOccupancy) fun occupied => ?_
  refine learns_get_bind fun t => learns_ite (fun _ => ?_) fun _ => ?_
  · refine Learns.bind (learns_lift learnsCode_loadLatched) fun _ => ?_
    refine learns_ite (fun _ => learns_pure fun _ _ => trivial) fun _ => ?_
    refine Learns.bind (learns_ignored (ignored_op rfl)) fun _ => ?_
    exact Learns.bind (learns_ignored (ignored_op rfl)) fun _ => learns_pure fun _ _ => trivial
  · exact Learns.bind learns_unit fun _ => learns_pure fun _ _ => trivial

theorem learns_guestCommitPcmByte (token : Token) (sequence : UInt64) (value : UInt8) :
    Learns party pre (guestCommitPcmByte token sequence value) Ever := by
  refine learns_get_bind fun t => learns_ite (fun _ => learns_contract) fun _ => ?_
  refine Learns.bind (learns_ignored (ignored_byteRingPush value)) fun status => ?_
  refine learns_ite (fun _ => ?_) fun _ => learns_contract
  refine Learns.bind learns_unit fun _ => ?_
  exact Learns.bind (learns_ignored (ignored_op rfl)) fun _ => learns_pure fun _ _ => trivial

/-- The end of a commit: it is counted, or the transport is broken. -/
theorem learns_committed {change : Transaction → Transaction} {token : Token} :
    Learns party pre (do modify change; wake; return token : Sink Token) Ever :=
  Learns.bind learns_unit fun _ => Learns.bind (learns_ignored (ignored_op rfl)) fun _ =>
    learns_pure fun _ _ => trivial

theorem learns_broken {category : FailureCategory} (hcategory : category ≠ .none)
    {origin : FailureOrigin} {subcode : UInt32} {value : α} :
    Learns (L := Transaction) party pre (do
      liftM (discard (firstFatal category origin subcode) : Code PUnit)
      return value) Ever :=
  (learns_lift (learnsCode_fatal hcategory)).bind fun _ => learns_pure fun _ _ => trivial

theorem learns_guestCommitDataRun (token : Token) (run : DataRun) :
    Learns party pre (guestCommitDataRun token run) Ever := by
  refine learns_get_bind fun t => learns_ite (fun _ => learns_contract) fun _ => ?_
  refine Learns.bind (learns_ignored (ignored_eventRingEnqueue _)) fun status => ?_
  exact learns_ite (fun _ => learns_committed) fun _ => learns_broken (by simp)

theorem learns_enqueueEvent (event : Event) : Learns party pre (enqueueEvent event) Ever := by
  refine learns_ite (fun _ => learns_get_bind fun t => ?_) fun _ =>
    learns_ignored (ignored_eventRingEnqueue event)
  refine learns_ite (fun _ => learns_pure fun _ _ => trivial) fun _ => ?_
  refine Learns.bind (learns_ignored (ignored_eventRingEnqueue _)) fun status => ?_
  refine learns_ite (fun _ => ?_) fun _ => learns_pure fun _ _ => trivial
  exact Learns.bind learns_unit fun _ => learns_pure fun _ _ => trivial

theorem learns_guestCommitEvent (token : Token) (event : GuestEvent) :
    Learns party pre (guestCommitEvent token event) Ever := by
  refine learns_get_bind fun t => learns_ite (fun _ => learns_contract) fun _ => ?_
  refine Learns.bind (learns_enqueueEvent _) fun status => ?_
  exact learns_ite (fun _ => learns_committed) fun _ => learns_broken (by simp)

theorem learns_producerPublish (frame : UInt64) :
    Learns party pre (producerPublish frame) Ever := by
  refine learns_get_bind fun t => Learns.bind (learns_ignored (ignored_horizonPublish _ _))
    fun _ => ?_
  refine learns_ite (fun _ => ?_) fun _ => learns_pure fun _ _ => trivial
  exact Learns.bind learns_unit fun _ => learns_pure fun _ _ => trivial

theorem learns_transactionClose : Learns party pre transactionClose Ever := by
  refine Learns.bind learns_unit fun _ => ?_
  refine Learns.bind (learns_lift learnsCode_producerTerminated) fun _ => ?_
  exact learns_ite (fun _ => learns_ignored (ignored_op rfl)) fun _ =>
    learns_ignored (ignored_op rfl)

theorem learns_awaitReset (reset : Bool) : Learns party pre (awaitReset reset) Ever := by
  refine learns_ite (fun _ => learns_get_bind fun t => learns_lift ?_) fun _ =>
    learns_pure fun _ _ => trivial
  refine learnsCode_iterate fun _ => LearnsCode.bind learnsCode_loadLatched fun _ => ?_
  refine learnsCode_ite (fun _ => learnsCode_pure fun _ _ => trivial) fun _ => ?_
  refine LearnsCode.bind (ignored_op rfl party _) fun _ => ?_
  refine learnsCode_ite (fun _ => ?_) fun _ => learnsCode_pure fun _ _ => trivial
  exact LearnsCode.bind (ignored_op rfl party _) fun _ => learnsCode_pure fun _ _ => trivial

theorem learns_guestCommitHorizon (token : Token) (frame : UInt64) :
    Learns party pre (guestCommitHorizon token frame) Ever := by
  refine learns_get_bind fun t => learns_ite (fun _ => learns_contract) fun _ => ?_
  refine Learns.bind (learns_producerPublish frame) fun status => ?_
  refine Learns.bind learns_transactionClose fun _ => learns_ite (fun _ => ?_) fun _ => ?_
  · refine Learns.bind (learns_ignored (ignored_op rfl)) fun _ => ?_
    exact Learns.bind (learns_awaitReset _) fun _ => learns_pure fun _ _ => trivial
  · exact learns_broken (by simp)

theorem learns_guestPublishProgressChecked (frame : UInt64) :
    Learns party pre (guestPublishProgressChecked frame) Ever := by
  refine learns_get_bind fun t => learns_ite (fun _ => learns_contract) fun _ => ?_
  refine Learns.bind (Q := Ever) (learns_lift ?_) fun _ =>
    learns_ite (fun _ => learns_pure fun _ _ => trivial) fun _ => ?_
  · refine LearnsCode.bind learnsCode_producerTerminated fun _ => ?_
    refine learnsCode_ite (fun _ => ?_) fun _ => learnsCode_pure fun _ _ => trivial
    exact LearnsCode.bind (ignored_op rfl party _) fun _ => learnsCode_pure fun _ _ => trivial
  refine Learns.bind (learns_producerPublish frame) fun status => ?_
  cases status with
  | retry => exact learns_pure fun _ _ => trivial
  | nonmonotonic => exact learns_broken (by simp)
  | ok =>
      exact Learns.bind (learns_ignored (ignored_op rfl)) fun _ => learns_pure fun _ _ => trivial

theorem learns_handle (call : Call) : Learns party pre (handle call) Ever := by
  cases call with
  | reserveChecked kind bytes => exact learns_guestReserveChecked kind bytes
  | extendChecked token bytes => exact learns_guestExtendChecked token bytes
  | commitEvent token event => exact learns_guestCommitEvent token event
  | commitPcmByte token frame sequence value => exact learns_guestCommitPcmByte token sequence value
  | commitDataRun token run => exact learns_guestCommitDataRun token run
  | commitHorizon token frame => exact learns_guestCommitHorizon token frame
  | publishProgressChecked frame => exact learns_guestPublishProgressChecked frame
  | cpuPosition | schedule | cancel | isWork | irq | extension =>
      exact learns_ignored (ignored_op rfl)

theorem learns_serve (program : Program Call Reply α) : Learns party pre (serve program) Ever := by
  induction program generalizing pre with
  | done value => exact learns_pure fun _ _ => trivial
  | call request next ih => exact Learns.bind (learns_handle request) fun reply => ih reply

theorem learns_guest (program : Guest α) : Learns party pre (guest program) Ever :=
  fun o => LearnsCode.bind (learns_serve (program o.adapter) o.transaction) fun _ =>
    learnsCode_pure fun _ _ => trivial

end Guest

section Owner

variable {α : Type}

/-- The owner is between two of its calls. -/
structure Calm (w : Watch) : Prop where
  self : Extends w w
  attaching : w.attaching = false

theorem Calm.extends {w w' : Watch} (h : Calm w) (hextends : Extends w w') : Calm w' :=
  ⟨hextends.self, hextends.attaching.trans h.attaching⟩

/-- The owner knows that the stop or a failure has begun. -/
def Closing (w : Watch) : Prop := Calm w ∧ w.late = true

theorem Closing.extends {w w' : Watch} (h : Closing w) (hextends : Extends w w') : Closing w' :=
  ⟨h.1.extends hextends, hextends.late h.2⟩

theorem Learns.calm {program : OwnerCode α} {post : Watch → α → Prop}
    (h : Learns .owner Always program post) :
    Ensures (monitor .owner) Calm program fun w value => Calm w ∧ post w value :=
  fun w fields hcalm => (h fields w hcalm.self trivial).mono
    fun _ _ hresult => ⟨hcalm.extends hresult.1, hresult.2⟩

theorem Learns.closing {program : OwnerCode α} {post : Watch → α → Prop}
    (h : Learns .owner Always program post) :
    Ensures (monitor .owner) Closing program fun w value => Closing w ∧ post w value :=
  fun w fields hclosing => (h fields w hclosing.1.self trivial).mono
    fun _ _ hresult => ⟨hclosing.extends hresult.1, hresult.2⟩

theorem ensures_calm_pure {value : α} {post : Watch → Prop} :
    Ensures (L := Owner) (monitor .owner) post (pure value) fun w _ => post w :=
  ensures_pure fun _ h => h

/-- A step of the owner on a word that the monitor does not look at. -/
theorem closing_unseen {request : Op} (h : Unseen request = true) :
    Ensures (L := Owner) (monitor .owner) Closing (liftM (operate request)) fun w _ => Closing w :=
  ((learns_ignored (ignored_op h)).closing).mono fun _ _ h => h.1

theorem calm_unseen {request : Op} (h : Unseen request = true) :
    Ensures (L := Owner) (monitor .owner) Calm (liftM (operate request)) fun w _ => Calm w :=
  ((learns_ignored (ignored_op h)).calm).mono fun _ _ h => h.1

/-- The owner has taken the guest off and may declare the end of the production. -/
def Offline (w : Watch) : Prop := Closing w ∧ w.offline = true

theorem watched_takeOff {w : Watch} (h : Closing w) :
    ∃ w', observeAttached .owner w false = some w' ∧ Offline w' := by
  refine ⟨_, if_pos ⟨rfl, h.1.attaching⟩, ⟨⟨?_, rfl⟩, h.2⟩, rfl⟩
  exact .refl h.1.self.idle h.1.self.ended

theorem ensures_producerDone : Ensures (L := Owner) (monitor .owner) Offline
    (liftM (store .producerDone true)) fun w _ => Closing w := by
  refine ensures_lift fun w h => watched_op_iff.mpr fun _ _ => ?_
  refine ⟨w, observe_alive h.1.1.self.ended (if_pos ?_), watched_done_iff.mpr h.1⟩
  simp [h.1.2, h.2, h.1.1.attaching]

theorem ensures_ownerDetachFailure :
    Ensures (monitor .owner) Closing ownerDetachFailure fun w _ => Calm w := by
  refine Ensures.bind (Q := fun w _ => Offline w) (ensures_lift fun w h => ?_) fun attached => ?_
  · refine watched_op_iff.mpr fun _ _ => ?_
    obtain ⟨w', hobserve, hoffline⟩ := watched_takeOff h
    exact ⟨w', observe_alive h.1.self.ended hobserve, watched_done_iff.mpr hoffline⟩
  refine Ensures.bind (Q := fun w _ => Offline w) ?_ fun _ => ?_
  · exact ensures_ite (fun _ => ensures_modify fun _ h => h) fun _ => ensures_pure fun _ h => h
  refine Ensures.bind ensures_producerDone fun _ => ?_
  exact Ensures.bind (closing_unseen rfl) fun _ => ensures_pure fun _ h => h.1

theorem ensures_fatal {category : FailureCategory} (hcategory : category ≠ .none)
    {origin : FailureOrigin} {subcode : UInt32} : Ensures (monitor .owner) Calm
      (discard (liftM (firstFatal category origin subcode) : OwnerCode Bool))
        fun w _ => Closing w :=
  (learns_fatal hcategory).calm.mono fun _ _ h => ⟨h.1, h.2.1⟩

theorem ensures_failAndDetach {category : FailureCategory} (hcategory : category ≠ .none)
    (origin : FailureOrigin) (subcode : UInt32) : Ensures (monitor .owner) Calm
      (failAndDetach category origin subcode) fun w _ => Calm w :=
  Ensures.bind (ensures_fatal hcategory) fun _ => ensures_ownerDetachFailure

theorem ensures_attachGuest :
    Ensures (monitor .owner) Calm attachGuest fun w _ => Calm w := by
  have hload : Learns (L := Owner) .owner Always (liftM (load .state)) (Reads .owner) :=
    learns_lift learnsCode_loadState
  refine Ensures.bind (hload.calm.mono fun _ _ h => h.1) fun state => ?_
  refine ensures_ite (fun _ => ensures_calm_pure) fun _ => ?_
  refine Ensures.bind (calm_unseen rfl) fun _ => ?_
  refine Ensures.bind (Q := fun w attached => Extends w w ∧ w.attaching = attached)
    (ensures_lift fun w h => ?_) fun attached => ?_
  · refine watched_op_iff.mpr fun attached _ => ?_
    refine ⟨_, observe_alive h.self.ended (if_neg (by simp [h.attaching])), ?_⟩
    exact watched_done_iff.mpr ⟨.refl h.self.idle h.self.ended, rfl⟩
  refine ensures_ite (fun hattached => ?_) fun hattached => ?_
  · refine Ensures.bind (Q := fun w _ => Extends w w ∧ w.attaching = true)
      (ensures_modify fun _ h => ⟨h.1, h.2.trans hattached⟩) fun _ => ?_
    refine Ensures.bind (Q := fun w _ => Calm w) (ensures_lift fun w h => ?_) fun _ => ?_
    · refine watched_op_iff.mpr fun _ _ => ?_
      refine ⟨_, observe_alive h.1.ended (if_pos ⟨rfl, h.2⟩), ?_⟩
      exact watched_done_iff.mpr ⟨.refl h.1.idle h.1.ended, rfl⟩
    refine ensures_get_bind fun o => ensures_ite (fun _ => ?_) fun _ => ?_
    · exact ensures_failAndDetach (by simp) _ _
    · exact Ensures.bind (calm_unseen rfl) fun _ => ensures_calm_pure
  · refine ensures_before (P := Calm) ?_ fun w h => ⟨h.1, h.2.trans (by simpa using hattached)⟩
    exact Ensures.bind (calm_unseen rfl) fun _ => ensures_calm_pure

theorem ensures_finalizeFailure {category : FailureCategory} (hcategory : category ≠ .none)
    (subcode : UInt32) :
    Ensures (monitor .owner) Closing (finalizeFailure category subcode) fun w _ => Calm w := by
  refine ensures_before (P := Calm) ?_ fun w h => h.1
  refine Ensures.bind (ensures_fatal hcategory) fun _ => ?_
  exact Ensures.bind (closing_unseen rfl) fun _ => ensures_ownerDetachFailure

/-- The last frame is published, or the owner has detached. -/
def Finalized (w : Watch) : Option LiveResult → Prop
  | none => Closing w
  | some _ => Calm w

theorem ensures_finalizeRound (frame : UInt64) : Ensures (monitor .owner) Closing
    (finalizeRound frame) (RoundPost (fun w _ => Closing w) Finalized) := by
  have hload : Learns (L := Owner) .owner Always (liftM (load .firstErrorLatched)) Ever :=
    (learns_lift learnsCode_loadLatched).mono (fun _ h => h) fun _ _ _ => trivial
  refine Ensures.bind hload.closing fun latched => ?_
  refine ensures_before (P := Closing) ?_ fun w h => h.1
  refine ensures_ite (fun _ => ?_) fun _ => ?_
  · refine Ensures.bind (closing_unseen rfl) fun _ => ?_
    exact Ensures.bind ensures_ownerDetachFailure fun _ => ensures_pure fun _ h => h
  have hpublish : Learns .owner Always (sink (producerPublish frame)) Ever :=
    fun o => LearnsCode.bind (learns_producerPublish frame o.transaction) fun _ =>
      learnsCode_pure fun _ _ => trivial
  refine Ensures.bind hpublish.closing fun status => ?_
  refine ensures_before (P := Closing) ?_ fun w h => h.1
  cases status with
  | ok => exact ensures_pure fun _ h => h
  | retry =>
      refine Ensures.bind (closing_unseen rfl) fun _ => ?_
      exact Ensures.bind (closing_unseen rfl) fun _ => ensures_pure fun _ h => h
  | nonmonotonic =>
      exact Ensures.bind (ensures_finalizeFailure (by simp) _) fun _ => ensures_pure fun _ h => h

theorem ensures_finalizePublished (frame : UInt64) :
    Ensures (monitor .owner) Closing (finalizePublished frame) fun w _ => Calm w := by
  have hpublish : Learns (L := Owner) .owner Always (liftM (finalHorizonPublish frame)) Ever :=
    learns_ignored (ignored_finalHorizonPublish frame)
  refine Ensures.bind (hpublish.closing.mono fun _ _ h => h.1) fun _ => ?_
  refine Ensures.bind (Q := fun w _ => Closing w) (ensures_modify fun _ h => h) fun _ => ?_
  refine Ensures.bind (Q := fun w _ => Offline w) (ensures_lift fun w h => ?_) fun _ => ?_
  · refine watched_op_iff.mpr fun _ _ => ?_
    obtain ⟨w', hobserve, hoffline⟩ := watched_takeOff h
    exact ⟨w', observe_alive h.1.self.ended hobserve, watched_done_iff.mpr hoffline⟩
  refine Ensures.bind ensures_producerDone fun _ => ?_
  refine Ensures.bind (closing_unseen rfl) fun _ => ?_
  refine Ensures.bind (Q := fun w _ => Closing w) (ensures_lift fun w h => ?_) fun _ => ?_
  · exact watched_op_iff.mpr fun _ _ =>
      ⟨w, observe_alive h.1.self.ended rfl, watched_done_iff.mpr h⟩
  refine ensures_ite (fun _ => ?_) fun _ => ?_
  · exact Ensures.bind (closing_unseen rfl) fun _ => ensures_pure fun _ h => h.1
  · exact Ensures.bind (closing_unseen rfl) fun _ => ensures_pure fun _ h => h.1

theorem closing_guest (program : Guest α) :
    Ensures (monitor .owner) Closing (guest program) fun w _ => Closing w :=
  (learns_guest program).closing.mono fun _ _ h => h.1

theorem ensures_ownerFinalizeClean :
    Ensures (monitor .owner) Closing ownerFinalizeClean fun w _ => Calm w := by
  refine Ensures.bind (closing_unseen rfl) fun _ => Ensures.bind (closing_unseen rfl) fun _ => ?_
  refine ensures_get_bind fun o => ensures_ite (fun _ => ensures_finalizeFailure (by simp) _) ?_
  intro _
  refine Ensures.bind (closing_guest _) fun _ => Ensures.bind (closing_guest _) fun _ => ?_
  refine ensures_get_bind fun o => ensures_ite (fun _ => ensures_finalizeFailure (by simp) _) ?_
  intro _
  refine ensures_get_bind fun o => Ensures.bind (ensures_iterating (fun w _ => Closing w)
    (fun _ h => h) fun _ => ensures_finalizeRound _) fun result => ?_
  cases result with
  | some result => exact ensures_pure fun _ h => h
  | none => exact ensures_finalizePublished _

theorem ensures_checkpointRound : Ensures (monitor .owner) Calm checkpointRound
    (RoundPost (fun w _ => Calm w) fun w _ => Calm w) := by
  have hload : Learns (L := Owner) .owner Always (liftM (load .state)) (Reads .owner) :=
    learns_lift learnsCode_loadState
  have hfail : Ensures (monitor .owner) Calm
      (do return .inr (← failAndDetach .producer .checkpoint subcodeGuestContract) :
        OwnerCode (Unit ⊕ LiveResult))
      (RoundPost (fun w _ => Calm w) fun w _ => Calm w) :=
    Ensures.bind (ensures_failAndDetach (by simp) _ _) fun _ => ensures_pure fun _ h => h
  refine Ensures.bind hload.calm fun state => ensures_ite (fun hfailing => ?_) fun _ => ?_
  · refine ensures_before (P := Closing) ?_ fun w h => ⟨h.1, h.2.late (by rw [hfailing]; rfl)⟩
    exact Ensures.bind ensures_ownerDetachFailure fun _ => ensures_pure fun _ h => h
  refine ensures_ite (fun hstop => ?_) fun _ => ?_
  · refine ensures_before (P := Closing) ?_ fun w h => ⟨h.1, h.2.late (by rw [hstop]; rfl)⟩
    exact Ensures.bind ensures_ownerFinalizeClean fun _ => ensures_pure fun _ h => h
  refine ensures_before (P := Calm) ?_ fun w h => h.1
  refine ensures_ite (fun _ => ensures_pure fun _ h => h) fun _ => ?_
  refine Ensures.bind ((learns_guest _).calm) fun check => ?_
  refine ensures_before (P := Calm) ?_ fun w h => h.1
  cases check with
  | ok => exact ensures_pure fun _ h => h
  | retry => exact Ensures.bind (calm_unseen rfl) fun _ => ensures_pure fun _ h => h
  | terminated =>
      refine Ensures.bind hload.calm fun state => ?_
      refine ensures_before (P := Calm) ?_ fun w h => h.1
      exact ensures_ite (fun _ => ensures_pure fun _ h => h) fun _ => hfail
  | contract => exact hfail

theorem ensures_ownerCheckpoint :
    Ensures (monitor .owner) Calm ownerCheckpoint fun w _ => Calm w := by
  refine Ensures.bind (calm_unseen rfl) fun valid => ensures_ite (fun _ => ?_) fun _ => ?_
  · exact ensures_iterating (fun w _ => Calm w) (fun _ h => h) fun _ => ensures_checkpointRound
  · exact ensures_calm_pure

theorem ensures_reportProducerFailure (subcode : UInt32) :
    Ensures (monitor .owner) Calm (reportProducerFailure subcode) fun w _ => Calm w := by
  have hload : Learns (L := Owner) .owner Always (liftM (load .state)) (Reads .owner) :=
    learns_lift learnsCode_loadState
  refine ensures_ite (fun _ => ensures_calm_pure) fun _ => ?_
  refine Ensures.bind (hload.calm.mono fun _ _ h => h.1) fun state => ?_
  refine ensures_ite (fun _ => ensures_calm_pure) fun _ => ?_
  refine Ensures.bind (calm_unseen rfl) fun valid => ensures_ite (fun _ => ensures_calm_pure) ?_
  intro _
  have hfatal : Learns (L := Owner) .owner Always
      (liftM (firstFatal .producer .checkpoint subcode)) fun w _ => Ailing .owner w :=
    learns_lift (learnsCode_firstFatal.mono (fun _ h => h) fun _ _ h => h (by simp))
  refine Ensures.bind hfatal.calm fun latched => ensures_ite (fun _ => ?_) fun _ => ?_
  · exact ensures_before ensures_ownerDetachFailure fun w h => ⟨h.1, h.2.1⟩
  · exact ensures_pure fun _ h => h.1

theorem ensures_ownerRun (actions : List OwnerAction) :
    Ensures (monitor .owner) Calm (ownerRun actions) fun w _ => Calm w := by
  induction actions with
  | nil => exact ensures_calm_pure
  | cons action rest ih =>
      refine Ensures.bind (Q := fun w _ => Calm w) ?_ fun _ => ih
      cases action with
      | attachGuest => exact Ensures.bind ensures_attachGuest fun _ => calm_unseen rfl
      | operation step => exact (learns_guest _).calm.mono fun _ _ h => h.1
      | ownerCheckpoint =>
          refine ensures_get_bind fun o => Ensures.bind (calm_unseen rfl) fun _ => ?_
          exact Ensures.bind ensures_ownerCheckpoint fun _ => calm_unseen rfl
      | reportProducerFailure subcode =>
          exact Ensures.bind (ensures_reportProducerFailure subcode) fun _ => calm_unseen rfl

end Owner

section Control

variable {α : Type} {index : Nat} {w : Watch}

/-- A control thread is between two operations of its own. -/
abbrev Settled (w : Watch) : Prop := Extends w w

theorem LearnsCode.settled {program : Code α} {post : Watch → α → Prop}
    (h : LearnsCode (.control index) Always program post) (hw : Settled w) :
    Watched (monitor (.control index)) (fun w value => Settled w ∧ post w value) program w :=
  (h w hw trivial).mono fun _ _ hresult => ⟨hresult.1.self, hresult.2⟩

theorem watched_stopUnattached (hw : Settled w) (hunattached : w.unattached = true) :
    Watched (monitor (.control index)) (fun w _ => Settled w) stopUnattached w := by
  refine watched_op_iff.mpr fun _ _ => ⟨w, observe_unseen hw.ended rfl, ?_⟩
  change Watched _ _ ((finalHorizonPublish 0).bind _) w
  refine Watched.bind ((ignored_finalHorizonPublish 0 (.control index) Always w hw trivial).mono ?_)
  rintro w₁ _ ⟨h₁, -⟩
  refine watched_op_iff.mpr fun _ _ => ⟨w₁, observe_alive h₁.ended (if_pos ?_), ?_⟩
  · simp [h₁.unattached, hunattached]
  refine watched_op_iff.mpr fun _ _ => ⟨w₁, observe_alive h₁.ended rfl, ?_⟩
  exact watched_done_iff.mpr h₁.self

theorem watched_stopAccepted (hw : Settled w) {state : LiveState}
    (hstate : state = .startedUnattached → w.unattached = true) :
    Watched (monitor (.control index)) (fun w _ => Settled w) (stopAccepted state) w := by
  refine watched_op_iff.mpr fun _ _ => ⟨w, observe_unseen hw.ended rfl, ?_⟩
  refine watched_op_iff.mpr fun _ _ => ⟨w, observe_unseen hw.ended rfl, ?_⟩
  refine watched_op_iff.mpr fun _ _ => ⟨w, observe_unseen hw.ended rfl, ?_⟩
  change Watched _ _ (if state = .startedUnattached then stopUnattached else pure ()) w
  split
  · exact watched_stopUnattached hw (hstate ‹_›)
  · exact watched_done_iff.mpr hw

theorem watched_requestStopRound (hw : Settled w) : Watched (monitor (.control index))
    (RoundPost (fun w _ => Settled w) fun w _ => Settled w) requestStopRound w := by
  have hload : LearnsCode (.control index) Always (load .state) Ever :=
    learnsCode_loadState.mono (fun _ h => h) fun _ _ _ => trivial
  refine Watched.bind ((hload.settled hw).mono ?_)
  rintro w₁ state ⟨h₁, -⟩
  split
  · exact watched_done_iff.mpr h₁
  split
  · exact watched_done_iff.mpr h₁
  rename_i hstate
  have hstoppable : state = .startedUnattached ∨ state = .running := by
    by_contra hneither
    exact hstate (not_or.mp hneither)
  refine watched_op_iff.mpr fun accepted _ => ?_
  refine ⟨_, observe_alive h₁.ended (if_pos hstoppable), ?_⟩
  cases accepted with
  | false => exact watched_done_iff.mpr h₁
  | true =>
      change Watched _ _ ((stopAccepted state).bind _) _
      refine Watched.bind ((watched_stopAccepted ?_ ?_).mono ?_)
      · exact .refl h₁.idle h₁.ended
      · rintro rfl
        simp
      · intro w₂ _ h₂
        refine watched_op_iff.mpr fun _ _ => ⟨w₂, observe_unseen h₂.ended rfl, ?_⟩
        exact watched_done_iff.mpr h₂

/-- The result of the checks agrees with what they have read. -/
def Checked (w : Watch) (result : LiveResult) : Prop :=
  Settled w ∧ (result = .ok → w.quiescent = true) ∧
    (result = .notQuiescent → w.disturbed = true)

theorem watched_destroyCheck (hw : Settled w) :
    Watched (monitor (.control index)) Checked destroyCheck w := by
  have hload : LearnsCode (.control index) Always (load .state) (Reads (.control index)) :=
    learnsCode_loadState
  refine Watched.bind ((hload.settled hw).mono ?_)
  rintro w₁ state ⟨h₁, hreads⟩
  split
  · exact watched_done_iff.mpr ⟨h₁, by simp, by simp⟩
  rename_i hstate
  have hquiescent : w₁.quiescent = true := by
    refine hreads.quiescent ?_
    simp only [not_and_or, not_not] at hstate
    rcases hstate with rfl | rfl <;> rfl
  refine watched_op_iff.mpr fun safe _ => ⟨_, observe_alive h₁.ended rfl, ?_⟩
  cases safe with
  | false => exact watched_done_iff.mpr ⟨.refl h₁.idle h₁.ended, by simp, by simp [hquiescent]⟩
  | true =>
      refine watched_op_iff.mpr fun attached _ => ⟨_, observe_alive h₁.ended rfl, ?_⟩
      cases attached with
      | true => exact watched_done_iff.mpr ⟨.refl h₁.idle h₁.ended, by simp, by simp [hquiescent]⟩
      | false =>
          refine watched_op_iff.mpr fun reachable _ => ⟨_, observe_alive h₁.ended rfl, ?_⟩
          cases reachable with
          | true =>
              exact watched_done_iff.mpr ⟨.refl h₁.idle h₁.ended, by simp, by simp [hquiescent]⟩
          | false =>
              exact watched_done_iff.mpr ⟨.refl h₁.idle h₁.ended, by simp [hquiescent], by simp⟩

theorem watched_destroy (hw : Settled w) : Watched (monitor (.control index))
    (fun w _ => Settled w) (ControlAction.code .destroy) w := by
  have hnote : ∀ w result, Settled w → (result = .notQuiescent → w.disturbed = true) →
      Watched (monitor (.control index)) (fun w _ => Settled w) (note (.destroy result)) w := by
    intro w result hsettled hdisturbed
    refine watched_op_iff.mpr fun _ _ => ⟨w, observe_alive hsettled.ended (if_neg ?_), ?_⟩
    · rintro ⟨hresult, hcalm⟩
      simp [hdisturbed hresult] at hcalm
    · exact watched_done_iff.mpr hsettled
  refine Watched.bind (Watched.bind ((watched_destroyCheck hw).mono ?_))
  rintro w₁ result ⟨h₁, hok, hdisturbed⟩
  split
  · rename_i hresult
    refine watched_op_iff.mpr fun _ _ => ⟨w₁, observe_alive h₁.ended (if_pos (hok hresult)), ?_⟩
    refine watched_op_iff.mpr fun _ _ => ⟨w₁, observe_alive h₁.ended (if_pos (hok hresult)), ?_⟩
    exact watched_done_iff.mpr (hnote w₁ .ok h₁ (by simp))
  · exact watched_done_iff.mpr (hnote w₁ result h₁ hdisturbed)

theorem watched_controlRun (actions : List ControlAction) (hw : Settled w) :
    Watched (monitor (.control index)) (fun w _ => Settled w) (controlRun actions) w := by
  induction actions generalizing w with
  | nil => exact watched_done_iff.mpr hw
  | cons action rest ih =>
      refine Watched.bind (Watched.mono (Q := fun w _ => Settled w) ?_ fun w _ h => ih h)
      cases action with
      | requestStop =>
          refine Watched.bind ((watched_iterate (fun w _ => Settled w) hw
            fun w _ h => watched_requestStopRound h).mono ?_)
          intro w₁ result h₁
          exact watched_op_iff.mpr fun _ _ =>
            ⟨w₁, observe_unseen h₁.ended rfl, watched_done_iff.mpr h₁⟩
      | testFail category origin subcode =>
          refine Watched.bind ((learnsCode_firstFatal.settled hw).mono ?_)
          exact fun _ _ h => watched_done_iff.mpr h.1
      | destroy => exact watched_destroy hw

end Control

section Worker

variable {α : Type} {pre : Watch → Prop}

theorem learns_translateResult (accepted : OutputState) (result : SinkResult) :
    Learns .worker pre (translateResult accepted result) Ever := by
  cases result with
  | retry => exact learns_pure fun _ _ => trivial
  | fatal => exact Learns.bind learns_unit fun _ => learns_pure fun _ _ => trivial
  | accepted => exact Learns.bind learns_unit fun _ => learns_pure fun _ _ => trivial

theorem learns_outputStart : Learns .worker pre outputStart Ever := by
  refine learns_get_bind fun w => learns_ite (fun _ => learns_pure fun _ _ => trivial) fun _ => ?_
  exact Learns.bind (learns_ignored (ignored_op rfl)) fun _ => learns_translateResult _ _

theorem learns_outputFinish : Learns .worker pre outputFinish Ever := by
  refine learns_get_bind fun w => learns_ite (fun _ => learns_pure fun _ _ => trivial) fun _ => ?_
  refine learns_ite (fun _ => learns_pure fun _ _ => trivial) fun _ => ?_
  exact Learns.bind (learns_ignored (ignored_op rfl)) fun _ => learns_translateResult _ _

theorem learns_outputAbort : Learns .worker pre outputAbort Ever := by
  refine learns_get_bind fun w => learns_ite (fun _ => learns_pure fun _ _ => trivial) fun _ => ?_
  exact Learns.bind (learns_ignored (ignored_op rfl)) fun _ => learns_translateResult _ _

theorem learns_acceptSlot (slot : SinkView) (rest : List SinkView) :
    Learns .worker pre (acceptSlot slot rest) Ever := by
  refine learns_get_bind fun w => learns_ite (fun _ => ?_) fun _ => ?_
  · exact Learns.bind learns_unit fun _ => learns_pure fun _ _ => trivial
  · exact Learns.bind learns_unit fun _ => learns_pure fun _ _ => trivial

theorem learns_outputStep : Learns .worker pre outputStep Ever := by
  refine learns_get_bind fun w => learns_ite (fun _ => learns_pure fun _ _ => trivial) fun _ => ?_
  refine learns_ite (fun _ => learns_pure fun _ _ => trivial) fun _ => ?_
  split
  · exact learns_pure fun _ _ => trivial
  refine learns_ite (fun _ => learns_pure fun _ _ => trivial) fun _ => ?_
  refine Learns.bind (learns_ignored (ignored_op rfl)) fun result => ?_
  cases result with
  | fatal => exact Learns.bind learns_unit fun _ => learns_pure fun _ _ => trivial
  | retry => exact learns_pure fun _ _ => trivial
  | accepted => exact learns_acceptSlot _ _

/-- A worker that gives up knows that `first_fatal` has won. -/
def Excused (w : Watch) (ok : Bool) : Prop := ok = false → w.known = true

theorem learns_giveUp {category : FailureCategory} (hcategory : category ≠ .none)
    {origin : FailureOrigin} {subcode : UInt32} {value : α} {post : Watch → α → Prop}
    (h : ∀ w, w.known = true → post w value) : Learns (L := Worker) .worker pre (do
      discard (liftM (firstFatal category origin subcode) : WorkerCode Bool)
      return value) post :=
  Learns.bind (learns_fatal hcategory) fun _ => learns_pure fun w hailing => h w (hailing.2 rfl)

theorem learns_drainOutput :
    Learns .worker pre drainOutput fun w drained => Excused w drained.ok := by
  refine learns_iterating fun _ => Learns.bind (learns_lift learnsCode_loadState) fun state => ?_
  refine learns_ite (fun hfailing => learns_pure fun w hreads _ => hreads.known hfailing)
    fun _ => ?_
  refine Learns.bind (learns_lift learnsCode_loadLatched) fun latched => ?_
  refine learns_ite (fun hlatched => learns_pure fun w h _ => (h hlatched).2) fun _ => ?_
  refine Learns.bind learns_outputStep fun status => ?_
  cases status with
  | consumed => exact learns_pure fun _ _ => trivial
  | empty => exact learns_pure fun _ _ h => absurd h (by simp)
  | retry => exact learns_pure fun _ _ h => absurd h (by simp)
  | ok | fatal | stateError | slotError | ringError =>
      exact learns_giveUp (by simp) fun w hknown _ => hknown

theorem learns_waitForSpace (retry : Bool) : Learns .worker pre (waitForSpace retry) Ever :=
  learns_get_bind fun _ => learns_ite (fun _ => learns_ignored (ignored_op rfl)) fun _ =>
    learns_pure fun _ _ => trivial

theorem learns_appendStatus (appended : Nat) (retry : Bool) (status : RingStatus) :
    Learns .worker pre (appendStatus appended retry status) (RoundFact Excused) := by
  cases status with
  | ok => exact learns_pure fun _ _ => trivial
  | full =>
      refine Learns.bind (learns_waitForSpace _) fun _ => ?_
      refine Learns.bind (learns_lift learnsCode_loadLatched) fun latched => ?_
      refine learns_ite (fun hlatched => learns_pure fun w h _ => (h hlatched).2) fun _ => ?_
      exact learns_pure fun _ _ => trivial
  | empty | argument | offset | finalized | invariant =>
      exact learns_giveUp (by simp) fun w hknown _ => hknown

theorem learns_appendPcm (pcm : List UInt8) (frames : Nat) (frameOffset : UInt64) :
    Learns .worker pre (appendPcm pcm frames frameOffset) Excused := by
  refine learns_iterating fun appended => ?_
  refine learns_ite (fun _ => learns_pure fun _ _ h => absurd h (by simp)) fun _ => ?_
  refine learns_get_bind fun w => Learns.bind learns_set fun _ => ?_
  refine Learns.bind learns_drainOutput fun drained => ?_
  refine learns_ite (fun _ => ?_) fun hfailed => learns_pure fun w h _ => h (by simpa using hfailed)
  exact learns_appendStatus _ _ _

theorem learns_renderFailure (subcode : UInt32) :
    Learns .worker pre (renderFailure subcode) fun w _ => w.known = true := by
  refine Learns.bind (learns_lift learnsCode_loadLatched) fun latched => ?_
  refine learns_ite (fun _ => ?_) fun hlatched => ?_
  · exact (learns_fatal (by simp)).mono (fun _ h => h) fun w _ hailing => hailing.2 rfl
  · exact learns_pure fun w h => (h (by simpa using hlatched)).2

theorem learns_renderRound (target : UInt64) :
    Learns .worker pre (renderRound target) (RoundFact Excused) := by
  refine learns_get_bind fun w => learns_ite (fun _ => ?_) fun _ =>
    learns_pure fun _ _ h => absurd h (by simp)
  refine Learns.bind (learns_lift learnsCode_loadLatched) fun latched => ?_
  refine learns_ite (fun hlatched => learns_pure fun w h _ => (h hlatched).2) fun _ => ?_
  refine Learns.bind (learns_ignored (ignored_op rfl)) fun rendered => ?_
  cases rendered with
  | none =>
      exact Learns.bind (learns_renderFailure _) fun _ => learns_pure fun _ hknown _ => hknown
  | some pcm =>
      refine learns_get_bind fun w => Learns.bind (learns_appendPcm _ _ _) fun ok => ?_
      refine learns_ite (fun _ => ?_) fun hfailed => learns_pure fun w h _ =>
        h (by simpa using hfailed)
      exact Learns.bind learns_unit fun _ => learns_pure fun _ _ => trivial

theorem learns_renderUntil (target : UInt64) : Learns .worker pre (renderUntil target) Ever :=
  learns_get_bind fun _ => learns_ite (fun _ => learns_pure fun _ _ => trivial) fun _ =>
    (learns_iterating fun _ => learns_renderRound target).mono (fun _ h => h) fun _ _ _ => trivial

/-- The worker renders on only from a frame that it has reached. -/
theorem learns_renderOn {target : UInt64} {w : Worker} (h : w.renderedFrame < target) :
    LearnsCode .worker pre (renderUntil target w) fun w result => Excused w result.1 := by
  have hloop : renderUntil target w = iterating (fun _ => renderRound target) () w := by
    change (if target < w.renderedFrame then pure false
      else iterating (fun _ => renderRound target) () : WorkerCode Bool) w = _
    rw [if_neg (by
      intro hbefore
      exact absurd (UInt64.lt_trans h hbefore) (UInt64.lt_irrefl _))]
  rw [hloop]
  exact learns_iterating (fun _ => learns_renderRound target) w

theorem learns_performEvent (event : Event) : Learns .worker pre (performEvent event) Ever := by
  have hcontrol : ∀ kind opcode, Learns .worker pre (applyControl event kind opcode) Ever :=
    fun _ _ => Learns.bind (learns_ignored (ignored_op rfl)) fun _ => learns_pure fun _ _ => trivial
  refine learns_ite (fun _ => ?_) fun _ => ?_
  · refine learns_ite (fun _ => learns_pure fun _ _ => trivial) fun _ => ?_
    refine Learns.bind (learns_ignored (ignored_byteRingPop _)) fun popped => ?_
    cases popped with
    | error status => exact learns_pure fun _ _ => trivial
    | ok bytes =>
        refine learns_get_bind fun w => Learns.bind learns_unit fun _ => ?_
        exact Learns.bind (learns_ignored (ignored_op rfl)) fun _ => learns_pure fun _ _ => trivial
  refine learns_ite (fun _ => hcontrol _ _) fun _ => learns_ite (fun _ => hcontrol _ _) fun _ => ?_
  refine learns_ite (fun _ => hcontrol _ _) fun _ => learns_ite (fun _ => ?_) fun _ =>
    learns_pure fun _ _ => trivial
  refine learns_ite (fun _ => learns_pure fun _ _ => trivial) fun _ => ?_
  exact Learns.bind (learns_ignored (ignored_op rfl)) fun _ => learns_pure fun _ _ => trivial

theorem learns_consumeEvent (event : Event) (bytes : List UInt8) :
    Learns .worker pre (consumeEvent event bytes) Ever := by
  refine learns_get_bind fun w => Learns.bind (learns_ignored (ignored_op rfl)) fun _ => ?_
  refine Learns.bind (learns_ignored ignored_eventRingConsume) fun status => ?_
  refine learns_ite (fun _ => ?_) fun _ => learns_pure fun _ _ => trivial
  refine Learns.bind learns_unit fun _ => Learns.bind (Q := Ever) ?_ fun _ => ?_
  · exact learns_ite (fun _ => learns_ignored (ignored_op rfl)) fun _ => learns_pure
      fun _ _ => trivial
  · exact Learns.bind (learns_ignored (ignored_op rfl)) fun _ => learns_pure fun _ _ => trivial

theorem learns_applyEvent (event : Event) : Learns .worker pre (applyEvent event) Ever := by
  refine learns_get_bind fun w => learns_ite (fun _ => learns_pure fun _ _ => trivial) fun _ => ?_
  refine Learns.bind (learns_renderUntil _) fun rendered => ?_
  refine learns_ite (fun _ => ?_) fun _ => learns_pure fun _ _ => trivial
  refine Learns.bind (learns_performEvent event) fun applied => ?_
  cases applied with
  | none => exact learns_pure fun _ _ => trivial
  | some bytes => exact learns_consumeEvent event bytes

theorem learns_closeStatus (status : RingStatus) :
    Learns .worker pre (closeStatus status) (RoundFact Excused) := by
  cases status with
  | ok => exact learns_pure fun _ _ h => absurd h (by simp)
  | full =>
      refine Learns.bind learns_drainOutput fun drained => learns_ite (fun _ => ?_)
        fun hfailed => ?_
      · exact Learns.bind (learns_waitForSpace _) fun _ => learns_pure fun _ _ => trivial
      · exact learns_pure fun w h _ => h (by simpa using hfailed)
  | empty | argument | offset | finalized | invariant =>
      exact learns_giveUp (by simp) fun w hknown _ => hknown

theorem learns_closePcmRing : Learns .worker pre closePcmRing Excused :=
  learns_iterating fun _ => learns_get_bind fun _ => Learns.bind learns_set fun _ =>
    learns_closeStatus _

theorem learns_finishOutput : Learns .worker pre finishOutput Excused := by
  refine learns_iterating fun _ => Learns.bind learns_drainOutput fun drained => ?_
  refine learns_ite (fun hfailed => learns_pure fun w h _ => h hfailed) fun _ => ?_
  refine learns_ite (fun _ => ?_) fun _ => ?_
  · exact Learns.bind (learns_ignored (ignored_op rfl)) fun _ => learns_pure fun _ _ => trivial
  refine Learns.bind learns_outputFinish fun status => ?_
  cases status with
  | ok => exact learns_pure fun _ _ h => absurd h (by simp)
  | retry =>
      refine Learns.bind (learns_lift learnsCode_loadLatched) fun latched => ?_
      refine learns_ite (fun hlatched => learns_pure fun w h _ => (h hlatched).2) fun _ => ?_
      exact Learns.bind (learns_ignored (ignored_op rfl)) fun _ => learns_pure fun _ _ => trivial
  | consumed | empty | fatal | stateError | slotError | ringError =>
      exact learns_giveUp (by simp) fun w hknown _ => hknown

theorem learns_abortOutputBarrier : Learns .worker pre abortOutputBarrier Ever := by
  refine learns_get_bind fun w => learns_ite (fun _ => learns_pure fun _ _ => trivial) fun _ => ?_
  refine learns_iterating fun _ => Learns.bind learns_outputAbort fun status => ?_
  split
  · exact learns_pure fun _ _ => trivial
  · exact Learns.bind (learns_ignored (ignored_op rfl)) fun _ => learns_pure fun _ _ => trivial
  · exact learns_pure fun _ _ => trivial

theorem learns_workerStart : Learns .worker pre workerStart Ever := by
  refine Learns.bind (Q := Ever) (learns_iterating fun _ => ?_) fun status => ?_
  · refine Learns.bind learns_outputStart fun status => learns_ite (fun _ => ?_) fun _ => ?_
    · refine Learns.bind (learns_ignored (ignored_op rfl)) fun _ => ?_
      refine Learns.bind (learns_lift learnsCode_loadLatched) fun latched => ?_
      exact learns_ite (fun _ => learns_pure fun _ _ => trivial) fun _ => learns_pure
        fun _ _ => trivial
    · exact learns_pure fun _ _ => trivial
  refine learns_ite (fun _ => ?_) fun _ => ?_
  · exact (learns_fatal (by simp)).mono (fun _ h => h) fun _ _ _ => trivial
  refine Learns.bind (Q := Ever) (learns_lift (learnsCode_op fun w _ hself _ _ => ?_)) fun _ => ?_
  · exact ⟨w, observe_alive hself.ended rfl, hself, trivial⟩
  · exact learns_ite (fun _ => learns_ignored (ignored_op rfl)) fun _ => learns_pure
      fun _ _ => trivial

theorem Learns.settled {L : Type} {program : StateT L Code α} {post : Watch → α → Prop}
    (h : Learns .worker Always program post) :
    Ensures (monitor .worker) Settled program fun w value => Settled w ∧ post w value :=
  fun w fields hsettled => (h fields w hsettled trivial).mono
    fun _ _ hresult => ⟨hresult.1.self, hresult.2⟩

/-- The worker has seen that the producer is done. -/
def Ending (w : Watch) : Prop := Settled w ∧ w.done = true

theorem Learns.ending {program : WorkerCode α} {post : Watch → α → Prop}
    (h : Learns .worker Always program post) :
    Ensures (monitor .worker) Ending program fun w value => Ending w ∧ post w value :=
  fun w fields hending => (h fields w hending.1 trivial).mono
    fun _ _ hresult => ⟨⟨hresult.1.self, hresult.1.done hending.2⟩, hresult.2⟩

/-- What the worker knows when its main loop ends. -/
def Exits (w : Watch) : Exit → Prop
  | .failed => Settled w ∧ w.known = true
  | .barrier => Settled w ∧ w.missed = true ∧ w.released = true
  | .stopped => w.ended = true

theorem ensures_cleanEnd : Ensures (monitor .worker) Ending cleanEnd Exits := by
  rintro w fields ⟨hsettled, hdone⟩
  refine watched_op_iff.mpr fun _ _ => ⟨{ w with released := true }, ?_, ?_⟩
  · exact observe_alive hsettled.ended rfl
  refine watched_op_iff.mpr fun _ _ => ⟨{ w with released := true }, ?_, ?_⟩
  · exact observe_unseen hsettled.ended rfl
  refine watched_op_iff.mpr fun _ _ => ⟨{ w with released := true, safe := true }, ?_, ?_⟩
  · exact observe_alive (w := { w with released := true }) hsettled.ended rfl
  refine watched_op_iff.mpr fun published _ => ?_
  refine ⟨_, observe_alive (w := { w with released := true, safe := true }) hsettled.ended
    (if_pos (by simp [hdone])), ?_⟩
  cases published with
  | true => exact watched_done_iff.mpr rfl
  | false =>
      refine watched_op_iff.mpr fun _ _ => ?_
      refine ⟨_, observe_alive (w := { w with released := true, safe := true, missed := true })
        hsettled.ended rfl, ?_⟩
      exact watched_done_iff.mpr ⟨.refl hsettled.idle hsettled.ended, rfl, rfl⟩

/-- A failure ends the main loop. -/
theorem ensures_failed {P : Watch → Prop} (h : ∀ w, P w → Settled w ∧ w.known = true) :
    Ensures (L := Worker) (monitor .worker) P (pure .failed) Exits :=
  ensures_pure h

theorem ensures_decideEnd (authority final : UInt64) :
    Ensures (monitor .worker) Ending (decideEnd authority final) Exits := by
  refine ensures_get_bind fun fields => ensures_ite (fun _ => ?_) fun _ => ?_
  · refine Ensures.bind (learns_fatal (by simp)).ending fun _ => ensures_failed ?_
    exact fun w h => ⟨h.1.1, h.2.2 rfl⟩
  refine Ensures.bind learns_closePcmRing.ending fun closed => ensures_ite (fun _ => ?_) ?_
  · refine ensures_before (P := Ending) ?_ fun w h => h.1
    refine Ensures.bind learns_finishOutput.ending fun finished => ensures_ite (fun _ => ?_) ?_
    · exact ensures_before ensures_cleanEnd fun w h => h.1
    · exact fun hfailed => ensures_failed fun w h => ⟨h.1.1, h.2 (by simpa using hfailed)⟩
  · exact fun hfailed => ensures_failed fun w h => ⟨h.1.1, h.2 (by simpa using hfailed)⟩

/-- What holds after a round of the main loop. -/
abbrev RoundExits : Watch → UInt64 ⊕ Exit → Prop := RoundPost (fun w _ => Settled w) Exits

theorem ensures_idle (authority : UInt64) (progressed : Bool) :
    Ensures (monitor .worker) Settled (idle authority progressed) RoundExits := by
  refine ensures_ite (fun _ => ensures_pure fun _ h => h) fun _ => ?_
  exact Ensures.bind (learns_ignored (ignored_op rfl)).settled fun _ => ensures_pure fun _ h => h.1

theorem learnsCode_loadDone {pre : Watch → Prop} : LearnsCode .worker pre (load .producerDone)
    fun w done => done = true → w.done = true := by
  refine learnsCode_op fun w done hself _ _ => ⟨_, observe_alive hself.ended rfl, ?_, ?_⟩
  · exact ⟨hself.idle, hself.ended, id, id, fun h => by simp [h], rfl, rfl, rfl, rfl, rfl, rfl, rfl⟩
  · rintro rfl
    simp

theorem ensures_roundEnd (authority : UInt64) (progressed : Bool) :
    Ensures (monitor .worker) Settled (roundEnd authority progressed) RoundExits := by
  refine Ensures.bind (learns_lift learnsCode_loadDone).settled fun done => ?_
  refine ensures_ite (fun hdone => ?_) fun _ => ?_
  · refine ensures_before (P := Ending) ?_ fun w h => ⟨h.1, h.2 hdone⟩
    refine Ensures.bind (learns_ignored ignored_finalHorizonRead).ending fun final => ?_
    refine ensures_before (P := Ending) ?_ fun w h => h.1
    refine Ensures.bind (learns_ignored ignored_transportEmpty).ending fun drained => ?_
    refine ensures_ite (fun _ => ?_) fun _ => ?_
    · refine ensures_before (P := Ending) ?_ fun w h => h.1
      exact Ensures.bind (ensures_decideEnd authority final) fun _ => ensures_pure fun _ h => h
    · exact ensures_before (ensures_idle authority progressed) fun w h => h.1.1
  · exact ensures_before (ensures_idle authority progressed) fun w h => h.1

theorem ensures_roundDrain (authority : UInt64) (progressed : Bool) :
    Ensures (monitor .worker) Settled (roundDrain authority progressed) RoundExits := by
  refine Ensures.bind learns_drainOutput.settled fun drained => ensures_ite (fun _ => ?_) ?_
  · exact ensures_before (ensures_roundEnd _ _) fun w h => h.1
  · exact fun hfailed => ensures_pure fun w h => ⟨h.1, h.2 (by simpa using hfailed)⟩

theorem ensures_roundRender (authority : UInt64) (progressed : Bool) :
    Ensures (monitor .worker) Settled (roundRender authority progressed) RoundExits := by
  intro w fields hsettled
  change Watched _ _ ((if fields.renderedFrame < authority then _ else _ : WorkerCode _) fields) w
  split
  · rename_i hbefore
    have hrender : LearnsCode .worker Always (renderUntil authority fields)
        fun w result => Excused w result.1 := learns_renderOn hbefore
    refine Watched.bind ((hrender w hsettled trivial).mono ?_)
    rintro w' ⟨rendered, fields'⟩ ⟨hextends, hexcused⟩
    cases rendered with
    | true => exact ensures_roundDrain authority true w' fields' hextends.self
    | false => exact watched_done_iff.mpr ⟨hextends.self, hexcused rfl⟩
  · exact ensures_roundDrain authority progressed w fields hsettled

theorem ensures_roundApply (authority : UInt64) (event : Event) :
    Ensures (monitor .worker) Settled (roundApply authority event) RoundExits := by
  refine Ensures.bind (learns_applyEvent event).settled fun applied => ?_
  refine ensures_ite (fun _ => ensures_pure fun w h => h.1) fun _ => ?_
  refine ensures_before (P := Settled) ?_ fun w h => h.1
  exact Ensures.bind (learns_renderFailure _).settled fun _ => ensures_pure fun w h => h

/-- A failure of the transport ends the main loop. -/
theorem ensures_transportFailure {subcode : UInt32} : Ensures (monitor .worker) Settled (do
      discard (liftM (firstFatal .transport .guestTransport subcode) : WorkerCode Bool)
      return .inr .failed : WorkerCode (UInt64 ⊕ Exit)) RoundExits :=
  Ensures.bind (learns_fatal (by simp)).settled fun _ => ensures_pure fun w h => ⟨h.1, h.2.2 rfl⟩

theorem ensures_roundEvent (authority : UInt64) (progressed : Bool) :
    Ensures (monitor .worker) Settled (roundEvent authority progressed) RoundExits := by
  refine Ensures.bind (learns_ignored ignored_eventRingPeek).settled fun peeked => ?_
  refine ensures_before (P := Settled) ?_ fun w h => h.1
  split
  · refine ensures_ite (fun _ => ensures_roundApply _ _) fun _ => ensures_roundRender _ _
  · exact ensures_roundRender _ _
  · exact ensures_transportFailure

theorem ensures_mainRound (authority : UInt64) :
    Ensures (monitor .worker) Settled (mainRound authority) RoundExits := by
  refine Ensures.bind (learns_lift learnsCode_loadLatched).settled fun latched => ?_
  refine ensures_ite (fun hlatched => ensures_pure fun w h => ⟨h.1, (h.2 hlatched).2⟩) fun _ => ?_
  refine ensures_before (P := Settled) (ensures_get_bind fun fields => ?_) fun w h => h.1
  refine Ensures.bind (learns_ignored (ignored_horizonTryObserve _)).settled fun observed => ?_
  refine ensures_before (P := Settled) ?_ fun w h => h.1
  split
  · refine Ensures.bind (Q := fun w _ => Settled w) (ensures_modify fun _ h => h) fun _ => ?_
    refine Ensures.bind (learns_ignored (ignored_op rfl)).settled fun _ => ?_
    exact ensures_before (ensures_roundEvent _ _) fun w h => h.1
  · exact ensures_roundEvent _ _
  · exact ensures_transportFailure

/-- The worker has given the sink back and may wait for the owner to detach. -/
def Barred (w : Watch) : Prop :=
  Settled w ∧ w.released = true ∧ (w.known = true ∨ w.missed = true)

theorem ensures_quiesce :
    Ensures (monitor .worker) Barred quiesce fun w _ => w.ended = true := by
  refine Ensures.bind (Q := fun w _ => Barred w ∧ w.detached = true)
    (ensures_iterating (fun w _ => Barred w) (fun _ h => h) fun _ => ?_) fun _ => ?_
  · refine Ensures.bind (Q := fun w attached => Barred w ∧ (attached = false → w.detached = true))
      (ensures_lift fun w h => watched_op_iff.mpr fun attached _ => ?_) fun attached => ?_
    · cases attached with
      | true => exact ⟨w, observe_alive h.1.ended rfl, watched_done_iff.mpr ⟨h, by simp⟩⟩
      | false =>
          refine ⟨_, observe_alive h.1.ended (if_pos (by simpa using h.2.2)), ?_⟩
          exact watched_done_iff.mpr ⟨⟨.refl h.1.idle h.1.ended, h.2⟩, fun _ => rfl⟩
    refine ensures_ite (fun _ => ?_) fun hdetached => ensures_pure fun w h =>
      ⟨h.1, h.2 (by simpa using hdetached)⟩
    refine Ensures.bind (Q := fun w _ => Barred w) (ensures_lift fun w h => ?_) fun _ =>
      ensures_pure fun _ h => h
    exact watched_op_iff.mpr fun _ _ =>
      ⟨w, observe_unseen h.1.1.ended rfl, watched_done_iff.mpr h.1⟩
  · refine ensures_lift fun w h => ?_
    obtain ⟨⟨hsettled, hreleased, hcause⟩, hdetached⟩ := h
    refine watched_op_iff.mpr fun _ _ => ⟨w, observe_unseen hsettled.ended rfl, ?_⟩
    refine watched_op_iff.mpr fun _ _ => ⟨_, observe_alive hsettled.ended rfl, ?_⟩
    refine watched_op_iff.mpr fun _ _ => ⟨_, observe_alive (w := { w with safe := true })
      hsettled.ended (if_pos (by simp [hreleased, hdetached, hcause])), ?_⟩
    exact watched_done_iff.mpr rfl

theorem ensures_workerEnd (exit : Exit) : Ensures (monitor .worker) (fun w => Exits w exit)
    (workerEnd exit) fun w _ => w.ended = true := by
  cases exit with
  | stopped => exact ensures_pure fun _ h => h
  | barrier => exact ensures_before ensures_quiesce fun w h => ⟨h.1, h.2.2, .inr h.2.1⟩
  | failed =>
      have hlearns : Learns .worker Always abortOutputBarrier Ever := learns_abortOutputBarrier
      have habort : Ensures (monitor .worker) (fun w => Settled w ∧ w.known = true)
          abortOutputBarrier fun w _ => Settled w ∧ w.known = true :=
        fun w fields h => (hlearns fields w h.1 trivial).mono
          fun _ _ hresult => ⟨hresult.1.self, hresult.1.known h.2⟩
      refine Ensures.bind habort fun aborted => ensures_ite (fun _ => ?_) fun _ => ?_
      · refine Ensures.bind (Q := fun w _ => Barred w) (ensures_lift fun w h => ?_) fun _ =>
          ensures_quiesce
        refine watched_op_iff.mpr fun _ _ => ⟨_, observe_alive h.1.ended rfl, ?_⟩
        exact watched_done_iff.mpr ⟨.refl h.1.idle h.1.ended, rfl, .inl h.2⟩
      · refine ensures_lift fun w h => ?_
        refine watched_op_iff.mpr fun _ _ => ⟨w, observe_unseen h.1.ended rfl, ?_⟩
        refine watched_op_iff.mpr fun _ _ => ⟨_, observe_alive h.1.ended rfl, ?_⟩
        refine watched_op_iff.mpr fun _ _ => ⟨_, observe_alive (w := { w with safe := true })
          h.1.ended (if_pos (by simp [h.2])), ?_⟩
        exact watched_done_iff.mpr rfl

/-- The worker ends, and every operation on its way is accepted. -/
theorem ensures_workerRun :
    Ensures (monitor .worker) Settled workerRun fun w _ => w.ended = true := by
  refine Ensures.bind learns_workerStart.settled fun _ => ?_
  refine ensures_before (P := Settled) ?_ fun w h => h.1
  refine Ensures.bind (ensures_iterating (fun w _ => Settled w) (fun _ h => h)
    fun authority => ensures_mainRound authority) fun exit => ensures_workerEnd exit

end Worker

section System

/-- A party that has done nothing yet. -/
theorem settled_fresh : Settled {} := .refl (.inl rfl) rfl

/-- What a party may end with. -/
def Finishes : (party : Party) → Watch → Outcome party → Prop
  | .owner, w, _ => Calm w
  | .worker, w, _ => w.ended = true
  | .control _, w, _ => Settled w

/-- Every party of a started service is watched. -/
theorem watched_started (calls : Calls) (party : Party) :
    Watched (monitor party) (Finishes party) ((started calls).threads party) {} := by
  cases party with
  | owner => exact ensures_ownerRun calls.owner {} _ ⟨settled_fresh, rfl⟩
  | worker => exact ensures_workerRun {} {} settled_fresh
  | control index => exact watched_controlRun (calls.control index) settled_fresh

end System

end EspNp2.LiveService.LifecycleMonitor
