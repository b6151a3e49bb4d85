import EspNp2.Library.LabelledRun
import Mathlib.Logic.Function.Basic

/-!
Threads over a shared state. A thread performs operations and goes on with their results;
its loops are part of the syntax. Each party of a system runs a thread, and any party may
take the next step.

A monitor reads the operations of one thread. `Watched` says that it accepts all of them as
long as the results are expected ones. What holds of the whole system is then proved over
the states of the monitors instead of the places in the programs.
-/

namespace EspNp2.Library.Concurrent

open EspNp2.Library.LabelledRun

inductive Thread (Op : Type) (Result : Op → Type) : Type → Type 1 where
  | done {α : Type} (value : α) : Thread Op Result α
  | op {α : Type} (request : Op) (next : Result request → Thread Op Result α) : Thread Op Result α
  | loop {α σ β : Type} (body : σ → Thread Op Result (σ ⊕ β)) (start : σ)
      (next : β → Thread Op Result α) : Thread Op Result α

variable {Op : Type} {Result : Op → Type} {α β σ : Type}

namespace Thread

def bind {α β : Type} : Thread Op Result α → (α → Thread Op Result β) → Thread Op Result β
  | .done value, rest => rest value
  | .op request next, rest => .op request fun reply => (next reply).bind rest
  | .loop body start next, rest => .loop body start fun value => (next value).bind rest

instance : Monad (Thread Op Result) where
  pure := .done
  bind := bind

/-- One more round of a loop. -/
def unroll (body : σ → Thread Op Result (σ ⊕ β)) (start : σ) (next : β → Thread Op Result α) :
    Thread Op Result α :=
  (body start).bind fun
    | .inl again => .loop body again next
    | .inr value => next value

end Thread

def perform (request : Op) : Thread Op Result (Result request) := .op request .done

/-- A loop whose body tells whether to go on. -/
def iterate (body : σ → Thread Op Result (σ ⊕ β)) (start : σ) : Thread Op Result β :=
  .loop body start .done

/-- A loop over the fields that a thread has for itself. -/
def iterating {L : Type} (body : σ → StateT L (Thread Op Result) (σ ⊕ β)) (start : σ) :
    StateT L (Thread Op Result) β := fun fields =>
  iterate (fun round => (body round.1 round.2).bind fun
    | (.inl again, fields) => .done (.inl (again, fields))
    | (.inr value, fields) => .done (.inr (value, fields))) (start, fields)

/-- The next operation of a thread, behind the loops it enters. -/
inductive Next {α : Type} : Thread Op Result α → (request : Op) →
    (Result request → Thread Op Result α) → Prop
  | op (request : Op) (next : Result request → Thread Op Result α) :
      Next (.op request next) request next
  | loop {σ β : Type} {body : σ → Thread Op Result (σ ⊕ β)} {start : σ}
      {next : β → Thread Op Result α} {request : Op} {rest : Result request → Thread Op Result α}
      (h : Next (Thread.unroll body start next) request rest) :
      Next (.loop body start next) request rest

abbrev OpLabel (Op : Type) (Result : Op → Type) := (request : Op) × Result request

section System

variable {Party State : Type} [DecidableEq Party] {Outcome : Party → Type}

/-- The threads of the parties and the state they share. -/
structure System (Party : Type) (Op : Type) (Result : Op → Type) (Outcome : Party → Type)
    (State : Type) where
  threads : (party : Party) → Thread Op Result (Outcome party)
  state : State

variable (acts : State → (request : Op) → Result request → State → Prop)

/-- One party performs its next operation. -/
inductive Step : System Party Op Result Outcome State → Party × OpLabel Op Result →
    System Party Op Result Outcome State → Prop
  | op {system : System Party Op Result Outcome State} {party : Party} {request : Op}
      {rest : Result request → Thread Op Result (Outcome party)} {reply : Result request}
      {state' : State} (hnext : Next (system.threads party) request rest)
      (hacts : acts system.state request reply state') :
      Step system (party, ⟨request, reply⟩)
        ⟨Function.update system.threads party (rest reply), state'⟩

end System

section Alone

variable {State : Type} {acts : State → (request : Op) → Result request → State → Prop}

/-- A thread that no other party interrupts runs from a state to a result. -/
inductive Alone (acts : State → (request : Op) → Result request → State → Prop) {α : Type} :
    Thread Op Result α → State → α → State → Prop
  | done (value : α) (state : State) : Alone acts (.done value) state value state
  | op {request : Op} {next : Result request → Thread Op Result α} {reply : Result request}
      {state middle last : State} {value : α} (hacts : acts state request reply middle)
      (hrest : Alone acts (next reply) middle value last) :
      Alone acts (.op request next) state value last
  | loop {σ β : Type} {body : σ → Thread Op Result (σ ⊕ β)} {start : σ}
      {next : β → Thread Op Result α} {state last : State} {value : α}
      (hrest : Alone acts (Thread.unroll body start next) state value last) :
      Alone acts (.loop body start next) state value last

theorem alone_done_iff {value result : α} {state last : State} :
    Alone acts (.done value) state result last ↔ value = result ∧ state = last := by
  constructor
  · intro h
    cases h with
    | done => exact ⟨rfl, rfl⟩
  · rintro ⟨rfl, rfl⟩
    exact .done value state

theorem alone_op_iff {request : Op} {next : Result request → Thread Op Result α}
    {state last : State} {value : α} :
    Alone acts (.op request next) state value last ↔
      ∃ reply middle, acts state request reply middle ∧ Alone acts
        (next reply) middle value last := by
  constructor
  · intro h
    cases h with
    | op hacts hrest => exact ⟨_, _, hacts, hrest⟩
  · rintro ⟨reply, middle, hacts, hrest⟩
    exact .op hacts hrest

end Alone

section Monitor

variable {M : Type}

/-- A monitor of a thread: the results it reckons with, and what it makes of an operation. -/
structure Monitor (M Op : Type) (Result : Op → Type) where
  expects : M → OpLabel Op Result → Prop
  observe : M → OpLabel Op Result → Option M

variable (monitor : Monitor M Op Result)

/-- `I` holds along every run of a thread that it holds of. -/
def Closed (post : M → α → Prop) (I : Thread Op Result α → M → Prop) : Prop :=
  ∀ p m, I p m → match p with
    | .done value => post m value
    | .op request next => ∀ reply, monitor.expects m ⟨request, reply⟩ →
        ∃ m', monitor.observe m ⟨request, reply⟩ = some m' ∧ I (next reply) m'
    | .loop body start next => I (Thread.unroll body start next) m

/-- The monitor accepts every operation, and `post` holds when the thread returns. -/
def Watched (post : M → α → Prop) (p : Thread Op Result α) (m : M) : Prop :=
  ∃ I : Thread Op Result α → M → Prop, Closed monitor post I ∧ I p m

variable {monitor} {post : M → α → Prop} {p : Thread Op Result α} {m : M}

theorem closed_watched : Closed monitor post (Watched monitor post) := by
  rintro p m ⟨I, hclosed, hI⟩
  have h := hclosed p m hI
  cases p with
  | done value => exact h
  | op request next =>
      intro reply hexpects
      obtain ⟨m', hm', hnext⟩ := h reply hexpects
      exact ⟨m', hm', I, hclosed, hnext⟩
  | loop body start next => exact ⟨I, hclosed, h⟩

theorem watched_done_iff {value : α} : Watched monitor post (.done value) m ↔ post m value := by
  constructor
  · intro h
    exact closed_watched _ _ h
  · intro h
    refine ⟨fun p m => ∃ value, p = .done value ∧ post m value, ?_, value, rfl, h⟩
    rintro p m ⟨value, rfl, hpost⟩
    exact hpost

theorem watched_op_iff {request : Op} {next : Result request → Thread Op Result α} :
    Watched monitor post (.op request next) m ↔
      ∀ reply, monitor.expects m ⟨request, reply⟩ →
        ∃ m', monitor.observe m ⟨request, reply⟩ = some m' ∧
          Watched monitor post (next reply) m' := by
  constructor
  · intro h
    exact closed_watched _ _ h
  · intro h
    refine ⟨fun p m => Watched monitor post p m ∨ p = .op request next ∧ ∀ reply,
      monitor.expects m ⟨request, reply⟩ → ∃ m', monitor.observe m ⟨request, reply⟩ = some m' ∧
        Watched monitor post (next reply) m', ?_, .inr ⟨rfl, h⟩⟩
    rintro p m (hwatched | ⟨rfl, hop⟩)
    · have hclosed := closed_watched _ _ hwatched
      cases p with
      | done value => exact hclosed
      | op request next =>
          intro reply hexpects
          obtain ⟨m', hm', hnext⟩ := hclosed reply hexpects
          exact ⟨m', hm', .inl hnext⟩
      | loop body start next => exact .inl hclosed
    · intro reply hexpects
      obtain ⟨m', hm', hnext⟩ := hop reply hexpects
      exact ⟨m', hm', .inl hnext⟩

theorem watched_loop_unroll {body : σ → Thread Op Result (σ ⊕ β)} {start : σ}
    {next : β → Thread Op Result α} (h : Watched monitor post (.loop body start next) m) :
    Watched monitor post (Thread.unroll body start next) m :=
  closed_watched _ _ h

theorem Watched.mono {Q Q' : M → α → Prop} (h : Watched monitor Q p m)
    (hpost : ∀ m value, Q m value → Q' m value) : Watched monitor Q' p m := by
  refine ⟨Watched monitor Q, ?_, h⟩
  intro p m hwatched
  have hclosed := closed_watched p m hwatched
  cases p with
  | done value => exact hpost m value hclosed
  | op request next => exact hclosed
  | loop body start next => exact hclosed

theorem Thread.bind_done (p : Thread Op Result α) : p.bind .done = p := by
  induction p with
  | done value => rfl
  | op request next ih => simp only [Thread.bind, ih]
  | loop body start next _ ih => simp only [Thread.bind, ih]

theorem Thread.bind_assoc {γ : Type} (p : Thread Op Result α) (f : α → Thread Op Result β)
    (g : β → Thread Op Result γ) : (p.bind f).bind g = p.bind fun value => (f value).bind g := by
  induction p with
  | done value => rfl
  | op request next ih => simp only [Thread.bind, ih]
  | loop body start next _ ih => simp only [Thread.bind, ih]

theorem Thread.bind_unroll {γ : Type} (body : σ → Thread Op Result (σ ⊕ β)) (start : σ)
    (next : β → Thread Op Result α) (rest : α → Thread Op Result γ) :
    (Thread.unroll body start next).bind rest =
      Thread.unroll body start fun value => (next value).bind rest := by
  rw [Thread.unroll, Thread.unroll, Thread.bind_assoc]
  congr 1
  funext value
  cases value <;> rfl

/-- One thread after the other. -/
theorem Watched.bind {rest : α → Thread Op Result β} {final : M → β → Prop}
    (h : Watched monitor (fun m value => Watched monitor final (rest value) m) p m) :
    Watched monitor final (p.bind rest) m := by
  refine ⟨fun q m => Watched monitor final q m ∨ ∃ p, q = p.bind rest ∧
    Watched monitor (fun m value => Watched monitor final (rest value) m) p m, ?_, .inr ⟨p, rfl, h⟩⟩
  have hleft : ∀ q m, Watched monitor final q m → match q with
      | .done value => final m value
      | .op request next => ∀ reply, monitor.expects m ⟨request, reply⟩ →
          ∃ m', monitor.observe m ⟨request, reply⟩ = some m' ∧
            (Watched monitor final (next reply) m' ∨ ∃ p, next reply = p.bind rest ∧
              Watched monitor (fun m value => Watched monitor final (rest value) m) p m')
      | .loop body start next => Watched monitor final (Thread.unroll body start next) m ∨
          ∃ p, Thread.unroll body start next = p.bind rest ∧
            Watched monitor (fun m value => Watched monitor final (rest value) m) p m := by
    intro q m hq
    have hclosed := closed_watched q m hq
    cases q with
    | done value => exact hclosed
    | op request next =>
        intro reply hexpects
        obtain ⟨m', hm', hnext⟩ := hclosed reply hexpects
        exact ⟨m', hm', .inl hnext⟩
    | loop body start next => exact .inl hclosed
  rintro q m (hq | ⟨p, rfl, hp⟩)
  · exact hleft q m hq
  · have hclosed := closed_watched p m hp
    cases p with
    | done value => exact hleft _ m hclosed
    | op request next =>
        intro reply hexpects
        obtain ⟨m', hm', hnext⟩ := hclosed reply hexpects
        exact ⟨m', hm', .inr ⟨_, rfl, hnext⟩⟩
    | loop body start next => exact .inr ⟨_, (Thread.bind_unroll ..).symm, hclosed⟩

/-- What holds at the end of a round: the invariant `J`, or what the loop is for. -/
def RoundPost (J : M → σ → Prop) (post : M → β → Prop) (m : M) : σ ⊕ β → Prop
  | .inl again => J m again
  | .inr value => post m value

/-- A loop keeps an invariant of its variable and the monitor. -/
theorem watched_iterate {body : σ → Thread Op Result (σ ⊕ β)} {start : σ} {post : M → β → Prop}
    (J : M → σ → Prop) (hstart : J m start)
    (hbody : ∀ m value, J m value → Watched monitor (RoundPost J post) (body value) m) :
    Watched monitor post (iterate body start) m := by
  refine ⟨fun q m => (∃ value, q = iterate body value ∧ J m value) ∨ ∃ p,
    q = p.bind (Sum.elim (iterate body) .done) ∧ Watched monitor (RoundPost J post) p m, ?_,
    .inl ⟨start, rfl, hstart⟩⟩
  have hround : ∀ value, Thread.unroll body value .done =
      (body value).bind (Sum.elim (iterate body) .done) := by
    intro value
    rw [Thread.unroll]
    congr 1
    funext result
    cases result <;> rfl
  rintro q m (⟨value, rfl, hJ⟩ | ⟨p, rfl, hp⟩)
  · exact .inr ⟨body value, hround value, hbody m value hJ⟩
  · have hclosed := closed_watched p m hp
    cases p with
    | done result =>
        cases result with
        | inl again => exact .inr ⟨body again, hround again, hbody m again hclosed⟩
        | inr value => exact hclosed
    | op request next =>
        intro reply hexpects
        obtain ⟨m', hm', hnext⟩ := hclosed reply hexpects
        exact ⟨m', hm', .inr ⟨_, rfl, hnext⟩⟩
    | loop body' start' next' => exact .inr ⟨_, (Thread.bind_unroll ..).symm, hclosed⟩

/-- The monitor accepts the next operation of a watched thread. -/
theorem Watched.next {request : Op} {rest : Result request → Thread Op Result α}
    (h : Watched monitor post p m) (hnext : Next p request rest) (reply : Result request)
    (hexpects : monitor.expects m ⟨request, reply⟩) :
    ∃ m', monitor.observe m ⟨request, reply⟩ = some m' ∧ Watched monitor post (rest reply) m' := by
  induction hnext with
  | op request next => exact watched_op_iff.mp h reply hexpects
  | loop hnext ih => exact ih (watched_loop_unroll h) reply hexpects

section Fields

variable {L : Type} {pre : M → Prop} {post post' : M → α → Prop}

/-- `post` holds of the monitor and the result, whatever the thread has in its own fields. -/
def Ensures (monitor : Monitor M Op Result) (pre : M → Prop)
    (program : StateT L (Thread Op Result) α) (post : M → α → Prop) : Prop :=
  ∀ m fields, pre m → Watched monitor (fun m' result => post m' result.1) (program fields) m

theorem ensures_pure {value : α} (h : ∀ m, pre m → post m value) :
    Ensures (L := L) monitor pre (pure value) post :=
  fun m _ hpre => watched_done_iff.mpr (h m hpre)

theorem ensures_get_bind {rest : L → StateT L (Thread Op Result) α}
    (h : ∀ fields, Ensures monitor pre (rest fields) post) :
    Ensures monitor pre (get >>= rest) post :=
  fun m fields hpre => h fields m fields hpre

theorem ensures_modify {change : L → L} {post : M → PUnit → Prop}
    (h : ∀ m, pre m → post m ⟨⟩) : Ensures monitor pre (modify change) post :=
  fun m _ hpre => watched_done_iff.mpr (h m hpre)

theorem ensures_set {fields : L} {post : M → PUnit → Prop}
    (h : ∀ m, pre m → post m ⟨⟩) : Ensures (L := L) monitor pre (set fields) post :=
  fun m _ hpre => watched_done_iff.mpr (h m hpre)

theorem Ensures.mono {program : StateT L (Thread Op Result) α}
    (h : Ensures monitor pre program post)
    (hpost : ∀ m value, post m value → post' m value) : Ensures monitor pre program post' :=
  fun m fields hpre => (h m fields hpre).mono fun m' result => hpost m' result.1

theorem ensures_before {P P' : M → Prop} {program : StateT L (Thread Op Result) α}
    (h : Ensures monitor P program post) (hpre : ∀ m, P' m → P m) :
    Ensures monitor P' program post :=
  fun m fields hm => h m fields (hpre m hm)

theorem Ensures.bind {Q : M → α → Prop} {first : StateT L (Thread Op Result) α}
    {rest : α → StateT L (Thread Op Result) β} {final : M → β → Prop}
    (h : Ensures monitor pre first Q)
    (hrest : ∀ value, Ensures monitor (fun m => Q m value) (rest value) final) :
    Ensures monitor pre (first >>= rest) final := by
  intro m fields hpre
  refine Watched.bind ((h m fields hpre).mono ?_)
  rintro m' ⟨value, fields'⟩ hpost
  exact hrest value m' fields' hpost

theorem ensures_ite {c : Prop} [Decidable c] {first second : StateT L (Thread Op Result) α}
    (hfirst : c → Ensures monitor pre first post)
    (hsecond : ¬ c → Ensures monitor pre second post) :
    Ensures monitor pre (if c then first else second) post := by
  split
  · exact hfirst ‹_›
  · exact hsecond ‹_›

theorem ensures_lift {program : Thread Op Result α}
    (h : ∀ m, pre m → Watched monitor post program m) :
    Ensures (L := L) monitor pre (liftM program) post := by
  intro m fields hpre
  refine Watched.bind ((h m hpre).mono ?_)
  intro m' value hpost
  exact watched_done_iff.mpr hpost

theorem ensures_iterating {body : σ → StateT L (Thread Op Result) (σ ⊕ β)} {start : σ}
    {post : M → β → Prop} (J : M → σ → Prop) (hstart : ∀ m, pre m → J m start)
    (hbody : ∀ value, Ensures monitor (fun m => J m value) (body value) (RoundPost J post)) :
    Ensures monitor pre (iterating body start) post := by
  intro m fields hpre
  refine watched_iterate (fun m round => J m round.1) (hstart m hpre) ?_
  rintro m ⟨value, fields⟩ hJ
  refine Watched.bind ((hbody value m fields hJ).mono ?_)
  rintro m' ⟨result, fields'⟩ hresult
  cases result with
  | inl again => exact watched_done_iff.mpr hresult
  | inr value => exact watched_done_iff.mpr hresult

end Fields

section Invariant

variable {Party State : Type} [DecidableEq Party] {Outcome : Party → Type}
  {acts : State → (request : Op) → Result request → State → Prop}
  {allowed : State → Party × OpLabel Op Result → Prop}
  {start last : System Party Op Result Outcome State} {labels : List (Party × OpLabel Op Result)}

/-- A step that meets a condition on the state before it. -/
def StepIf (acts : State → (request : Op) → Result request → State → Prop)
    (allowed : State → Party × OpLabel Op Result → Prop)
    (system : System Party Op Result Outcome State) (label : Party × OpLabel Op Result)
    (system' : System Party Op Result Outcome State) : Prop :=
  allowed system.state label ∧ Step acts system label system'

theorem run_stepIf (hrun : Run (Step acts) start labels last) :
    Run (StepIf acts fun _ _ => True) start labels last := by
  induction hrun with
  | nil => exact .nil _
  | snoc _ hstep ih => exact .snoc ih ⟨trivial, hstep⟩

theorem run_of_stepIf (hrun : Run (StepIf acts allowed) start labels last) :
    Run (Step acts) start labels last := by
  induction hrun with
  | nil => exact .nil _
  | snoc _ hstep ih => exact .snoc ih hstep.2

/-- An invariant of the labels, the shared state and the monitors. The steps of all threads
are treated at once, by the operations that the monitors accept. -/
theorem system_invariant {monitors : Party → Monitor M Op Result}
    {post : (party : Party) → M → Outcome party → Prop} {watches : Party → M}
    {I : List (Party × OpLabel Op Result) → State → (Party → M) → Prop}
    (hrun : Run (StepIf acts allowed) start labels last)
    (hwatched : ∀ party, Watched (monitors party) (post party) (start.threads party)
      (watches party))
    (hstart : I [] start.state watches)
    (hstep : ∀ labels state watches party request reply state', I labels state watches →
      allowed state (party, ⟨request, reply⟩) → acts state request reply state' →
      (monitors party).expects (watches party) ⟨request, reply⟩ ∧
      ∀ m, (monitors party).observe (watches party) ⟨request, reply⟩ = some m →
        I (labels ++ [(party, ⟨request, reply⟩)]) state' (Function.update watches party m)) :
    ∃ watches, I labels last.state watches ∧
      ∀ party, Watched (monitors party) (post party) (last.threads party) (watches party) := by
  induction hrun with
  | nil => exact ⟨watches, hstart, hwatched⟩
  | snoc hrun hlast ih =>
      obtain ⟨watches, hI, hthreads⟩ := ih
      obtain ⟨hallowed, hop⟩ := hlast
      cases hop with
      | @op party request rest reply state' hnext hacts =>
          obtain ⟨hexpects, hobserve⟩ := hstep _ _ _ _ _ _ _ hI hallowed hacts
          obtain ⟨m, hm, hrest⟩ := (hthreads party).next hnext reply hexpects
          refine ⟨Function.update watches party m, hobserve m hm, fun other => ?_⟩
          by_cases hother : other = party
          · subst hother
            simpa using hrest
          · simpa [hother] using hthreads other

end Invariant

section Execution

variable {Party State : Type} [DecidableEq Party] {Outcome : Party → Type}
  {acts : State → (request : Op) → Result request → State → Prop}
  {serve : State → (request : Op) → Result request × State}
  {allowed : State → Party × OpLabel Op Result → Bool}

/-- A thread behind the loops that it enters, as far as so many rounds go. -/
def Thread.advance {α : Type} : Nat → Thread Op Result α → Thread Op Result α
  | rounds + 1, .loop body start next => advance rounds (Thread.unroll body start next)
  | _, program => program

/-- The rounds that `executeStep` looks behind. -/
def loopDepth : Nat := 8

/-- The next step of a party, with the replies of `serve`. -/
def executeStep (serve : State → (request : Op) → Result request × State)
    (allowed : State → Party × OpLabel Op Result → Bool) (party : Party)
    (system : System Party Op Result Outcome State) :
    Option ((Party × OpLabel Op Result) × System Party Op Result Outcome State) :=
  match (system.threads party).advance loopDepth with
  | .op request next =>
      if allowed system.state (party, ⟨request, (serve system.state request).1⟩) then
        some ((party, ⟨request, (serve system.state request).1⟩),
          ⟨Function.update system.threads party (next (serve system.state request).1),
            (serve system.state request).2⟩)
      else none
  | _ => none

/-- The run of a schedule: which party steps, and how often. -/
def execute (serve : State → (request : Op) → Result request × State)
    (allowed : State → Party × OpLabel Op Result → Bool) :
    List Party → System Party Op Result Outcome State →
      Option (List (Party × OpLabel Op Result) × System Party Op Result Outcome State)
  | [], system => some ([], system)
  | party :: schedule, system =>
      match executeStep serve allowed party system with
      | none => none
      | some (label, middle) =>
          match execute serve allowed schedule middle with
          | none => none
          | some (labels, last) => some (label :: labels, last)

theorem next_of_advance {α : Type} {rounds : Nat} {program : Thread Op Result α} {request : Op}
    {next : Result request → Thread Op Result α}
    (h : program.advance rounds = .op request next) : Next program request next := by
  induction rounds generalizing program with
  | zero =>
      obtain rfl : program = .op request next := h
      exact .op request next
  | succ rounds ih =>
      cases program with
      | done value => cases h
      | op request' next' =>
          cases h
          exact .op request next
      | loop body start next' => exact .loop (ih h)

theorem execute_run (hserve : ∀ state request, acts state request (serve state request).1
      (serve state request).2) {schedule : List Party}
    {system last : System Party Op Result Outcome State} {labels : List (Party × OpLabel Op Result)}
    (h : execute serve allowed schedule system = some (labels, last)) :
    Run (StepIf acts fun state label => allowed state label = true) system labels last := by
  induction schedule generalizing system labels with
  | nil =>
      obtain ⟨rfl, rfl⟩ : [] = labels ∧ system = last := by simpa [execute] using h
      exact .nil system
  | cons party schedule ih =>
      rw [execute] at h
      split at h
      · cases h
      rename_i label middle hstep
      split at h
      · cases h
      rename_i rest final hrest
      obtain ⟨rfl, rfl⟩ : label :: rest = labels ∧ final = last := by simpa using h
      refine run_cons_iff.mpr ⟨middle, ?_, ih hrest⟩
      rw [executeStep] at hstep
      split at hstep
      · rename_i request next hadvance
        split at hstep
        · rename_i hallowed
          obtain ⟨rfl, rfl⟩ := Prod.mk.inj (Option.some.inj hstep)
          exact ⟨hallowed, .op (next_of_advance hadvance) (hserve system.state request)⟩
        · cases hstep
      · cases hstep

/-- The run of one party through a program, with the replies of `serve`. -/
def executeAlone (serve : State → (request : Op) → Result request × State) {α : Type} :
    Nat → Thread Op Result α → State → Option (List (OpLabel Op Result) × α × State)
  | 0, _, _ => none
  | _ + 1, .done value, state => some ([], value, state)
  | steps + 1, program, state =>
      match program.advance loopDepth with
      | .op request next =>
          match executeAlone serve steps (next (serve state request).1) (serve state request).2 with
          | none => none
          | some (labels, result) => some (⟨request, (serve state request).1⟩ :: labels, result)
      | _ => none

theorem Next.bind {program : Thread Op Result α} {request : Op}
    {next : Result request → Thread Op Result α} (h : Next program request next)
    (rest : α → Thread Op Result β) :
    Next (program.bind rest) request fun reply => (next reply).bind rest := by
  induction h with
  | op request next => exact .op request _
  | loop h ih =>
      refine .loop ?_
      rw [← Thread.bind_unroll]
      exact ih

theorem executeAlone_run (hserve : ∀ state request, acts state request (serve state request).1
      (serve state request).2) (S : System Party Op Result Outcome State) (party : Party)
    {program : Thread Op Result α} (rest : α → Thread Op Result (Outcome party)) {steps : Nat}
    {labels : List (OpLabel Op Result)} {value : α} {state' : State}
    (h : executeAlone serve steps program S.state = some (labels, value, state'))
    (hthread : S.threads party = program.bind rest) :
    Run (Step acts) S (labels.map fun label => (party, label))
      ⟨Function.update S.threads party (rest value), state'⟩ := by
  induction steps generalizing program labels S with
  | zero => cases h
  | succ steps ih =>
      have hop : ∀ request next labels', program.advance loopDepth = .op request next →
          executeAlone serve steps (next (serve S.state request).1)
            (serve S.state request).2 = some (labels', value, state') →
          labels = ⟨request, (serve S.state request).1⟩ :: labels' →
          Run (Step acts) S (labels.map fun label => (party, label))
            ⟨Function.update S.threads party (rest value), state'⟩ := by
        rintro request next labels' hadvance hrest rfl
        have hnext := (next_of_advance hadvance).bind rest
        rw [← hthread] at hnext
        rw [List.map_cons]
        refine run_cons_iff.mpr ⟨_, .op hnext (hserve S.state request), ?_⟩
        let middle : System Party Op Result Outcome State :=
          ⟨Function.update S.threads party ((next (serve S.state request).1).bind rest),
            (serve S.state request).2⟩
        have hrun := ih middle hrest (by simp [middle])
        simpa [middle] using hrun
      cases program with
      | done result =>
          obtain ⟨rfl, rfl, rfl⟩ : [] = labels ∧ result = value ∧ S.state = state' := by
            simpa [executeAlone] using h
          have hsame : Function.update S.threads party (rest result) = S.threads := by
            rw [← show S.threads party = rest result from hthread, Function.update_eq_self]
          rw [hsame]
          exact .nil S
      | op request next =>
          rw [executeAlone] at h
          · rw [show (Thread.op request next).advance loopDepth = .op request next from rfl] at h
            simp only at h
            split at h
            · cases h
            rename_i labels' result hrest
            obtain ⟨hlabels, rfl⟩ := Prod.mk.inj (Option.some.inj h)
            exact hop request next labels' rfl hrest hlabels.symm
          · intro result hresult
            cases hresult
      | loop body start next =>
          rw [executeAlone] at h
          · split at h
            · rename_i request next' hadvance
              split at h
              · cases h
              rename_i labels' result hrest
              obtain ⟨hlabels, rfl⟩ := Prod.mk.inj (Option.some.inj h)
              exact hop request next' labels' hadvance hrest hlabels.symm
            · cases h
          · intro result hresult
            cases hresult

end Execution

end Monitor

end EspNp2.Library.Concurrent
