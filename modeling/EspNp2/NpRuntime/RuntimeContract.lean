import EspNp2.NpRuntime.RuntimeCalls

/-!
The start and the end of the core are paired in every run of a runtime: one owner that calls
`initialize`, `run` and at last the destructor, and helpers that request stops and mark
failures at any moment.
-/

namespace EspNp2.NpRuntime.RuntimeContract

open Library.Concurrent
open Library.LabelledRun
open Lifecycle
open LifecycleMonitor
open LifecycleInvariant
open LifecycleContract
open CoreRuntime
open RuntimeCalls

section Calls

abbrev Call := OpLabel Op Result

def isInit : Call → Bool
  | ⟨.pccoreInit, _⟩ => true
  | _ => false

def isReset : Call → Bool
  | ⟨.pccoreReset, _⟩ => true
  | _ => false

def isExec : Call → Bool
  | ⟨.pccoreExec, _⟩ => true
  | _ => false

def isTerm : Call → Bool
  | ⟨.pccoreTerm, _⟩ => true
  | _ => false

def isObserve (observer : Observer) : Call → Bool
  | ⟨.observe called, _⟩ => called = observer
  | _ => false

def isBegin : Call → Bool
  | ⟨.beginRuntimeCall, _⟩ => true
  | _ => false

/-- The exchange with which a run reaches `Running`. -/
def isRunning : Call → Bool
  | ⟨.casState _ _ .running, (exchanged, _)⟩ => exchanged
  | _ => false

def isDestroyed : Call → Bool
  | ⟨.finishRuntimeCall .destroy _, _⟩ => true
  | _ => false

/-- The calls of the owner in a run, in their order. -/
def ownerCalls (labels : List Label) : List Call :=
  labels.filterMap fun label => match label with
    | (.owner, call) => some call
    | _ => none

/-- The core is up: initialized and not yet ended. -/
def Up (calls : List Call) : Prop := calls.countP isInit = 1 ∧ calls.countP isTerm = 0

/-- The observer was called, and the core has not executed since. -/
def Observed (observer : Observer) (calls : List Call) : Prop :=
  ∃ before call after, calls = before ++ call :: after ∧ isObserve observer call = true ∧
    ∀ call ∈ after, isExec call = false

/-- The pairing of the core's start and end, over the calls of the owner. -/
structure CorePaired (calls : List Call) : Prop where
  init_once : calls.countP isInit ≤ 1
  between : AtEach (fun before call =>
    isReset call = true ∨ isExec call = true ∨ isTerm call = true → Up before) calls
  destroyed : AtEach (fun before call =>
    isDestroyed call = true → before.countP isTerm = before.countP isInit) calls
  observed : ∀ before observer during running since call after,
    calls = before ++ ⟨.beginRuntimeCall, .run (some observer)⟩ :: during ++
      running :: since ++ call :: after →
    (∀ call ∈ during, isBegin call = false) → isRunning running = true →
    isExec call = true ∨ isTerm call = true → Observed observer since

variable {core core' : CoreWatch} {call : Call} {calls : List Call}

/-- What a call does to the watch of the core. -/
structure CoreStep (core : CoreWatch) (call : Call) (core' : CoreWatch) : Prop where
  inits : core'.inits = core.inits + (isInit call).toNat
  terms : core'.terms = core.terms + (isTerm call).toNat
  once : isInit call = true → core.inits = 0
  up : isReset call = true ∨ isExec call = true ∨ isTerm call = true →
    core.inits = 1 ∧ core.terms = 0
  waits : isExec call = true ∨ isTerm call = true → core.due ≠ none → core.observed = true
  destroyed : isDestroyed call = true → core.terms = core.inits
  running : isRunning call = true →
    core.running = false ∧ core'.running = true ∧ core'.due = core.observer ∧ core'.observed = false
  due : isRunning call = false → core'.due = core.due ∧ core'.running = core.running
  observer : isBegin call = false → core'.observer = core.observer
  observed : core'.observed = true → isExec call = false ∧
    (core.observed = true ∨ ∃ observer, core.due = some observer ∧ isObserve observer call = true)

theorem coreStep_of_quiet (hquiet : isInit call = false ∧
      isTerm call = false ∧ isReset call = false ∧ isExec call = false ∧
      isDestroyed call = false ∧ isRunning call = false) : CoreStep core call core := by
  obtain ⟨hinit, hterm, hreset, hexec, hdestroyed, hrunning⟩ := hquiet
  constructor <;> simp_all

theorem coreStep_of_observe (h : core.observe call = some core') : CoreStep core call core' := by
  obtain ⟨request, reply⟩ := call
  cases request with
  | beginRuntimeCall =>
      cases reply with
      | run observer =>
          obtain rfl := Option.some.inj h
          constructor <;> simp +contextual [isInit, isTerm, isReset, isExec, isDestroyed, isRunning,
            isBegin]
      | _ =>
          obtain rfl := Option.some.inj h
          exact coreStep_of_quiet (by decide)
  | casState weak expected desired =>
      obtain ⟨exchanged, found⟩ := reply
      cases exchanged with
      | false =>
          rw [CoreWatch.observe_casState_fails] at h
          obtain rfl := Option.some.inj h
          refine coreStep_of_quiet ?_
          cases desired <;> simp [isInit, isTerm, isReset, isExec, isDestroyed, isRunning]
      | true =>
          cases desired with
          | running =>
              obtain ⟨hrunning, ⟨⟩⟩ := Option.ite_none_left_eq_some.mp h
              constructor <;> simp +contextual [isInit, isTerm, isReset, isExec,
                isDestroyed, isRunning]
              simpa using hrunning
          | _ =>
              obtain rfl := Option.some.inj h
              exact coreStep_of_quiet
                (by simp [isInit, isTerm, isReset, isExec, isDestroyed, isRunning])
  | finishRuntimeCall call result =>
      cases call with
      | destroy =>
          obtain ⟨hterms, ⟨⟩⟩ := Option.ite_none_right_eq_some.mp h
          constructor <;> simp +contextual [isInit, isTerm, isReset, isExec, isRunning, hterms]
      | _ =>
          obtain rfl := Option.some.inj h
          exact coreStep_of_quiet
            (by simp [isInit, isTerm, isReset, isExec, isDestroyed, isRunning])
  | pccoreInit =>
      obtain ⟨hinits, ⟨⟩⟩ := Option.ite_none_right_eq_some.mp h
      constructor <;> simp +contextual [isInit, isTerm, isReset, isExec, isDestroyed,
        isRunning, hinits]
  | pccoreReset =>
      obtain ⟨hup, ⟨⟩⟩ := Option.ite_none_right_eq_some.mp h
      constructor <;> simp +contextual [isInit, isTerm, isExec, isDestroyed, isRunning, hup]
  | pccoreExec =>
      obtain ⟨⟨hinits, hterms, hdue⟩, ⟨⟩⟩ := Option.ite_none_right_eq_some.mp h
      constructor <;> simp +contextual [isInit, isTerm, isExec, isDestroyed, isRunning,
        hinits, hterms]
      simpa using hdue
  | pccoreTerm =>
      obtain ⟨⟨hinits, hterms, hdue⟩, ⟨⟩⟩ := Option.ite_none_right_eq_some.mp h
      constructor <;> simp +contextual [isInit, isTerm, isExec, isDestroyed, isRunning,
        hinits, hterms]
      simpa using hdue
  | observe observer =>
      obtain rfl := Option.some.inj h
      constructor <;> simp [isInit, isTerm, isReset, isExec, isDestroyed, isRunning, isObserve]
  | _ =>
      obtain rfl := Option.some.inj h
      exact coreStep_of_quiet (by simp [isInit, isTerm, isReset, isExec, isDestroyed, isRunning])

theorem foldlM_snoc {start last : CoreWatch} {call : Call}
    (h : (calls ++ [call]).foldlM CoreWatch.observe start = some last) :
    ∃ core, calls.foldlM CoreWatch.observe start = some core ∧ CoreStep core call last := by
  rw [List.foldlM_append] at h
  obtain ⟨core, hcore, h⟩ := Option.bind_eq_some_iff.mp h
  exact ⟨core, hcore, coreStep_of_observe (by simpa using h)⟩

theorem counts_of_foldlM (h : calls.foldlM CoreWatch.observe {} = some core) :
    core.inits = calls.countP isInit ∧ core.terms = calls.countP isTerm ∧ core.inits ≤ 1 := by
  induction calls using List.reverseRecOn generalizing core with
  | nil =>
      obtain rfl := Option.some.inj h
      exact ⟨rfl, rfl, Nat.zero_le 1⟩
  | append_singleton calls call ih =>
      obtain ⟨core₁, hcore₁, hstep⟩ := foldlM_snoc h
      obtain ⟨hinits, hterms, hle⟩ := ih hcore₁
      refine ⟨?_, ?_, ?_⟩
      · rw [hstep.inits, hinits, List.countP_append, List.countP_singleton]
        cases isInit call <;> rfl
      · rw [hstep.terms, hterms, List.countP_append, List.countP_singleton]
        cases isTerm call <;> rfl
      · rw [hstep.inits]
        cases hinit : isInit call with
        | false => exact hle
        | true => simp [hstep.once hinit]

/-- From the moment a run reaches `Running` its observer is due, and it has been called
behind the last execution when the watch says so. -/
theorem observed_of_foldlM {observer : Observer} {start : CoreWatch}
    (hrunning : start.running = true) (hdue : start.due = some observer)
    (hobserved : start.observed = false) (h : calls.foldlM CoreWatch.observe start = some core) :
    core.running = true ∧ core.due = some observer ∧
      (core.observed = true → Observed observer calls) := by
  induction calls using List.reverseRecOn generalizing core with
  | nil =>
      obtain rfl := Option.some.inj h
      exact ⟨hrunning, hdue, fun h => absurd (hobserved.symm.trans h) nofun⟩
  | append_singleton calls call ih =>
      obtain ⟨core₁, hcore₁, hstep⟩ := foldlM_snoc h
      obtain ⟨hrunning₁, hdue₁, hobserved₁⟩ := ih hcore₁
      have hnot : isRunning call = false := by
        rw [Bool.eq_false_iff]
        intro h
        exact absurd ((hstep.running h).1.symm.trans hrunning₁) nofun
      obtain ⟨hdue', hrunning'⟩ := hstep.due hnot
      refine ⟨hrunning'.trans hrunning₁, hdue'.trans hdue₁, fun h => ?_⟩
      obtain ⟨hexec, h | ⟨called, hcalled, hcall⟩⟩ := hstep.observed h
      · obtain ⟨before, found, after, rfl, hfound, hafter⟩ := hobserved₁ h
        refine ⟨before, found, after ++ [call], by simp, hfound, ?_⟩
        intro other hother
        rcases List.mem_append.mp hother with hother | hother
        · exact hafter other hother
        · obtain rfl : other = call := by simpa using hother
          exact hexec
      · obtain rfl : observer = called := by simpa [hdue₁] using hcalled
        exact ⟨calls, call, [], rfl, hcall, List.forall_mem_nil _⟩

theorem observer_of_foldlM {start : CoreWatch} (hcalls : ∀ call ∈ calls, isBegin call = false)
    (h : calls.foldlM CoreWatch.observe start = some core) : core.observer = start.observer := by
  induction calls using List.reverseRecOn generalizing core with
  | nil =>
      obtain rfl := Option.some.inj h
      rfl
  | append_singleton calls call ih =>
      obtain ⟨core₁, hcore₁, hstep⟩ := foldlM_snoc h
      rw [hstep.observer (hcalls call (by simp))]
      exact ih (fun other hother => hcalls other (by simp [hother])) hcore₁

/-- The calls that the watch of the core accepts are paired. -/
theorem corePaired_of_foldlM (h : calls.foldlM CoreWatch.observe {} = some core) :
    CorePaired calls := by
  have hsplit : ∀ before call after, calls = before ++ call :: after →
      ∃ core core', before.foldlM CoreWatch.observe {} = some core ∧ CoreStep core call core' := by
    rintro before call after rfl
    rw [List.foldlM_append] at h
    obtain ⟨core₁, hcore₁, h⟩ := Option.bind_eq_some_iff.mp h
    obtain ⟨core₂, hcore₂, -⟩ := Option.bind_eq_some_iff.mp h
    exact ⟨core₁, core₂, hcore₁, coreStep_of_observe hcore₂⟩
  refine ⟨?_, ?_, ?_, ?_⟩
  · obtain ⟨hinits, -, hle⟩ := counts_of_foldlM h
    rwa [← hinits]
  · intro before call after hcalls hkind
    obtain ⟨core₁, core₂, hcore₁, hstep⟩ := hsplit before call after hcalls
    obtain ⟨hinits, hterms, -⟩ := counts_of_foldlM hcore₁
    obtain ⟨hone, hzero⟩ := hstep.up hkind
    exact ⟨hinits ▸ hone, hterms ▸ hzero⟩
  · intro before call after hcalls hkind
    obtain ⟨core₁, core₂, hcore₁, hstep⟩ := hsplit before call after hcalls
    obtain ⟨hinits, hterms, -⟩ := counts_of_foldlM hcore₁
    rw [← hinits, ← hterms]
    exact hstep.destroyed hkind
  · rintro before observer during running since call after rfl hduring hrunning hkind
    rw [List.append_assoc, List.foldlM_append] at h
    obtain ⟨core₁, hcore₁, h⟩ := Option.bind_eq_some_iff.mp h
    rw [List.foldlM_append] at hcore₁
    obtain ⟨core₀, -, hcore₁⟩ := Option.bind_eq_some_iff.mp hcore₁
    have hobserver := observer_of_foldlM hduring hcore₁
    rw [List.cons_append] at h
    obtain ⟨core₂, hcore₂, h⟩ := Option.bind_eq_some_iff.mp h
    obtain ⟨-, hrunning₂, hdue₂, hobserved₂⟩ := (coreStep_of_observe hcore₂).running hrunning
    rw [List.foldlM_append] at h
    obtain ⟨core₃, hcore₃, h⟩ := Option.bind_eq_some_iff.mp h
    obtain ⟨core₄, hcore₄, -⟩ := Option.bind_eq_some_iff.mp h
    obtain ⟨-, hdue₃, hobserved₃⟩ :=
      observed_of_foldlM hrunning₂ (hdue₂.trans hobserver) hobserved₂ hcore₃
    refine hobserved₃ ((coreStep_of_observe hcore₄).waits hkind ?_)
    rw [hdue₃]
    nofun

end Calls

section Contract

/-- A result `Stopped` or `RuntimeFailed` goes with the state. -/
def ResultSound (result : RuntimeResult) (state : State) : Prop :=
  (result = .stopped → state = .stopped) ∧ (result = .runtimeFailed → state = .failed)

theorem ownerCalls_snoc_owner (labels : List Label) (call : Call) :
    ownerCalls (labels ++ [(.owner, call)]) = ownerCalls labels ++ [call] := by
  simp [ownerCalls]

theorem ownerCalls_snoc_helper (labels : List Label) (number : Nat) (call : Call) :
    ownerCalls (labels ++ [(.helper number, call)]) = ownerCalls labels := by
  simp [ownerCalls]

structure RuntimeHistory (labels : List Label) (memory : Memory) (watches : Party → Watch) :
    Prop where
  agreed : Agreed memory watches
  core : (ownerCalls labels).foldlM CoreWatch.observe {} = some (watches .owner).core
  results : ∀ before call result,
    labels = before ++ [(.owner, ⟨.finishRuntimeCall call result, ()⟩)] → call ≠ .destroy →
    ResultSound result memory.state

theorem resultSound_of_access {w w' : Watch} {memory : Memory} {call : RuntimeCall}
    {result : RuntimeResult} (howner : OwnerKnows w memory) (hcall : call ≠ .destroy)
    (haccess : w.access .owner ⟨.finishRuntimeCall call result, ()⟩ = some w') :
    ResultSound result memory.state := by
  have hresult : w.result call result = true := (Option.ite_none_right_eq_some.mp haccess).1
  have hterminal : ∀ state, w.ended = true →
      w.final.bind TerminalOutcome.finalState = some state → memory.state = state := by
    intro state hended hstate
    exact Option.some.inj ((howner.terminal hended).symm.trans hstate)
  cases call with
  | destroy => exact absurd rfl hcall
  | _ =>
      cases result with
      | stopped =>
          obtain ⟨hended, hstate⟩ := of_decide_eq_true hresult
          exact ⟨fun _ => hterminal _ hended hstate, nofun⟩
      | runtimeFailed =>
          obtain ⟨hended, hstate⟩ := of_decide_eq_true hresult
          exact ⟨nofun, fun _ => hterminal _ hended hstate⟩
      | _ => exact ⟨nofun, nofun⟩

theorem runtimeHistory_step {labels : List Label} {memory memory' : Memory}
    {watches : Party → Watch} {party : Party} {request : Op} {reply : Result request} {w : Watch}
    (h : RuntimeHistory labels memory watches) (hacts : Acts memory request reply memory')
    (hobserve : observe party (watches party) ⟨request, reply⟩ = some w) :
    RuntimeHistory (labels ++ [(party, ⟨request, reply⟩)]) memory'
      (Function.update watches party w) := by
  refine ⟨(agreed_step h.agreed hacts hobserve).2, ?_, ?_⟩
  · cases party with
    | owner =>
        obtain ⟨core, hcore, hobserve⟩ := Option.bind_eq_some_iff.mp hobserve
        obtain ⟨w₁, -, ⟨⟩⟩ := Option.bind_eq_some_iff.mp hobserve
        rw [ownerCalls_snoc_owner, List.foldlM_append, h.core]
        simpa using hcore
    | helper number =>
        rw [ownerCalls_snoc_helper]
        simpa using h.core
  · intro before call result hlabels hcall
    obtain ⟨-, hlast⟩ := List.append_inj' hlabels rfl
    cases List.singleton_inj.mp hlast
    obtain ⟨w₁, core, haccess, rfl⟩ := access_of_observe hobserve
    cases hacts with
    | finishRuntimeCall => exact resultSound_of_access h.agreed.owner hcall haccess

theorem settled_initial : Settled {} {} where
  final := fun h => absurd rfl h
  inits := Nat.zero_le 1
  initialized := by decide
  terms := Nat.le_refl 0
  begun := fun h => absurd rfl h
  ready := fun h => absurd h (by decide)
  closed := nofun
  stopping := rfl
  ended := fun h => absurd rfl h
  due := fun h => absurd rfl h

/-- In every run of a runtime the core is initialized once at most, resets and executes only
while it is up, and is ended once by the end of the destructor; the observer of a run is called
before each execution and once more before the end; and the results go with the state. -/
theorem core_start_stop_paired {labels : List Label} {last : RuntimeSystem}
    (hrun : Run (Step Acts) RuntimeSystem.initial labels last) :
    CorePaired (ownerCalls labels) ∧
      ∀ before call result,
        labels = before ++ [(.owner, ⟨.finishRuntimeCall call result, ()⟩)] → call ≠ .destroy →
        ResultSound result last.state.state := by
  have hwatched : ∀ party, Watched (monitor party) (fun _ _ => True)
      (RuntimeSystem.initial.threads party) {} := by
    intro party
    cases party with
    | owner => exact watched_runtimeOwner settled_initial
    | helper number => exact watched_lifecycleHelper number
  obtain ⟨watches, hhistory, -⟩ := system_invariant (run_stepIf hrun) hwatched
    (I := RuntimeHistory) ⟨agreed_initial, rfl, by simp⟩ (by
      rintro labels memory watches party request reply memory' h - hacts
      refine ⟨⟨memory, memory', ⟨h.agreed.knows party, ?_⟩, hacts⟩, fun w hobserve => ?_⟩
      · rintro rfl
        exact h.agreed.owner
      · exact runtimeHistory_step h hacts hobserve)
  exact ⟨corePaired_of_foldlM hhistory.core, hhistory.results⟩

/-- An owner that initializes, runs with an observer and destroys. -/
def serveRuntime (memory : Memory) : (request : Op) → Result request × Memory
  | .beginRuntimeCall =>
      (match memory.state with
        | .created => .initializeRuntime
        | .ready => .run (some 1)
        | _ => .destroy, memory)
  | .exitRequested => (true, memory)
  | request => serve memory request

theorem acts_serveRuntime (memory : Memory) (request : Op) :
    Acts memory request (serveRuntime memory request).1 (serveRuntime memory request).2 := by
  cases request with
  | beginRuntimeCall => constructor
  | exitRequested => constructor
  | _ => exact acts_serve memory _

theorem runtime_destroys :
    (execute serveRuntime (fun _ _ => true) (List.replicate 32 .owner) RuntimeSystem.initial).any
      (fun result => (ownerCalls result.1).any isDestroyed && (ownerCalls result.1).any isExec &&
        (ownerCalls result.1).countP isTerm = 1) = true := by
  decide +kernel

theorem core_start_stop_paired_once : ∃ labels last,
    Run (Step Acts) RuntimeSystem.initial labels last ∧
      (ownerCalls labels).any isExec = true ∧ (ownerCalls labels).any isDestroyed = true ∧
      (ownerCalls labels).countP isTerm = 1 ∧ CorePaired (ownerCalls labels) := by
  have hdestroys := runtime_destroys
  rw [Option.any_eq_true] at hdestroys
  obtain ⟨⟨labels, last⟩, hexecute, hresult⟩ := hdestroys
  simp only [Bool.and_eq_true, decide_eq_true_eq] at hresult
  have hrun := run_of_stepIf (execute_run acts_serveRuntime hexecute)
  exact ⟨labels, last, hrun, hresult.1.2, hresult.1.1, hresult.2, (core_start_stop_paired hrun).1⟩

end Contract

end EspNp2.NpRuntime.RuntimeContract
