import EspNp2.Library.ThreadTraces
import EspNp2.NpRuntime.RuntimeContract

/-!
The owner's calls as the operations they perform, whatever the replies: what a call has done
when it returns, and how a sequence of operations of the owner falls into calls.
-/

namespace EspNp2.NpRuntime.CallTraces

open Library.Concurrent
open Library.ThreadTraces
open Lifecycle
open CoreRuntime
open RuntimeContract (Call)

section Calls

/-- A call of the owner, with its result. -/
def callCode : RuntimeCall → Fields → Code (RuntimeResult × Fields)
  | .initializeRuntime, fields => initializeRuntime fields
  | .run observer, fields => run observer fields
  | .destroy, fields => (destroy fields).bind fun fields => .done (.ok, fields)

/-- The end of a round of the owner. -/
def finishing (call : RuntimeCall) (returned : RuntimeResult × Fields) : Code (Fields ⊕ Unit) :=
  .op (.finishRuntimeCall call returned.1) fun _ =>
    .done (if call = .destroy then .inr () else .inl returned.2)

def ownerRound (fields : Fields) : Code (Fields ⊕ Unit) :=
  .op .beginRuntimeCall fun call => (callCode call fields).bind (finishing call)

/-- The owner between two calls. -/
def ownerFrom (fields : Fields) : Code Unit := iterate ownerRound fields

theorem runtimeOwner_eq : runtimeOwner = ownerFrom {} := by
  unfold runtimeOwner ownerFrom
  congr 1
  funext fields
  unfold ownerRound
  change Thread.op Op.beginRuntimeCall _ = Thread.op Op.beginRuntimeCall _
  congr 1
  funext call
  cases call with
  | initializeRuntime => rfl
  | run observer => rfl
  | destroy =>
      change _ = Thread.bind (Thread.bind _ _) _
      rw [Thread.bind_assoc]
      rfl

/-- What the owner does behind the body of a call. -/
def closing (call : RuntimeCall) (returned : RuntimeResult × Fields) : Code Unit :=
  .op (.finishRuntimeCall call returned.1) fun _ =>
    if call = .destroy then .done () else ownerFrom returned.2

theorem unroll_ownerRound (fields : Fields) :
    Thread.unroll ownerRound fields .done =
      .op .beginRuntimeCall fun call => (callCode call fields).bind (closing call) := by
  rw [unroll_eq_bind, ownerRound]
  change Thread.op _ _ = _
  congr 1
  funext call
  change Thread.bind (Thread.bind _ _) _ = _
  rw [Thread.bind_assoc]
  congr 1
  funext returned
  change Thread.op _ _ = Thread.op _ _
  congr 1
  funext _
  split_ifs <;> rfl

/-- The first operation of the owner begins a call. -/
theorem performs_ownerFrom_cons_iff {fields : Fields} {label : Call} {labels : List Call} :
    Performs (ownerFrom fields) (label :: labels) ↔
      ∃ call, label = ⟨.beginRuntimeCall, call⟩ ∧
        (Performs (callCode call fields) labels ∨ ∃ body returned more, labels = body ++ more ∧
          Returns (callCode call fields) body returned ∧ Performs
            (closing call returned) more) := by
  have hloop : Performs (ownerFrom fields) (label :: labels) ↔
      Performs (Thread.unroll ownerRound fields .done) (label :: labels) :=
    ⟨performs_unroll, performs_loop⟩
  rw [hloop, unroll_ownerRound, performs_op_cons_iff]
  simp only [performs_bind_iff]

theorem performs_closing_cons_iff {call : RuntimeCall} {returned : RuntimeResult × Fields}
    {label : Call} {labels : List Call} :
    Performs (closing call returned) (label :: labels) ↔
      label = ⟨.finishRuntimeCall call returned.1, ()⟩ ∧
        Performs (if call = .destroy then .done () else ownerFrom returned.2) labels := by
  rw [closing, performs_op_cons_iff]
  constructor
  · rintro ⟨reply, rfl, hrest⟩
    exact ⟨rfl, hrest⟩
  · rintro ⟨rfl, hrest⟩
    exact ⟨(), rfl, hrest⟩

/-- An operation inside a call: neither its begin nor its end. -/
def inCall : Call → Bool
  | ⟨.beginRuntimeCall, _⟩ => false
  | ⟨.finishRuntimeCall _ _, _⟩ => false
  | _ => true

end Calls

section Inside

variable {fields : Fields} {observer : Option Observer}

abbrev Inside {α : Type} (p : Code α) : Prop := Interior (fun label => inCall label = true) p

theorem inside_perform {request : Op} (h : ∀ reply, inCall ⟨request, reply⟩ = true) :
    Inside (perform request) :=
  interior_op h fun _ => interior_done _

theorem inside_advance (expected desired : State) : Inside (advance expected desired) :=
  interior_op (fun _ => rfl) fun _ => interior_done _

theorem inside_claimExternalStop : Inside claimExternalStop := by
  refine Interior.iterate (fun current => ?_) _
  split
  · exact interior_done _
  split
  · exact interior_done _
  · exact interior_op (fun _ => rfl) fun _ => interior_done _

theorem inside_claimFatal : Inside claimFatal := by
  refine interior_op (fun _ => rfl) fun expected => Interior.iterate (fun current => ?_) _
  split
  · exact interior_done _
  split
  · exact interior_done _
  · exact interior_op (fun _ => rfl) fun _ => interior_done _

theorem inside_requestStop : Inside requestStop := by
  refine interior_op (fun _ => rfl) fun state => Interior.iterate (fun current => ?_) _
  split
  · exact interior_done _
  split
  · exact interior_done _
  split
  · exact interior_done _
  · exact Interior.bind inside_claimExternalStop fun _ =>
      interior_op (fun _ => rfl) fun _ => interior_done _

theorem inside_markFailure : Inside markFailure := by
  refine Interior.bind inside_claimFatal fun claimed => ?_
  change Inside (if ¬ claimed = true then _ else _)
  split
  · exact interior_done _
  refine interior_op (fun _ => rfl) fun state => Interior.iterate (fun current => ?_) _
  split
  · exact interior_done _
  split
  · exact interior_done _
  split
  · exact interior_done _
  · exact interior_op (fun _ => rfl) fun _ => interior_done _

theorem inside_beginStopping : Inside beginStopping := by
  refine interior_op (fun _ => rfl) fun state => Interior.iterate (fun current => ?_) _
  split
  · exact interior_done _
  split
  · exact interior_done _
  · exact interior_op (fun _ => rfl) fun _ => interior_done _

theorem inside_finishCleanup : Inside finishCleanup := by
  refine interior_op (fun _ => rfl) fun state => ?_
  change Inside (if state ≠ .stopping then _ else _)
  split
  · exact interior_done _
  refine interior_op (fun _ => rfl) fun expected => Interior.iterate (fun current => ?_) _
  cases finalize current with
  | none => exact interior_done _
  | some final =>
      refine interior_op (fun _ => rfl) fun reply => ?_
      change Inside (if reply.1 = true then _ else _)
      split
      · exact interior_op (fun _ => rfl) fun _ => interior_done _
      · exact interior_done _

theorem inside_endCore : Inside (endCore observer fields) := by
  unfold endCore
  split
  · cases observer.or fields.ownerObserver with
    | none => exact interior_op (fun _ => rfl) fun _ => interior_done _
    | some cleanupObserver =>
        exact interior_op (fun _ => rfl) fun _ => interior_op (fun _ => rfl) fun _ =>
          interior_done _
  · exact interior_done _

theorem inside_cleanup : Inside (cleanup observer fields) := by
  refine Interior.bind inside_beginStopping fun stopping => ?_
  change Inside (if ¬ stopping = true then _ else _)
  split
  · refine interior_op (fun _ => rfl) fun state => ?_
    change Inside (if state = .stopped then _ else _)
    split
    · exact interior_done _
    refine interior_op (fun _ => rfl) fun state => ?_
    change Inside (if state = .failed then _ else _)
    split <;> exact interior_done _
  · exact Interior.bind inside_endCore fun _ => Interior.bind inside_finishCleanup fun _ =>
      interior_op (fun _ => rfl) fun _ => interior_done _

theorem inside_initializeRuntime : Inside (initializeRuntime fields) := by
  refine interior_op (fun _ => rfl) fun state => ?_
  change Inside (if state = .stopRequested ∧ ¬ fields.coreInitialized = true then _ else _)
  split
  · exact inside_cleanup
  refine Interior.bind (inside_advance _ _) fun begun => ?_
  change Inside (if ¬ begun = true then _ else _)
  split
  · exact interior_done _
  refine interior_op (fun _ => rfl) fun state => ?_
  change Inside (if stopRequested state = true then _ else _)
  split
  · exact inside_cleanup
  refine interior_op (fun _ => rfl) fun _ => interior_op (fun _ => rfl) fun _ => ?_
  change Inside (Thread.bind completeInitialization _)
  refine Interior.bind (inside_advance _ _) fun ready => ?_
  change Inside (if ¬ ready = true then _ else _)
  split
  · exact Interior.bind inside_cleanup fun _ => interior_op (fun _ => rfl) fun _ => interior_done _
  · exact interior_done _

theorem inside_runLoop : Inside (runLoop observer) := by
  refine Interior.iterate (fun _ => ?_) _
  refine interior_op (fun _ => rfl) fun state => ?_
  change Inside (if stopRequested state = true then _ else _)
  split
  · exact interior_done _
  have hask : Inside (askObserver observer) := by
    cases observer with
    | none => exact interior_done _
    | some observer => exact inside_perform fun _ => rfl
  refine Interior.bind hask fun stop => ?_
  change Inside (if stop = true then _ else _)
  split
  · exact Interior.bind inside_requestStop fun _ => interior_done _
  refine interior_op (fun _ => rfl) fun _ => interior_op (fun _ => rfl) fun error => ?_
  change Inside (if error = true then _ else _)
  split
  · exact Interior.bind inside_markFailure fun _ => interior_done _
  refine interior_op (fun _ => rfl) fun exit => ?_
  change Inside (if exit = true then _ else _)
  split
  · exact Interior.bind inside_requestStop fun _ => interior_done _
  · exact interior_done _

theorem inside_run : Inside (run observer fields) := by
  change Inside (Thread.bind beginRunning _)
  refine Interior.bind (inside_advance _ _) fun running => ?_
  change Inside (if ¬ running = true then _ else _)
  split
  · refine interior_op (fun _ => rfl) fun state => ?_
    change Inside (if state = .stopRequested then _ else _)
    split
    · exact inside_cleanup
    · exact interior_done _
  · exact Interior.bind inside_runLoop fun _ => inside_cleanup

theorem inside_destroy : Inside (destroy fields) := by
  have hstop : Inside (requestStop.bind fun _ => (cleanup none fields).bind fun returned =>
      Thread.done returned.2) :=
    Interior.bind inside_requestStop fun _ => Interior.bind inside_cleanup fun _ => interior_done _
  unfold destroy
  split
  · exact hstop
  refine interior_op (fun _ => rfl) fun state => ?_
  change Inside (if state = .created then _ else _)
  split
  · exact interior_done _
  refine interior_op (fun _ => rfl) fun state => ?_
  change Inside (if state = .stopped then _ else _)
  split
  · exact interior_done _
  refine interior_op (fun _ => rfl) fun state => ?_
  change Inside (if state = .failed then _ else _)
  split
  · exact interior_done _
  · exact hstop

theorem inside_callCode (call : RuntimeCall) (fields : Fields) : Inside (callCode call fields) := by
  cases call with
  | initializeRuntime => exact inside_initializeRuntime
  | run observer => exact inside_run
  | destroy => exact Interior.bind inside_destroy fun _ => interior_done _

end Inside

section Sequences

/-- Calls that the owner has completed, the destructor not among them, and the fields they
leave. -/
inductive Passes : Fields → List Call → Fields → Prop
  | nil (fields : Fields) : Passes fields [] fields
  | call {fields last : Fields} {call : RuntimeCall} {returned : RuntimeResult × Fields}
      {body more : List Call} (hcall : call ≠ .destroy)
      (hbody : Returns (callCode call fields) body returned) (hmore : Passes returned.2 more last) :
      Passes fields
        (⟨.beginRuntimeCall, call⟩ :: (body ++ ⟨.finishRuntimeCall call returned.1, ()⟩ :: more))
          last

variable {fields last : Fields} {call : RuntimeCall}

theorem Passes.performs {calls more : List Call} (h : Passes fields calls last)
    (hmore : Performs (ownerFrom last) more) : Performs (ownerFrom fields) (calls ++ more) := by
  induction h with
  | nil => exact hmore
  | @call fields last call returned body rest hcall hbody _ ih =>
      rw [List.cons_append, List.append_assoc, List.cons_append]
      refine performs_ownerFrom_cons_iff.mpr ⟨call, rfl, Or.inr ⟨body, returned, _, rfl, hbody, ?_⟩⟩
      rw [performs_closing_cons_iff, if_neg hcall]
      exact ⟨rfl, ih hmore⟩

/-- Where a call begins, everything before it is a sequence of completed calls. -/
theorem passes_of_performs {before more : List Call}
    (h : Performs (ownerFrom fields) (before ++ ⟨.beginRuntimeCall, call⟩ :: more)) :
    ∃ middle, Passes fields before middle ∧
      Performs (ownerFrom middle) (⟨.beginRuntimeCall, call⟩ :: more) := by
  induction hlength : before.length using Nat.strongRecOn generalizing before fields with
  | ind length ih =>
      subst hlength
      cases before with
      | nil => exact ⟨fields, .nil fields, h⟩
      | cons label before =>
          rw [List.cons_append] at h
          rcases performs_ownerFrom_cons_iff.mp h with
            ⟨first, rfl, hnow | ⟨body, returned, after, hsplit, hbody, hafter⟩⟩
          · have hcall := inside_callCode first fields _ hnow ⟨.beginRuntimeCall, call⟩ (by simp)
            cases hcall
          · have hinside := inside_callCode first fields body (performs_of_returns hbody)
            have hclosing : ∀ more, ¬ Performs (closing first returned)
                (⟨.beginRuntimeCall, call⟩ :: more) := by
              intro more h
              exact absurd (performs_closing_cons_iff.mp h).1 nofun
            rcases List.append_eq_append_iff.mp hsplit with ⟨between, rfl, hmore⟩ |
              ⟨between, rfl, rfl⟩
            · cases between with
              | nil => exact absurd (hmore ▸ hafter) (hclosing more)
              | cons other between =>
                  rw [List.cons_append, List.cons.injEq] at hmore
                  exact absurd (hinside other (by simp)) (by rw [← hmore.1]; nofun)
            · cases between with
              | nil => exact absurd hafter (hclosing more)
              | cons label between =>
                  rw [List.cons_append, performs_closing_cons_iff] at hafter
                  rcases hafter with ⟨rfl, hafter⟩
                  have hfirst : first ≠ .destroy := by
                    intro hdestroy
                    rw [if_pos hdestroy] at hafter
                    exact absurd (performs_done hafter) (by simp)
                  rw [if_neg hfirst] at hafter
                  rcases ih _ (by simp; omega) hafter rfl with ⟨middle, hpasses, hmiddle⟩
                  exact ⟨middle, .call hfirst hbody hpasses, hmiddle⟩

/-- A call that has come to its end in a sequence of operations. -/
theorem performs_call {body more : List Call} {ended : RuntimeCall} {result : RuntimeResult}
    (h : Performs (ownerFrom fields)
      (⟨.beginRuntimeCall, call⟩ :: (body ++ ⟨.finishRuntimeCall ended result, ()⟩ :: more)))
    (hinside : ∀ label ∈ body, inCall label = true) :
    ended = call ∧ ∃ fields', Returns (callCode call fields) body (result, fields') ∧
      (call ≠ .destroy → Performs (ownerFrom fields') more) := by
  rcases performs_ownerFrom_cons_iff.mp h with
    ⟨first, hfirst, hnow | ⟨body', ⟨result', fields'⟩, after, hsplit, hbody, hafter⟩⟩
  · have hcall := inside_callCode first fields _ hnow ⟨.finishRuntimeCall ended result,
      ()⟩ (by simp)
    cases hcall
  · cases hfirst
    have hinside' := inside_callCode call fields body' (performs_of_returns hbody)
    have hclosing : ∀ {label after}, Performs (closing call (result', fields')) (label :: after) →
        inCall label = false := by
      intro label after h
      rw [(performs_closing_cons_iff.mp h).1]
      rfl
    have hsame : body = body' ∧ ⟨.finishRuntimeCall ended result, ()⟩ :: more = after := by
      rcases List.append_eq_append_iff.mp hsplit with ⟨between, hbody', hmore⟩ |
        ⟨between, hbody', hafter'⟩
      · cases between with
        | nil => exact ⟨by simpa using hbody'.symm, hmore⟩
        | cons other between =>
            rw [List.cons_append, List.cons.injEq] at hmore
            exact absurd (hinside' other (by simp [hbody'])) (by rw [← hmore.1]; nofun)
      · cases between with
        | nil => exact ⟨by simpa using hbody', hafter'.symm⟩
        | cons other between =>
            rw [hafter'] at hafter
            exact absurd (hinside other (by simp [hbody'])) (by rw [hclosing hafter]; nofun)
    rcases hsame with ⟨rfl, rfl⟩
    rcases performs_closing_cons_iff.mp hafter with ⟨hfinish, hmore⟩
    cases hfinish
    refine ⟨rfl, fields', hbody, fun hcall => ?_⟩
    rwa [if_neg hcall] at hmore

end Sequences

section Bodies

variable {fields fields' : Fields} {observer : Option Observer} {labels : List Call}
  {result : RuntimeResult}

theorem returns_endCore (h : Returns (endCore observer fields) labels fields') :
    fields' = { fields with coreInitialized := false } := by
  unfold endCore at h
  split at h
  · cases hobserver : observer.or fields.ownerObserver with
    | none =>
        rw [hobserver] at h
        rcases returns_op_iff.mp h with ⟨_, _, -, hrest⟩
        exact (returns_done_iff.mp hrest).2.symm
    | some cleanupObserver =>
        rw [hobserver] at h
        rcases returns_op_iff.mp h with ⟨_, _, -, hrest⟩
        rcases returns_op_iff.mp hrest with ⟨_, _, -, hrest⟩
        exact (returns_done_iff.mp hrest).2.symm
  · rename_i hcore
    rw [← (returns_done_iff.mp h).2]
    cases fields with
    | mk coreInitialized ownerObserver => simp_all

theorem outcomeResult_ne_invalidState (outcome : TerminalOutcome) :
    outcomeResult outcome ≠ .invalidState := by
  unfold outcomeResult
  split_ifs <;> nofun

/-- The reply of an operation shows the state. -/
def Shows (state : State) (label : Call) : Prop :=
  label = ⟨.loadState, state⟩ ∨
    ∃ weak expected desired, label = ⟨.casState weak expected desired, (false, state)⟩

/-- `begin_stopping` refuses when it has seen a terminal state. -/
theorem returns_beginStopping_false (h : Returns beginStopping labels false) :
    ∃ before label state, labels = before ++ [label] ∧ Shows state label ∧
      (state = .stopped ∨ state = .failed) := by
  rcases returns_op_iff.mp h with ⟨start, rest, rfl, hloop⟩
  have hround := returns_iterate (P := fun current labels result => result = false →
      (labels = [] ∧ (current = .stopped ∨ current = .failed)) ∨
      ∃ before label state, labels = before ++ [label] ∧ Shows state label ∧
        (state = .stopped ∨ state = .failed)) ?_ ?_ hloop rfl
  · rcases hround with ⟨rfl, hstate⟩ | ⟨before, label, state, rfl, hshows, hstate⟩
    · exact ⟨[], _, start, rfl, Or.inl rfl, hstate⟩
    · exact ⟨_ :: before, label, state, rfl, hshows, hstate⟩
  · rintro current labels result hbody rfl
    by_cases hstopping : current = .stopping
    · rw [if_pos hstopping] at hbody
      exact absurd (returns_done_iff.mp hbody).2 (by rintro ⟨⟩)
    rw [if_neg hstopping] at hbody
    by_cases hterminal : current = .stopped ∨ current = .failed ∨ ¬ current.active = true
    · rw [if_pos hterminal] at hbody
      refine Or.inl ⟨(returns_done_iff.mp hbody).1, ?_⟩
      cases current <;> simp_all [State.active]
    · rw [if_neg hterminal] at hbody
      rcases returns_op_iff.mp hbody with ⟨⟨exchanged, found⟩, rest, rfl, hrest⟩
      have hvalue := (returns_done_iff.mp hrest).2
      cases exchanged <;> cases hvalue
  · rintro current labels again more result hbody hmore rfl
    by_cases hstopping : current = .stopping
    · rw [if_pos hstopping] at hbody
      exact absurd (returns_done_iff.mp hbody).2 (by rintro ⟨⟩)
    rw [if_neg hstopping] at hbody
    by_cases hterminal : current = .stopped ∨ current = .failed ∨ ¬ current.active = true
    · rw [if_pos hterminal] at hbody
      exact absurd (returns_done_iff.mp hbody).2 (by rintro ⟨⟩)
    · rw [if_neg hterminal] at hbody
      rcases returns_op_iff.mp hbody with ⟨⟨exchanged, found⟩, rest, rfl, hrest⟩
      rcases returns_done_iff.mp hrest with ⟨rfl, hvalue⟩
      cases exchanged with
      | true => cases hvalue
      | false =>
          cases hvalue
          rcases hmore rfl with ⟨rfl, hstate⟩ | ⟨before, label, state, rfl, hshows, hstate⟩
          · exact Or.inr ⟨[], _, again, rfl, Or.inr ⟨_, _, _, rfl⟩, hstate⟩
          · exact Or.inr ⟨_ :: before, label, state, rfl, hshows, hstate⟩

/-- What a call of `cleanup` has done: it has ended the runtime, or it was refused and has read
the state once or twice more. -/
theorem returns_cleanup (h : Returns (cleanup observer fields) labels (result, fields')) :
    (result ≠ .invalidState ∧ fields' = { coreInitialized := false, ownerObserver := none }) ∨
      fields' = fields ∧ ∃ before label state seen more, labels = before ++ label :: seen :: more ∧
        Shows state label ∧ (state = .stopped ∨ state = .failed) ∧
        (seen = ⟨.loadState, .stopped⟩ ∧ result = .stopped ∨
          (∃ other, other ≠ .stopped ∧ seen = ⟨.loadState, other⟩) ∧
            ∃ other, more = [⟨.loadState, other⟩] ∧
              (result = .invalidState → other ≠ .failed)) := by
  rcases returns_bind_iff.mp h with ⟨first, stopping, second, rfl, hstopping, hrest⟩
  cases stopping with
  | false =>
      rcases returns_beginStopping_false hstopping with
        ⟨before, label, state, rfl, hshows, hstate⟩
      rcases returns_op_iff.mp hrest with ⟨seen, rest, rfl, hread⟩
      change Returns (if seen = .stopped then _ else _) _ _ at hread
      have hlabels : ∀ rest, before ++ [label] ++ (⟨.loadState, seen⟩ : Call) :: rest =
          before ++ label :: ⟨.loadState, seen⟩ :: rest := by
        simp
      rw [hlabels]
      split at hread
      · rename_i hseen
        rcases returns_done_iff.mp hread with ⟨rfl, hvalue⟩
        cases hvalue
        exact Or.inr ⟨rfl, before, label, state, _, _, rfl, hshows, hstate,
          Or.inl ⟨by rw [hseen], rfl⟩⟩
      · rename_i hseen
        rcases returns_op_iff.mp hread with ⟨other, rest, rfl, hagain⟩
        change Returns (if other = .failed then _ else _) _ _ at hagain
        split at hagain
        · rcases returns_done_iff.mp hagain with ⟨rfl, hvalue⟩
          cases hvalue
          exact Or.inr ⟨rfl, before, label, state, _, _, rfl, hshows, hstate,
            Or.inr ⟨⟨seen, hseen, rfl⟩, other, rfl, nofun⟩⟩
        · rename_i hother
          rcases returns_done_iff.mp hagain with ⟨rfl, hvalue⟩
          cases hvalue
          exact Or.inr ⟨rfl, before, label, state, _, _, rfl, hshows, hstate,
            Or.inr ⟨⟨seen, hseen, rfl⟩, other, rfl, fun _ => hother⟩⟩
  | true =>
      rcases returns_bind_iff.mp hrest with ⟨_, ended, rest, rfl, hended, hrest⟩
      rcases returns_bind_iff.mp hrest with ⟨_, finished, last, rfl, -, hrest⟩
      rcases returns_op_iff.mp hrest with ⟨outcome, _, -, hrest⟩
      have hvalue := (returns_done_iff.mp hrest).2
      cases hvalue
      refine Or.inl ⟨outcomeResult_ne_invalidState outcome, ?_⟩
      rw [returns_endCore hended]

/-- What a call of `initialize` has done. -/
theorem returns_initializeRuntime
    (h : Returns (initializeRuntime fields) labels (result, fields')) :
    (∃ rest, labels = ⟨.loadState, .stopRequested⟩ :: rest ∧ fields.coreInitialized = false ∧
      Returns (cleanup none fields) rest (result, fields')) ∨
    ∃ seen tried rest, labels = ⟨.loadState, seen⟩ ::
        ⟨.casState false .created .initializing, tried⟩ :: rest ∧
      (fields.coreInitialized = false → seen ≠ .stopRequested) ∧
      (tried.1 = false ∧ rest = [] ∧ result = .invalidState ∧ fields' = fields ∨
        tried.1 = true ∧ ∃ state rest', rest = ⟨.loadState, state⟩ :: rest' ∧
          (stopRequested state = true ∧ Returns (cleanup none fields) rest' (result, fields') ∨
            stopRequested state = false ∧ ∃ ready rest'',
              rest' = ⟨.pccoreInit, ()⟩ :: ⟨.pccoreReset, ()⟩ ::
                ⟨.casState false .initializing .ready, ready⟩ :: rest'' ∧
              (ready.1 = true ∧ result = .ok ∧
                  fields' = { fields with coreInitialized := true } ∨
                ready.1 = false ∧ result ≠ .ok ∧ result ≠ .invalidState ∧
                  ∃ cleaned : List Call × RuntimeResult,
                    Returns (cleanup none { fields with coreInitialized := true })
                    cleaned.1 (cleaned.2, fields')))) := by
  rcases returns_op_iff.mp h with ⟨seen, rest, rfl, hrest⟩
  change Returns (if seen = .stopRequested ∧ ¬ fields.coreInitialized = true then _ else _) _ _
    at hrest
  split at hrest
  · rename_i hstop
    rw [hstop.1]
    exact Or.inl ⟨rest, rfl, by simpa using hstop.2, hrest⟩
  rename_i hstop
  have hseen : fields.coreInitialized = false → seen ≠ .stopRequested := by
    intro hcore hseen
    exact hstop ⟨hseen, by simp [hcore]⟩
  rcases returns_op_iff.mp hrest with ⟨tried, rest, rfl, hbegun⟩
  refine Or.inr ⟨seen, tried, rest, rfl, hseen, ?_⟩
  change Returns (if ¬ tried.1 = true then _ else _) _ _ at hbegun
  split at hbegun
  · rename_i htried
    rcases returns_done_iff.mp hbegun with ⟨rfl, hvalue⟩
    cases hvalue
    exact Or.inl ⟨by simpa using htried, rfl, rfl, rfl⟩
  rename_i htried
  rcases returns_op_iff.mp hbegun with ⟨state, rest, rfl, hstate⟩
  refine Or.inr ⟨by simpa using htried, state, rest, rfl, ?_⟩
  change Returns (if stopRequested state = true then _ else _) _ _ at hstate
  split at hstate
  · rename_i hstop
    exact Or.inl ⟨hstop, hstate⟩
  rename_i hstop
  rcases returns_op_iff.mp hstate with ⟨_, rest, rfl, hinit⟩
  rcases returns_op_iff.mp hinit with ⟨_, rest, rfl, hreset⟩
  rcases returns_op_iff.mp hreset with ⟨ready, rest, rfl, hcomplete⟩
  refine Or.inr ⟨by simpa using hstop, ready, rest, rfl, ?_⟩
  change Returns (if ¬ ready.1 = true then _ else _) _ _ at hcomplete
  split at hcomplete
  · rename_i hready
    rcases returns_bind_iff.mp hcomplete with ⟨first, cleaned, last, rfl, hcleaned, hlast⟩
    rcases returns_op_iff.mp hlast with ⟨outcome, _, -, hvalue⟩
    cases (returns_done_iff.mp hvalue).2
    refine Or.inr ⟨by simpa using hready, ?_, outcomeResult_ne_invalidState outcome,
      (first, cleaned.1), hcleaned⟩
    unfold outcomeResult
    split_ifs <;> nofun
  · rename_i hready
    cases (returns_done_iff.mp hcomplete).2
    exact Or.inl ⟨by simpa using hready, rfl, rfl⟩

/-- A call of `run` that is refused stores its observer all the same. -/
theorem returns_run_invalidState
    (h : Returns (run observer fields) labels (.invalidState, fields')) :
    (fields' = { fields with ownerObserver := observer } ∧ ∃ tried state,
      tried.1 = false ∧ labels = [⟨.casState false .ready .running, tried⟩, ⟨.loadState, state⟩]) ∨
    ∃ before rest fields, labels = before ++ rest ∧
      Returns (cleanup observer fields) rest (.invalidState, fields') := by
  change Returns (Thread.bind beginRunning _) _ _ at h
  rcases returns_op_iff.mp h with ⟨tried, rest, rfl, hrest⟩
  change Returns (if ¬ tried.1 = true then _ else _) _ _ at hrest
  split at hrest
  · rename_i htried
    rcases returns_op_iff.mp hrest with ⟨state, rest, rfl, hstate⟩
    change Returns (if state = .stopRequested then _ else _) _ _ at hstate
    split at hstate
    · exact Or.inr ⟨[_, _], rest, _, rfl, hstate⟩
    · rcases returns_done_iff.mp hstate with ⟨rfl, hvalue⟩
      cases hvalue
      exact Or.inl ⟨rfl, tried, state, by simpa using htried, rfl⟩
  · rcases returns_bind_iff.mp hrest with ⟨first, _, second, rfl, -, hcleanup⟩
    exact Or.inr ⟨_ :: first, second, _, rfl, hcleanup⟩

end Bodies

end EspNp2.NpRuntime.CallTraces
