import EspNp2.NpRuntime.CoreRuntime
import EspNp2.NpRuntime.LifecycleContract

/-!
The calls of the runtime under the monitor.  `Coherent` ties the owner's fields to the calls
of the core that the monitor has counted.
-/

namespace EspNp2.NpRuntime.RuntimeCalls

open Library.Concurrent
open Lifecycle
open LifecycleMonitor
open LifecycleInvariant
open LifecycleCalls
open LifecycleContract
open CoreRuntime

section Coherence

variable {w w' : Watch} {fields : Fields}

/-- What the owner's fields say of the core. -/
structure Coherent (w : Watch) (fields : Fields) : Prop where
  final : w.final ≠ none → w.ended = true
  inits : w.core.inits ≤ 1
  initialized : fields.coreInitialized = true ↔ w.core.inits = 1 ∧ w.core.terms = 0
  terms : w.core.terms ≤ w.core.inits
  begun : w.core.inits ≠ 0 → w.reached ≠ 0
  ready : 2 ≤ w.reached → w.core.inits = 1
  closed : w.ended = true → w.core.terms = w.core.inits

/-- Between the calls: the core ends with the life cycle, and the observer of a run that has
reached `running` is no longer due. -/
structure Settled (w : Watch) (fields : Fields) : Prop extends Coherent w fields where
  stopping : w.stopping = false
  ended : w.core.terms ≠ 0 → w.ended = true
  due : w.core.due ≠ none → w.ended = true

theorem Coherent.terms_eq (h : Coherent w fields) (hinitialized : ¬ fields.coreInitialized = true) :
    w.core.terms = w.core.inits := by
  have hnot := mt h.initialized.mpr hinitialized
  have hinits := h.inits
  have hterms := h.terms
  omega

theorem Settled.due_none (h : Settled w fields) (hinitialized : fields.coreInitialized = true) :
    w.core.due = none := by
  by_contra hdue
  obtain ⟨hinits, hterms⟩ := h.initialized.mp hinitialized
  have hclosed := h.closed (h.due hdue)
  omega

theorem coherent_of_frame (hframe : frame w' = frame w) (h : Coherent w fields) :
    Coherent w' fields := by
  have hw : Coherent (frame w) fields := { h with }
  rw [← hframe] at hw
  exact { hw with }

theorem settled_of_frame (hframe : frame w' = frame w) (h : Settled w fields) :
    Settled w' fields := by
  have hw : Settled (frame w) fields := { h with }
  rw [← hframe] at hw
  exact { hw with }

/-- A result that goes with the state at the end. -/
def Honest (w : Watch) (result : RuntimeResult) : Prop :=
  (result = .stopped → w.ended = true ∧ w.final.bind TerminalOutcome.finalState = some .stopped) ∧
  (result = .runtimeFailed →
    w.ended = true ∧ w.final.bind TerminalOutcome.finalState = some .failed)

theorem honest_outcomeResult {memory : Memory} (howner : OwnerKnows w memory)
    (hended : w.ended = true) : Honest w (outcomeResult memory.outcome) := by
  obtain ⟨outcome, hfinal, hstate⟩ := Option.bind_eq_some_iff.mp (howner.terminal hended)
  obtain ⟨houtcome, -⟩ := (howner.final outcome).mp hfinal
  rw [outcomeResult, houtcome, Honest, hfinal]
  cases outcome <;> simp_all [TerminalOutcome.failure, TerminalOutcome.finalState]

theorem honest_seeOutcome {outcome : TerminalOutcome} {result : RuntimeResult}
    (h : Honest w result) : Honest (w.seeOutcome outcome) result := h

end Coherence

section Cleanup

variable {w : Watch} {fields : Fields} {observer : Option Observer}

/-- A call that changes only what is known of the core. -/
theorem watched_core {α : Type} {post : Watch → α → Prop} {request : Op}
    {next : Result request → Code α} (core : Result request → CoreWatch)
    (haccess : ∀ reply, w.access .owner ⟨request, reply⟩ = some w)
    (hcore : ∀ reply, w.core.observe ⟨request, reply⟩ = some (core reply))
    (h : ∀ reply, Watched (monitor .owner) post (next reply) { w with core := core reply }) :
    Watched (monitor .owner) post (.op request next) w := by
  refine watched_op_iff.mpr fun reply _ => ⟨_, ?_, h reply⟩
  simp [monitor, observe, haccess, hcore]

/-- A core that is up is ended, behind a call of the observer that is due. -/
theorem watched_endCore (hcoherent : Coherent w fields)
    (hdue : fields.coreInitialized = true → w.core.due ≠ none →
      observer.or fields.ownerObserver = w.core.due) :
    Watched (monitor .owner) (fun w' fields' => fields'.coreInitialized = false ∧
      fields'.ownerObserver = fields.ownerObserver ∧
      ∃ observed,
        w' = { w with core := { w.core with terms := w.core.inits, observed := observed } })
      (endCore observer fields) w := by
  rw [endCore]
  split
  · rename_i hinitialized
    obtain ⟨hinits, hterms⟩ := hcoherent.initialized.mp hinitialized
    have hdue := hdue hinitialized
    split
    · rename_i cleanupObserver hobserver
      have hobserved : w.core.due ≠ none →
          (w.core.observed || w.core.due = some cleanupObserver) = true := by
        intro h
        rw [hobserver] at hdue
        simp [← hdue h]
      refine watched_core (fun _ => { w.core with
        observed := w.core.observed || w.core.due = some cleanupObserver }) (fun _ => rfl)
        (fun _ => rfl) fun _ => ?_
      refine watched_core (fun _ => { w.core with
        terms := 1, observed := w.core.observed || w.core.due = some cleanupObserver })
        (fun _ => rfl) (fun _ => if_pos ⟨hinits, hterms, hobserved⟩) fun _ => ?_
      refine watched_done_iff.mpr ⟨rfl, rfl,
        w.core.observed || w.core.due = some cleanupObserver, ?_⟩
      rw [hinits]
    · rename_i hobserver
      have hobserved : w.core.due ≠ none → w.core.observed = true := by
        intro h
        exact absurd (hobserver ▸ hdue h).symm h
      refine watched_core (fun _ => { w.core with terms := 1 }) (fun _ => rfl)
        (fun _ => if_pos ⟨hinits, hterms, hobserved⟩) fun _ => ?_
      refine watched_done_iff.mpr ⟨rfl, rfl, w.core.observed, ?_⟩
      rw [hinits]
  · rename_i hinitialized
    refine watched_done_iff.mpr ⟨by simpa using hinitialized, rfl, w.core.observed, ?_⟩
    rw [← hcoherent.terms_eq hinitialized]

theorem watched_cleanup (hcoherent : Coherent w fields) 
    (hdue : fields.coreInitialized = true → w.core.due ≠ none →
      observer.or fields.ownerObserver = w.core.due) :
    Watched (monitor .owner) (fun w' result => Honest w' result.1 ∧ Settled w' result.2 ∧
      w'.ended = true) (cleanup observer fields) w := by
  refine Watched.bind (watched_beginStopping.mono ?_)
  rintro w₁ stopping hstopping
  cases stopping with
  | false =>
      obtain ⟨hframe, hended⟩ := hstopping
      have hended₁ : w₁.ended = true := (congrArg (·.ended) hframe).trans hended
      have hcoherent₁ := coherent_of_frame hframe hcoherent
      refine watched_loadState fun memory hfits => ?_
      have howner := hfits.owner rfl
      have hstopping : w₁.stopping = false := by
        rw [Bool.eq_false_iff, Ne, howner.stopping]
        intro h
        have := howner.ended.mp hended₁
        simp [h] at this
      have hsettled : Settled w₁ fields :=
        { hcoherent₁ with
          stopping := hstopping, ended := fun _ => hended₁, due := fun _ => hended₁ }
      have hterminal := howner.terminal hended₁
      change Watched _ _ (if memory.state = .stopped then _ else _) _
      split
      · rename_i hstate
        rw [hstate] at hterminal
        exact watched_done_iff.mpr ⟨⟨fun _ => ⟨hended₁, hterminal⟩, nofun⟩,
          { hsettled with }, hended₁⟩
      refine watched_loadState fun memory hfits => ?_
      have hterminal := (hfits.owner rfl).terminal hended₁
      change Watched _ _ (if memory.state = .failed then _ else _) _
      split
      · rename_i hstate
        rw [hstate] at hterminal
        exact watched_done_iff.mpr ⟨⟨nofun, fun _ => ⟨hended₁, hterminal⟩⟩,
          { hsettled with }, hended₁⟩
      · exact watched_done_iff.mpr ⟨⟨nofun, nofun⟩, { hsettled with }, hended₁⟩
  | true =>
      have hcoherent₁ : Coherent w₁ fields := coherent_of_frame hstopping { hcoherent with }
      have hcore : w₁.core = w.core := congrArg (·.core) hstopping
      refine Watched.bind ((watched_endCore hcoherent₁ (hcore ▸ hdue)).mono ?_)
      rintro w₂ fields₂ ⟨hinitialized, -, observed, hw₂⟩
      have hfinal₂ : w₂.final ≠ none → w₂.ended = true := hw₂ ▸ hcoherent₁.final
      have hstopping₂ : w₂.stopping = true := hw₂ ▸ congrArg (·.stopping) hstopping
      refine Watched.bind ((watched_finishCleanup hfinal₂).mono ?_)
      intro w₃ result hfinish
      cases result with
      | false => exact absurd (hstopping₂.symm.trans hfinish.1) nofun
      | true =>
          obtain ⟨-, -, hstopping₃, hended, hcore₃, hreached⟩ := hfinish
          have hsettled : Settled w₃ { fields₂ with ownerObserver := none } := by
            have hinits : w₃.core.inits = w₁.core.inits := by rw [hcore₃, hw₂]
            have hterms : w₃.core.terms = w₃.core.inits := by rw [hcore₃, hw₂]
            have hreached' : w₃.reached = w₁.reached := by rw [hreached, hw₂]
            refine ⟨⟨fun _ => hended, hinits ▸ hcoherent₁.inits, ?_, Nat.le_of_eq hterms, ?_, ?_,
              fun _ => hterms⟩, hstopping₃, fun _ => hended, fun _ => hended⟩
            · rw [hterms, hinitialized]
              constructor
              · nofun
              · rintro ⟨hone, hzero⟩
                omega
            · rw [hinits, hreached']
              exact hcoherent₁.begun
            · rw [hinits, hreached']
              exact hcoherent₁.ready
          refine watched_loadOutcome fun memory hfits => watched_done_iff.mpr ?_
          exact ⟨honest_seeOutcome (honest_outcomeResult (hfits.owner rfl) hended),
            { hsettled with }, hended⟩

end Cleanup

section Calls

variable {w : Watch} {fields : Fields} {observer : Option Observer}

theorem watched_cleanup_settled (hsettled : Settled w fields) :
    Watched (monitor .owner) (fun w' result => Honest w' result.1 ∧ Settled w' result.2)
      (cleanup observer fields) w := by
  refine (watched_cleanup hsettled.toCoherent fun hinitialized hdue => ?_).mono
    fun w' result h => ⟨h.1, h.2.1⟩
  exact absurd (hsettled.due_none hinitialized) hdue

theorem watched_initializeRuntime (hsettled : Settled w fields) :
    Watched (monitor .owner) (fun w' result => Honest w' result.1 ∧ Settled w' result.2)
      (initializeRuntime fields) w := by
  refine watched_loadState fun memory _ => ?_
  have hsettled₁ : Settled (w.seeState memory.state) fields := { hsettled with }
  change Watched _ _ (if memory.state = .stopRequested ∧ ¬ fields.coreInitialized then _ else _) _
  split
  · exact watched_cleanup_settled hsettled₁
  refine Watched.bind
    ((watched_advance .created .initializing (by rintro ⟨⟩) rfl (by decide)).mono ?_)
  intro w₂ begun hbegun
  cases begun with
  | false =>
      exact watched_done_iff.mpr
        ⟨⟨(by rintro ⟨⟩), (by rintro ⟨⟩)⟩, settled_of_frame hbegun hsettled₁⟩
  | true =>
      obtain ⟨hreached, hended, hframe⟩ := hbegun
      have hinits : w.core.inits = 0 := by
        by_contra h
        exact hsettled.begun h hreached
      have hterms : w.core.terms = 0 := by
        have := hsettled.terms
        omega
      have hsettled₂ : Settled w₂ fields := by
        refine settled_of_frame hframe { hsettled with begun := ?_, ready := ?_ }
        · exact fun h => absurd hinits h
        · intro h
          exact absurd (show 2 ≤ 1 from h) (by decide)
      have hcore₂ : w₂.core = w.core := congrArg (·.core) hframe
      have hended₂ : w₂.ended = false := (congrArg (·.ended) hframe).trans hended
      have hreached₂ : w₂.reached = 1 := congrArg (·.reached) hframe
      refine watched_loadState fun memory _ => ?_
      change Watched _ _ (if stopRequested memory.state = true then _ else _) _
      split
      · exact watched_cleanup_settled { hsettled₂ with }
      have hdue : w₂.core.due = none := by
        by_contra h
        simp [hsettled₂.due h] at hended₂
      generalize hw₃ : { w₂.seeState memory.state with
        core := { w₂.core with inits := 1 } } = w₃
      have hcoherent₃ : Coherent w₃ { fields with coreInitialized := true } := by
        subst hw₃
        refine ⟨hsettled₂.final, Nat.le_refl 1, ?_, ?_, ?_, fun _ => rfl, ?_⟩
        · simp [hcore₂, hterms]
        · simp [hcore₂, hterms]
        · intro _
          simp [Watch.seeState, hreached₂]
        · intro h
          exact absurd (hended₂.symm.trans h) (by rintro ⟨⟩)
      have hended₃ : w₃.ended = false := by
        subst hw₃
        exact hended₂
      have hdue₃ : w₃.core.due = none := by
        subst hw₃
        exact hdue
      have hone : w₃.core.inits = 1 ∧ w₃.core.terms = 0 := hcoherent₃.initialized.mp rfl
      have hstopping₃ : w₃.stopping = false := by
        subst hw₃
        exact hsettled₂.stopping
      refine watched_core (fun _ => { w₂.core with inits := 1 }) (fun _ => rfl)
        (fun _ => if_pos (by simp [Watch.seeState, hcore₂, hinits])) fun _ => ?_
      rw [show ({ w₂.seeState memory.state with core := { w₂.core with inits := 1 } } : Watch) = w₃
        from hw₃]
      refine watched_core (fun _ => w₃.core) (fun _ => rfl) (fun _ => if_pos hone) fun _ => ?_
      change Watched _ _ (Thread.bind completeInitialization _) w₃
      refine Watched.bind
        ((watched_advance .initializing .ready (by rintro ⟨⟩) rfl (by decide)).mono ?_)
      intro w₄ ready hready
      cases ready with
      | true =>
          obtain ⟨-, -, hframe⟩ := hready
          refine watched_done_iff.mpr ⟨⟨(by rintro ⟨⟩), (by rintro ⟨⟩)⟩, settled_of_frame hframe
            { hcoherent₃ with
            begun := fun _ => by rintro ⟨⟩
            ready := fun _ => hone.1
            stopping := hstopping₃
            ended := fun h => absurd hone.2 h
            due := fun h => absurd hdue₃ h }⟩
      | false =>
          have hcoherent₄ := coherent_of_frame hready hcoherent₃
          have hdue₄ : w₄.core.due = none := (congrArg (·.core.due) hready).trans hdue₃
          refine Watched.bind ((watched_cleanup hcoherent₄ fun _ h => absurd hdue₄ h).mono ?_)
          rintro w₅ ⟨result, fields₅⟩ ⟨-, hsettled₅, hended₅⟩
          refine watched_loadOutcome fun memory hfits => watched_done_iff.mpr ?_
          exact ⟨honest_seeOutcome (honest_outcomeResult (hfits.owner rfl) hended₅),
            { hsettled₅ with }⟩

/-- What holds in the iterations of `run`. -/
structure Iterating (w : Watch) (fields : Fields) (observer : Option Observer) : Prop
    extends Coherent w fields where
  one : w.core.inits = 1
  zero : w.core.terms = 0
  due : w.core.due = observer

theorem iterating_of_frame {w' : Watch} (hframe : frame w' = frame w)
    (h : Iterating w fields observer) : Iterating w' fields observer := by
  have hw : Iterating (frame w) fields observer := { h with }
  rw [← hframe] at hw
  exact { hw with }

theorem watched_askObserver (h : Iterating w fields observer) :
    Watched (monitor .owner) (fun w' _ => Iterating w' fields observer ∧
      (w'.core.due ≠ none → w'.core.observed = true)) (askObserver observer) w := by
  cases observer with
  | none => exact watched_done_iff.mpr ⟨h, fun hdue => absurd h.due hdue⟩
  | some observer =>
      refine watched_core (fun _ => { w.core with
        observed := w.core.observed || w.core.due = some observer }) (fun _ => rfl) (fun _ => rfl)
        fun reply => watched_done_iff.mpr ⟨{ h with }, fun _ => ?_⟩
      simp [h.due]

theorem watched_runLoop (h : Iterating w fields observer) :
    Watched (monitor .owner) (fun w' _ => Iterating w' fields observer) (runLoop observer) w := by
  refine watched_iterate (fun w _ => Iterating w fields observer) h fun w _ h => ?_
  refine watched_loadState fun memory _ => ?_
  have h : Iterating (w.seeState memory.state) fields observer := { h with }
  generalize w.seeState memory.state = w at h
  change Watched _ _ (if stopRequested memory.state = true then _ else _) _
  split
  · exact watched_done_iff.mpr h
  refine Watched.bind ((watched_askObserver h).mono ?_)
  rintro w₁ stop ⟨h₁, hobserved⟩
  cases stop with
  | true =>
      refine Watched.bind (watched_requestStop.mono ?_)
      intro w₂ _ hstop
      exact watched_done_iff.mpr (iterating_of_frame hstop.1 h₁)
  | false =>
      refine watched_core (fun _ => { w₁.core with observed := false }) (fun _ => rfl)
        (fun _ => if_pos ⟨h₁.one, h₁.zero, hobserved⟩) fun _ => ?_
      have h₂ : Iterating { w₁ with core := { w₁.core with observed := false } } fields observer :=
        { h₁ with }
      generalize { w₁ with core := { w₁.core with observed := false } } = w₂ at h₂
      refine watched_core (fun _ => w₂.core) (fun _ => rfl) (fun _ => rfl) fun error => ?_
      cases error with
      | true =>
          change Watched _ _ (Thread.bind markFailure _) w₂
          refine Watched.bind (watched_markFailure.mono ?_)
          intro w₃ _ hfailure
          exact watched_done_iff.mpr (iterating_of_frame hfailure.1 h₂)
      | false =>
          refine watched_core (fun _ => w₂.core) (fun _ => rfl) (fun _ => rfl) fun exit => ?_
          cases exit with
          | true =>
              change Watched _ _ (Thread.bind requestStop _) w₂
              refine Watched.bind (watched_requestStop.mono ?_)
              intro w₃ _ hstop
              exact watched_done_iff.mpr (iterating_of_frame hstop.1 h₂)
          | false => exact watched_done_iff.mpr h₂

theorem watched_run (hsettled : Settled w fields) (hobserver : w.core.observer = observer) :
    Watched (monitor .owner) (fun w' result => Honest w' result.1 ∧ Settled w' result.2)
      (run observer fields) w := by
  refine Watched.bind (watched_beginRunning.mono ?_)
  intro w₁ running hrunning
  cases running with
  | false =>
      have hsettled₁ := settled_of_frame hrunning hsettled
      refine watched_loadState fun memory _ => ?_
      change Watched _ _ (if memory.state = .stopRequested then _ else _) _
      split
      · exact watched_cleanup_settled { hsettled₁ with }
      · exact watched_done_iff.mpr ⟨⟨nofun, nofun⟩, { hsettled₁ with }⟩
  | true =>
      obtain ⟨hreached, -, hended, hframe⟩ := hrunning
      have hinits : w.core.inits = 1 := hsettled.ready (by omega)
      have hterms : w.core.terms = 0 := by
        by_contra h
        simp [hsettled.ended h] at hended
      have hiterating : Iterating w₁ { fields with ownerObserver := observer } observer := by
        refine iterating_of_frame hframe { hsettled with
          one := hinits
          zero := hterms
          due := hobserver
          begun := fun _ => nofun
          ready := fun _ => hinits }
      refine Watched.bind ((watched_runLoop hiterating).mono ?_)
      intro w₂ _ hiterating
      refine (watched_cleanup hiterating.toCoherent fun _ _ => ?_).mono
        fun w' result h => ⟨h.1, h.2.1⟩
      rw [hiterating.due, Option.or_self]

theorem watched_destroy (hsettled : Settled w fields) :
    Watched (monitor .owner) (fun w' _ => w'.core.terms = w'.core.inits) (destroy fields) w := by
  have hstop : ∀ w, Settled w fields → Watched (monitor .owner)
      (fun w' _ => w'.core.terms = w'.core.inits) (do
        let _ ← requestStop
        let cleaned ← cleanup none fields
        return cleaned.2) w := by
    intro w hsettled
    refine Watched.bind (watched_requestStop.mono ?_)
    rintro w₁ _ ⟨hframe, -⟩
    have hsettled₁ := settled_of_frame hframe hsettled
    refine Watched.bind ((watched_cleanup hsettled₁.toCoherent fun hinitialized hdue => ?_).mono ?_)
    · exact absurd (hsettled₁.due_none hinitialized) hdue
    · rintro w₂ result ⟨-, hsettled₂, hended⟩
      exact watched_done_iff.mpr (hsettled₂.closed hended)
  rw [destroy]
  split
  · exact hstop w hsettled
  rename_i hinitialized
  have hterms := hsettled.terms_eq hinitialized
  refine watched_loadState fun memory _ => ?_
  change Watched _ _ (if memory.state = .created then _ else _) _
  split
  · exact watched_done_iff.mpr hterms
  refine watched_loadState fun memory _ => ?_
  change Watched _ _ (if memory.state = .stopped then _ else _) _
  split
  · exact watched_done_iff.mpr hterms
  refine watched_loadState fun memory _ => ?_
  change Watched _ _ (if memory.state = .failed then _ else _) _
  split
  · exact watched_done_iff.mpr hterms
  · exact hstop _ { hsettled with }

theorem result_of_honest {call : RuntimeCall} {result : RuntimeResult} (h : Honest w result) :
    w.result call result = true := by
  fun_cases Watch.result w call result <;> simp_all [Honest]

theorem watched_runtimeOwner (hsettled : Settled w {}) :
    Watched (monitor .owner) (fun _ _ => True) runtimeOwner w := by
  refine watched_iterate (fun w fields => Settled w fields) hsettled fun w fields hsettled => ?_
  have hfinish : ∀ {w : Watch} {call : RuntimeCall} {result : RuntimeResult} {fields : Fields},
      call ≠ .destroy → Honest w result → Settled w fields → Watched (monitor .owner)
        (RoundPost (fun w fields => Settled w fields) fun _ (_ : Unit) => True)
        (.op (.finishRuntimeCall call result) fun _ => .done (.inl fields)) w := by
    intro w call result fields hcall hhonest hsettled
    refine watched_core (fun _ => w.core) (fun _ => if_pos (result_of_honest hhonest)) (fun _ => ?_)
      fun _ => watched_done_iff.mpr hsettled
    cases call with
    | destroy => exact absurd rfl hcall
    | _ => rfl
  refine watched_op_iff.mpr fun call _ => ?_
  cases call with
  | initializeRuntime =>
      refine ⟨w, rfl, ?_⟩
      change Watched _ _ (Thread.bind (initializeRuntime fields) _) w
      refine Watched.bind ((watched_initializeRuntime hsettled).mono ?_)
      rintro w' ⟨result, fields'⟩ ⟨hhonest, hsettled'⟩
      exact hfinish nofun hhonest hsettled'
  | run observer =>
      let w₁ : Watch := { w with core := { w.core with observer := observer } }
      refine ⟨w₁, rfl, ?_⟩
      change Watched _ _ (Thread.bind (run observer fields) _) w₁
      have hsettled₁ : Settled w₁ fields := { hsettled with }
      refine Watched.bind ((watched_run hsettled₁ rfl).mono ?_)
      rintro w' ⟨result, fields'⟩ ⟨hhonest, hsettled'⟩
      exact hfinish nofun hhonest hsettled'
  | destroy =>
      refine ⟨w, rfl, ?_⟩
      change Watched _ _ (Thread.bind (destroy fields) _) w
      refine Watched.bind ((watched_destroy hsettled).mono ?_)
      intro w' fields' hterms
      exact watched_core (fun _ => w'.core) (fun _ => rfl) (fun _ => if_pos hterms)
        fun _ => watched_done_iff.mpr trivial

end Calls

end EspNp2.NpRuntime.RuntimeCalls
