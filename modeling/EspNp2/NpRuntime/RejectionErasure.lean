import EspNp2.NpRuntime.Rejections

/-!
A run without one of its rejected calls is a run again, as long as `initialize` and the
destructor do not end a core after `run` was given an observer.
-/

namespace EspNp2.NpRuntime.RejectionErasure

open Library.Concurrent
open Library.LabelledRun
open Library.ThreadTraces
open Lifecycle
open LifecycleContract
open CoreRuntime
open RuntimeContract
open CallTraces
open Rejections

section Guards

/-- Whether the owner is inside `run`, and whether a call of `run` was given an observer. -/
structure Guard where
  running : Bool := false
  given : Bool := false
deriving DecidableEq, Repr

/-- The calls with which a core is ended. -/
def ends : Call → Bool
  | ⟨.observe _, _⟩ => true
  | ⟨.pccoreTerm, _⟩ => true
  | _ => false

def Guard.observe (g : Guard) (call : Call) : Option Guard :=
  match call with
  | ⟨.beginRuntimeCall, .run observer⟩ =>
      some { running := true, given := g.given || observer.isSome }
  | ⟨.beginRuntimeCall, _⟩ => some { g with running := false }
  | call => if ends call ∧ g.running = false ∧ g.given then none else some g

/-- `initialize` and the destructor end a core only if no call of `run` before was given an
observer. -/
def Careful (labels : List Label) : Prop :=
  ((callsOf .owner labels).foldlM Guard.observe {}).isSome = true

instance (labels : List Label) : Decidable (Careful labels) :=
  inferInstanceAs (Decidable (_ = true))

theorem observe_inCall {g : Guard} {call : Call} (h : inCall call = true) :
    g.observe call = if ends call ∧ g.running = false ∧ g.given then none else some g := by
  obtain ⟨request, reply⟩ := call
  cases request with
  | beginRuntimeCall => cases h
  | _ => rfl

theorem foldlM_inCall {g g' : Guard} {calls : List Call}
    (hcalls : ∀ call ∈ calls, inCall call = true) (h : calls.foldlM Guard.observe g = some g') :
    g' = g ∧ (g.running = false → g.given = true → ∀ call ∈ calls, ends call = false) := by
  induction calls with
  | nil =>
      obtain rfl := Option.some.inj h
      simp
  | cons call calls ih =>
      rw [List.forall_mem_cons] at hcalls
      rw [List.foldlM_cons] at h
      obtain ⟨g₁, hg₁, h⟩ := Option.bind_eq_some_iff.mp h
      rw [observe_inCall hcalls.1] at hg₁
      obtain ⟨hends, hsame⟩ := Option.ite_none_left_eq_some.mp hg₁
      obtain rfl := Option.some.inj hsame
      rcases ih hcalls.2 h with ⟨hg', hrest⟩
      refine ⟨hg', fun hrunning hgiven => ?_⟩
      rw [List.forall_mem_cons]
      refine ⟨?_, hrest hrunning hgiven⟩
      rw [Bool.eq_false_iff]
      exact fun hcall => hends ⟨hcall, hrunning, hgiven⟩

end Guards

section Alike

variable {α β γ δ : Type}

/-- As long as no core is ended, the second thread can do what the first one does, with
results that are related. -/
def Alike (R : α → β → Prop) (p : Code α) (p' : Code β) : Prop :=
  ∀ labels, (∀ label ∈ labels, ends label = false) →
    (Performs p labels → Performs p' labels) ∧
      ∀ value, Returns p labels value → ∃ value', Returns p' labels value' ∧ R value value'

variable {R : α → β → Prop} {S : γ → δ → Prop}

theorem alike_done {value : α} {value' : β} (h : R value value') :
    Alike R (.done value) (.done value') := by
  intro labels _
  refine ⟨fun hperforms => ?_, fun result hreturns => ?_⟩
  · rw [performs_done hperforms]
    exact .nil _
  · obtain ⟨rfl, rfl⟩ := returns_done_iff.mp hreturns
    exact ⟨value', .done value', h⟩

theorem alike_op {request : Op} {next : Result request → Code α} {next' : Result request → Code β}
    (h : ∀ reply, Alike R (next reply) (next' reply)) :
    Alike R (.op request next) (.op request next') := by
  intro labels hends
  cases labels with
  | nil =>
      refine ⟨fun _ => .nil _, fun value hreturns => ?_⟩
      obtain ⟨_, _, hlabels, -⟩ := returns_op_iff.mp hreturns
      cases hlabels
  | cons label labels =>
      rw [List.forall_mem_cons] at hends
      refine ⟨fun hperforms => ?_, fun value hreturns => ?_⟩
      · obtain ⟨reply, rfl, hrest⟩ := performs_op_cons_iff.mp hperforms
        exact performs_op_cons_iff.mpr ⟨reply, rfl, (h reply labels hends.2).1 hrest⟩
      · obtain ⟨reply, rest, hlabels, hrest⟩ := returns_op_iff.mp hreturns
        cases hlabels
        obtain ⟨value', hvalue', hR⟩ := (h reply labels hends.2).2 value hrest
        exact ⟨value', .op hvalue', hR⟩

/-- A thread that ends a core next is not followed further. -/
theorem alike_ended {request : Op} {next : Result request → Code α} {p' : Code β}
    (hends : ∀ reply, ends ⟨request, reply⟩ = true) : Alike R (.op request next) p' := by
  intro labels hlabels
  cases labels with
  | nil =>
      refine ⟨fun _ => .nil _, fun value hreturns => ?_⟩
      obtain ⟨_, _, hlabels, -⟩ := returns_op_iff.mp hreturns
      cases hlabels
  | cons label labels =>
      have hnot : ∀ reply, label ≠ ⟨request, reply⟩ := by
        rintro reply rfl
        exact absurd ((hends reply).symm.trans (hlabels _ (List.mem_cons_self ..))) nofun
      refine ⟨fun hperforms => ?_, fun value hreturns => ?_⟩
      · obtain ⟨reply, hlabel, -⟩ := performs_op_cons_iff.mp hperforms
        exact absurd hlabel (hnot reply)
      · obtain ⟨reply, rest, hcons, -⟩ := returns_op_iff.mp hreturns
        exact absurd (List.cons.inj hcons).1 (hnot reply)

theorem Alike.bind {p : Code α} {p' : Code β} {rest : α → Code γ} {rest' : β → Code δ}
    (hp : Alike R p p') (hrest : ∀ value value', R value value' → Alike S (rest value)
    (rest' value')) :
    Alike S (p.bind rest) (p'.bind rest') := by
  intro labels hends
  refine ⟨fun hperforms => ?_, fun value hreturns => ?_⟩
  · rcases performs_bind_iff.mp hperforms with hnow | ⟨first, value, second, rfl, hfirst, hsecond⟩
    · exact performs_bind_of_performs ((hp labels hends).1 hnow)
    · rw [List.forall_mem_append] at hends
      obtain ⟨value', hvalue', hR⟩ := (hp first hends.1).2 value hfirst
      exact performs_bind_of_returns hvalue' ((hrest value value' hR second hends.2).1 hsecond)
  · obtain ⟨first, middle, second, rfl, hfirst, hsecond⟩ := returns_bind_iff.mp hreturns
    rw [List.forall_mem_append] at hends
    obtain ⟨middle', hmiddle', hR⟩ := (hp first hends.1).2 middle hfirst
    obtain ⟨value', hvalue', hS⟩ := (hrest middle middle' hR second hends.2).2 value hsecond
    exact ⟨value', returns_bind_iff.mpr ⟨first, middle', second, rfl, hmiddle', hvalue'⟩, hS⟩

theorem alike_refl (p : Code α) : Alike Eq p p :=
  fun _ _ => ⟨id, fun value hvalue => ⟨value, hvalue, rfl⟩⟩

end Alike

section Stale

variable {fields fields' : Fields}

/-- The fields agree on the core. -/
def SameCore (fields fields' : Fields) : Prop :=
  fields.coreInitialized = fields'.coreInitialized

def SameResult (returned returned' : RuntimeResult × Fields) : Prop :=
  returned.1 = returned'.1 ∧ SameCore returned.2 returned'.2

theorem alike_endCore (h : SameCore fields fields') :
    Alike SameCore (endCore none fields) (endCore none fields') := by
  unfold endCore
  rw [← show fields.coreInitialized = fields'.coreInitialized from h]
  split
  · cases (none : Option Observer).or fields.ownerObserver with
    | none => exact alike_ended fun _ => rfl
    | some observer => exact alike_ended fun _ => rfl
  · exact alike_done h

theorem alike_cleanup (h : SameCore fields fields') :
    Alike SameResult (cleanup none fields) (cleanup none fields') := by
  refine Alike.bind (alike_refl beginStopping) ?_
  rintro stopping _ rfl
  split
  · refine alike_op fun state => ?_
    change Alike SameResult (if state = .stopped then _ else _) (if state = .stopped then _ else _)
    split
    · exact alike_done ⟨rfl, h⟩
    refine alike_op fun state => ?_
    change Alike SameResult (if state = .failed then _ else _) (if state = .failed then _ else _)
    split <;> exact alike_done ⟨rfl, h⟩
  · refine Alike.bind (alike_endCore h) fun fields₁ fields₁' h₁ => ?_
    refine Alike.bind (alike_refl finishCleanup) ?_
    rintro finished _ rfl
    exact alike_op fun outcome => alike_done ⟨rfl, h₁⟩

theorem alike_initializeRuntime (h : SameCore fields fields') :
    Alike SameResult (initializeRuntime fields) (initializeRuntime fields') := by
  have hcore : fields.coreInitialized = fields'.coreInitialized := h
  refine alike_op fun state => ?_
  change Alike SameResult (if state = .stopRequested ∧ ¬ fields.coreInitialized =
    true then _ else _)
    (if state = .stopRequested ∧ ¬ fields'.coreInitialized = true then _ else _)
  rw [← hcore]
  split
  · exact alike_cleanup h
  refine Alike.bind (alike_refl beginInitialization) ?_
  rintro begun _ rfl
  split
  · exact alike_done ⟨rfl, h⟩
  refine alike_op fun state => ?_
  change Alike SameResult (if stopRequested state = true then _ else _)
    (if stopRequested state = true then _ else _)
  split
  · exact alike_cleanup h
  refine alike_op fun _ => alike_op fun _ => ?_
  change Alike SameResult (Thread.bind completeInitialization _)
    (Thread.bind completeInitialization _)
  refine Alike.bind (alike_refl completeInitialization) ?_
  rintro ready _ rfl
  split
  · have hup : SameCore { fields with coreInitialized := true }
        { fields' with coreInitialized := true } := rfl
    refine Alike.bind (alike_cleanup hup) fun returned returned' h₁ => ?_
    exact alike_op fun outcome => alike_done ⟨rfl, h₁.2⟩
  · exact alike_done ⟨rfl, rfl⟩

theorem alike_destroy (h : SameCore fields fields') :
    Alike SameCore (destroy fields) (destroy fields') := by
  have hcore : fields.coreInitialized = fields'.coreInitialized := h
  have hstop : Alike SameCore
      (requestStop.bind fun _ => (cleanup none fields).bind fun returned => Thread.done returned.2)
      (requestStop.bind fun _ => (cleanup none fields').bind fun returned =>
        Thread.done returned.2) := by
    refine Alike.bind (alike_refl requestStop) fun _ _ _ => ?_
    exact Alike.bind (alike_cleanup h) fun returned returned' h₁ => alike_done h₁.2
  unfold destroy
  rw [← hcore]
  split
  · exact hstop
  refine alike_op fun state => ?_
  change Alike SameCore (if state = .created then _ else _) (if state = .created then _ else _)
  split
  · exact alike_done h
  refine alike_op fun state => ?_
  change Alike SameCore (if state = .stopped then _ else _) (if state = .stopped then _ else _)
  split
  · exact alike_done h
  refine alike_op fun state => ?_
  change Alike SameCore (if state = .failed then _ else _) (if state = .failed then _ else _)
  split
  · exact alike_done h
  · exact hstop

theorem run_of_sameCore (observer : Option Observer) (h : SameCore fields fields') :
    run observer fields = run observer fields' := by
  have hsame : ({ fields with ownerObserver := observer } : Fields) =
      { fields' with ownerObserver := observer } := by
    rw [show fields.coreInitialized = fields'.coreInitialized from h]
  unfold run
  rw [hsame]

theorem alike_callCode {call : RuntimeCall} (hcall : ∀ observer, call ≠ .run observer)
    (h : SameCore fields fields') :
    Alike SameResult (callCode call fields) (callCode call fields') := by
  cases call with
  | initializeRuntime => exact alike_initializeRuntime h
  | run observer => exact absurd rfl (hcall observer)
  | destroy => exact Alike.bind (alike_destroy h) fun _ _ h₁ => alike_done ⟨rfl, h₁⟩

/-- An owner with another observer in its fields goes on in the same way, in a careful
sequence. -/
theorem performs_of_sameCore {labels : List Call} {g : Guard}
    (h : Performs (ownerFrom fields) labels) (hcore : SameCore fields fields')
    (hgiven : g.given = false → fields = fields')
    (hcareful : (labels.foldlM Guard.observe g).isSome = true) :
    Performs (ownerFrom fields') labels := by
  induction hlength : labels.length using Nat.strongRecOn generalizing labels fields fields' g with
  | ind length ih =>
      subst hlength
      cases labels with
      | nil => exact .nil _
      | cons label labels =>
          obtain ⟨call, rfl, hcall⟩ := performs_ownerFrom_cons_iff.mp h
          refine performs_ownerFrom_cons_iff.mpr ⟨call, rfl, ?_⟩
          by_cases hrun : ∃ observer, call = .run observer
          · obtain ⟨observer, rfl⟩ := hrun
            have hsame : callCode (.run observer) fields' = callCode (.run observer) fields :=
              (run_of_sameCore observer hcore).symm
            rwa [hsame]
          by_cases hfields : fields = fields'
          · rwa [← hfields]
          have hgiven' : g.given = true := by simpa using mt hgiven hfields
          have hbegin : g.observe ⟨.beginRuntimeCall, call⟩ =
              some { running := false, given := true } := by
            cases call with
            | run observer => exact absurd ⟨observer, rfl⟩ hrun
            | _ => rw [← hgiven']; rfl
          rw [List.foldlM_cons, hbegin] at hcareful
          change (labels.foldlM Guard.observe { running := false, given := true }).isSome = true
            at hcareful
          obtain ⟨g', hg'⟩ := Option.isSome_iff_exists.mp hcareful
          have halike := alike_callCode (not_exists.mp hrun) hcore
          rcases hcall with hnow | ⟨body, returned, more, rfl, hbody, hmore⟩
          · have hends := (foldlM_inCall (inside_callCode call fields _ hnow) hg').2 rfl rfl
            exact Or.inl ((halike labels hends).1 hnow)
          · rw [List.foldlM_append] at hg'
            obtain ⟨g₁, hg₁, hg'⟩ := Option.bind_eq_some_iff.mp hg'
            obtain ⟨rfl, hends⟩ :=
              foldlM_inCall (inside_callCode call fields _ (performs_of_returns hbody)) hg₁
            obtain ⟨returned', hreturned', hresult, hcore'⟩ :=
              (halike body (hends rfl rfl)).2 returned hbody
            refine Or.inr ⟨body, returned', more, rfl, hreturned', ?_⟩
            cases more with
            | nil => exact .nil _
            | cons finish more =>
                rw [performs_closing_cons_iff] at hmore ⊢
                obtain ⟨rfl, hmore⟩ := hmore
                refine ⟨by rw [hresult], ?_⟩
                by_cases hdestroy : call = .destroy
                · rwa [if_pos hdestroy] at hmore ⊢
                · rw [if_neg hdestroy] at hmore ⊢
                  have hguard : (⟨false, true⟩ : Guard).observe
                      ⟨.finishRuntimeCall call returned.1, ()⟩ = some ⟨false, true⟩ := rfl
                  rw [List.foldlM_cons, hguard] at hg'
                  refine ih _ ?_ hmore hcore' (g := ⟨false, true⟩) nofun ?_ rfl
                  · simp only [List.length_cons, List.length_append]
                    omega
                  · exact Option.isSome_iff_exists.mpr ⟨g', hg'⟩

end Stale

section Observers

variable {fields fields' : Fields} {result : RuntimeResult} {body : List Call}

theorem observer_of_returns {call : RuntimeCall} (hcall : ∀ observer, call ≠ .run (some observer))
    (hdestroy : call ≠ .destroy) (hnone : fields.ownerObserver = none)
    (h : Returns (callCode call fields) body (result, fields')) : fields'.ownerObserver = none := by
  have hcleanup : ∀ {observer fields body result},
      fields.ownerObserver = none →
      Returns (cleanup observer fields) body (result, fields') → fields'.ownerObserver = none := by
    intro observer fields body result hnone h
    rcases returns_cleanup h with ⟨-, hfields⟩ | ⟨hfields, -⟩
    · rw [hfields]
    · rw [hfields, hnone]
  cases call with
  | initializeRuntime =>
      rcases returns_initializeRuntime h with
        ⟨rest, -, -, hclean⟩ | ⟨seen, tried, rest, -, -, ⟨-, -, -, rfl⟩ |
          ⟨-, state, rest', -, hmore⟩⟩
      · exact hcleanup hnone hclean
      · exact hnone
      · rcases hmore with ⟨-, hclean⟩ | ⟨-, ready, rest'', -, ⟨-, -, rfl⟩ |
          ⟨-, -, -, cleaned, hclean⟩⟩
        · exact hcleanup hnone hclean
        · exact hnone
        · have hup : ({ fields with coreInitialized := true } : Fields).ownerObserver = none :=
            hnone
          exact hcleanup hup hclean
  | run observer =>
      cases observer with
      | some observer => exact absurd rfl (hcall observer)
      | none =>
          change Returns (Thread.bind beginRunning _) _ _ at h
          rcases returns_bind_iff.mp h with ⟨first, running, second, rfl, -, hrest⟩
          change Returns (if ¬ running = true then _ else _) _ _ at hrest
          split at hrest
          · rcases returns_op_iff.mp hrest with ⟨state, rest, rfl, hstate⟩
            change Returns (if state = .stopRequested then _ else _) _ _ at hstate
            split at hstate
            · exact hcleanup rfl hstate
            · cases (returns_done_iff.mp hstate).2
              rfl
          · rcases returns_bind_iff.mp hrest with ⟨_, _, _, rfl, -, hclean⟩
            exact hcleanup rfl hclean
  | destroy => exact absurd rfl hdestroy

theorem observer_of_passes {calls : List Call} (h : Passes fields calls fields')
    (hcalls : ∀ observer, ⟨.beginRuntimeCall, .run (some observer)⟩ ∉ calls)
    (hnone : fields.ownerObserver = none) : fields'.ownerObserver = none := by
  induction h with
  | nil => exact hnone
  | @call fields last call returned body more hdestroy hbody _ ih =>
      obtain ⟨result, fields'⟩ := returned
      refine ih (fun observer hmem => hcalls observer (by simp [hmem])) ?_
      refine observer_of_returns (fun observer hcall => ?_) hdestroy hnone hbody
      exact hcalls observer (by simp [hcall])

theorem Guard.given_of_observe {g g' : Guard} {call : Call} (h : g.observe call = some g') :
    (g.given = true → g'.given = true) ∧
      ∀ observer, call = ⟨.beginRuntimeCall, .run (some observer)⟩ → g'.given = true := by
  constructor
  · intro hgiven
    obtain ⟨request, reply⟩ := call
    have hother : inCall ⟨request, reply⟩ = true ∨ ∃ call result,
        (⟨request, reply⟩ : Call) = ⟨.finishRuntimeCall call result, ()⟩ ∨
          (⟨request, reply⟩ : Call) = ⟨.beginRuntimeCall, call⟩ := by
      cases request with
      | beginRuntimeCall => exact Or.inr ⟨reply, .ok, Or.inr rfl⟩
      | finishRuntimeCall call result => exact Or.inr ⟨call, result, Or.inl rfl⟩
      | _ => exact Or.inl rfl
    rcases hother with hin | ⟨call, result, heq | heq⟩
    · rw [observe_inCall hin] at h
      obtain ⟨-, ⟨⟩⟩ := Option.ite_none_left_eq_some.mp h
      exact hgiven
    · rw [heq] at h
      obtain rfl := Option.some.inj h
      exact hgiven
    · rw [heq] at h
      cases call with
      | run observer =>
          obtain rfl := Option.some.inj h
          simp [hgiven]
      | _ =>
          obtain rfl := Option.some.inj h
          exact hgiven
  · rintro observer rfl
    obtain rfl := Option.some.inj h
    simp

theorem Guard.given_of_foldlM {g g' : Guard} {calls : List Call}
    (h : calls.foldlM Guard.observe g = some g') (hgiven : g'.given = false) :
    g.given = false ∧ ∀ observer, ⟨.beginRuntimeCall, .run (some observer)⟩ ∉ calls := by
  induction calls generalizing g with
  | nil =>
      obtain rfl := Option.some.inj h
      exact ⟨hgiven, fun _ => List.not_mem_nil⟩
  | cons call calls ih =>
      rw [List.foldlM_cons] at h
      obtain ⟨g₁, hg₁, h⟩ := Option.bind_eq_some_iff.mp h
      obtain ⟨hgiven₁, hcalls⟩ := ih h
      obtain ⟨hmono, hbegin⟩ := Guard.given_of_observe hg₁
      refine ⟨?_, fun observer hmem => ?_⟩
      · rw [Bool.eq_false_iff]
        exact fun hg => absurd (hgiven₁.symm.trans (hmono hg)) nofun
      · rcases List.mem_cons.mp hmem with hcall | hmem
        · exact absurd (hgiven₁.symm.trans (hbegin observer hcall.symm)) nofun
        · exact hcalls observer hmem

end Observers

section Contract

variable {labels before during after : List Label} {last : RuntimeSystem} {call : RuntimeCall}
  {result : RuntimeResult}

/-- A call of the owner in a run, from its begin to its end. -/
structure IsCall (labels : List Label) (call : RuntimeCall) (result : RuntimeResult)
    (before during after : List Label) : Prop where
  split : labels = before ++ (.owner, ⟨.beginRuntimeCall, call⟩) ::
    (during ++ (.owner, ⟨.finishRuntimeCall call result, ()⟩) :: after)
  inside : ∀ label ∈ during, label.1 = .owner → inCall label.2 = true

/-- An `initialize` of a runtime that no call has touched is not rejected: it answers `Ok`, or
a stop or failure has arrived and the runtime is in the terminal state of the answer. -/
def FirstTruthful (labels : List Label) (last : Memory) : Prop :=
  ∀ result before during after, IsCall labels .initializeRuntime result before during after →
    Untouched (callsOf .owner before) →
      result = .ok ∨ Arrived (before ++ during) ∧
        (result = .stopped ∧ last.state = .stopped ∨
          result = .runtimeFailed ∧ last.state = .failed)

/-- No other thread overtakes such an `initialize`. -/
def NotOvertaken (labels : List Label) : Prop :=
  ∀ result before during after, IsCall labels .initializeRuntime result before during after →
    Untouched (callsOf .owner before) → ¬ Overtaken during

/-- Without a rejected call the run is a run, with all later operations and results. -/
def Erasable (labels : List Label) (last : Memory) : Prop :=
  ∀ call before during after, IsCall labels call .invalidState before during after →
    ∃ last', Run (Step Acts) RuntimeSystem.initial
      (before ++ during.filter (fun label => label.1 ≠ .owner) ++ after) last' ∧ last'.state = last

/-- A call in a run, with the state of the memory around it and the fields of the owner. -/
theorem call_of_run (hrun : Run (Step Acts) RuntimeSystem.initial labels last)
    (hcall : IsCall labels call result before during after) :
    ∃ fields fields' middle middle', Passes {} (callsOf .owner before) fields ∧
      Returns (callCode call fields) (callsOf .owner during) (result, fields') ∧
      (call ≠ .destroy → Performs (ownerFrom fields') (callsOf .owner after)) ∧
      Serves Acts {} before middle ∧ Serves Acts middle during middle' ∧
      Serves Acts middle' after last.state := by
  obtain ⟨hserves, hperforms⟩ := traces_of_run hrun
  have howner := hperforms .owner
  change Performs runtimeOwner _ at howner
  rw [hcall.split] at hserves howner
  rw [runtimeOwner_eq, callsOf_append, callsOf_cons_self, callsOf_append,
    callsOf_cons_self] at howner
  obtain ⟨fields, hpasses, howner⟩ := passes_of_performs howner
  have hinside : ∀ label ∈ callsOf .owner during, inCall label = true := by
    intro label hmem
    obtain ⟨⟨party, other⟩, hin, hlabel⟩ := List.mem_filterMap.mp hmem
    obtain ⟨hparty, hother⟩ := Option.ite_none_right_eq_some.mp hlabel
    cases hother
    exact hcall.inside _ hin hparty
  obtain ⟨-, fields', hbody, hafter⟩ := performs_call howner hinside
  obtain ⟨middle, hbefore, hserves₁⟩ := serves_append_iff.mp hserves
  obtain ⟨begun, hbegin, hserves₂⟩ := serves_cons_iff.mp hserves₁
  obtain ⟨middle', hduring, hserves₃⟩ := serves_append_iff.mp hserves₂
  obtain ⟨ended, hend, hserves₄⟩ := serves_cons_iff.mp hserves₃
  have hbegun : begun = middle := @mute_mark ⟨.beginRuntimeCall, call⟩ rfl _ _ hbegin
  have hended : ended = middle' := @mute_mark ⟨.finishRuntimeCall call result, ()⟩ rfl _ _ hend
  subst hbegun hended
  exact ⟨fields, fields', _, _, hpasses, hbody, hafter, hbefore, hduring, hserves₄⟩

theorem lawful_of_call (hrun : Run (Step Acts) RuntimeSystem.initial labels last)
    (hcall : IsCall labels call result before during after) :
    (∀ label ∈ before, Lawful label) ∧ (∀ label ∈ during, Lawful label) ∧
      ∀ label ∈ after, Lawful label := by
  have hlawful := lawful_of_run hrun
  rw [hcall.split] at hlawful
  simp only [List.forall_mem_append, List.forall_mem_cons] at hlawful
  exact ⟨hlawful.1, hlawful.2.2.1, hlawful.2.2.2.2⟩

/-- The terminal state of a result is that at the end of the run. -/
theorem terminal_of_result (hrun : Run (Step Acts) RuntimeSystem.initial labels last)
    (hcall : IsCall labels call result before during after) (hdestroy : call ≠ .destroy) :
    (result = .stopped → last.state.state = .stopped) ∧
      (result = .runtimeFailed → last.state.state = .failed) := by
  have hafter := (lawful_of_call hrun hcall).2.2
  have hsplit : labels = (before ++ (.owner, ⟨.beginRuntimeCall, call⟩) :: during ++
      [(.owner, ⟨.finishRuntimeCall call result, ()⟩)]) ++ after := by
    rw [hcall.split]
    simp
  rw [hsplit] at hrun
  obtain ⟨middle, hfirst, hrest⟩ := run_append_iff.mp hrun
  obtain ⟨hserves, -⟩ := traces_of_run hrest
  obtain ⟨hstopped, hfailed⟩ := (core_start_stop_paired hfirst).2 _ call result rfl hdestroy
  constructor
  · intro hresult
    rw [serves_terminal hserves hafter (Or.inl (hstopped hresult)), hstopped hresult]
  · intro hresult
    rw [serves_terminal hserves hafter (Or.inr (hfailed hresult)), hfailed hresult]

theorem initialize_of_run (hrun : Run (Step Acts) RuntimeSystem.initial labels last)
    (hcall : IsCall labels .initializeRuntime result before during after)
    (huntouched : Untouched (callsOf .owner before)) :
    (result = .invalidState ↔ Overtaken during) ∧
      (result ≠ .ok → result ≠ .invalidState → Arrived (before ++ during)) := by
  obtain ⟨fields, fields', middle, middle', hpasses, hbody, -, hbefore, hduring, -⟩ :=
    call_of_run hrun hcall
  obtain ⟨hlawful, hlawful', -⟩ := lawful_of_call hrun hcall
  obtain ⟨hcore, hmute⟩ := mute_of_passes hpasses hbefore hlawful rfl huntouched
  have howner : ∀ label ∈ before, label.1 = .owner → Mute label.2 := by
    rintro ⟨party, label⟩ hmem rfl
    refine hmute label (List.mem_filterMap.mpr ⟨_, hmem, ?_⟩)
    simp
  obtain ⟨hrange, hsame⟩ := serves_untouched hbefore hlawful howner
  obtain ⟨hinvalid, harrived⟩ := first_initialize hrange hcore hduring hlawful' rfl hbody
  refine ⟨hinvalid, fun hok hvalid => ?_⟩
  by_contra hnone
  have hcreated := hsame fun h => hnone (h.of_subset fun label hmem => by simp [hmem])
  rcases harrived hok hvalid with hstop | harrived
  · rw [hcreated] at hstop
    cases hstop
  · exact hnone (harrived.of_subset fun label hmem => by simp [hmem])

theorem firstTruthful_iff (hrun : Run (Step Acts) RuntimeSystem.initial labels last) :
    FirstTruthful labels last.state ↔ NotOvertaken labels := by
  constructor
  · rintro h result before during after hcall huntouched hovertaken
    have hinvalid := (initialize_of_run hrun hcall huntouched).1.mpr hovertaken
    subst hinvalid
    rcases h _ _ _ _ hcall huntouched with hok | ⟨-, ⟨hstopped, -⟩ | ⟨hfailed, -⟩⟩
    · cases hok
    · cases hstopped
    · cases hfailed
  · rintro h result before during after hcall huntouched
    obtain ⟨hinvalid, harrived⟩ := initialize_of_run hrun hcall huntouched
    obtain ⟨hstopped, hfailed⟩ := terminal_of_result hrun hcall nofun
    have hvalid := mt hinvalid.mp (h result before during after hcall huntouched)
    cases result with
    | ok => exact Or.inl rfl
    | stopped => exact Or.inr ⟨harrived nofun hvalid, Or.inl ⟨rfl, hstopped rfl⟩⟩
    | runtimeFailed => exact Or.inr ⟨harrived nofun hvalid, Or.inr ⟨rfl, hfailed rfl⟩⟩
    | invalidState => exact absurd rfl hvalid

theorem erasable_of_careful (hrun : Run (Step Acts) RuntimeSystem.initial labels last)
    (hcareful : Careful labels) : Erasable labels last.state := by
  rintro call before during after hcall
  obtain ⟨fields, fields', middle, middle', hpasses, hbody, hafter, hbefore, hduring, hrest⟩ :=
    call_of_run hrun hcall
  obtain ⟨hlawful, hlawful', -⟩ := lawful_of_call hrun hcall
  obtain ⟨hstored, hshows⟩ := rejected_mute hduring hlawful' rfl hbody
  have hdestroy : call ≠ .destroy := by
    rintro rfl
    obtain ⟨_, _, _, -, -, hdone⟩ := returns_bind_iff.mp hbody
    cases (returns_done_iff.mp hdone).2
  have hmute : Serves Acts middle (during.filter fun label => label.1 ≠ .owner) middle' := by
    refine hduring.filter ?_
    rintro ⟨party, label⟩ hmem hparty memory memory' hacts
    obtain rfl : party = .owner := by simpa using hparty
    obtain ⟨state, hstate⟩ := hshows label (List.mem_filterMap.mpr ⟨_, hmem, by simp⟩)
    exact mute_of_shows hstate _ _ hacts
  have hserves := serves_append_iff.mpr ⟨middle, hbefore, hmute⟩
  refine run_of_traces (S := RuntimeSystem.initial)
    (serves_append_iff.mpr ⟨middle', hserves, hrest⟩) fun party => ?_
  cases party with
  | helper number =>
      have hhelper := (traces_of_run hrun).2 (.helper number)
      rw [hcall.split] at hhelper
      have hkept : callsOf (.helper number) (during.filter fun label => label.1 ≠ .owner) =
          callsOf (.helper number) during := by
        rw [callsOf, callsOf, List.filterMap_filter]
        congr 1
        funext label
        by_cases hparty : label.1 = .helper number
        · simp [hparty]
        · simp [hparty]
      have hmark : ∀ (mark : Call) (rest : List Label),
          callsOf (.helper number) ((.owner, mark) :: rest) = callsOf (.helper number) rest := by
        intro mark rest
        refine callsOf_cons_ne ?_ rest
        rintro ⟨⟩
      rw [callsOf_append, callsOf_append, hkept]
      rwa [callsOf_append, hmark, callsOf_append, hmark, ← List.append_assoc] at hhelper
  | owner =>
      have hgone : callsOf .owner (during.filter fun label => label.1 ≠ .owner) = [] := by
        rw [callsOf_eq_nil_iff]
        intro label hmem
        simpa using (List.mem_filter.mp hmem).2
      rw [callsOf_append, callsOf_append, hgone, List.append_nil]
      change Performs runtimeOwner _
      rw [runtimeOwner_eq]
      refine hpasses.performs ?_
      let done : List Call := callsOf .owner before ++ ⟨.beginRuntimeCall, call⟩ ::
        (callsOf .owner during ++ [⟨.finishRuntimeCall call .invalidState, ()⟩])
      obtain ⟨g, hg, hcareful'⟩ : ∃ g, done.foldlM Guard.observe {} = some g ∧
          ((callsOf .owner after).foldlM Guard.observe g).isSome = true := by
        have hlabels : callsOf .owner labels = done ++ callsOf .owner after := by
          rw [hcall.split, callsOf_append, callsOf_cons_self, callsOf_append, callsOf_cons_self]
          simp [done]
        unfold Careful at hcareful
        rw [hlabels, List.foldlM_append] at hcareful
        obtain ⟨last, hlast⟩ := Option.isSome_iff_exists.mp hcareful
        obtain ⟨g, hg, hrest⟩ := Option.bind_eq_some_iff.mp hlast
        exact ⟨g, hg, Option.isSome_iff_exists.mpr ⟨last, hrest⟩⟩
      refine performs_of_sameCore (hafter hdestroy) ?_ (fun hgiven => ?_) hcareful'
      · rw [hstored]
        cases call <;> rfl
      · obtain ⟨-, hnone⟩ := Guard.given_of_foldlM hg hgiven
        have hobserver := observer_of_passes hpasses
          (fun observer hmem => hnone observer (by simp [done, hmem])) rfl
        rw [hstored]
        cases call with
        | run observer =>
            cases observer with
            | none =>
                change ({ fields with ownerObserver := none } : Fields) = fields
                rw [← hobserver]
            | some observer => exact absurd (by simp [done]) (hnone observer)
        | _ => rfl

/-- In every run an `initialize` of an untouched runtime is truthful exactly when no other
thread overtakes it; and a careful run stays one without any of its rejected calls. -/
theorem rejections_truthful (hrun : Run (Step Acts) RuntimeSystem.initial labels last) :
    (FirstTruthful labels last.state ↔ NotOvertaken labels) ∧
      (Careful labels → Erasable labels last.state) :=
  ⟨firstTruthful_iff hrun, erasable_of_careful hrun⟩

/-- The helpers request stops; the owner initializes a runtime that no call has touched and
destroys any other. -/
def serveStop (memory : Memory) : (request : Op) → Result request × Memory
  | .beginRuntimeCall =>
      (match memory.state with
        | .created => .initializeRuntime
        | _ => .destroy, memory)
  | .beginHelperCall => (.requestStop, memory)
  | request => serve memory request

theorem acts_serveStop (memory : Memory) (request : Op) :
    Acts memory request (serveStop memory request).1 (serveStop memory request).2 := by
  cases request with
  | beginRuntimeCall => constructor
  | beginHelperCall => constructor
  | _ => exact acts_serve memory _

/-- The owner runs a runtime that is not initialized. -/
def serveRun (memory : Memory) : (request : Op) → Result request × Memory
  | .beginRuntimeCall => (.run (some 1), memory)
  | request => serve memory request

theorem acts_serveRun (memory : Memory) (request : Op) :
    Acts memory request (serveRun memory request).1 (serveRun memory request).2 := by
  cases request with
  | beginRuntimeCall => constructor
  | _ => exact acts_serve memory _

/-- A helper requests a stop between the first load of `initialize` and its exchange. -/
def overtakenBody : List Label :=
  [(.owner, ⟨.loadState, .created⟩), (.helper 0, ⟨.beginHelperCall, .requestStop⟩),
    (.helper 0, ⟨.loadState, .created⟩),
    (.helper 0, ⟨.casOutcome .openNone .openExternal, (true, .openNone)⟩),
    (.helper 0, ⟨.casState true .created .stopRequested, (true, .created)⟩),
    (.owner, ⟨.casState false .created .initializing, (false, .stopRequested)⟩)]

theorem overtaken_rejected :
    (execute serveStop (fun _ _ => true)
      ([.owner, .owner] ++ List.replicate 4 (.helper 0) ++ [.owner, .owner])
      RuntimeSystem.initial).map Prod.fst =
    some ([] ++ (.owner, ⟨.beginRuntimeCall, .initializeRuntime⟩) :: (overtakenBody ++
      (.owner, ⟨.finishRuntimeCall .initializeRuntime .invalidState, ()⟩) :: [])) := by
  rfl

def staleBody : List Label :=
  [(.owner, ⟨.casState false .ready .running, (false, .created)⟩), (.owner, ⟨.loadState, .created⟩)]

/-- The calls behind a rejected run: the destructor calls its observer. -/
def staleAfter : List Label :=
  [(.owner, ⟨.beginRuntimeCall, .initializeRuntime⟩), (.owner, ⟨.loadState, .created⟩),
    (.owner, ⟨.casState false .created .initializing, (true, .created)⟩),
    (.owner, ⟨.loadState, .initializing⟩), (.owner, ⟨.pccoreInit, ()⟩),
    (.owner, ⟨.pccoreReset, ()⟩),
    (.owner, ⟨.casState false .initializing .ready, (true, .initializing)⟩),
    (.owner, ⟨.finishRuntimeCall .initializeRuntime .ok, ()⟩),
    (.owner, ⟨.beginRuntimeCall, .destroy⟩), (.owner, ⟨.loadState, .ready⟩),
    (.owner, ⟨.casOutcome .openNone .openExternal, (true, .openNone)⟩),
    (.owner, ⟨.casState true .ready .stopRequested, (true, .ready)⟩),
    (.owner, ⟨.loadState, .stopRequested⟩),
    (.owner, ⟨.casState true .stopRequested .stopping, (true, .stopRequested)⟩),
    (.owner, ⟨.observe 1, false⟩), (.owner, ⟨.pccoreTerm, ()⟩)]

theorem stale_observer_called :
    ((execute serveRun (fun _ _ => true) (List.replicate 4 .owner) RuntimeSystem.initial).bind
      fun first => (execute serveStop (fun _ _ => true) (List.replicate 16 .owner) first.2).map
        fun second => first.1 ++ second.1) =
    some ([] ++ (.owner, ⟨.beginRuntimeCall, .run (some 1)⟩) :: (staleBody ++
      (.owner, ⟨.finishRuntimeCall (.run (some 1)) .invalidState, ()⟩) :: staleAfter)) := by
  rfl

/-- An `initialize` that a stop request overtakes answers `InvalidState`; and the observer of a
rejected `run` is called when the core ends. -/
theorem rejections_untruthful :
    (∃ labels last, Run (Step Acts) RuntimeSystem.initial labels last ∧
      ¬ FirstTruthful labels last.state) ∧
    ∃ labels last before during after, Run (Step Acts) RuntimeSystem.initial labels last ∧
      IsCall labels (.run (some 1)) .invalidState before during after ∧
      (∃ stop, (.owner, ⟨.observe 1, stop⟩) ∈ after) ∧
      ∀ call, (.owner, ⟨.beginRuntimeCall, call⟩) ∈ before ++ after → call ≠ .run (some 1) := by
  constructor
  · obtain ⟨⟨labels, last⟩, hexecute, hlabels⟩ := Option.map_eq_some_iff.mp overtaken_rejected
    refine ⟨labels, last, run_of_stepIf (execute_run acts_serveStop hexecute), fun htruthful => ?_⟩
    have hinside : ∀ label ∈ overtakenBody, label.1 = .owner → inCall label.2 = true := by
      simp [overtakenBody, inCall]
    have huntouched : Untouched (callsOf .owner ([] : List Label)) := by
      simp [Untouched, callsOf]
    rcases htruthful _ _ _ _ ⟨hlabels, hinside⟩ huntouched with
      hok | ⟨-, ⟨hstopped, -⟩ | ⟨hfailed, -⟩⟩
    · cases hok
    · cases hstopped
    · cases hfailed
  · obtain ⟨⟨labels₁, middle⟩, hfirst, hsecond⟩ := Option.bind_eq_some_iff.mp stale_observer_called
    obtain ⟨⟨labels₂, last⟩, hsecond, hlabels⟩ := Option.map_eq_some_iff.mp hsecond
    have hrun₁ := run_of_stepIf (execute_run acts_serveRun hfirst)
    have hrun₂ := run_of_stepIf (execute_run acts_serveStop hsecond)
    have hinside : ∀ label ∈ staleBody, label.1 = .owner → inCall label.2 = true := by
      simp [staleBody, inCall]
    refine ⟨labels₁ ++ labels₂, last, [], staleBody, staleAfter,
      run_append_iff.mpr ⟨middle, hrun₁, hrun₂⟩, ⟨hlabels, hinside⟩, ⟨false, ?_⟩, ?_⟩
    · simp [staleAfter]
    · rintro call hmem rfl
      simp [staleAfter] at hmem

/-- The owner runs a runtime that is not initialized, without an observer. -/
def serveUnobserved (memory : Memory) : (request : Op) → Result request × Memory
  | .beginRuntimeCall => (.run none, memory)
  | request => serve memory request

theorem acts_serveUnobserved (memory : Memory) (request : Op) :
    Acts memory request (serveUnobserved memory request).1 (serveUnobserved memory request).2 := by
  cases request with
  | beginRuntimeCall => constructor
  | _ => exact acts_serve memory _

def rejectedRun : List Label :=
  (.owner, ⟨.beginRuntimeCall, .run none⟩) ::
    (staleBody ++ [(.owner, ⟨.finishRuntimeCall (.run none) .invalidState, ()⟩)])

/-- After a rejected run the owner initializes the runtime, and it does the same without the
rejected run. -/
theorem rejections_truthful_erased : ∃ after last last',
    Run (Step Acts) RuntimeSystem.initial (rejectedRun ++ after) last ∧
      IsCall (rejectedRun ++ after) (.run none) .invalidState [] staleBody after ∧
      (FirstTruthful (rejectedRun ++ after) last.state ↔ NotOvertaken (rejectedRun ++ after)) ∧
      last.state.state = .ready ∧
      Run (Step Acts) RuntimeSystem.initial after last' ∧ last'.state = last.state := by
  have hexecuted : ((execute serveUnobserved (fun _ _ => true) (List.replicate 4 .owner)
      RuntimeSystem.initial).bind fun first =>
        (execute serveStop (fun _ _ => true) (List.replicate 8 .owner) first.2).map fun second =>
          (first.1, decide (Careful (first.1 ++ second.1)),
            decide (second.2.state.state = .ready))) = some (rejectedRun, true, true) := by
    rfl
  obtain ⟨⟨labels₁, middle⟩, hfirst, hsecond⟩ := Option.bind_eq_some_iff.mp hexecuted
  obtain ⟨⟨after, last⟩, hsecond, hlabels⟩ := Option.map_eq_some_iff.mp hsecond
  obtain ⟨rfl, hrest⟩ := Prod.mk.inj hlabels
  obtain ⟨hcareful, hinitialized⟩ := Prod.mk.inj hrest
  have hrun : Run (Step Acts) RuntimeSystem.initial (rejectedRun ++ after) last :=
    run_append_iff.mpr ⟨middle, run_of_stepIf (execute_run acts_serveUnobserved hfirst),
      run_of_stepIf (execute_run acts_serveStop hsecond)⟩
  have hcall : IsCall (rejectedRun ++ after) (.run none) .invalidState [] staleBody after := by
    refine ⟨by simp [rejectedRun], ?_⟩
    simp [staleBody, inCall]
  obtain ⟨hfirst, herasable⟩ := rejections_truthful hrun
  obtain ⟨last', hrun', hstate⟩ := herasable (of_decide_eq_true hcareful) _ _ _ _ hcall
  exact ⟨after, last, last', hrun, hcall, hfirst, of_decide_eq_true hinitialized,
    hrun', hstate⟩

end Contract

end EspNp2.NpRuntime.RejectionErasure
