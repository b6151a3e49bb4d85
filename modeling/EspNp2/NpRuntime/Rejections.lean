import EspNp2.NpRuntime.CallTraces

/-!
Rejected calls of the owner, with the replies that the memory of the life cycle can give: a
rejected call changes nothing in it, and the first `initialize` is rejected only when another
thread overtakes it.
-/

namespace EspNp2.NpRuntime.Rejections

open Library.Concurrent
open Library.LabelledRun
open Library.ThreadTraces
open Lifecycle
open LifecycleMonitor
open LifecycleInvariant
open LifecycleContract
open CoreRuntime
open RuntimeContract
  (Call runtimeHistory_step RuntimeHistory settled_initial core_start_stop_paired)
open RuntimeCalls (watched_runtimeOwner)
open CallTraces

section Lawful

/-- A compare-exchange that has moved the state. -/
def Exchanges (expected desired : State) (label : Label) : Prop :=
  ∃ weak found, label.2 = ⟨.casState weak expected desired, (true, found)⟩

/-- No exchange leaves a terminal state or returns to the first one, and the helpers only
request stops. -/
def Lawful (label : Label) : Prop :=
  ∀ expected desired, Exchanges expected desired label →
    expected ≠ .stopped ∧ expected ≠ .failed ∧ desired ≠ .created ∧
      (label.1 ≠ .owner → desired = .stopRequested)

theorem lawful_of_moveState {w w' : Watch} {party : Party} {expected desired : State}
    (h : w.moveState party expected desired = some w') :
    expected ≠ .stopped ∧ expected ≠ .failed ∧ desired ≠ .created ∧
      (party ≠ .owner → desired = .stopRequested) := by
  cases desired with
  | created => cases h
  | stopRequested =>
      obtain ⟨⟨hrank, -⟩, -⟩ := Option.ite_none_right_eq_some.mp h
      refine ⟨?_, ?_, nofun, fun _ => rfl⟩ <;> rintro rfl <;> exact absurd hrank (by decide)
  | stopping =>
      obtain ⟨⟨hparty, hactive⟩, -⟩ := Option.ite_none_right_eq_some.mp h
      refine ⟨?_, ?_, nofun, fun hother => absurd hparty hother⟩ <;> rintro rfl <;> cases hactive
  | stopped =>
      obtain ⟨⟨hparty, rfl, -⟩, -⟩ := Option.ite_none_right_eq_some.mp h
      exact ⟨nofun, nofun, nofun, fun hother => absurd hparty hother⟩
  | failed =>
      obtain ⟨⟨hparty, rfl, -⟩, -⟩ := Option.ite_none_right_eq_some.mp h
      exact ⟨nofun, nofun, nofun, fun hother => absurd hparty hother⟩
  | initializing | ready | running =>
      obtain ⟨⟨hparty, hrank⟩, -⟩ := Option.ite_none_right_eq_some.mp h
      refine ⟨?_, ?_, nofun, fun hother => absurd hparty hother⟩ <;> rintro rfl <;>
        exact absurd hrank (by decide)

theorem lawful_of_run {labels : List Label} {last : RuntimeSystem}
    (hrun : Run (Step Acts) RuntimeSystem.initial labels last) :
    ∀ label ∈ labels, Lawful label := by
  have hwatched : ∀ party, Watched (monitor party) (fun _ _ => True)
      (RuntimeSystem.initial.threads party) {} := by
    intro party
    cases party with
    | owner => exact watched_runtimeOwner settled_initial
    | helper number => exact watched_lifecycleHelper number
  obtain ⟨watches, ⟨-, hlawful⟩, -⟩ := system_invariant (run_stepIf hrun) hwatched
    (I := fun labels memory watches => RuntimeHistory labels memory watches ∧
      ∀ label ∈ labels, Lawful label) ⟨⟨agreed_initial, rfl, by simp⟩, by simp⟩ (by
      rintro labels memory watches party request reply memory' ⟨h, hlawful⟩ - hacts
      refine ⟨⟨memory, memory', ⟨h.agreed.knows party, ?_⟩, hacts⟩, fun w hobserve => ?_⟩
      · rintro rfl
        exact h.agreed.owner
      refine ⟨runtimeHistory_step h hacts hobserve, ?_⟩
      rw [List.forall_mem_append, List.forall_mem_singleton]
      refine ⟨hlawful, ?_⟩
      rintro expected desired ⟨weak, found, hlabel⟩
      cases hlabel
      obtain ⟨w₁, core, haccess, rfl⟩ := access_of_observe hobserve
      exact lawful_of_moveState haccess)
  exact hlawful

end Lawful

section Memory

variable {memory memory' : Memory} {labels : List Label}

theorem acts_state {label : Label} (h : Acts memory label.2.1 label.2.2 memory') :
    memory'.state = memory.state ∨ Exchanges memory.state memory'.state label := by
  obtain ⟨party, request, reply⟩ := label
  cases h with
  | casState weak desired => exact Or.inr ⟨weak, memory.state, rfl⟩
  | _ => exact Or.inl rfl

/-- What every exchange keeps of the state holds behind all of them. -/
theorem serves_invariant {P : State → Prop} (h : Serves Acts memory labels memory')
    (hstart : P memory.state)
    (hstep : ∀ label ∈ labels, ∀ expected desired, Exchanges expected desired label →
      P expected → P desired) : P memory'.state := by
  induction h with
  | nil => exact hstart
  | @cons memory middle last label labels hacts _ ih =>
      rw [List.forall_mem_cons] at hstep
      refine ih ?_ hstep.2
      rcases acts_state hacts with hsame | hexchange
      · rw [hsame]
        exact hstart
      · exact hstep.1 _ _ hexchange hstart

theorem serves_terminal (h : Serves Acts memory labels memory')
    (hlawful : ∀ label ∈ labels, Lawful label)
    (hstate : memory.state = .stopped ∨ memory.state = .failed) :
    memory'.state = memory.state := by
  refine serves_invariant (P := fun state => state = memory.state) h rfl ?_
  rintro label hmem expected desired hexchange rfl
  obtain ⟨hstopped, hfailed, -⟩ := hlawful label hmem _ _ hexchange
  rcases hstate with hstate | hstate
  · exact absurd hstate hstopped
  · exact absurd hstate hfailed

theorem acts_shows {state : State} {call : Call} (hshows : Shows state call)
    (h : Acts memory call.1 call.2 memory') : memory.state = state ∧ memory' = memory := by
  rcases hshows with rfl | ⟨weak, expected, desired, rfl⟩
  · cases h
    exact ⟨rfl, rfl⟩
  · cases h
    exact ⟨rfl, rfl⟩

/-- The owner's next operation, behind operations of the helpers. -/
theorem serves_owner {call : Call} {calls : List Call} (h : Serves Acts memory labels memory')
    (hcalls : callsOf .owner labels = call :: calls) :
    ∃ before after middle next, labels = before ++ (.owner, call) :: after ∧
      (∀ label ∈ before, label.1 ≠ .owner) ∧ callsOf .owner after = calls ∧
      Serves Acts memory before middle ∧ Acts middle call.1 call.2 next ∧
      Serves Acts next after memory' := by
  rcases callsOf_eq_cons hcalls with ⟨before, after, rfl, hbefore, hafter⟩
  rcases serves_append_iff.mp h with ⟨middle, hfirst, hrest⟩
  rcases serves_cons_iff.mp hrest with ⟨next, hacts, hlast⟩
  exact ⟨before, after, middle, next, rfl, hbefore, hafter, hfirst, hacts, hlast⟩

/-- A refused `cleanup` has seen a terminal state, and so it reads that state again. -/
theorem cleanup_ne_invalidState {observer : Option Observer} {fields fields' : Fields}
    (before : List Call) {rest : List Call} (h : Serves Acts memory labels memory')
    (hlawful : ∀ label ∈ labels, Lawful label) (hcalls : callsOf .owner labels = before ++ rest)
    (hcleanup : Returns (cleanup observer fields) rest (.invalidState, fields')) : False := by
  rcases returns_cleanup hcleanup with
    ⟨hresult, -⟩ | ⟨-, first, label, state, seen, more, rfl, hshows, hstate, hmore⟩
  · exact hresult rfl
  rw [← List.append_assoc] at hcalls
  rcases callsOf_eq_append hcalls with ⟨early, late, rfl, -, hlate⟩
  rw [List.forall_mem_append] at hlawful
  rcases serves_append_iff.mp h with ⟨middle₀, -, hserves₀⟩
  rcases serves_owner hserves₀ hlate with
    ⟨quiet₁, late₁, middle₁, next₁, rfl, -, hlate₁, hserves₁, hacts₁, hrest₁⟩
  obtain ⟨hseen₁, rfl⟩ := acts_shows hshows hacts₁
  have hlawful₁ : ∀ label ∈ late₁, Lawful label :=
    fun label hmem => hlawful.2 label (by simp [hmem])
  rcases serves_owner hrest₁ hlate₁ with
    ⟨quiet₂, late₂, middle₂, next₂, rfl, -, hlate₂, hserves₂, hacts₂, hrest₂⟩
  have hstate₂ : middle₂.state = state := by
    rw [← hseen₁]
    refine serves_terminal hserves₂ (fun label hmem => hlawful₁ label (by simp [hmem])) ?_
    rwa [hseen₁]
  rcases hmore with ⟨-, hresult⟩ | ⟨⟨other, hother, rfl⟩, last, rfl, hlast⟩
  · cases hresult
  obtain ⟨hseen₂, rfl⟩ := acts_shows (Or.inl rfl) hacts₂
  rcases serves_owner hrest₂ hlate₂ with
    ⟨quiet₃, late₃, middle₃, next₃, rfl, -, -, hserves₃, hacts₃, -⟩
  obtain ⟨hseen₃, -⟩ := acts_shows (Or.inl rfl) hacts₃
  have hfailed : state = .failed := by
    rcases hstate with rfl | rfl
    · exact absurd (hseen₂.symm.trans hstate₂) hother
    · rfl
  have hstate₃ : middle₃.state = next₂.state := by
    refine serves_terminal hserves₃ (fun label hmem => hlawful₁ label (by simp [hmem])) ?_
    exact Or.inr (hstate₂.trans hfailed)
  refine hlast rfl ?_
  rw [← hseen₃, hstate₃, hstate₂, hfailed]

end Memory

section Rejected

variable {memory memory' : Memory} {labels : List Label} {fields fields' : Fields}

/-- An operation that leaves the memory alone. -/
def Mute (call : Call) : Prop :=
  ∀ memory memory', Acts memory call.1 call.2 memory' → memory' = memory

theorem mute_of_shows {state : State} {call : Call} (h : Shows state call) : Mute call :=
  fun _ _ hacts => (acts_shows h hacts).2

theorem mute_mark {call : Call} (h : inCall call = false) : Mute call := by
  obtain ⟨request, reply⟩ := call
  intro memory memory' hacts
  cases request with
  | beginRuntimeCall => cases hacts; rfl
  | finishRuntimeCall => cases hacts; rfl
  | _ => cases h

/-- The fields behind a rejected call: `run` has stored its observer. -/
def stored : RuntimeCall → Fields → Fields
  | .run observer, fields => { fields with ownerObserver := observer }
  | _, fields => fields

/-- A rejected call has no operation that changes the memory or that calls the core or an
observer. -/
theorem rejected_mute {call : RuntimeCall} {body : List Call}
    (h : Serves Acts memory labels memory') (hlawful : ∀ label ∈ labels, Lawful label)
    (hcalls : callsOf .owner labels = body)
    (hbody : Returns (callCode call fields) body (.invalidState, fields')) :
    fields' = stored call fields ∧ ∀ label ∈ body, ∃ state, Shows state label := by
  cases call with
  | initializeRuntime =>
      rcases returns_initializeRuntime hbody with
        ⟨rest, rfl, -, hcleanup⟩ | ⟨seen, tried, rest, rfl, -, ⟨htried, rfl, -, rfl⟩ | ⟨-, hmore⟩⟩
      · exact (cleanup_ne_invalidState [_] h hlawful hcalls hcleanup).elim
      · refine ⟨rfl, ?_⟩
        obtain ⟨exchanged, found⟩ := tried
        obtain rfl : exchanged = false := htried
        simp only [List.forall_mem_cons]
        exact ⟨⟨_, Or.inl rfl⟩, ⟨_, Or.inr ⟨_, _, _, rfl⟩⟩, by simp⟩
      · rcases hmore with ⟨state, rest', rfl, ⟨-, hcleanup⟩ | ⟨-, ready, rest'', rfl, hready⟩⟩
        · exact (cleanup_ne_invalidState [_, _, _] h hlawful hcalls hcleanup).elim
        · rcases hready with ⟨-, hresult, -⟩ | ⟨-, -, hresult, -⟩
          · cases hresult
          · exact absurd rfl hresult
  | run observer =>
      rcases returns_run_invalidState hbody with
        ⟨rfl, ⟨exchanged, found⟩, state, htried, rfl⟩ | ⟨before, rest, fields, rfl, hcleanup⟩
      · refine ⟨rfl, ?_⟩
        obtain rfl : exchanged = false := htried
        simp only [List.forall_mem_cons]
        exact ⟨⟨_, Or.inr ⟨_, _, _, rfl⟩⟩, ⟨_, Or.inl rfl⟩, by simp⟩
      · exact (cleanup_ne_invalidState before h hlawful hcalls hcleanup).elim
  | destroy =>
      rcases returns_bind_iff.mp hbody with ⟨first, value, second, -, -, hdone⟩
      cases (returns_done_iff.mp hdone).2

/-- Only rejected calls have come to an end. -/
def Untouched (calls : List Call) : Prop :=
  ∀ call result, ⟨.finishRuntimeCall call result, ()⟩ ∈ calls → result = .invalidState

theorem mute_of_passes {calls : List Call} (hpasses : Passes fields calls fields')
    (h : Serves Acts memory labels memory') (hlawful : ∀ label ∈ labels, Lawful label)
    (hcalls : callsOf .owner labels = calls) (huntouched : Untouched calls) :
    fields'.coreInitialized = fields.coreInitialized ∧ ∀ call ∈ calls, Mute call := by
  induction hpasses generalizing memory labels with
  | nil => simp
  | @call fields last call returned body more hcall hbody hmore ih =>
      obtain ⟨result, fields'⟩ := returned
      have hresult : result = .invalidState := huntouched call result (by simp)
      subst hresult
      rcases serves_owner h hcalls with
        ⟨before, rest, middle, next, rfl, -, hrest, -, -, hserves⟩
      rcases callsOf_eq_append hrest with ⟨during, rest, rfl, hduring, hfinish⟩
      rcases serves_append_iff.mp hserves with ⟨middle₁, hserves₁, hserves₂⟩
      rcases serves_owner hserves₂ hfinish with
        ⟨before₂, after, middle₂, next₂, rfl, -, hafter, -, -, hserves₃⟩
      simp only [List.forall_mem_append, List.forall_mem_cons] at hlawful
      rcases rejected_mute hserves₁ hlawful.2.2.1 hduring hbody with ⟨hstored, hshows⟩
      rcases ih hserves₃ hlawful.2.2.2.2.2 hafter (fun call result hmem =>
        huntouched call result (by simp [hmem])) with ⟨hcore, hmute⟩
      refine ⟨hcore.trans ?_, ?_⟩
      · change fields'.coreInitialized = _
        rw [hstored]
        cases call <;> rfl
      · simp only [List.forall_mem_append, List.forall_mem_cons]
        refine ⟨mute_mark rfl, fun label hmem => ?_, mute_mark rfl, hmute⟩
        rcases hshows label hmem with ⟨state, hstate⟩
        exact mute_of_shows hstate

end Rejected

section First

variable {memory memory' : Memory} {before during labels : List Label}

/-- A stop or a failure has arrived: a helper has moved the state to `stopRequested`. -/
def Arrived (labels : List Label) : Prop :=
  ∃ label ∈ labels, label.1 ≠ .owner ∧ ∃ expected, Exchanges expected .stopRequested label

/-- Between the first load of an `initialize` and its exchange another thread takes the state
away from `created`. -/
def Overtaken (during : List Label) : Prop :=
  ∃ first seen between tried last,
    during = first ++ (.owner, ⟨.loadState, seen⟩) ::
      (between ++ (.owner, ⟨.casState false .created .initializing, tried⟩) :: last) ∧
    (∀ label ∈ first ++ between, label.1 ≠ .owner) ∧
    ∃ label ∈ between, ∃ desired, Exchanges .created desired label

theorem acts_casState {weak : Bool} {expected desired : State}
    {reply : Result (.casState weak expected desired)}
    (h : Acts memory (.casState weak expected desired) reply memory') :
    reply.1 = true ∧ memory.state = expected ∧ memory'.state = desired ∨
      reply.1 = false ∧ (weak = true ∨ memory.state ≠ expected) := by
  cases h with
  | casState => exact Or.inl ⟨rfl, rfl, rfl⟩
  | casStateFails _ _ _ hfails => exact Or.inr ⟨rfl, hfails⟩

/-- As long as the owner's operations are mute, only stops move the state. -/
theorem serves_untouched (h : Serves Acts memory labels memory')
    (hlawful : ∀ label ∈ labels, Lawful label)
    (hmute : ∀ label ∈ labels, label.1 = .owner → Mute label.2) :
    (memory'.state = memory.state ∨ memory'.state = .stopRequested) ∧
      (¬ Arrived labels → memory'.state = memory.state) := by
  induction h with
  | nil => exact ⟨Or.inl rfl, fun _ => rfl⟩
  | @cons memory middle last label labels hacts _ ih =>
      rw [List.forall_mem_cons] at hlawful hmute
      have hfirst : (middle.state = memory.state ∨ middle.state = .stopRequested) ∧
          (¬ Arrived (label :: labels) → middle.state = memory.state) := by
        by_cases howner : label.1 = .owner
        · rw [hmute.1 howner _ _ hacts]
          exact ⟨Or.inl rfl, fun _ => rfl⟩
        · rcases acts_state hacts with hsame | hexchange
          · exact ⟨Or.inl hsame, fun _ => hsame⟩
          · have hdesired := (hlawful.1 _ _ hexchange).2.2.2 howner
            rw [hdesired] at hexchange
            refine ⟨Or.inr hdesired, fun harrived => absurd ?_ harrived⟩
            exact ⟨label, List.mem_cons_self .., howner, _, hexchange⟩
      rcases ih hlawful.2 hmute.2 with ⟨hrange, hsame⟩
      refine ⟨?_, fun harrived => ?_⟩
      · rcases hrange with hrange | hrange
        · rw [hrange]
          exact hfirst.1
        · exact Or.inr hrange
      · refine (hsame ?_).trans (hfirst.2 harrived)
        rintro ⟨other, hmem, hother⟩
        exact harrived ⟨other, List.mem_cons_of_mem _ hmem, hother⟩

theorem serves_helpers (h : Serves Acts memory labels memory')
    (hlawful : ∀ label ∈ labels, Lawful label) (hhelpers : ∀ label ∈ labels, label.1 ≠ .owner) :
    (memory'.state = memory.state ∨ memory'.state = .stopRequested) ∧
      (¬ Arrived labels → memory'.state = memory.state) :=
  serves_untouched h hlawful fun label hmem howner => absurd howner (hhelpers label hmem)

/-- The state does not come back to `created`. -/
theorem serves_leaves (h : Serves Acts memory labels memory')
    (hlawful : ∀ label ∈ labels, Lawful label) {label : Label} (hmem : label ∈ labels)
    {desired : State} (hexchange : Exchanges .created desired label) :
    memory'.state ≠ .created := by
  rcases List.append_of_mem hmem with ⟨first, rest, rfl⟩
  simp only [List.forall_mem_append, List.forall_mem_cons] at hlawful
  rcases serves_append_iff.mp h with ⟨middle, -, hserves⟩
  rcases serves_cons_iff.mp hserves with ⟨next, hacts, hrest⟩
  have hdesired := (hlawful.2.1 _ _ hexchange).2.2.1
  obtain ⟨party, call⟩ := label
  obtain ⟨weak, found, hcall⟩ := hexchange
  obtain rfl : call = ⟨.casState weak .created desired, (true, found)⟩ := hcall
  rcases acts_casState hacts with ⟨-, -, hstate⟩ | ⟨hfails, -⟩
  · refine serves_invariant (P := fun state => state ≠ .created) hrest ?_ ?_
    · rw [hstate]
      exact hdesired
    · exact fun other hother expected desired hexchange _ =>
        (hlawful.2.2 other hother _ _ hexchange).2.2.1
  · cases hfails

/-- As long as nothing moves the state from `created`, it stays there. -/
theorem serves_created (h : Serves Acts memory labels memory') (hstate : memory.state = .created)
    (hnone : ¬ ∃ label ∈ labels, ∃ desired, Exchanges .created desired label) :
    memory'.state = .created := by
  refine serves_invariant (P := fun state => state = .created) h hstate ?_
  rintro label hmem expected desired hexchange rfl
  exact absurd ⟨label, hmem, desired, hexchange⟩ hnone

theorem Arrived.of_subset {more : List Label} (h : Arrived labels)
    (hsubset : ∀ label ∈ labels, label ∈ more) : Arrived more := by
  rcases h with ⟨label, hmem, hlabel⟩
  exact ⟨label, hsubset label hmem, hlabel⟩

/-- The owner's first operation in a sequence stands at one place only. -/
theorem owner_split {first first' rest rest' : List Label} {call call' : Call}
    (h : first ++ (.owner, call) :: rest = first' ++ (.owner, call') :: rest')
    (hfirst : ∀ label ∈ first, label.1 ≠ .owner) (hfirst' : ∀ label ∈ first', label.1 ≠ .owner) :
    first = first' ∧ call = call' ∧ rest = rest' := by
  rcases List.append_eq_append_iff.mp h with ⟨between, rfl, hrest⟩ | ⟨between, rfl, hrest⟩
  · cases between with
    | nil =>
        rw [List.nil_append, List.cons.injEq, Prod.mk.injEq] at hrest
        exact ⟨(List.append_nil first).symm, hrest.1.2, hrest.2⟩
    | cons label between =>
        rw [List.cons_append, List.cons.injEq] at hrest
        exact absurd (congrArg Prod.fst hrest.1).symm (hfirst' label (by simp))
  · cases between with
    | nil =>
        rw [List.nil_append, List.cons.injEq, Prod.mk.injEq] at hrest
        exact ⟨List.append_nil first', hrest.1.2.symm, hrest.2.symm⟩
    | cons label between =>
        rw [List.cons_append, List.cons.injEq] at hrest
        exact absurd (congrArg Prod.fst hrest.1).symm (hfirst label (by simp))

/-- The split of an `initialize` at its first two operations is the one that `Overtaken` takes. -/
theorem overtaken_iff {first between last : List Label} {seen : State} {tried : Bool × State}
    (hfirst : ∀ label ∈ first, label.1 ≠ .owner) (hbetween : ∀ label ∈ between, label.1 ≠ .owner) :
    Overtaken (first ++ (.owner, ⟨.loadState, seen⟩) ::
      (between ++ (.owner, ⟨.casState false .created .initializing, tried⟩) :: last)) ↔
      ∃ label ∈ between, ∃ desired, Exchanges .created desired label := by
  constructor
  · rintro ⟨first', seen', between', tried', last', heq, hhelpers, hexchange⟩
    rw [List.forall_mem_append] at hhelpers
    obtain ⟨-, -, heq⟩ := owner_split heq hfirst hhelpers.1
    obtain ⟨rfl, -, -⟩ := owner_split heq hbetween hhelpers.2
    exact hexchange
  · intro hexchange
    refine ⟨first, seen, between, tried, last, rfl, ?_, hexchange⟩
    exact List.forall_mem_append.mpr ⟨hfirst, hbetween⟩

/-- The exchange of `initialize` fails exactly when another thread has been faster. -/
theorem begin_fails_iff {memory middle next : Memory} {tried : Bool × State}
    (hcreated : memory.state = .created) (h : Serves Acts memory labels middle)
    (hlawful : ∀ label ∈ labels, Lawful label)
    (hacts : Acts middle (.casState false .created .initializing) tried next) :
    tried.1 = false ↔ ∃ label ∈ labels, ∃ desired, Exchanges .created desired label := by
  constructor
  · intro hfails
    by_contra hnone
    have hstate := serves_created h hcreated hnone
    rcases acts_casState hacts with ⟨hdone, -⟩ | ⟨-, hweak | hother⟩
    · exact absurd (hdone.symm.trans hfails) nofun
    · cases hweak
    · exact hother hstate
  · rintro ⟨label, hmem, desired, hexchange⟩
    have hleft := serves_leaves h hlawful hmem hexchange
    rcases acts_casState hacts with ⟨-, hstate, -⟩ | ⟨hfails, -⟩
    · exact absurd hstate hleft
    · exact hfails

/-- Unless a stop or a failure arrives, the owner finds the state as it left it. -/
theorem serves_kept {call : Call} {calls : List Call} (h : Serves Acts memory labels memory')
    (hlawful : ∀ label ∈ labels, Lawful label) (hnone : ¬ Arrived labels)
    (hcalls : callsOf .owner labels = call :: calls) :
    ∃ after middle next, middle.state = memory.state ∧ Acts middle call.1 call.2 next ∧
      Serves Acts next after memory' ∧ (∀ label ∈ after, Lawful label) ∧ ¬ Arrived after ∧
      callsOf .owner after = calls := by
  rcases serves_owner h hcalls with
    ⟨quiet, after, middle, next, rfl, hquiet, hafter, hserves, hacts, hrest⟩
  have hsame := (serves_helpers hserves (fun label hmem => hlawful label (by simp [hmem]))
    hquiet).2 fun harrived => hnone (harrived.of_subset fun label hmem => by simp [hmem])
  exact ⟨after, middle, next, hsame, hacts, hrest, fun label hmem => hlawful label (by simp [hmem]),
    fun harrived => hnone (harrived.of_subset fun label hmem => by simp [hmem]), hafter⟩

/-- An `initialize` that begins with a stop has been stopped. -/
theorem first_stopped {rest : List Call} {fields fields' : Fields} {result : RuntimeResult}
    (hstate : memory.state = .created ∨ memory.state = .stopRequested)
    (h : Serves Acts memory during memory') (hlawful : ∀ label ∈ during, Lawful label)
    (hcalls : callsOf .owner during = ⟨.loadState, .stopRequested⟩ :: rest)
    (hcleanup : Returns (cleanup none fields) rest (result, fields')) :
    result ≠ .invalidState ∧ ¬ Overtaken during ∧
      (memory.state = .stopRequested ∨ Arrived during) := by
  refine ⟨?_, ?_, ?_⟩
  · rintro rfl
    exact cleanup_ne_invalidState [_] h hlawful hcalls hcleanup
  · rintro ⟨first, seen, between, tried, last, rfl, hhelpers, -⟩
    rw [List.forall_mem_append] at hhelpers
    rw [callsOf_append, callsOf_eq_nil_iff.mpr hhelpers.1, List.nil_append, callsOf_cons_self,
      callsOf_append, callsOf_eq_nil_iff.mpr hhelpers.2, List.nil_append, callsOf_cons_self,
      List.cons.injEq] at hcalls
    rw [← hcalls.2] at hcleanup
    rcases returns_op_iff.mp hcleanup with ⟨reply, more, hlabels, -⟩
    cases hlabels
  · by_contra hnone
    rw [not_or] at hnone
    have hcreated := hstate.resolve_right hnone.1
    rcases serves_kept h hlawful hnone.2 hcalls with ⟨after, middle, next, hsame, hacts, -⟩
    have hloaded := (acts_shows (Or.inl rfl) hacts).1
    rw [hsame, hcreated] at hloaded
    cases hloaded

/-- Behind its first exchange `initialize` comes to its end unless a stop arrives. -/
theorem begun_ready {rest : List Call} {state : State} {ready : Bool × State}
    (hinitializing : memory.state = .initializing) (h : Serves Acts memory labels memory')
    (hlawful : ∀ label ∈ labels, Lawful label) (hnone : ¬ Arrived labels)
    (hcalls : callsOf .owner labels = ⟨.loadState, state⟩ :: ⟨.pccoreInit, ()⟩ ::
      ⟨.pccoreReset, ()⟩ :: ⟨.casState false .initializing .ready, ready⟩ :: rest) :
    ready.1 = true := by
  rcases serves_kept h hlawful hnone hcalls with
    ⟨after, middle, next, hstate, hacts, h, hlawful, hnone, hcalls⟩
  obtain ⟨-, rfl⟩ := acts_shows (Or.inl rfl) hacts
  rcases serves_kept h hlawful hnone hcalls with
    ⟨after₁, middle₁, next₁, hstate₁, hacts₁, h, hlawful, hnone, hcalls⟩
  cases hacts₁
  rcases serves_kept h hlawful hnone hcalls with
    ⟨after₂, middle₂, next₂, hstate₂, hacts₂, h, hlawful, hnone, hcalls⟩
  cases hacts₂
  rcases serves_kept h hlawful hnone hcalls with
    ⟨after₃, middle₃, next₃, hstate₃, hacts₃, -⟩
  have hlast : middle₃.state = .initializing :=
    calc middle₃.state = middle₂.state := hstate₃
      _ = middle₁.state := hstate₂
      _ = next.state := hstate₁
      _ = memory.state := hstate
      _ = .initializing := hinitializing
  rcases acts_casState hacts₃ with ⟨hdone, -⟩ | ⟨-, hweak | hother⟩
  · exact hdone
  · cases hweak
  · exact absurd hlast hother

theorem begun_stopped {rest : List Call} {state : State}
    (hinitializing : memory.state = .initializing) (h : Serves Acts memory labels memory')
    (hlawful : ∀ label ∈ labels, Lawful label) (hnone : ¬ Arrived labels)
    (hcalls : callsOf .owner labels = ⟨.loadState, state⟩ :: rest) :
    stopRequested state = false := by
  rcases serves_kept h hlawful hnone hcalls with ⟨after, middle, next, hstate, hacts, -⟩
  obtain ⟨rfl, -⟩ := acts_shows (Or.inl rfl) hacts
  rw [hstate, hinitializing]
  rfl

theorem first_initialize {fields fields' : Fields} {body : List Call} {result : RuntimeResult}
    (hstate : memory.state = .created ∨ memory.state = .stopRequested)
    (hfields : fields.coreInitialized = false) (h : Serves Acts memory during memory')
    (hlawful : ∀ label ∈ during, Lawful label) (hcalls : callsOf .owner during = body)
    (hbody : Returns (initializeRuntime fields) body (result, fields')) :
    (result = .invalidState ↔ Overtaken during) ∧
      (result ≠ .ok → result ≠ .invalidState →
        memory.state = .stopRequested ∨ Arrived during) := by
  rcases returns_initializeRuntime hbody with
    ⟨rest, rfl, -, hcleanup⟩ | ⟨seen, tried, rest, rfl, hseen, htried⟩
  · obtain ⟨hvalid, hovertaken, hstopped⟩ := first_stopped hstate h hlawful hcalls hcleanup
    exact ⟨iff_of_false hvalid hovertaken, fun _ _ => hstopped⟩
  rcases serves_owner h hcalls with
    ⟨first, after, middle, next, rfl, hfirst, hafter, hserves, hacts, hrest⟩
  obtain ⟨hloaded, rfl⟩ := acts_shows (Or.inl rfl) hacts
  rcases serves_owner hrest hafter with
    ⟨between, last, middle₁, next₁, rfl, hbetween, hlast, hserves₁, hacts₁, hrest₁⟩
  simp only [List.forall_mem_append, List.forall_mem_cons] at hlawful
  obtain ⟨hlawful₀, -, hlawful₁, -, hlawful₂⟩ := hlawful
  have hcreated : next.state = .created := by
    have hrange : next.state = .created ∨ next.state = .stopRequested := by
      rcases (serves_helpers hserves hlawful₀ hfirst).1 with hsame | hstop
      · rw [hsame]
        exact hstate
      · exact Or.inr hstop
    rw [hloaded] at hrange ⊢
    exact hrange.resolve_right (hseen hfields)
  rw [overtaken_iff hfirst hbetween, ← begin_fails_iff hcreated hserves₁ hlawful₁ hacts₁]
  rcases htried with ⟨hfails, -, hinvalid, -⟩ | ⟨hdone, state, rest, rfl, hmore⟩
  · exact ⟨iff_of_true hinvalid hfails, fun _ hvalid => absurd hinvalid hvalid⟩
  have hbegun : ¬ tried.1 = false := by simp [hdone]
  have hinitializing : next₁.state = .initializing := by
    rcases acts_casState hacts₁ with ⟨-, -, hstate⟩ | ⟨hfails, -⟩
    · exact hstate
    · exact absurd hfails hbegun
  have harrived (hnone : ¬ Arrived last → False) :
      memory.state = .stopRequested ∨
        Arrived (first ++ (.owner, ⟨.loadState, seen⟩) ::
          (between ++ (.owner, ⟨.casState false .created .initializing, tried⟩) :: last)) :=
    Or.inr ((by_contra hnone).of_subset fun label hmem => by simp [hmem])
  rcases hmore with ⟨hstop, hcleanup⟩ | ⟨-, ready, rest, rfl, ⟨-, rfl, -⟩ | ⟨hready, -, hvalid, -⟩⟩
  · refine ⟨iff_of_false ?_ hbegun, fun _ _ => harrived fun hnone => ?_⟩
    · rintro rfl
      exact cleanup_ne_invalidState [_] hrest₁ hlawful₂ hlast hcleanup
    · rw [begun_stopped hinitializing hrest₁ hlawful₂ hnone hlast] at hstop
      cases hstop
  · exact ⟨iff_of_false (by rintro ⟨⟩) hbegun, fun hok => absurd rfl hok⟩
  · refine ⟨iff_of_false hvalid hbegun, fun _ _ => harrived fun hnone => ?_⟩
    rw [begun_ready hinitializing hrest₁ hlawful₂ hnone hlast] at hready
    cases hready

end First

end EspNp2.NpRuntime.Rejections
