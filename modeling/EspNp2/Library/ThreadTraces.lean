import EspNp2.Library.Concurrent

/-!
The operations of one thread by itself, whatever the replies, and a run of a system as an
interleaving of the operations of its threads that the shared state serves.
-/

namespace EspNp2.Library.ThreadTraces

open EspNp2.Library.Concurrent
open EspNp2.Library.LabelledRun

variable {Op : Type} {Result : Op → Type} {α β σ : Type}

section Traces

/-- A thread can perform the operations with these replies, one after the other. -/
inductive Performs {α : Type} : Thread Op Result α → List (OpLabel Op Result) → Prop
  | nil (p : Thread Op Result α) : Performs p []
  | cons {p : Thread Op Result α} {request : Op} {rest : Result request → Thread Op Result α}
      {reply : Result request} {labels : List (OpLabel Op Result)} (hnext : Next p request rest)
      (hrest : Performs (rest reply) labels) : Performs p (⟨request, reply⟩ :: labels)

/-- A thread performs the operations and returns. -/
inductive Returns {α : Type} : Thread Op Result α → List (OpLabel Op Result) → α → Prop
  | done (value : α) : Returns (.done value) [] value
  | op {request : Op} {next : Result request → Thread Op Result α} {reply : Result request}
      {labels : List (OpLabel Op Result)} {value : α} (hrest : Returns (next reply) labels value) :
      Returns (.op request next) (⟨request, reply⟩ :: labels) value
  | loop {σ β : Type} {body : σ → Thread Op Result (σ ⊕ β)} {start : σ}
      {next : β → Thread Op Result α} {labels : List (OpLabel Op Result)} {value : α}
      (hrest : Returns (Thread.unroll body start next) labels value) :
      Returns (.loop body start next) labels value

variable {p : Thread Op Result α} {rest : α → Thread Op Result β}
  {labels : List (OpLabel Op Result)}

theorem performs_unroll {body : σ → Thread Op Result (σ ⊕ β)} {start : σ}
    {next : β → Thread Op Result α} (h : Performs (.loop body start next) labels) :
    Performs (Thread.unroll body start next) labels := by
  cases h with
  | nil => exact .nil _
  | cons hnext hrest =>
      cases hnext with
      | loop hnext => exact .cons hnext hrest

theorem performs_loop {body : σ → Thread Op Result (σ ⊕ β)} {start : σ}
    {next : β → Thread Op Result α} (h : Performs (Thread.unroll body start next) labels) :
    Performs (.loop body start next) labels := by
  cases h with
  | nil => exact .nil _
  | cons hnext hrest => exact .cons (.loop hnext) hrest

theorem performs_done {value : α} (h : Performs (.done value) labels) : labels = [] := by
  cases h with
  | nil => rfl
  | cons hnext hrest => cases hnext

theorem performs_op_cons_iff {request : Op} {next : Result request → Thread Op Result α}
    {label : OpLabel Op Result} :
    Performs (.op request next) (label :: labels) ↔
      ∃ reply, label = ⟨request, reply⟩ ∧ Performs (next reply) labels := by
  constructor
  · intro h
    cases h with
    | cons hnext hrest =>
        cases hnext
        exact ⟨_, rfl, hrest⟩
  · rintro ⟨reply, rfl, hrest⟩
    exact .cons (.op request next) hrest

theorem returns_done_iff {value result : α} :
    Returns (.done value) labels result ↔ labels = [] ∧ value = result := by
  constructor
  · intro h
    cases h with
    | done => exact ⟨rfl, rfl⟩
  · rintro ⟨rfl, rfl⟩
    exact .done value

theorem returns_op_iff {request : Op} {next : Result request → Thread Op Result α} {value : α} :
    Returns (.op request next) labels value ↔
      ∃ reply rest, labels = ⟨request, reply⟩ :: rest ∧ Returns (next reply) rest value := by
  constructor
  · intro h
    cases h with
    | op hrest => exact ⟨_, _, rfl, hrest⟩
  · rintro ⟨reply, rest, rfl, hrest⟩
    exact .op hrest

/-- The next operation of two threads in sequence is one of the first, or the first is done. -/
theorem next_bind {request : Op} {after : Result request → Thread Op Result β}
    (h : Next (p.bind rest) request after) :
    (∃ next, Next p request next ∧ after = fun reply => (next reply).bind rest) ∨
      ∃ value, Returns p [] value ∧ Next (rest value) request after := by
  generalize hq : p.bind rest = q at h
  induction h generalizing p with
  | op request next =>
      cases p with
      | done value =>
          change rest value = _ at hq
          refine Or.inr ⟨value, .done value, ?_⟩
          rw [hq]
          exact .op request next
      | op request' next' =>
          cases hq
          exact Or.inl ⟨next', .op request next', rfl⟩
      | loop body start next' => cases hq
  | loop hnext ih =>
      cases p with
      | done value =>
          change rest value = _ at hq
          refine Or.inr ⟨value, .done value, ?_⟩
          rw [hq]
          exact .loop hnext
      | op request' next' => cases hq
      | loop body start next' =>
          cases hq
          rcases ih (Thread.bind_unroll ..) with ⟨next, hp, rfl⟩ | ⟨value, hp, hrest⟩
          · exact Or.inl ⟨next, .loop hp, rfl⟩
          · exact Or.inr ⟨value, .loop hp, hrest⟩

theorem returns_of_next {request : Op} {next : Result request → Thread Op Result α}
    {reply : Result request} {value : α} (hnext : Next p request next)
    (h : Returns (next reply) labels value) : Returns p (⟨request, reply⟩ :: labels) value := by
  induction hnext with
  | op request next => exact .op h
  | loop _ ih => exact .loop (ih h)

theorem performs_bind_of_returns {value : α} {more : List (OpLabel Op Result)}
    (h : Returns p labels value) (hmore : Performs (rest value) more) :
    Performs (p.bind rest) (labels ++ more) := by
  induction h with
  | done value => exact hmore
  | op _ ih => exact .cons (.op _ _) (ih hmore)
  | loop _ ih =>
      refine performs_loop ?_
      rw [← Thread.bind_unroll]
      exact ih hmore

theorem performs_bind_of_performs (h : Performs p labels) : Performs (p.bind rest) labels := by
  induction h with
  | nil p => exact .nil _
  | cons hnext _ ih => exact .cons (hnext.bind rest) ih

/-- Two threads in sequence perform operations of the first, or all of them and then some of
the second. -/
theorem performs_bind_iff :
    Performs (p.bind rest) labels ↔ Performs p labels ∨ ∃ first value second,
      labels = first ++ second ∧ Returns p first value ∧ Performs (rest value) second := by
  constructor
  · intro h
    induction labels generalizing p with
    | nil => exact Or.inl (.nil p)
    | cons label labels ih =>
        cases h with
        | cons hnext hrest =>
            rcases next_bind hnext with ⟨next, hp, rfl⟩ | ⟨value, hp, hvalue⟩
            · rcases ih hrest with hnow | ⟨first, value, second, rfl, hfirst, hsecond⟩
              · exact Or.inl (.cons hp hnow)
              · exact Or.inr ⟨_ :: first, value, second, rfl, returns_of_next hp hfirst, hsecond⟩
            · exact Or.inr ⟨[], value, _, rfl, hp, .cons hvalue hrest⟩
  · rintro (h | ⟨first, value, second, rfl, hfirst, hsecond⟩)
    · exact performs_bind_of_performs h
    · exact performs_bind_of_returns hfirst hsecond

theorem returns_bind_iff {result : β} :
    Returns (p.bind rest) labels result ↔ ∃ first value second,
      labels = first ++ second ∧ Returns p first value ∧ Returns (rest value) second result := by
  constructor
  · intro h
    generalize hq : p.bind rest = q at h
    induction h generalizing p with
    | done value =>
        cases p with
        | done value' =>
            change rest value' = _ at hq
            refine ⟨[], value', _, rfl, .done value', ?_⟩
            rw [hq]
            exact .done value
        | op request next => cases hq
        | loop body start next => cases hq
    | op hrest ih =>
        cases p with
        | done value' =>
            change rest value' = _ at hq
            refine ⟨[], value', _, rfl, .done value', ?_⟩
            rw [hq]
            exact .op hrest
        | op request next =>
            cases hq
            rcases ih rfl with ⟨first, value, second, rfl, hfirst, hsecond⟩
            exact ⟨_ :: first, value, second, rfl, .op hfirst, hsecond⟩
        | loop body start next => cases hq
    | loop hrest ih =>
        cases p with
        | done value' =>
            change rest value' = _ at hq
            refine ⟨[], value', _, rfl, .done value', ?_⟩
            rw [hq]
            exact .loop hrest
        | op request next => cases hq
        | loop body start next =>
            cases hq
            rcases ih (Thread.bind_unroll ..) with ⟨first, value, second, rfl, hfirst, hsecond⟩
            exact ⟨first, value, second, rfl, .loop hfirst, hsecond⟩
  · rintro ⟨first, value, second, rfl, hfirst, hsecond⟩
    induction hfirst with
    | done value => exact hsecond
    | op _ ih => exact .op (ih hsecond)
    | loop _ ih =>
        refine .loop ?_
        rw [← Thread.bind_unroll]
        exact ih hsecond

theorem performs_of_returns {value : α} (h : Returns p labels value) : Performs p labels := by
  have hbind := @performs_bind_of_returns Op Result α α p .done labels value [] h (.nil _)
  rwa [Thread.bind_done, List.append_nil] at hbind

theorem unroll_eq_bind (body : σ → Thread Op Result (σ ⊕ β)) (start : σ) :
    Thread.unroll body start .done = (body start).bind (Sum.elim (iterate body) .done) := by
  rw [Thread.unroll]
  congr 1
  funext round
  cases round <;> rfl

/-- The rounds of a loop that returns: a last one, and one before each of them. -/
theorem returns_iterate {body : σ → Thread Op Result (σ ⊕ β)}
    {P : σ → List (OpLabel Op Result) → β → Prop}
    (hlast : ∀ value labels result, Returns (body value) labels (.inr result) →
      P value labels result)
    (hround : ∀ value labels again more result, Returns (body value) labels (.inl again) →
      P again more result → P value (labels ++ more) result)
    {start : σ} {labels : List (OpLabel Op Result)} {result : β}
    (h : Returns (iterate body start) labels result) : P start labels result := by
  have hgeneral : ∀ {q : Thread Op Result β} {labels result}, Returns q labels result →
      ∀ p : Thread Op Result (σ ⊕ β), q = p.bind (Sum.elim (iterate body) .done) →
        ∃ first round second, labels = first ++ second ∧ Returns p first round ∧
          Sum.elim (P · second result) (fun value => value = result ∧ second = []) round := by
    intro q labels result h
    induction h with
    | done value =>
        rintro (⟨_ | _⟩ | _ | _) hp
        · cases hp
        · cases hp
          exact ⟨[], .inr value, [], rfl, .done _, rfl, rfl⟩
        · cases hp
        · cases hp
    | op hrest ih =>
        rintro (⟨_ | _⟩ | _ | _) hp
        · cases hp
        · cases hp
        · cases hp
          rcases ih _ rfl with ⟨first, round, second, rfl, hfirst, hsecond⟩
          exact ⟨_ :: first, round, second, rfl, .op hfirst, hsecond⟩
        · cases hp
    | loop hrest ih =>
        rintro (⟨again | _⟩ | _ | _) hp
        · cases hp
          rcases ih _ (unroll_eq_bind body again) with ⟨first, round, second, rfl, hfirst, hsecond⟩
          refine ⟨[], .inl again, _, rfl, .done _, ?_⟩
          cases round with
          | inl next => exact hround again first next second _ hfirst hsecond
          | inr value =>
              rcases hsecond with ⟨rfl, rfl⟩
              change P again (first ++ []) value
              rw [List.append_nil]
              exact hlast again first value hfirst
        · cases hp
        · cases hp
        · cases hp
          rcases ih _ (Thread.bind_unroll ..).symm with ⟨first, round, second, rfl, hfirst, hsecond⟩
          exact ⟨first, round, second, rfl, .loop hfirst, hsecond⟩
  rcases hgeneral h (.done (.inl start)) rfl with ⟨first, round, second, rfl, hfirst, hsecond⟩
  rcases returns_done_iff.mp hfirst with ⟨rfl, rfl⟩
  exact hsecond

end Traces

section Serving

variable {Party State : Type} {acts : State → (request : Op) → Result request → State → Prop}

/-- The shared state serves the operations, whoever performs them. -/
inductive Serves (acts : State → (request : Op) → Result request → State → Prop) :
    State → List (Party × OpLabel Op Result) → State → Prop
  | nil (state : State) : Serves acts state [] state
  | cons {state middle last : State} {label : Party × OpLabel Op Result}
      {labels : List (Party × OpLabel Op Result)}
      (hacts : acts state label.2.1 label.2.2 middle) (hrest : Serves acts middle labels last) :
      Serves acts state (label :: labels) last

theorem serves_append_iff {state last : State} {first second : List (Party × OpLabel Op Result)} :
    Serves acts state (first ++ second) last ↔
      ∃ middle, Serves acts state first middle ∧ Serves acts middle second last := by
  induction first generalizing state with
  | nil =>
      constructor
      · intro h
        exact ⟨state, .nil state, h⟩
      · rintro ⟨middle, hfirst, hsecond⟩
        cases hfirst
        exact hsecond
  | cons label first ih =>
      constructor
      · intro h
        cases h with
        | cons hacts hrest =>
            rcases ih.mp hrest with ⟨middle, hfirst, hsecond⟩
            exact ⟨middle, .cons hacts hfirst, hsecond⟩
      · rintro ⟨middle, hfirst, hsecond⟩
        cases hfirst with
        | cons hacts hrest => exact .cons hacts (ih.mpr ⟨middle, hrest, hsecond⟩)

theorem serves_cons_iff {state last : State} {label : Party × OpLabel Op Result}
    {labels : List (Party × OpLabel Op Result)} :
    Serves acts state (label :: labels) last ↔
      ∃ middle, acts state label.2.1 label.2.2 middle ∧ Serves acts middle labels last := by
  constructor
  · intro h
    cases h with
    | cons hacts hrest => exact ⟨_, hacts, hrest⟩
  · rintro ⟨middle, hacts, hrest⟩
    exact .cons hacts hrest

/-- Operations that leave the state alone can be left out. -/
theorem Serves.filter {state last : State} {labels : List (Party × OpLabel Op Result)}
    {keep : Party × OpLabel Op Result → Bool} (h : Serves acts state labels last)
    (hmute : ∀ label ∈ labels, keep label = false →
      ∀ state state', acts state label.2.1 label.2.2 state' → state' = state) :
    Serves acts state (labels.filter keep) last := by
  induction h with
  | nil => exact .nil _
  | @cons state middle last label labels hacts hrest ih =>
      rw [List.forall_mem_cons] at hmute
      cases hkeep : keep label with
      | true =>
          rw [List.filter_cons_of_pos hkeep]
          exact .cons hacts (ih hmute.2)
      | false =>
          rw [List.filter_cons_of_neg (by simp [hkeep])]
          obtain rfl := hmute.1 hkeep _ _ hacts
          exact ih hmute.2

end Serving

section Interleaving

variable {Party State : Type} [DecidableEq Party] {Outcome : Party → Type}
  {acts : State → (request : Op) → Result request → State → Prop}

/-- The operations of one party, in their order. -/
def callsOf (party : Party) (labels : List (Party × OpLabel Op Result)) :
    List (OpLabel Op Result) :=
  labels.filterMap fun label => if label.1 = party then some label.2 else none

theorem callsOf_cons_self (party : Party) (label : OpLabel Op Result)
    (labels : List (Party × OpLabel Op Result)) :
    callsOf party ((party, label) :: labels) = label :: callsOf party labels := by
  simp [callsOf]

theorem callsOf_cons_ne {party : Party} {label : Party × OpLabel Op Result} (h : label.1 ≠ party)
    (labels : List (Party × OpLabel Op Result)) :
    callsOf party (label :: labels) = callsOf party labels := by
  simp [callsOf, h]

@[simp] theorem callsOf_append (party : Party) (first second : List (Party × OpLabel Op Result)) :
    callsOf party (first ++ second) = callsOf party first ++ callsOf party second := by
  simp [callsOf]

theorem callsOf_eq_append {party : Party} {labels : List (Party × OpLabel Op Result)}
    {first second : List (OpLabel Op Result)} (h : callsOf party labels = first ++ second) :
    ∃ before after, labels = before ++ after ∧ callsOf party before = first ∧
      callsOf party after = second :=
  List.filterMap_eq_append_iff.mp h

theorem callsOf_eq_nil_iff {party : Party} {labels : List (Party × OpLabel Op Result)} :
    callsOf party labels = [] ↔ ∀ label ∈ labels, label.1 ≠ party := by
  simp [callsOf, List.filterMap_eq_nil_iff]

/-- The first operation of a party, behind operations of others. -/
theorem callsOf_eq_cons {party : Party} {labels : List (Party × OpLabel Op Result)}
    {call : OpLabel Op Result} {calls : List (OpLabel Op Result)}
    (h : callsOf party labels = call :: calls) :
    ∃ before after, labels = before ++ (party, call) :: after ∧
      (∀ label ∈ before, label.1 ≠ party) ∧ callsOf party after = calls := by
  induction labels with
  | nil => cases h
  | cons label labels ih =>
      by_cases hparty : label.1 = party
      · obtain ⟨party', label⟩ := label
        obtain rfl : party' = party := hparty
        rw [callsOf_cons_self, List.cons.injEq] at h
        exact ⟨[], labels, by rw [h.1]; rfl, by simp, h.2⟩
      · rw [callsOf_cons_ne hparty] at h
        rcases ih h with ⟨before, after, rfl, hbefore, hafter⟩
        refine ⟨label :: before, after, rfl, ?_, hafter⟩
        exact List.forall_mem_cons.mpr ⟨hparty, hbefore⟩

/-- In a run every thread performs its own operations, and the state serves all of them. -/
theorem traces_of_run {S last : System Party Op Result Outcome State}
    {labels : List (Party × OpLabel Op Result)} (hrun : Run (Step acts) S labels last) :
    Serves acts S.state labels last.state ∧
      ∀ party, Performs (S.threads party) (callsOf party labels) := by
  induction labels generalizing S with
  | nil =>
      obtain rfl := run_nil_iff.mp hrun
      exact ⟨.nil _, fun party => .nil _⟩
  | cons label labels ih =>
      rcases run_cons_iff.mp hrun with ⟨middle, hstep, hrest⟩
      cases hstep with
      | @op actor request rest reply state' hnext hacts =>
          rcases ih hrest with ⟨hserves, hperforms⟩
          refine ⟨.cons hacts hserves, fun party => ?_⟩
          have hparty := hperforms party
          by_cases hactor : actor = party
          · subst hactor
            simp only [Function.update_self] at hparty
            rw [callsOf_cons_self]
            exact .cons hnext hparty
          · rw [callsOf_cons_ne hactor]
            simpa [Function.update_of_ne (Ne.symm hactor)] using hparty

/-- Any interleaving of what the threads perform is a run, if the state serves it. -/
theorem run_of_traces {S : System Party Op Result Outcome State} {state' : State}
    {labels : List (Party × OpLabel Op Result)} (hserves : Serves acts S.state labels state')
    (hperforms : ∀ party, Performs (S.threads party) (callsOf party labels)) :
    ∃ last, Run (Step acts) S labels last ∧ last.state = state' := by
  induction labels generalizing S with
  | nil =>
      cases hserves
      exact ⟨S, .nil S, rfl⟩
  | cons label labels ih =>
      obtain ⟨actor, request, reply⟩ := label
      cases hserves with
      | @cons _ middle _ _ _ hacts hrest =>
          have hactor := hperforms actor
          rw [callsOf_cons_self] at hactor
          cases hactor with
          | @cons _ _ rest _ _ hnext hafter =>
              let S' : System Party Op Result Outcome State :=
                ⟨Function.update S.threads actor (rest reply), middle⟩
              have hthreads : ∀ party, Performs (S'.threads party) (callsOf party labels) := by
                intro party
                by_cases hparty : party = actor
                · subst hparty
                  simpa [S'] using hafter
                · have h := hperforms party
                  rw [callsOf_cons_ne (fun h => hparty h.symm)] at h
                  simpa [S', Function.update_of_ne hparty] using h
              rcases ih (S := S') hrest hthreads with ⟨last, hrun, hlast⟩
              exact ⟨last, run_cons_iff.mpr ⟨S', .op hnext hacts, hrun⟩, hlast⟩

end Interleaving

section Interior

variable {inside : OpLabel Op Result → Prop}

/-- Whatever the replies, a thread performs only operations of a kind. -/
def Interior (inside : OpLabel Op Result → Prop) (p : Thread Op Result α) : Prop :=
  ∀ labels, Performs p labels → ∀ label ∈ labels, inside label

theorem interior_done (value : α) : Interior inside (.done value : Thread Op Result α) := by
  intro labels h
  rw [performs_done h]
  exact fun label hmem => absurd hmem List.not_mem_nil

theorem interior_op {request : Op} {next : Result request → Thread Op Result α}
    (hrequest : ∀ reply, inside ⟨request, reply⟩) (hnext : ∀ reply, Interior inside (next reply)) :
    Interior inside (.op request next) := by
  intro labels h
  cases labels with
  | nil => simp
  | cons label labels =>
      rcases performs_op_cons_iff.mp h with ⟨reply, rfl, hrest⟩
      exact List.forall_mem_cons.mpr ⟨hrequest reply, hnext reply labels hrest⟩

theorem Interior.bind {p : Thread Op Result α} {rest : α → Thread Op Result β}
    (hp : Interior inside p) (hrest : ∀ value, Interior inside (rest value)) :
    Interior inside (p.bind rest) := by
  intro labels h
  rcases performs_bind_iff.mp h with hfirst | ⟨first, value, second, rfl, hfirst, hsecond⟩
  · exact hp labels hfirst
  · intro label hmem
    rcases List.mem_append.mp hmem with hmem | hmem
    · exact hp first (performs_of_returns hfirst) label hmem
    · exact hrest value second hsecond label hmem

theorem Interior.iterate {body : σ → Thread Op Result (σ ⊕ β)}
    (hbody : ∀ value, Interior inside (body value)) (start : σ) :
    Interior inside (Concurrent.iterate body start) := by
  have hnext : ∀ {q : Thread Op Result β} {request rest}, Next q request rest →
      ∀ p, Interior inside p → q = p.bind (Sum.elim (Concurrent.iterate body) .done) →
        ∃ p' next, Interior inside p' ∧ Next p' request next ∧
          rest = fun reply => (next reply).bind (Sum.elim (Concurrent.iterate body) .done) := by
    intro q request rest h
    induction h with
    | op request next =>
        rintro (⟨_ | _⟩ | _ | _) hp hq
        · cases hq
        · cases hq
        · cases hq
          exact ⟨_, _, hp, .op _ _, rfl⟩
        · cases hq
    | loop _ ih =>
        rintro (⟨again | _⟩ | _ | _) hp hq
        · cases hq
          exact ih (body again) (hbody again) (unroll_eq_bind body again)
        · cases hq
        · cases hq
        · cases hq
          exact ih _ (fun labels h => hp labels (performs_loop h)) (Thread.bind_unroll ..).symm
  have hgeneral : ∀ (labels : List (OpLabel Op Result)) (p : Thread Op Result (σ ⊕ β)),
      Interior inside p →
        Performs (p.bind (Sum.elim (Concurrent.iterate body) .done)) labels →
          ∀ label ∈ labels, inside label := by
    intro labels
    induction labels with
    | nil => simp
    | cons label labels ih =>
        intro p hp h
        cases h with
        | cons hop hrest =>
            rcases hnext hop p hp rfl with ⟨p', next, hp', hop', rfl⟩
            refine List.forall_mem_cons.mpr ⟨?_, ?_⟩
            · exact hp' _ (.cons hop' (.nil _)) _ (List.mem_singleton_self _)
            · refine ih _ (fun more hmore => ?_) hrest
              have hcons := hp' _ (.cons hop' hmore)
              exact (List.forall_mem_cons.mp hcons).2
  intro labels h
  exact hgeneral labels (.done (.inl start)) (interior_done _) h

end Interior

end EspNp2.Library.ThreadTraces
