import EspNp2.Library.CallProgram

/-!
Monitors of the calls a program makes. A monitor reads every call with its reply and may
reject it; `Watched` says that it never does, whatever the replies. `Within` is the frame
rule of a program over a state: it makes calls of one kind only and keeps a relation
between the states.
-/

namespace EspNp2.Library.CallMonitor

open EspNp2.Library.CallProgram
open EspNp2.Library.LabelledRun

variable {Call : Type} {Reply : Call → Type} {M S α β : Type}

/-- An environment that may reply anything. -/
def anyReply (_ : Unit) (request : Call) (_ : Reply request) (_ : Unit) : Prop := True

section Watch

variable (observe : M → Label Call Reply → Option M)

/-- The monitor accepts every call, and `post` holds when the program returns. -/
def Watched (post : M → α → Prop) : Program Call Reply α → M → Prop
  | .done value, m => post m value
  | .call request next, m => ∀ reply, ∃ m', observe m ⟨request, reply⟩ = some m' ∧
      Watched post (next reply) m'

variable {observe} {post post' : M → α → Prop} {p : Program Call Reply α} {m : M}

theorem Watched.mono (h : Watched observe post p m)
    (hpost : ∀ m value, post m value → post' m value) : Watched observe post' p m := by
  induction p generalizing m with
  | done value => exact hpost m value h
  | call request next ih =>
      intro reply
      obtain ⟨m', hm', hnext⟩ := h reply
      exact ⟨m', hm', ih reply hnext⟩

theorem Watched.bind {rest : α → Program Call Reply β} {final : M → β → Prop}
    (h : Watched observe (fun m value => Watched observe final (rest value) m) p m) :
    Watched observe final (p.bind rest) m := by
  induction p generalizing m with
  | done value => exact h
  | call request next ih =>
      intro reply
      obtain ⟨m', hm', hnext⟩ := h reply
      exact ⟨m', hm', ih reply hnext⟩

/-- The monitor has accepted the calls of every run. -/
theorem Watched.run {labels : List (Label Call Reply)} {rest : Program Call Reply α}
    (h : Watched observe post p m) (hrun : Run (Step anyReply) (p, ()) labels (rest, ())) :
    ∃ m', labels.foldlM observe m = some m' ∧ Watched observe post rest m' := by
  refine hrun.invariant (P := fun labels last =>
    ∃ m', labels.foldlM observe m = some m' ∧ Watched observe post last.1 m') ⟨m, rfl, h⟩ ?_
  rintro labels ⟨current, _⟩ label ⟨next, _⟩ ⟨m', hm', hwatched⟩ hstep
  cases hstep with
  | call _ =>
      obtain ⟨m'', hm'', hnext⟩ := hwatched _
      refine ⟨m'', ?_, hnext⟩
      rw [List.foldlM_append, hm']
      simpa using hm''

end Watch

section Frame

/-- Every call satisfies `P`, and every result `Q`. -/
def Makes (P : Label Call Reply → Prop) (Q : α → Prop) : Program Call Reply α → Prop
  | .done value => Q value
  | .call request next => ∀ reply, P ⟨request, reply⟩ ∧ Makes P Q (next reply)

variable {P P' : Label Call Reply → Prop} {Q Q' : α → Prop} {p : Program Call Reply α}

theorem Makes.mono (h : Makes P Q p) (hmono : ∀ value, Q value → Q' value) : Makes P Q' p := by
  induction p with
  | done value => exact hmono value h
  | call request next ih => exact fun reply => ⟨(h reply).1, ih reply (h reply).2⟩

theorem Makes.weaken (h : Makes P Q p) (hweaken : ∀ label, P label → P' label) : Makes P' Q p := by
  induction p with
  | done value => exact h
  | call request next ih => exact fun reply => ⟨hweaken _ (h reply).1, ih reply (h reply).2⟩

theorem Makes.bind {rest : α → Program Call Reply β} {Q : β → Prop}
    (h : Makes P (fun value => Makes P Q (rest value)) p) : Makes P Q (p.bind rest) := by
  induction p with
  | done value => exact h
  | call request next ih => exact fun reply => ⟨(h reply).1, ih reply (h reply).2⟩

/-- A monitor that ignores the calls of a program. -/
theorem Makes.watched {observe : M → Label Call Reply → Option M} {post : M → α → Prop} {m : M}
    (h : Makes P Q p) (hignored : ∀ label, P label → observe m label = some m)
    (hpost : ∀ value, Q value → post m value) : Watched observe post p m := by
  induction p with
  | done value => exact hpost value h
  | call request next ih =>
      exact fun reply => ⟨m, hignored _ (h reply).1, ih reply (h reply).2⟩

/-- The calls of a program over a state satisfy `P`, and `R` relates its states. -/
def Within (P : Label Call Reply → Prop) (R : S → S → Prop)
    (program : StateT S (Program Call Reply) α) : Prop :=
  ∀ s, Makes P (fun result => R s result.2) (program s)

variable {R : S → S → Prop} {first : StateT S (Program Call Reply) α}

theorem within_pure [Std.Refl R] (value : α) :
    Within P R (pure value : StateT S (Program Call Reply) α) :=
  fun s => Std.Refl.refl s

theorem within_get [Std.Refl R] : Within P R (get : StateT S (Program Call Reply) S) :=
  fun s => Std.Refl.refl s

/-- What follows knows the state that it has read. -/
theorem within_get_bind {rest : S → StateT S (Program Call Reply) α}
    (h : ∀ s, Makes P (fun result => R s result.2) (rest s s)) :
    Within P R ((get : StateT S (Program Call Reply) S) >>= rest) :=
  h

theorem within_modify {change : S → S} (h : ∀ s, R s (change s)) :
    Within P R (modify change : StateT S (Program Call Reply) PUnit) :=
  fun s => h s

theorem within_ite {c : Prop} [Decidable c] {first second : StateT S (Program Call Reply) α}
    (hfirst : c → Within P R first) (hsecond : ¬ c → Within P R second) :
    Within P R (if c then first else second) := by
  split
  · exact hfirst ‹_›
  · exact hsecond ‹_›

theorem Within.bind [IsTrans S R] {rest : α → StateT S (Program Call Reply) β}
    (hfirst : Within P R first) (hrest : ∀ value, Within P R (rest value)) :
    Within P R (first >>= rest) := by
  intro s
  refine Makes.bind ((hfirst s).mono ?_)
  rintro ⟨value, s₁⟩ hs₁
  exact (hrest value s₁).mono fun result hresult => IsTrans.trans _ _ _ hs₁ hresult

theorem within_discard {S : Type} {R : S → S → Prop} {program : StateT S (Program Call Reply) α}
    (h : Within P R program) : Within P R (discard program) :=
  fun s => Makes.bind ((h s).mono fun _ hresult => hresult)

/-- Nothing that a view shows has changed. -/
def Preserves {V : Type} (view : S → V) (s s' : S) : Prop := view s' = view s

instance {V : Type} (view : S → V) : Std.Refl (Preserves view) := ⟨fun _ => rfl⟩

instance {V : Type} (view : S → V) : IsTrans S (Preserves view) :=
  ⟨fun _ _ _ h h' => h'.trans h⟩

/-- A coarser view of a program that makes more calls. -/
theorem Within.coarsen {V V' : Type} {view : S → V} {view' : S → V'}
    (h : Within P (Preserves view) first) (hcalls : ∀ label, P label → P' label)
    (hview : ∀ s s', view s' = view s → view' s' = view' s) :
    Within P' (Preserves view') first :=
  fun s => ((h s).weaken hcalls).mono fun result hresult => hview s result.2 hresult

end Frame

section Triples

variable (observe : M → Label Call Reply → Option M)

/-- A program over a state, from states with `pre` to results with `post`. -/
def Ensures (pre : M → S → Prop) (program : StateT S (Program Call Reply) α)
    (post : M → α → S → Prop) : Prop :=
  ∀ m s, pre m s → Watched observe (fun m' result => post m' result.1 result.2) (program s) m

variable {observe} {pre : M → S → Prop} {post post' : M → α → S → Prop}
  {program : StateT S (Program Call Reply) α}

theorem Ensures.mono (h : Ensures observe pre program post)
    (hpost : ∀ m value s, post m value s → post' m value s) : Ensures observe pre program post' :=
  fun m s hpre => (h m s hpre).mono fun m' result => hpost m' result.1 result.2

theorem ensures_before {P : M → S → Prop} (h : Ensures observe pre program post)
    (hpre : ∀ m s, P m s → pre m s) : Ensures observe P program post :=
  fun m s hP => h m s (hpre m s hP)

theorem ensures_pure {value : α} (h : ∀ m s, pre m s → post m value s) :
    Ensures observe pre (pure value) post :=
  fun m s hpre => h m s hpre

theorem ensures_modify {change : S → S} {post : M → PUnit → S → Prop}
    (h : ∀ m s, pre m s → post m ⟨⟩ (change s)) : Ensures observe pre (modify change) post :=
  fun m s hpre => h m s hpre

theorem ensures_get_bind {rest : S → StateT S (Program Call Reply) α}
    (h : ∀ current, Ensures observe (fun m s => pre m s ∧ s = current) (rest current) post) :
    Ensures observe pre (get >>= rest) post :=
  fun m s hpre => h s m s ⟨hpre, rfl⟩

theorem ensures_ite {c : Prop} [Decidable c] {first second : StateT S (Program Call Reply) α}
    (hfirst : c → Ensures observe pre first post)
    (hsecond : ¬ c → Ensures observe pre second post) :
    Ensures observe pre (if c then first else second) post := by
  split
  · exact hfirst ‹_›
  · exact hsecond ‹_›

theorem Ensures.bind {rest : α → StateT S (Program Call Reply) β} {Q : M → α → S → Prop}
    {final : M → β → S → Prop} (h : Ensures observe pre program Q)
    (hrest : ∀ value, Ensures observe (fun m s => Q m value s) (rest value) final) :
    Ensures observe pre (program >>= rest) final := by
  intro m s hpre
  refine Watched.bind ((h m s hpre).mono ?_)
  rintro m' ⟨value, s'⟩ hQ
  exact hrest value m' s' hQ

/-- A program whose calls the monitor ignores keeps what `R` keeps. -/
theorem Within.ensures {P : Label Call Reply → Prop} {R : S → S → Prop} (h : Within P R program)
    (hignored : ∀ m label, P label → observe m label = some m)
    (hpost : ∀ m s s' value, pre m s → R s s' → post m value s') :
    Ensures observe pre program post :=
  fun m s hpre => (h s).watched (hignored m) fun result hR => hpost m s result.2 result.1 hpre hR

end Triples

end EspNp2.Library.CallMonitor
