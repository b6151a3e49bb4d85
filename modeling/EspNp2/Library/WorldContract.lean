import EspNp2.Library.CallProgram

/-!
Contracts of programs whose environment is a world with a state of its own. The world says
which replies it can give; `always` holds of it at every stop of the program.
-/

namespace EspNp2.Library.WorldContract

open EspNp2.Library.CallProgram
open EspNp2.Library.LabelledRun

variable {Call : Type} {Reply : Call → Type} {W S α β : Type}

variable (answers : W → (request : Call) → Reply request → W → Prop) (always : W → Prop)

/-- From states with `pre` a program over a state ends in `post`. -/
def Meets (pre : W → S → Prop) (program : StateT S (Program Call Reply) α)
    (post : W → α → S → Prop) : Prop :=
  ∀ trace w s, always w → pre w s →
    Safe answers (fun _ w' => always w') (fun _ result w' => post w' result.1 result.2) trace
      (program s) w

variable {answers always} {pre : W → S → Prop} {post : W → α → S → Prop}
  {program : StateT S (Program Call Reply) α}

theorem Meets.mono {post' : W → α → S → Prop} (h : Meets answers always pre program post)
    (hpost : ∀ w value s, post w value s → post' w value s) :
    Meets answers always pre program post' :=
  fun trace w s halways hpre =>
    (h trace w s halways hpre).mono (fun _ _ h => h) fun _ result w' => hpost w' result.1 result.2

theorem meets_before {pre' : W → S → Prop} (h : Meets answers always pre program post)
    (hpre : ∀ w s, pre' w s → pre w s) : Meets answers always pre' program post :=
  fun trace w s halways hpre' => h trace w s halways (hpre w s hpre')

theorem meets_pure {value : α} (h : ∀ w s, pre w s → post w value s) :
    Meets answers always pre (pure value) post :=
  fun _ w s halways hpre => safe_done halways (h w s hpre)

theorem meets_modify {change : S → S} {post : W → PUnit → S → Prop}
    (h : ∀ w s, pre w s → post w ⟨⟩ (change s)) :
    Meets answers always pre (modify change) post :=
  fun _ w s halways hpre => safe_done halways (h w s hpre)

theorem meets_get_bind {rest : S → StateT S (Program Call Reply) α}
    (h : ∀ current, Meets answers always (fun w s => pre w s ∧ s = current) (rest current) post) :
    Meets answers always pre (get >>= rest) post :=
  fun trace w s halways hpre => h s trace w s halways ⟨hpre, rfl⟩

theorem meets_ite {c : Prop} [Decidable c] {first second : StateT S (Program Call Reply) α}
    (hfirst : c → Meets answers always pre first post)
    (hsecond : ¬ c → Meets answers always pre second post) :
    Meets answers always pre (if c then first else second) post := by
  split
  · exact hfirst ‹_›
  · exact hsecond ‹_›

/-- The state that was read is the one that is known. -/
theorem meets_with {state current : S} {only : W → Prop}
    (h : state = current → Meets answers always (fun w s => only w ∧ s = state) program post) :
    Meets answers always (fun w s => (only w ∧ s = state) ∧ s = current) program post :=
  fun trace w s halways hpre => h (hpre.1.2.symm.trans hpre.2) trace w s halways hpre.1

theorem Meets.bind {rest : α → StateT S (Program Call Reply) β} {middle : W → α → S → Prop}
    {final : W → β → S → Prop} (h : Meets answers always pre program middle)
    (hrest : ∀ value, Meets answers always (fun w s => middle w value s) (rest value) final) :
    Meets answers always pre (program >>= rest) final := by
  intro trace w s halways hpre
  refine Safe.bind ((h trace w s halways hpre).ending.mono (fun _ _ h => h) ?_)
  rintro trace' ⟨value, s'⟩ w' ⟨halways', hmiddle⟩
  exact hrest value trace' w' s' halways' hmiddle

theorem meets_perform {request : Call} {post : W → Reply request → S → Prop}
    (h : ∀ w s reply w', always w → pre w s → answers w request reply w' →
      always w' ∧ post w' reply s) :
    Meets answers always pre
      (liftM (perform request : Program Call Reply (Reply request)) :
        StateT S (Program Call Reply) (Reply request)) post := by
  intro trace w s halways hpre
  refine safe_perform halways fun reply w' hanswer => ?_
  obtain ⟨halways', hpost⟩ := h w s reply w' halways hpre hanswer
  exact safe_done halways' hpost

theorem Meets.stopped {labels : List (Label Call Reply)} {rest : Program Call Reply (α × S)}
    {w w' : W} {s : S} (h : Meets answers always pre program post) (halways : always w)
    (hpre : pre w s) (hrun : Run (Step answers) (program s, w) labels (rest, w')) : always w' :=
  ((h [] w s halways hpre).run hrun).stopped

theorem Meets.result {labels : List (Label Call Reply)} {value : α} {w w' : W} {s s' : S}
    (h : Meets answers always pre program post) (halways : always w) (hpre : pre w s)
    (hrun : Run (Step answers) (program s, w) labels (.done (value, s'), w')) :
    post w' value s' :=
  (h [] w s halways hpre).result hrun

end EspNp2.Library.WorldContract
