import EspNp2.GuestAdapter.AdapterRuns
import EspNp2.GuestAdapter.CommitStream
import EspNp2.GuestAdapter.QuietFrame
import EspNp2.Library.LittleEndian
import Mathlib.Logic.Function.Basic

/-!
The interrupt lines of the guest. Two sources drive two lines, which may be one line or
none; a line is high exactly while a source of it is set, and the hook hears of every
change once.
-/

namespace EspNp2.GuestAdapter.InterruptLines

open EspNp2.GuestAdapter.AdapterFrame
open EspNp2.GuestAdapter.AdapterOperations
open EspNp2.GuestAdapter.AdapterRuns
open EspNp2.GuestAdapter.AdapterState
open EspNp2.GuestAdapter.CommitStream
open EspNp2.GuestAdapter.QuietFrame
open EspNp2.Library.CallMonitor
open EspNp2.Library.CallProgram
open EspNp2.Library.LabelledRun
open EspNp2.Library.LittleEndian

section Lines

/-- The line of a source. -/
def lineOf (f : PicFields) : Source → UInt32
  | .opna => f.opnaIrq
  | .pcm => f.pcmIrqLine

def sourceOf (f : PicFields) : Source → Bool
  | .opna => f.opnaPicSource
  | .pcm => f.pcmPicSource

def Source.opposite : Source → Source
  | .opna => .pcm
  | .pcm => .opna

/-- A line is asserted by the sources that are mapped to it. -/
def asserted (f : PicFields) (line : UInt32) : Bool :=
  f.opnaIrq == line && f.opnaPicSource || f.pcmIrqLine == line && f.pcmPicSource

def setSource (f : PicFields) (source : Source) (value : Bool) : PicFields :=
  match source with
  | .opna => { f with opnaPicSource := value }
  | .pcm => { f with pcmPicSource := value }

theorem picFields_setPicSource (g : GuestState) (source : Source) (value : Bool) :
    picFields (GuestState.setPicSource g source value) = setSource (picFields g) source value := by
  cases source <;> rfl

theorem asserted_eq (f : PicFields) (source : Source) (line : UInt32) :
    asserted f line = (lineOf f source == line && sourceOf f source ||
      lineOf f (Source.opposite source) == line && sourceOf f (Source.opposite source)) := by
  cases source with
  | opna => rfl
  | pcm => rw [asserted, Bool.or_comm, lineOf, sourceOf, Source.opposite, lineOf, sourceOf]

theorem asserted_lineOf (f : PicFields) (source : Source) :
    asserted f (lineOf f source) = (sourceOf f source ||
      f.opnaIrq == f.pcmIrqLine && sourceOf f (Source.opposite source)) := by
  cases source with
  | opna =>
      rw [asserted, lineOf, sourceOf, Source.opposite, sourceOf, beq_self_eq_true, Bool.true_and,
        BEq.comm (b := f.opnaIrq)]
  | pcm =>
      rw [asserted, lineOf, sourceOf, Source.opposite, sourceOf, beq_self_eq_true, Bool.true_and,
        Bool.or_comm]

theorem asserted_set (f : PicFields) (source : Source) (line : UInt32) :
    asserted (setSource f source true) line = (lineOf f source == line || asserted f line) := by
  cases source with
  | opna =>
      rw [asserted, asserted, setSource, lineOf]
      cases f.opnaIrq == line <;> cases f.opnaPicSource <;> rfl
  | pcm =>
      rw [asserted, asserted, setSource, lineOf]
      cases f.pcmIrqLine == line <;> cases f.opnaIrq == line && f.opnaPicSource <;> rfl

theorem asserted_clear (f : PicFields) (source : Source) (line : UInt32) :
    asserted (setSource f source false) line =
      (lineOf f (Source.opposite source) == line && sourceOf f (Source.opposite source)) := by
  cases source with
  | opna =>
      rw [asserted, setSource, Bool.and_false, Bool.false_or, Source.opposite, lineOf, sourceOf]
  | pcm =>
      rw [asserted, setSource, Bool.and_false, Bool.or_false, Source.opposite, lineOf, sourceOf]

end Lines

section Levels

abbrev Levels := UInt32 → Bool

/-- The hook hears of changes only, and of no absent line. -/
def observeLines (levels : Levels) (label : CallLabel) : Option Levels :=
  match label.1 with
  | .irq line level =>
      if line ≠ 0xff ∧ level = !levels line then some (Function.update levels line level) else none
  | _ => some levels

theorem observeLines_undriven {levels : Levels} {label : CallLabel} (h : IsUndriven label) :
    observeLines levels label = some levels := by
  obtain ⟨request, reply⟩ := label
  cases request with
  | irq line level => exact absurd rfl (h line level)
  | _ => rfl

theorem observeLines_irq {levels : Levels} {line : UInt32} {level : Bool} (hline : line ≠ 0xff)
    (hlevel : levels line = !level) :
    observeLines levels ⟨.irq line level, ()⟩ = some (Function.update levels line level) := by
  refine if_pos ⟨hline, ?_⟩
  rw [hlevel, Bool.not_not]

/-- The calls of the hook for a line. -/
def irqCalls (line : UInt32) (trace : List CallLabel) : List Bool :=
  trace.filterMap fun label =>
    match label.1 with
    | .irq line' level => if line' = line then some level else none
    | _ => none

/-- A line that was heard of is alternately high and low. -/
def Alternates (calls : List Bool) (level : Bool) : Prop :=
  calls = (List.range calls.length).map (fun i => decide (i % 2 = 0)) ∧
    level = decide (calls.length % 2 = 1)

theorem Alternates.snoc {calls : List Bool} {level : Bool} (h : Alternates calls level) :
    Alternates (calls ++ [!level]) (!level) := by
  obtain ⟨hcalls, hlevel⟩ := h
  rw [Alternates, List.length_append, List.length_singleton, List.range_succ, List.map_append,
    ← hcalls, List.map_singleton]
  have hparity : decide (calls.length % 2 = 0) = !decide (calls.length % 2 = 1) := by
    rcases Nat.mod_two_eq_zero_or_one calls.length with heven | hodd
    · rw [heven]
      rfl
    · rw [hodd]
      rfl
  refine ⟨by rw [hlevel, hparity], ?_⟩
  rw [hlevel, ← hparity]
  refine decide_eq_decide.mpr ?_
  omega

theorem Alternates.last {calls : List Bool} {level : Bool} (h : Alternates calls level) :
    calls.getLastD false = level := by
  obtain ⟨hcalls, hlevel⟩ := h
  rw [hlevel]
  generalize calls.length = n at hcalls
  rw [hcalls]
  cases n with
  | zero => rfl
  | succ n =>
      rw [List.range_succ, List.map_append, List.map_singleton, List.getLastD_concat]
      refine decide_eq_decide.mpr ?_
      omega

/-- What the monitor has accepted. -/
theorem alternates_of_observed {trace : List CallLabel} {levels : Levels}
    (h : trace.foldlM observeLines (fun _ => false) = some levels) :
    (∀ line, Alternates (irqCalls line trace) (levels line)) ∧ irqCalls 0xff trace = [] := by
  induction trace using List.reverseRecOn generalizing levels with
  | nil =>
      cases h
      exact ⟨fun line => ⟨rfl, rfl⟩, rfl⟩
  | append_singleton trace label ih =>
      rw [List.foldlM_append] at h
      obtain ⟨before, hbefore, hlabel⟩ := Option.bind_eq_some_iff.mp h
      obtain ⟨hlines, habsent⟩ := ih hbefore
      have hlabel : observeLines before label = some levels := by simpa using hlabel
      have hcalls : ∀ line, irqCalls line (trace ++ [label]) =
          irqCalls line trace ++ irqCalls line [label] := fun line => List.filterMap_append
      obtain ⟨request, reply⟩ := label
      cases request with
      | irq line level =>
          obtain ⟨⟨hline, hlevel⟩, hupdate⟩ := Option.ite_none_right_eq_some.mp hlabel
          cases hupdate
          refine ⟨fun line' => ?_, ?_⟩
          · rw [hcalls]
            by_cases hsame : line = line'
            · have hone : irqCalls line' [⟨.irq line level, reply⟩] = [level] := by
                simp [irqCalls, hsame]
              subst hsame
              rw [hone, Function.update_self, hlevel]
              exact (hlines line).snoc
            · have hnone : irqCalls line' [⟨.irq line level, reply⟩] = [] := by
                simp [irqCalls, hsame]
              rw [hnone, List.append_nil, Function.update_of_ne (Ne.symm hsame)]
              exact hlines line'
          · rw [hcalls, habsent, List.nil_append]
            simp [irqCalls, hline]
      | _ =>
          cases hlabel
          refine ⟨fun line' => ?_, ?_⟩
          · rw [hcalls, show irqCalls line' [_] = [] from rfl, List.append_nil]
            exact hlines line'
          · rw [hcalls, habsent]
            rfl

end Levels

section Sources

/-- The levels are those that the sources of the guest assert. -/
structure Leveled (levels : Levels) (s : Adapter) : Prop where
  hooked : s.hooks.irq = true
  level : ∀ line, line ≠ 0xff → levels line = asserted (picFields s.guest) line

/-- The interrupt of a timer is pending exactly while its status is. -/
def Flagged (f : PicFields) : Prop :=
  f.opnaIrq ≠ 0xff → (f.opnaPicSource = true ↔ f.timerStatus ≠ 0)

variable {levels : Levels} {s s' : Adapter}

theorem Leveled.of_view (h : Leveled levels s) (hview : picView s' = picView s) :
    Leveled levels s' := by
  obtain ⟨hfields, hsettings⟩ := Prod.ext_iff.mp hview
  refine ⟨?_, fun line hline => ?_⟩
  · have hhooks : s'.hooks = s.hooks := congrArg Settings.hooks hsettings
    rw [hhooks]
    exact h.hooked
  · rw [show picFields s'.guest = picFields s.guest from hfields]
    exact h.level line hline

/-- The sources after a cause of an interrupt. -/
def raised (f : PicFields) (cause : UInt8) (source : Source) : PicFields :=
  if cause ≠ 0 ∧ lineOf f source ≠ 0xff then setSource f source true else f

theorem lineOf_raised (f : PicFields) (cause : UInt8) (source source' : Source) :
    lineOf (raised f cause source) source' = lineOf f source' := by
  rw [raised]
  split
  · cases source <;> cases source' <;> rfl
  · rfl

theorem wasAsserted_eq (g : GuestState) (source : Source) :
    (GuestState.picSource g source || ((if g.opnaIrq = g.pcmIrqLine then
        some (Source.opposite source) else none).map (GuestState.picSource g)).getD false) =
      asserted (picFields g) (lineOf (picFields g) source) := by
  rw [asserted_lineOf]
  by_cases hshared : g.opnaIrq = g.pcmIrqLine
  · have hbeq : ((picFields g).opnaIrq == (picFields g).pcmIrqLine) = true := beq_iff_eq.mpr hshared
    rw [if_pos hshared, hbeq, Bool.true_and]
    cases source <;> rfl
  · have hbeq : ((picFields g).opnaIrq == (picFields g).pcmIrqLine) = false :=
      beq_eq_false_iff_ne.mpr hshared
    rw [if_neg hshared, hbeq, Bool.false_and]
    cases source <;> rfl

/-- The guest with a source set, and the levels that show it. -/
theorem Leveled.set {levels' : Levels} (h : Leveled levels s) {source : Source} {line : UInt32}
    (hline : lineOf (picFields s.guest) source = line) (hraised : levels' line = true)
    (hothers : ∀ line', line' ≠ line → levels' line' = levels line') :
    Leveled levels' { s with guest := GuestState.setPicSource s.guest source true } := by
  refine ⟨h.hooked, fun line' hpresent => ?_⟩
  rw [picFields_setPicSource, asserted_set, hline]
  by_cases hsame : line' = line
  · rw [hsame, hraised, beq_self_eq_true, Bool.true_or]
  · have hbeq : (line == line') = false := beq_eq_false_iff_ne.mpr (Ne.symm hsame)
    rw [hothers line' hsame, h.level line' hpresent, hbeq, Bool.false_or]

theorem watched_picSetLine {source : Source} {other : Option Source} {line : UInt32}
    (h : Leveled levels s) (hline : lineOf (picFields s.guest) source = line)
    (hother : other = if s.guest.opnaIrq = s.guest.pcmIrqLine then some (Source.opposite source)
      else none) :
    Watched observeLines (fun levels' result => Leveled levels' result.2 ∧
      picFields result.2.guest = raised (picFields s.guest) 1 source)
      (picSetLine source other line s) levels := by
  rw [picSetLine, get_bind_run]
  simp only [ite_run]
  split
  · rename_i habsent
    refine ⟨h, ?_⟩
    rw [raised, if_neg (by simp [hline, habsent])]
  · rename_i hpresent
    have hraised : raised (picFields s.guest) 1 source = setSource
      (picFields s.guest) source true :=
      if_pos ⟨by decide, by rw [hline]; exact hpresent⟩
    have hlevel := h.level line hpresent
    rw [hother, wasAsserted_eq, hline, h.hooked, Bool.and_true, onlyIf]
    cases hasserted : asserted (picFields s.guest) line with
    | true =>
        rw [hasserted] at hlevel
        refine ⟨h.set hline hlevel fun _ _ => rfl, ?_⟩
        rw [hraised]
        exact picFields_setPicSource s.guest source true
    | false =>
        rw [hasserted] at hlevel
        refine fun reply => ⟨_, observeLines_irq hpresent hlevel, ?_, ?_⟩
        · exact h.set hline (Function.update_self ..) fun line' hother =>
            Function.update_of_ne hother ..
        · rw [hraised]
          exact picFields_setPicSource s.guest source true

/-- A set cause raises its source, unless its line is absent. -/
theorem watched_picSetCause {cause : UInt8} (source : Source) {other : Option Source}
    {line : UInt32} (h : Leveled levels s) (hline : lineOf (picFields s.guest) source = line)
    (hother : other = if s.guest.opnaIrq = s.guest.pcmIrqLine then some (Source.opposite source)
      else none) :
    Watched observeLines (fun levels' result => Leveled levels' result.2 ∧
      picFields result.2.guest = raised (picFields s.guest) cause source)
      (picSetCause cause source other line s) levels := by
  rw [picSetCause, ite_run]
  split
  · rename_i hcause
    refine (watched_picSetLine h hline hother).mono fun levels' result hresult => ?_
    rw [hresult.2, raised, raised]
    exact ⟨hresult.1, if_congr (by simp [hcause]) rfl rfl⟩
  · rename_i hcause
    exact ⟨h, (if_neg fun hboth => hcause hboth.1).symm⟩

theorem watched_picSet (h : Leveled levels s) (cause : UInt8) :
    Watched observeLines (fun levels' result => Leveled levels' result.2 ∧
      picFields result.2.guest =
        raised (raised (picFields s.guest) (cause &&& 3) .opna) (cause &&& 4) .pcm)
      (picSet cause s) levels := by
  rw [picSet, get_bind_run]
  refine Watched.bind ((watched_picSetCause .opna h rfl rfl).mono ?_)
  rintro levels' ⟨opna, s'⟩ ⟨hleveled, hfields⟩
  have hlines : ∀ source, lineOf (picFields s'.guest) source = lineOf (picFields s.guest) source :=
    fun source => by rw [hfields, lineOf_raised]
  have hopna : s'.guest.opnaIrq = s.guest.opnaIrq := hlines .opna
  have hpcm : s'.guest.pcmIrqLine = s.guest.pcmIrqLine := hlines .pcm
  refine Watched.bind ((watched_picSetCause .pcm hleveled (hlines .pcm) ?_).mono ?_)
  · rw [hopna, hpcm]
    rfl
  · rintro levels'' ⟨pcm, s''⟩ ⟨hleveled', hfields'⟩
    exact ⟨hleveled', by rw [hfields', hfields]⟩

/-- The guest with a source cleared, and the levels that show it. -/
theorem Leveled.clear {levels' : Levels} (h : Leveled levels s) {source : Source} {line : UInt32}
    (hline : lineOf (picFields s.guest) source = line)
    (hlow : line ≠ 0xff → levels' line =
      (lineOf (picFields s.guest) (Source.opposite source) == line &&
        sourceOf (picFields s.guest) (Source.opposite source)))
    (hothers : ∀ line', line' ≠ line → levels' line' = levels line') :
    Leveled levels' { s with guest := GuestState.setPicSource s.guest source false } := by
  refine ⟨h.hooked, fun line' hpresent => ?_⟩
  rw [picFields_setPicSource, asserted_clear]
  by_cases hsame : line' = line
  · rw [hsame]
    exact hlow (hsame ▸ hpresent)
  · have hbeq : (line == line') = false := beq_eq_false_iff_ne.mpr (Ne.symm hsame)
    rw [hothers line' hsame, h.level line' hpresent, asserted_eq _ source, hline, hbeq,
      Bool.false_and, Bool.false_or]

/-- What is left of the sources when one is idle. -/
theorem watched_picResetIfIdle (source : Source) (h : Leveled levels s)
    (hheld : source = .pcm → s.guest.timerStatus ≠ 0 → s.guest.pcmIrqLine = s.guest.opnaIrq →
      s.guest.opnaIrq ≠ 0xff → s.guest.opnaPicSource = true) :
    Watched observeLines (fun levels' result => Leveled levels' result.2 ∧
      picFields result.2.guest =
        if source = .opna ∧ s.guest.timerStatus ≠ 0 then picFields s.guest
        else setSource (picFields s.guest) source false)
      (picResetIfIdle source s) levels := by
  rw [picResetIfIdle, get_bind_run]
  simp only [ite_run]
  split
  · exact ⟨h, rfl⟩
  generalize hline : (if source = .pcm then s.guest.pcmIrqLine else s.guest.opnaIrq) = line
  generalize hother : GuestState.picSource s.guest (if source = .pcm then .opna else .pcm) = other
  have hline : lineOf (picFields s.guest) source = line := by
    rw [← hline]
    cases source <;> rfl
  have hother : sourceOf (picFields s.guest) (Source.opposite source) = other := by
    rw [← hother]
    cases source <;> rfl
  have hcleared := picFields_setPicSource s.guest source false
  have hlevel := fun hpresent => (h.level line hpresent).trans (asserted_eq _ source line)
  rw [hline, beq_self_eq_true, Bool.true_and, hother] at hlevel
  change Watched observeLines _ ((if _ then _ else _ : Guest Unit)
    { s with guest := GuestState.setPicSource s.guest source false }) levels
  rw [ite_run]
  split
  · rename_i hpending
    obtain ⟨rfl, hstatus, hshared⟩ := hpending
    refine ⟨h.clear hline (fun hpresent => ?_) fun _ _ => rfl, hcleared⟩
    have hopna : s.guest.opnaIrq = line := hshared.symm.trans hline
    have hsource : other = true := hother ▸ hheld rfl hstatus hshared (hopna ▸ hpresent)
    have hbeq : (lineOf (picFields s.guest) (Source.opposite .pcm) == line) = true :=
      beq_iff_eq.mpr hopna
    rw [hlevel hpresent, hother, hbeq, hsource, Bool.and_true, Bool.or_true]
  rw [ite_run]
  split
  · rename_i hpending hshared
    obtain ⟨hshared, rfl⟩ := hshared
    refine ⟨h.clear hline (fun hpresent => ?_) fun _ _ => rfl, hcleared⟩
    have hbeq : (lineOf (picFields s.guest) (Source.opposite source) == line) = true := by
      refine beq_iff_eq.mpr (Eq.trans ?_ hline)
      cases source with
      | opna => exact hshared
      | pcm => exact hshared.symm
    rw [hlevel hpresent, hother, hbeq, Bool.and_true, Bool.or_true]
  · rename_i hpending hshared
    have hidle : (lineOf (picFields s.guest) (Source.opposite source) == line && other) =
      false := by
      refine Bool.eq_false_iff.mpr fun hboth => hshared ?_
      obtain ⟨hsame, htrue⟩ := Bool.and_eq_true_iff.mp hboth
      refine ⟨?_, htrue⟩
      have hsame := (beq_iff_eq.mp hsame).trans hline.symm
      cases source with
      | opna => exact hsame
      | pcm => exact hsame.symm
    rw [hidle, Bool.or_false] at hlevel
    have htrace : ∀ {levels' : Levels}, Leveled levels'
        { s with guest := GuestState.setPicSource s.guest source false } →
        Watched observeLines (fun levels' result => Leveled levels' result.2 ∧
          picFields result.2.guest = setSource (picFields s.guest) source false)
          (timerTrace { s with guest := GuestState.setPicSource s.guest source false })
            levels' := by
      intro levels' hleveled
      refine (quiet_timerTrace.undriven _).watched (fun _ => observeLines_undriven) ?_
      intro result hview
      exact ⟨hleveled.of_view hview, (congrArg Prod.fst hview).trans hcleared⟩
    change Watched observeLines _ (((onlyIf _ (callOut (.irq line false)) : Guest Unit)
      { s with guest := GuestState.setPicSource s.guest source false }).bind _) levels
    rw [onlyIf, ite_run]
    split
    · rename_i hdriven
      obtain ⟨hpresent, -, hhad⟩ := hdriven
      have hhigh : levels line = true := by
        rw [hlevel hpresent, ← hhad]
        cases source <;> rfl
      refine fun reply => ⟨_, observeLines_irq hpresent hhigh, htrace ?_⟩
      refine h.clear hline (fun _ => ?_) fun line' hne => Function.update_of_ne hne ..
      rw [hother, hidle]
      exact Function.update_self ..
    · rename_i hquiet
      refine htrace (h.clear hline (fun hpresent => ?_) fun _ _ => rfl)
      have hlow : sourceOf (picFields s.guest) source = false := by
        refine Bool.eq_false_iff.mpr fun hhad => hquiet ⟨hpresent, h.hooked, ?_⟩
        rw [← hhad]
        cases source <;> rfl
      rw [hlevel hpresent, hother, hidle, hlow]

end Sources

section Undriven

variable {α : Type}

theorem undriven_modify {change : Adapter → Adapter} (h : ∀ s, picView (change s) = picView s) :
    Undriven (modify change) :=
  within_modify h

theorem undriven_onlyIf {condition : Prop} [Decidable condition] {body : Guest Unit}
    (h : Undriven body) : Undriven (onlyIf condition body) :=
  within_ite (fun _ => h) fun _ => within_pure _

theorem undriven_currentCpuPosition : Undriven currentCpuPosition :=
  within_get.bind fun _ => within_ite (fun _ _ _ => ⟨by simp [IsUndriven], rfl⟩)
    fun _ => within_pure _

theorem undriven_pcmRecalcPosition : Undriven pcmRecalcPosition := by
  refine within_get.bind fun s => within_ite (fun _ => within_pure _) fun _ => ?_
  exact undriven_currentCpuPosition.bind fun position => undriven_modify fun s => rfl

theorem undriven_syncPlanCompute : Undriven syncPlanCompute := by
  refine undriven_currentCpuPosition.bind fun position => within_get.bind fun s => ?_
  exact within_ite (fun _ => within_pure _) fun _ => within_pure _

theorem undriven_syncPlanComputeFollowing (plan : SyncPlan) :
    Undriven (syncPlanComputeFollowing plan) :=
  undriven_currentCpuPosition.bind fun _ => within_get.bind fun _ => within_pure _

theorem undriven_syncPlanApply (plan : SyncPlan) : Undriven (syncPlanApply plan) :=
  undriven_modify fun _ => rfl

theorem undriven_audioSync : Undriven audioSync := by
  refine undriven_syncPlanCompute.bind fun result => ?_
  cases result with
  | error status => exact (quiet_failSyncPlan status).undriven
  | ok plan => exact undriven_syncPlanApply plan

theorem undriven_pcmSyncPlan (registerIndex : UInt8) : Undriven (pcmSyncPlan registerIndex) := by
  refine undriven_syncPlanCompute.bind fun result => ?_
  cases result with
  | error status => exact within_pure _
  | ok plan =>
      exact within_ite (fun _ => undriven_syncPlanComputeFollowing plan) fun _ => within_pure _

theorem undriven_pcmSetRate (rateIndex : UInt8) : Undriven (pcmSetRate rateIndex) :=
  within_get.bind fun _ => undriven_modify fun _ => rfl

theorem undriven_pcmgenIntrq : Undriven pcmgenIntrq := by
  refine undriven_currentCpuPosition.bind fun now => within_get.bind fun s => ?_
  refine within_ite (fun _ => within_pure _) fun _ =>
    within_ite (fun _ => within_pure _) fun _ => ?_
  refine (quiet_timerIsWork tracePcm).undriven.bind fun working => ?_
  refine within_ite (fun _ => within_pure _) fun _ => ?_
  refine undriven_pcmRecalcPosition.bind fun _ => within_get.bind fun s => ?_
  refine within_ite (fun _ => Within.bind ?_ fun _ => within_pure _) fun _ => within_pure _
  exact undriven_modify fun s => rfl

theorem undriven_writeDac (value : UInt8) : Undriven (writeDac value) := by
  refine within_get.bind fun s => Within.bind (undriven_onlyIf (undriven_modify fun s => rfl))
    fun _ => ?_
  refine Within.bind (undriven_onlyIf ?_) fun _ => ?_
  · exact Within.bind (undriven_modify fun s => rfl) fun _ => within_get.bind fun _ =>
      undriven_pcmSetRate _
  · exact within_get.bind fun _ => undriven_onlyIf quiet_pcmSetNextInterrupt.undriven

theorem undriven_publishPlan (plan : SyncPlan) : Undriven (publishPlan plan) := by
  refine (quiet_publishProgress _).undriven.bind fun check => within_ite (fun _ => ?_) fun _ => ?_
  · exact (undriven_syncPlanApply plan).bind fun _ => within_pure _
  · refine within_ite (fun _ => within_pure _) fun _ => ?_
    exact (quiet_fail _).undriven.bind fun _ => within_pure _

theorem undriven_progressCheckpoint : Undriven progressCheckpoint := by
  refine within_semanticCall Quiet.undriven ?_
  refine quiet_flushPendingRun.undriven.bind fun flushed => within_ite (fun _ => ?_)
    fun _ => within_pure _
  refine undriven_syncPlanCompute.bind fun result => ?_
  cases result with
  | error status => exact (quiet_failSyncPlan status).undriven.bind fun _ => within_pure _
  | ok plan => exact undriven_publishPlan plan

theorem undriven_writeByte (cur : UInt32) (value : UInt8) : Undriven (writeByte cur value) := by
  refine quiet_prepareByteTransaction.undriven.bind fun reply =>
    within_ite (fun _ => ?_) fun _ => ?_
  · refine Within.bind (within_get.bind fun s => ?_) fun _ => within_pure _
    exact Within.bind (undriven_modify fun s => rfl) fun _ => (quiet_commitPcmByte _ _).undriven
  · refine within_get.bind fun s => Within.bind (undriven_onlyIf ?_) fun _ => within_pure _
    exact quiet_flushTerminated.undriven

theorem undriven_pcm86WriteData (value : UInt8) : Undriven (pcm86WriteData value) :=
  undriven_currentCpuPosition.bind fun cur =>
    within_semanticCall Quiet.undriven (undriven_writeByte cur value)

theorem undriven_pcm86Read (registerIndex : UInt8) : Undriven (pcm86Read registerIndex) := by
  refine quiet_flushPendingRun.undriven.bind fun _ => undriven_audioSync.bind fun _ => ?_
  refine within_ite (fun _ => within_get.bind fun _ => within_pure _) fun _ => ?_
  refine within_ite (fun _ => undriven_currentCpuPosition.bind fun _ => ?_) fun _ => ?_
  · exact within_get.bind fun _ => within_pure _
  refine within_ite (fun _ => within_get.bind fun _ => ?_) fun _ => ?_
  · exact undriven_pcmgenIntrq.bind fun _ => within_pure _
  exact within_ite (fun _ => within_get.bind fun _ => within_pure _) fun _ => within_pure _

theorem undriven_read {read : Adapter → UInt8} :
    Undriven (do let _ ← flushPendingRun; return read (← get)) :=
  quiet_flushPendingRun.undriven.bind fun _ => within_get.bind fun _ => within_pure _

end Undriven

section Wiring

/-- The lines of an adapter whose sources are mapped to them, with the levels driven. -/
structure Wired (opna pcm : UInt32) (levels : Levels) (s : Adapter) : Prop where
  leveled : Leveled levels s
  flagged : Flagged (picFields s.guest)
  opna : s.guest.opnaIrq = opna
  pcm : s.guest.pcmIrqLine = pcm

variable {α : Type} {opna pcm : UInt32} {levels : Levels} {s s' : Adapter}

/-- The lines stay wired. -/
abbrev KeepsLines (opna pcm : UInt32) {α : Type} (program : Guest α) : Prop :=
  Ensures observeLines (Wired opna pcm) program fun levels _ s => Wired opna pcm levels s

theorem Wired.of_view (h : Wired opna pcm levels s) (hview : picView s' = picView s) :
    Wired opna pcm levels s' := by
  have hfields : picFields s'.guest = picFields s.guest := congrArg Prod.fst hview
  refine ⟨h.leveled.of_view hview, hfields ▸ h.flagged, ?_, ?_⟩
  · exact (congrArg PicFields.opnaIrq hfields).trans h.opna
  · exact (congrArg PicFields.pcmIrqLine hfields).trans h.pcm

theorem keepsLines_undriven {program : Guest α} (h : Undriven program) :
    KeepsLines opna pcm program :=
  h.ensures (fun _ _ => observeLines_undriven) fun _ _ _ _ hwired hview => hwired.of_view hview

theorem keepsLines_pure (value : α) : KeepsLines opna pcm (pure value : Guest α) :=
  ensures_pure fun _ _ h => h

theorem keepsLines_onlyIf {condition : Prop} [Decidable condition] {body : Guest Unit}
    (h : KeepsLines opna pcm body) : KeepsLines opna pcm (onlyIf condition body) :=
  ensures_ite (fun _ => h) fun _ => keepsLines_pure _

theorem keepsLines_get {rest : Adapter → Guest α} (h : ∀ s, KeepsLines opna pcm (rest s)) :
    KeepsLines opna pcm (get >>= rest) :=
  fun levels s hwired => h s levels s hwired

theorem keepsLines_discard {program : Guest α} (h : KeepsLines opna pcm program) :
    KeepsLines opna pcm (discard program) :=
  fun levels s hwired => Watched.bind ((h levels s hwired).mono fun _ _ hresult => hresult)

theorem keepsLines_semanticCall {refused : α} {body : Guest α} (h : KeepsLines opna pcm body) :
    KeepsLines opna pcm (semanticCall refused body) := by
  refine (keepsLines_undriven quiet_semanticEnter.undriven).bind fun entered =>
    ensures_ite (fun _ => ?_) fun _ => keepsLines_pure _
  refine h.bind fun _ => (keepsLines_undriven quiet_semanticLeave.undriven).bind fun _ => ?_
  exact keepsLines_pure _

theorem raised_zero (f : PicFields) (source : Source) : raised f 0 source = f :=
  if_neg fun h => h.1 rfl

theorem flagged_raised_pcm {f : PicFields} (h : Flagged f) (cause : UInt8) :
    Flagged (raised f cause .pcm) := by
  rw [raised]
  split
  · exact h
  · exact h

/-- An interrupt of the PCM part. -/
theorem keepsLines_picSet_pcm : KeepsLines opna pcm (picSet 4) := by
  intro levels s h
  refine (watched_picSet h.leveled 4).mono ?_
  rintro levels' ⟨transition, s'⟩ ⟨hleveled, hfields⟩
  change picFields s'.guest = raised (raised (picFields s.guest) 0 .opna) 4 .pcm at hfields
  rw [raised_zero] at hfields
  refine ⟨hleveled, ?_, ?_, ?_⟩
  · rw [hfields]
    exact flagged_raised_pcm h.flagged 4
  · rw [← h.opna]
    exact (congrArg (lineOf · .opna) hfields).trans (lineOf_raised _ _ _ _)
  · rw [← h.pcm]
    exact (congrArg (lineOf · .pcm) hfields).trans (lineOf_raised _ _ _ _)

theorem keepsLines_pcmExpire : KeepsLines opna pcm pcmExpire := by
  refine keepsLines_get fun s => ensures_ite (fun _ => ?_)
    fun _ => keepsLines_undriven quiet_pcmSetNextInterrupt.undriven
  refine (keepsLines_undriven undriven_audioSync).bind fun _ => keepsLines_get fun s => ?_
  refine ensures_ite (fun _ => ?_)
    fun _ => keepsLines_undriven quiet_pcmSetNextInterrupt.undriven
  refine Ensures.bind (keepsLines_undriven (undriven_modify ?_)) fun _ => ?_
  · exact fun s => rfl
  refine keepsLines_onlyIf ((keepsLines_discard keepsLines_picSet_pcm).bind fun _ => ?_)
  exact keepsLines_undriven quiet_timerTrace.undriven

theorem ensures_sharedPcmCause (timer : UInt8) :
    Ensures observeLines (Wired opna pcm) (sharedPcmCause timer) fun levels cause s =>
      (cause = 0 ∨ cause = 4) ∧ Wired opna pcm levels s := by
  have hpure : ∀ cause : UInt8, cause = 0 ∨ cause = 4 →
      Ensures observeLines (Wired opna pcm) (pure cause) fun levels cause s =>
        (cause = 0 ∨ cause = 4) ∧ Wired opna pcm levels s :=
    fun cause hcause => ensures_pure fun levels s h => ⟨hcause, h⟩
  have hite : ∀ (condition : Prop) [Decidable condition],
      (if condition then 4 else 0 : UInt8) = 0 ∨ (if condition then 4 else 0 : UInt8) = 4 := by
    intro condition _
    split
    · exact .inr rfl
    · exact .inl rfl
  intro levels s h
  change Watched observeLines _ ((if _ then _ else _ : Guest UInt8) s) levels
  rw [ite_run]
  split
  · refine Watched.bind ((keepsLines_undriven undriven_pcmgenIntrq levels s h).mono ?_)
    rintro levels' ⟨pending, s'⟩ hwired
    exact hpure _ (hite _) levels' s' hwired
  · exact hpure 0 (.inl rfl) levels s h

theorem timerBit_cases (timer : UInt8) : timerBit timer = 1 ∨ timerBit timer = 2 := by
  rw [timerBit]
  split
  · exact .inl rfl
  · exact .inr rfl

theorem flagged_of_absent {f : PicFields} (h : f.opnaIrq = 0xff) : Flagged f :=
  fun hpresent => absurd h hpresent

/-- The causes of an expired timer: its status is set before its line is raised. -/
theorem watched_raiseCauses (cause : UInt8) (hleveled : Leveled levels s)
    (hopna : s.guest.opnaIrq = opna) (hpcm : s.guest.pcmIrqLine = pcm)
    (hidle : cause &&& 3 = 0 → Flagged (picFields s.guest))
    (hstatus : cause &&& 3 ≠ 0 → s.guest.timerStatus ≠ 0) :
    Watched observeLines (fun levels' result => Wired opna pcm levels' result.2)
      ((onlyIf (cause &&& 4 ≠ 0 ∧ pcm ≠ 0xff ∨ cause &&& 3 ≠ 0 ∧ opna ≠ 0xff)
        (discard (picSet cause)) : Guest Unit) s) levels := by
  rw [onlyIf, ite_run]
  split
  · refine Watched.bind ((watched_picSet hleveled cause).mono ?_)
    rintro levels' ⟨transition, s'⟩ ⟨hleveled', hfields⟩
    have hlines : ∀ source, lineOf (picFields s'.guest) source = lineOf
      (picFields s.guest) source :=
      fun source => by rw [hfields, lineOf_raised, lineOf_raised]
    refine ⟨hleveled', ?_, (hlines .opna).trans hopna, (hlines .pcm).trans hpcm⟩
    by_cases hcause : cause &&& 3 = 0
    · rw [hfields, hcause, raised_zero]
      exact flagged_raised_pcm (hidle hcause) _
    by_cases habsent : opna = 0xff
    · exact flagged_of_absent ((hlines .opna).trans (hopna.trans habsent))
    · rw [hfields]
      refine flagged_raised_pcm ?_ _
      rw [raised, if_pos ⟨hcause, fun h => habsent (hopna.symm.trans h)⟩]
      exact fun _ => ⟨fun _ => hstatus hcause, fun _ => rfl⟩
  · rename_i hdrives
    refine ⟨hleveled, ?_, hopna, hpcm⟩
    by_cases hcause : cause &&& 3 = 0
    · exact hidle hcause
    · exact flagged_of_absent
        (hopna.trans (not_not.mp fun hpresent => hdrives (.inr ⟨hcause, hpresent⟩)))

theorem keepsLines_timerEffects (timer : UInt8) : KeepsLines opna pcm (timerEffects timer) := by
  refine keepsLines_get fun start => (ensures_sharedPcmCause timer).bind fun shared => ?_
  rintro levels s ⟨hshared, h⟩
  have hend : KeepsLines opna pcm (do
      timerTrace
      scheduleEvent timer (timerPeriod (← get) timer) false) := by
    refine (keepsLines_undriven quiet_timerTrace.undriven).bind fun _ => keepsLines_get fun s => ?_
    exact keepsLines_undriven (quiet_scheduleEvent _ _ _).undriven
  have hbit := timerBit_cases timer
  have hcauses : ∀ bit : UInt8, bit = 1 ∨ bit = 2 → shared &&& 3 = 0 ∧
    (shared ||| bit) &&& 3 ≠ 0 := by
    rintro bit (rfl | rfl) <;> rcases hshared with rfl | rfl <;> decide
  obtain ⟨hshared, hraised⟩ := hcauses _ hbit
  have hbit : timerBit timer ≠ 0 := by rcases hbit with hbit | hbit <;> rw [hbit] <;> decide
  rw [get_bind_run]
  dsimp only
  rw [h.opna, h.pcm]
  generalize hraises : (timerEnabled start.guest timer &&
    decide (s.guest.timerStatus &&& timerBit timer = 0)) = raises
  cases raises with
  | false =>
      have hdrives := watched_raiseCauses shared h.leveled h.opna h.pcm
        (fun _ => h.flagged) fun hne => absurd hshared hne
      change Watched observeLines _ (Program.bind ((onlyIf (shared &&& 4 ≠ 0 ∧ pcm ≠ 0xff ∨
        shared &&& 3 ≠ 0 ∧ opna ≠ 0xff) (discard (picSet shared)) : Guest Unit) s) _) levels
      exact Watched.bind (hdrives.mono fun levels' result hwired => hend levels' result.2 hwired)
  | true =>
      have hleveled : Leveled levels { s with guest := { s.guest with
          timerStatus := s.guest.timerStatus ||| timerBit timer } } :=
        ⟨h.leveled.hooked, h.leveled.level⟩
      have hdrives := watched_raiseCauses (shared ||| timerBit timer) hleveled h.opna h.pcm
        (fun hzero => absurd hzero hraised) fun _ hstatus =>
          hbit (UInt8.or_eq_zero_iff.mp hstatus).2
      change Watched observeLines _ (Program.bind ((onlyIf ((shared ||| timerBit timer) &&& 4 ≠ 0 ∧
        pcm ≠ 0xff ∨ (shared ||| timerBit timer) &&& 3 ≠ 0 ∧ opna ≠ 0xff)
          (discard (picSet (shared ||| timerBit timer))) : Guest Unit) _) _) levels
      exact Watched.bind (hdrives.mono fun levels' result hwired => hend levels' result.2 hwired)

theorem keepsLines_timerExpire (timer : UInt8) : KeepsLines opna pcm (timerExpire timer) := by
  refine keepsLines_get fun s => ensures_ite (fun _ => ?_) fun _ => ?_
  · refine (keepsLines_undriven quiet_flushPendingRun.undriven).bind fun flushed => ?_
    refine ensures_ite (fun _ => ?_) fun _ => keepsLines_pure _
    refine (keepsLines_undriven undriven_syncPlanCompute).bind fun result => ?_
    cases result with
    | error status => exact keepsLines_undriven (quiet_failSyncPlan status).undriven
    | ok plan =>
        refine keepsLines_get fun s => ensures_ite (fun _ => ?_) fun _ => ?_
        · exact keepsLines_undriven (quiet_fail _).undriven
        refine (keepsLines_undriven (quiet_transactionBegin _ _).undriven).bind fun reply => ?_
        refine ensures_ite (fun _ => ?_) fun _ => keepsLines_pure _
        refine (keepsLines_undriven (undriven_syncPlanApply plan)).bind fun _ => ?_
        exact (keepsLines_timerEffects timer).bind fun _ =>
          keepsLines_undriven (quiet_commitEvent _ _ _).undriven
  · refine (keepsLines_undriven undriven_audioSync).bind fun _ => keepsLines_get fun s => ?_
    exact ensures_ite (fun _ => keepsLines_timerEffects timer) fun _ => keepsLines_pure _

theorem keepsLines_timerDispatch (timer : UInt8) : KeepsLines opna pcm (timerDispatch timer) := by
  refine keepsLines_semanticCall (ensures_ite (fun _ => ?_) fun _ => ?_)
  · refine (keepsLines_undriven undriven_audioSync).bind fun _ => keepsLines_get fun s => ?_
    exact ensures_ite (fun _ => keepsLines_pcmExpire) fun _ => keepsLines_pure _
  · exact ensures_ite (fun _ => keepsLines_timerExpire timer) fun _ => keepsLines_pure _

/-- The part of a timer control write that precedes the acknowledgement of the line. -/
def Acknowledging (value : UInt8) (opna pcm : UInt32) (levels : Levels) (s : Adapter) : Prop :=
  Leveled levels s ∧ s.guest.opnaIrq = opna ∧ s.guest.pcmIrqLine = pcm ∧
    (s.guest.opnaIrq ≠ 0xff → s.guest.timerStatus ≠ 0 → s.guest.opnaPicSource = true) ∧
    (value &&& 0x30 = 0 → Flagged (picFields s.guest))

theorem Acknowledging.of_view {value : UInt8} (h : Acknowledging value opna pcm levels s)
    (hview : picView s' = picView s) : Acknowledging value opna pcm levels s' := by
  obtain ⟨hleveled, hopna, hpcm, hpending, hflagged⟩ := h
  have hfields : picFields s'.guest = picFields s.guest := congrArg Prod.fst hview
  simp only [picFields, PicFields.mk.injEq] at hfields
  obtain ⟨hsource, hpcmSource, hstatus, hline, hpcmLine⟩ := hfields
  refine ⟨hleveled.of_view hview, hline.trans hopna, hpcmLine.trans hpcm, ?_, ?_⟩
  · rw [hline, hstatus, hsource]
    exact hpending
  · rw [show picFields s'.guest = picFields s.guest from congrArg Prod.fst hview]
    exact hflagged

theorem watched_acknowledge {value : UInt8} (h : Acknowledging value opna pcm levels s) :
    Watched observeLines (fun levels' result => Wired opna pcm levels' result.2)
      ((if value &&& 3 = 0 ∨ value &&& 0x30 ≠ 0 then picResetIfIdle .opna else pure () : Guest Unit)
        s) levels := by
  obtain ⟨hleveled, hopna, hpcm, hpending, hflagged⟩ := h
  rw [ite_run]
  split
  · refine (watched_picResetIfIdle .opna hleveled (by simp)).mono ?_
    rintro levels' ⟨_, s'⟩ ⟨hleveled', hfields⟩
    change picFields s'.guest = _ at hfields
    split at hfields
    · rename_i hstatus
      refine ⟨hleveled', ?_, ?_, ?_⟩
      · rw [hfields]
        exact fun hpresent => ⟨fun _ => hstatus.2, fun _ => hpending hpresent hstatus.2⟩
      · exact (congrArg PicFields.opnaIrq hfields).trans hopna
      · exact (congrArg PicFields.pcmIrqLine hfields).trans hpcm
    · rename_i hstatus
      have hstatus : s.guest.timerStatus = 0 := not_not.mp fun hne => hstatus ⟨rfl, hne⟩
      refine ⟨hleveled', ?_, ?_, ?_⟩
      · rw [hfields]
        refine fun _ => ⟨fun hset => absurd hset (by simp [setSource]), fun hne => ?_⟩
        exact absurd hstatus hne
      · exact (congrArg PicFields.opnaIrq hfields).trans hopna
      · exact (congrArg PicFields.pcmIrqLine hfields).trans hpcm
  · rename_i hkept
    have hvalue : value &&& 0x30 = 0 := not_not.mp fun hne => hkept (.inr hne)
    exact ⟨hleveled, hflagged hvalue, hopna, hpcm⟩

theorem acknowledge_bits (value : UInt8) :
    value &&& 0x30 = 0 → value &&& 0x10 = 0 ∧ value &&& 0x20 = 0 := by
  revert value
  exact forall_byte (by decide +kernel)

theorem acknowledge_none (status : UInt8) : status &&& 0xff &&& 0xff = status := by
  revert status
  exact forall_byte (by decide +kernel)

theorem keepsLines_writeTimerControl (value : UInt8) :
    KeepsLines opna pcm (writeTimerControl value) := by
  intro levels s h
  have hend : ∀ levels s', Acknowledging value opna pcm levels s' →
      Watched observeLines (fun levels' result => Wired opna pcm levels' result.2)
        ((do
          switchTimer traceTimerA value s.guest.timerControl
          switchTimer traceTimerB value s.guest.timerControl
          if value &&& 3 = 0 ∨ value &&& 0x30 ≠ 0 then picResetIfIdle .opna : Guest Unit) s')
        levels := by
    intro levels s' hacknowledging
    refine Watched.bind (((quiet_switchTimer _ _ _).undriven s').watched
      (fun _ => observeLines_undriven) fun result hview => ?_)
    refine Watched.bind (((quiet_switchTimer _ _ _).undriven result.2).watched
      (fun _ => observeLines_undriven) fun result' hview' => ?_)
    exact watched_acknowledge ((hacknowledging.of_view hview).of_view hview')
  refine hend levels { s with guest := _ } ⟨⟨h.leveled.hooked, h.leveled.level⟩, h.opna, h.pcm,
    fun hpresent hstatus => ?_, fun hvalue => ?_⟩
  · refine (h.flagged hpresent).mpr fun hzero => hstatus ?_
    have hzero : s.guest.timerStatus = 0 := hzero
    change s.guest.timerStatus &&& _ &&& _ = 0
    rw [hzero, UInt8.zero_and, UInt8.zero_and]
  · obtain ⟨htimerA, htimerB⟩ := acknowledge_bits value hvalue
    have hstatus : s.guest.timerStatus &&& (if value &&& 0x10 ≠ 0 then ~~~1 else 0xff) &&&
        (if value &&& 0x20 ≠ 0 then ~~~2 else 0xff) = s.guest.timerStatus := by
      rw [if_neg (by simp [htimerA]), if_neg (by simp [htimerB])]
      exact acknowledge_none s.guest.timerStatus
    intro hpresent
    refine (h.flagged hpresent).trans (not_congr ?_)
    change _ ↔ s.guest.timerStatus &&& _ &&& _ = 0
    rw [hstatus]
    rfl

theorem keepsLines_writeRegister (address : UInt16) (value : UInt8) :
    KeepsLines opna pcm (writeRegister address value) := by
  refine Ensures.bind (keepsLines_undriven (undriven_modify ?_)) fun _ => ?_
  · exact fun s => rfl
  refine ensures_ite (fun _ => keepsLines_undriven (undriven_modify fun s => rfl)) fun _ => ?_
  refine ensures_ite (fun _ => keepsLines_undriven (undriven_modify fun s => rfl)) fun _ => ?_
  refine ensures_ite (fun _ => keepsLines_undriven (undriven_modify fun s => rfl)) fun _ => ?_
  exact ensures_ite (fun _ => keepsLines_writeTimerControl value) fun _ => keepsLines_pure _

theorem keepsLines_opnaWriteRegister (address : UInt16) (value : UInt8) :
    KeepsLines opna pcm (opnaWriteRegister address value) := by
  refine (keepsLines_undriven (quiet_prepareEventTransaction _).undriven).bind fun reply => ?_
  refine ensures_ite (fun _ => ?_) fun _ => keepsLines_pure _
  exact (keepsLines_writeRegister address value).bind fun _ =>
    keepsLines_undriven (quiet_commitEvent _ _ _).undriven

/-- The PCM part gives its line up. -/
theorem keepsLines_picResetIfIdle_pcm : KeepsLines opna pcm (picResetIfIdle .pcm) := by
  intro levels s h
  refine (watched_picResetIfIdle .pcm h.leveled ?_).mono ?_
  · exact fun _ hstatus _ hpresent => (h.flagged hpresent).mpr hstatus
  · rintro levels' ⟨_, s'⟩ ⟨hleveled, hfields⟩
    rw [if_neg (by simp)] at hfields
    change picFields s'.guest = setSource (picFields s.guest) .pcm false at hfields
    refine ⟨hleveled, ?_, ?_, ?_⟩
    · rw [hfields]
      exact h.flagged
    · exact (congrArg PicFields.opnaIrq hfields).trans h.opna
    · exact (congrArg PicFields.pcmIrqLine hfields).trans h.pcm

theorem keepsLines_writeFifo (value : UInt8) (cpuPosition : UInt32) :
    KeepsLines opna pcm (writeFifo value cpuPosition) := by
  refine keepsLines_get fun s => ?_
  refine Ensures.bind (keepsLines_undriven (undriven_onlyIf (undriven_modify fun s => rfl)))
    fun _ => ?_
  refine Ensures.bind (keepsLines_undriven (undriven_onlyIf (undriven_modify fun s => rfl)))
    fun _ => ?_
  refine Ensures.bind (keepsLines_undriven (undriven_modify ?_)) fun _ => ?_
  · exact fun s => rfl
  refine Ensures.bind (keepsLines_undriven (undriven_onlyIf (undriven_pcmSetRate _))) fun _ => ?_
  refine Ensures.bind (keepsLines_undriven (undriven_modify ?_)) fun _ => ?_
  · exact fun s => rfl
  refine Ensures.bind (keepsLines_undriven (undriven_onlyIf (undriven_modify fun s => rfl)))
    fun _ => ?_
  refine keepsLines_get fun s => ?_
  refine Ensures.bind (keepsLines_undriven
    (undriven_onlyIf quiet_pcmSetNextInterrupt.undriven)) fun _ => ?_
  exact keepsLines_onlyIf keepsLines_picResetIfIdle_pcm

theorem keepsLines_writePcmRegister (registerIndex value : UInt8) (cpuPosition : UInt32) :
    KeepsLines opna pcm (writePcmRegister registerIndex value cpuPosition) := by
  refine ensures_ite (fun _ => ?_) fun _ => ?_
  · refine Ensures.bind (keepsLines_undriven (undriven_modify ?_)) fun _ => ?_
    · exact fun s => rfl
    exact keepsLines_undriven (quiet_opnaSetExtension _).undriven
  refine ensures_ite (fun _ => ?_) fun _ => ?_
  · exact ensures_ite (fun _ => keepsLines_undriven (undriven_modify fun s => rfl))
      fun _ => keepsLines_pure _
  refine ensures_ite (fun _ => keepsLines_writeFifo value cpuPosition) fun _ => ?_
  exact ensures_ite (fun _ => keepsLines_undriven (undriven_writeDac value))
    fun _ => keepsLines_pure _

theorem keepsLines_pcm86Write (registerIndex value : UInt8) :
    KeepsLines opna pcm (pcm86Write registerIndex value) := by
  refine keepsLines_semanticCall (keepsLines_get fun s => ensures_ite (fun _ => ?_) fun _ => ?_)
  · refine (keepsLines_undriven undriven_audioSync).bind fun _ => keepsLines_get fun s => ?_
    exact keepsLines_pure _
  refine (keepsLines_undriven quiet_flushPendingRun.undriven).bind fun flushed => ?_
  refine ensures_ite (fun _ => ?_) fun _ => keepsLines_pure _
  refine (keepsLines_undriven (undriven_pcmSyncPlan registerIndex)).bind fun result => ?_
  cases result with
  | error status =>
      exact (keepsLines_undriven (quiet_failSyncPlan status).undriven).bind fun _ =>
        keepsLines_pure _
  | ok plan =>
      refine (keepsLines_undriven (quiet_prepareEventTransaction _).undriven).bind fun reply => ?_
      refine ensures_ite (fun _ => ?_) fun _ => keepsLines_pure _
      refine (keepsLines_undriven (undriven_syncPlanApply plan)).bind fun _ => ?_
      refine (keepsLines_writePcmRegister _ _ _).bind fun _ => ?_
      exact (keepsLines_undriven (quiet_commitEvent _ _ _).undriven).bind fun _ => keepsLines_pure _

end Wiring

section Operations

variable {opna pcm : UInt32}

/-- An operation that is not a reset. -/
def Operation.isReset : Operation → Bool
  | .opnaReset .. => true
  | _ => false

theorem keepsLines_opnaWriteDataLow (value : UInt8) :
    KeepsLines opna pcm (opnaWriteDataLow value) :=
  keepsLines_semanticCall (keepsLines_get fun _ => keepsLines_opnaWriteRegister _ value)

theorem keepsLines_opnaWriteDataExtended (value : UInt8) :
    KeepsLines opna pcm (opnaWriteDataExtended value) := by
  refine keepsLines_get fun s => ensures_ite (fun _ => ?_) fun _ => keepsLines_pure _
  exact keepsLines_semanticCall (keepsLines_get fun _ => keepsLines_opnaWriteRegister _ value)

theorem keepsLines_operation {operation : Operation} (h : Operation.isReset operation = false) :
    KeepsLines opna pcm operation.code := by
  cases operation with
  | opnaWriteAddressLow value => exact keepsLines_undriven (undriven_modify fun s => rfl)
  | opnaWriteDataLow value => exact keepsLines_opnaWriteDataLow value
  | opnaWriteAddressExtended value =>
      exact keepsLines_undriven (quiet_opnaWriteAddressExtended value).undriven
  | opnaWriteDataExtended value => exact keepsLines_opnaWriteDataExtended value
  | opnaReadStatus => exact keepsLines_undriven (within_discard undriven_read)
  | opnaReadData => exact keepsLines_undriven (within_discard undriven_read)
  | opnaReadExtendedStatus => exact keepsLines_undriven (within_discard undriven_read)
  | opnaReadExtendedData => exact keepsLines_undriven (within_discard undriven_read)
  | opnaReadJoy => exact keepsLines_undriven (within_discard undriven_read)
  | opnaSetExtension enabled => exact keepsLines_undriven (quiet_opnaSetExtension enabled).undriven
  | opnaReset => cases h
  | pcm86Write registerIndex value => exact keepsLines_discard (keepsLines_pcm86Write _ value)
  | pcm86WriteData value =>
      exact keepsLines_undriven (within_discard (undriven_pcm86WriteData value))
  | pcm86Read registerIndex => exact keepsLines_undriven (within_discard (undriven_pcm86Read _))
  | timerDispatch timer => exact keepsLines_timerDispatch timer
  | progressCheckpoint => exact keepsLines_undriven (within_discard undriven_progressCheckpoint)
  | audioSync => exact keepsLines_undriven undriven_audioSync
  | flushDataRun => exact keepsLines_undriven (within_discard quiet_flushPendingRun.undriven)

theorem keepsLines_runOperations {operations : List Operation}
    (h : ∀ operation ∈ operations, Operation.isReset operation = false) :
    KeepsLines opna pcm (runOperations operations) := by
  induction operations with
  | nil => exact keepsLines_pure _
  | cons operation rest ih =>
      refine (keepsLines_operation (h operation List.mem_cons_self)).bind fun _ => ?_
      exact ih fun next hnext => h next (List.mem_cons_of_mem _ hnext)

end Operations

section Reset

/-- A bound adapter whose reset was committed, and whose options may have been set since. -/
def FreshlyReset (g : GuestState) : Prop :=
  ∃ (s : Adapter) (old : GuestState) (capabilities : UInt8) (irq : UInt32)
    (timerAEvent timerBEvent : UInt8) (sequence : UInt64), old.bound = true ∧
    let reset :=
      { resetGuest s old capabilities irq timerAEvent timerBEvent with sequence := sequence }
    g = reset ∨ ∃ dipSwitch, g = pcm86SetOptions reset dipSwitch

theorem FreshlyReset.sources {g : GuestState} (h : FreshlyReset g) :
    g.opnaPicSource = false ∧ g.pcmPicSource = false ∧ g.timerStatus = 0 := by
  obtain ⟨s, old, capabilities, irq, timerAEvent, timerBEvent, sequence, -, hreset⟩ := h
  rcases hreset with rfl | ⟨dipSwitch, rfl⟩
  · exact ⟨rfl, rfl, rfl⟩
  · exact ⟨rfl, rfl, rfl⟩

/-- From a reset, whatever the guest does and whatever the sink refuses, the hook hears of
each line alternately that it is high and low, and of an absent line nothing. After every
operation a line is high exactly while a source that is mapped to it is set, and the timers
are a source exactly while their status is. -/
theorem irq_line_is_or_of_sources (s : Adapter) (hreset : FreshlyReset s.guest)
    (hirq : s.hooks.irq = true) (operations : List Operation)
    (hoperations : ∀ operation ∈ operations, Operation.isReset operation = false)
    (trace : List CallLabel) (rest : Program Call Reply (Unit × Adapter))
    (hrun : Run (Step anyReply) (runOperations operations s, ()) trace (rest, ())) :
    (∀ line, irqCalls line trace =
      (List.range (irqCalls line trace).length).map fun i => decide (i % 2 = 0)) ∧
      irqCalls 0xff trace = [] ∧
      ∀ s', rest = .done ((), s') →
        s'.guest.opnaIrq = s.guest.opnaIrq ∧ s'.guest.pcmIrqLine = s.guest.pcmIrqLine ∧
        (∀ line, line ≠ 0xff → (irqCalls line trace).getLastD false =
          (s'.guest.opnaIrq == line && s'.guest.opnaPicSource ||
            s'.guest.pcmIrqLine == line && s'.guest.pcmPicSource)) ∧
        (s'.guest.opnaIrq ≠ 0xff → (s'.guest.opnaPicSource = true ↔ s'.guest.timerStatus ≠ 0)) := by
  obtain ⟨hopna, hpcm, hstatus⟩ := hreset.sources
  have hwired : Wired s.guest.opnaIrq s.guest.pcmIrqLine (fun _ => false) s := by
    refine ⟨⟨hirq, fun line _ => ?_⟩, fun _ => ?_, rfl, rfl⟩
    · rw [asserted, picFields, hopna, hpcm, Bool.and_false, Bool.and_false, Bool.or_false]
    · rw [picFields, hopna, hstatus]
      exact ⟨fun hset => absurd hset Bool.false_ne_true, fun hne => absurd rfl hne⟩
  obtain ⟨levels, hobserved, hwatched⟩ :=
    (keepsLines_runOperations hoperations (fun _ => false) s hwired).run hrun
  obtain ⟨halternates, habsent⟩ := alternates_of_observed hobserved
  refine ⟨fun line => (halternates line).1, habsent, ?_⟩
  rintro s' rfl
  have hwired' : Wired s.guest.opnaIrq s.guest.pcmIrqLine levels s' := hwatched
  refine ⟨hwired'.opna, hwired'.pcm, fun line hpresent => ?_, hwired'.flagged⟩
  rw [(halternates line).last, hwired'.leveled.level line hpresent]
  rfl

/-- A reset adapter whose timers have a line. -/
def resetAdapter : Adapter :=
  { sink := some ⟨true⟩
    hooks := { irq := true }
    guest := resetGuest {} { bound := true } 0 0x10 1 2 }

/-- Timer A is started with its interrupt, expires and is acknowledged. -/
def timerRound : List Operation :=
  [.opnaWriteAddressLow 0x27, .opnaWriteDataLow 0x05, .timerDispatch 1, .opnaWriteDataLow 0x15]

theorem timerRound_calls :
    irqCalls 3 (execute grant 30 (runOperations timerRound resetAdapter, ())).1 = [true, false] ∧
      (execute grant 30
        (runOperations timerRound resetAdapter, ())).2.1.value?.isSome = true := by
  decide +kernel

theorem irq_line_is_or_of_sources_timer : ∃ trace s',
    Run (Step anyReply) (runOperations timerRound resetAdapter, ()) trace (.done ((), s'), ()) ∧
      irqCalls 3 trace = [true, false] ∧ irqCalls 0xff trace = [] ∧
      (s'.guest.opnaIrq == 3 && s'.guest.opnaPicSource ||
        s'.guest.pcmIrqLine == 3 && s'.guest.pcmPicSource) = false := by
  obtain ⟨hcalls, hdone⟩ := timerRound_calls
  obtain ⟨⟨⟨⟩, s'⟩, hvalue⟩ := Option.isSome_iff_exists.mp hdone
  have hrun := execute_result anyReply grant (fun _ _ => trivial) hvalue
  generalize execute grant 30 (runOperations timerRound resetAdapter, ()) = final at hrun hcalls
  obtain ⟨trace, rest, _⟩ := final
  have hreset : FreshlyReset resetAdapter.guest :=
    ⟨{}, { bound := true }, 0, 0x10, 1, 2, 0, rfl, .inl rfl⟩
  obtain ⟨-, habsent, hend⟩ := irq_line_is_or_of_sources resetAdapter hreset rfl timerRound
    (by decide) trace _ hrun
  obtain ⟨-, -, hlines, -⟩ := hend s' rfl
  refine ⟨trace, s', hrun, hcalls, habsent, ?_⟩
  rw [← hlines 3 (by decide), hcalls]
  rfl

end Reset

end EspNp2.GuestAdapter.InterruptLines
