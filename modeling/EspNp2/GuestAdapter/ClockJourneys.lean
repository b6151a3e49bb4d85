import EspNp2.GuestAdapter.SteadyClock

/-!
The clock of the guest does not depend on the path to a position: whatever synchronises it on the
way, a synchronisation at the position leaves the same clock.
-/

namespace EspNp2.GuestAdapter.ClockJourneys

open EspNp2.GuestAdapter.AdapterFrame
open EspNp2.GuestAdapter.AdapterOperations
open EspNp2.GuestAdapter.AdapterRuns
open EspNp2.GuestAdapter.AdapterState
open EspNp2.GuestAdapter.ClockPaths
open EspNp2.GuestAdapter.ClockRuns
open EspNp2.GuestAdapter.CommitStream
open EspNp2.GuestAdapter.QuietFrame
open EspNp2.GuestAdapter.SteadyClock
open EspNp2.Library.CallMonitor
open EspNp2.Library.CallProgram
open EspNp2.Library.LabelledRun

section Course

theorem following_of_fields {g g' : GuestState} {now limit : UInt32} (h : Following g now limit)
    (hfields : clockFields g' = clockFields g) : Following g' now limit := by
  rw [clockFields, clockFields, ClockFields.mk.injEq] at hfields
  obtain ⟨hrate, hpcm, -, -, -, hlast, hvalid⟩ := hfields
  have hstep : g'.pcmStepclock = g.pcmStepclock := congrArg Rate.stepclock hrate
  have hrateval : g'.pcmRateval = g.pcmRateval := congrArg Rate.rateval hrate
  refine ⟨hvalid ▸ h.valid, hpcm ▸ h.clockValid, hstep ▸ h.step, hpcm ▸ h.placed, hrate ▸ h.masked,
    hlast ▸ h.last, h.within, ?_⟩
  rw [hrateval, hpcm]
  exact h.near

/-- At the last position that was read, the clock of a guest computes what the clock of another
one, from which it was followed, computes at every later position. -/
def OnCourse (start : GuestState) (limit : UInt32) (now : Option UInt32) (s : Adapter) : Prop :=
  ∀ instant, now = some instant → Following s.guest instant limit ∧
    (∀ position, instant ≤ position → position ≤ limit →
      compute s.guest position = compute start position) ∧
    (s.hooks.cpuPosition = false → s.manualCpuPosition = instant)

variable {start : GuestState} {limit : UInt32}

theorem clockRule_onCourse : ClockRule limit (OnCourse start limit) where
  frame := by
    intro now s s' h hview instant hinstant
    obtain ⟨hfollowing, hcompute, hmanual⟩ := h instant hinstant
    have hfields : clockFields s'.guest = clockFields s.guest := congrArg Prod.fst hview
    have hsettings : settings s' = settings s := congrArg Prod.snd hview
    refine ⟨following_of_fields hfollowing hfields, fun position hnow hlimit => ?_, ?_⟩
    · rw [compute_of_clockFields hfields]
      exact hcompute position hnow hlimit
    · have hhooks : s'.hooks = s.hooks := congrArg Settings.hooks hsettings
      have hposition : s'.manualCpuPosition = s.manualCpuPosition :=
        congrArg Settings.manualCpuPosition hsettings
      rw [hhooks, hposition]
      exact hmanual
  manual := fun h hhook instant hinstant => (h instant hinstant).2.2 hhook
  sample := by
    intro now s position h hhook instant hinstant
    obtain ⟨before, rfl, htick⟩ := Option.bind_eq_some_iff.mp hinstant
    obtain ⟨⟨hbefore, hlimit⟩, hsome⟩ := Option.ite_none_right_eq_some.mp htick
    obtain rfl := Option.some.inj hsome
    obtain ⟨hfollowing, hcompute, -⟩ := h before rfl
    refine ⟨hfollowing.later hbefore hlimit, fun later hnow => ?_, fun hnone => ?_⟩
    · exact hcompute later (UInt32.le_trans hbefore hnow)
    · rw [hhook] at hnone
      cases hnone
  recalc := by
    intro now s position h hcurrent instant hinstant
    obtain rfl := hcurrent instant hinstant
    obtain ⟨hfollowing, hcompute, hmanual⟩ := h position hinstant
    obtain ⟨hnext, hsame⟩ := hfollowing.recalc
    refine ⟨hnext, fun later hnow hlimit => ?_, hmanual⟩
    exact (hsame later hnow hlimit).trans (hcompute later hnow hlimit)
  sync := by
    intro now s position plan h hcurrent hplan instant hinstant
    obtain rfl := hcurrent instant hinstant
    obtain ⟨hfollowing, hcompute, hmanual⟩ := h position hinstant
    obtain ⟨hnext, hsame⟩ := hfollowing.apply hplan
    refine ⟨hnext, fun later hnow hlimit => ?_, hmanual⟩
    exact (hsame later hnow hlimit).trans (hcompute later hnow hlimit)

end Course

section Journeys

/-- Operations that synchronise the clock, PCM writes that are refused and positions set by the
host, while the CPU runs forward to a position that is not past the limit. -/
inductive Journey (limit : UInt32) (s : Adapter) (now : UInt32) : Adapter → UInt32 → Prop
  | start : Journey limit s now s now
  | operation {s₁ s₂ : Adapter} {now₁ now₂ : UInt32} {operation : Operation}
      {trace : List CallLabel} (before : Journey limit s now s₁ now₁)
      (hsync : synchronises operation = true)
      (hrun : Run (Step anyReply) (operation.code s₁, ()) trace (.done ((), s₂), ()))
      (hreads : ReadsFrom limit now₁ trace now₂) : Journey limit s now s₂ now₂
  | refusedWrite {s₁ s₂ : Adapter} {now₁ now₂ : UInt32} {registerIndex value : UInt8}
      {trace : List CallLabel} (before : Journey limit s now s₁ now₁)
      (hrun : Run (Step anyReply) (pcm86Write registerIndex value s₁, ()) trace
        (.done (false, s₂), ()))
      (hreads : ReadsFrom limit now₁ trace now₂) : Journey limit s now s₂ now₂
  | positioned {s₁ : Adapter} {now₁ position : UInt32} (before : Journey limit s now s₁ now₁)
      (hforward : s₁.hooks.cpuPosition = false → now₁ ≤ position ∧ position ≤ limit) :
      Journey limit s now (configure s₁ (.setCpuPosition position))
        (if s₁.hooks.cpuPosition then now₁ else position)
  | refusedData {s₁ s₂ : Adapter} {now₁ now₂ : UInt32} {value : UInt8} {trace : List CallLabel}
      (before : Journey limit s now s₁ now₁)
      (hrun : Run (Step anyReply) (pcm86WriteData value s₁, ()) trace (.done (false, s₂), ()))
      (hreads : ReadsFrom limit now₁ trace now₂) : Journey limit s now s₂ now₂

variable {start : GuestState} {limit now now' : UInt32} {s s' : Adapter}

theorem reading_ends {trace : List CallLabel} (hreads : ReadsFrom limit now trace now')
    {m : Option UInt32} (hm : trace.foldlM (observeClock limit) (some now) = some m) :
    m = some now' := by
  rw [foldlM_observeClock] at hm
  exact (Option.some.inj hm).symm.trans hreads

theorem OnCourse.positioned (h : OnCourse start limit (some now) s) {position : UInt32}
    (hforward : s.hooks.cpuPosition = false → now ≤ position ∧ position ≤ limit) :
    OnCourse start limit (some (if s.hooks.cpuPosition then now else position))
      (configure s (.setCpuPosition position)) := by
  intro instant hinstant
  obtain ⟨hfollowing, hcompute, -⟩ := h now rfl
  split at hinstant
  case isTrue hhook =>
    obtain rfl := Option.some.inj hinstant
    refine ⟨hfollowing, hcompute, fun hnone => ?_⟩
    rw [show (configure s (.setCpuPosition position)).hooks = s.hooks from rfl, hhook] at hnone
    cases hnone
  case isFalse hhook =>
    obtain rfl := Option.some.inj hinstant
    obtain ⟨hnow, hlimit⟩ := hforward (Bool.eq_false_iff.mpr hhook)
    refine ⟨hfollowing.later hnow hlimit, fun later hlater => ?_, fun _ => rfl⟩
    exact hcompute later (UInt32.le_trans hnow hlater)

theorem journey_onCourse (h : OnCourse start limit (some now) s)
    (hjourney : Journey limit s now s' now') : OnCourse start limit (some now') s' := by
  induction hjourney with
  | start => exact h
  | operation _ hsync hrun hreads ih =>
      have hrule : ClockRule limit (OnCourse start limit) := clockRule_onCourse
      obtain ⟨m, hm, hresult⟩ := (keepsClock_operation hrule hsync _ _ ih).run hrun
      obtain rfl := reading_ends hreads hm
      exact hresult
  | refusedWrite _ hrun hreads ih =>
      obtain ⟨m, hm, hresult⟩ := (ensures_pcm86Write clockRule_onCourse _ _ _ _ ih).run hrun
      obtain rfl := reading_ends hreads hm
      exact hresult rfl
  | positioned _ hforward ih => exact ih.positioned hforward
  | refusedData _ hrun hreads ih =>
      obtain ⟨m, hm, hresult⟩ := (ensures_pcm86WriteData clockRule_onCourse _ _ _ ih).run hrun
      obtain rfl := reading_ends hreads hm
      exact hresult rfl

theorem journey_steady {distance : ℤ} (h : Steady distance s.guest)
    (hjourney : Journey limit s now s' now') : Steady distance s'.guest := by
  induction hjourney with
  | start => exact h
  | operation _ _ hrun _ ih => exact steady_operation ih hrun
  | refusedWrite _ hrun _ ih =>
      obtain ⟨m, -, hresult⟩ := (keepsSteady_pcm86Write _ _ none _ ⟨rfl, ih⟩).run hrun
      exact hresult.2
  | positioned _ _ ih => exact ih
  | refusedData _ hrun _ ih =>
      obtain ⟨m, -, hresult⟩ := (keepsSteady_pcm86WriteData _ none _ ⟨rfl, ih⟩).run hrun
      exact hresult.2

end Journeys

section Independence

/-- What the guest can learn from its clock. -/
structure ClockValues where
  guestCycles : UInt64
  frameTimestamp : UInt64
  frameRemainder : UInt32
  lastCpuPosition : UInt32
  pcmLastclock : UInt64
  pcmStepRemainder : UInt32
  pcmVirtualBuffer : UInt32
deriving DecidableEq

def clockValues (g : GuestState) : ClockValues where
  guestCycles := g.guestCycles
  frameTimestamp := g.frameTimestamp
  frameRemainder := g.frameRemainder
  lastCpuPosition := g.lastCpuPosition
  pcmLastclock := g.pcmLastclock
  pcmStepRemainder := g.pcmStepRemainder
  pcmVirtualBuffer := g.pcmVirtualBuffer

/-- The adapter of a CPU at a position, which the host sets where no hook asks for it. -/
def standing (position : UInt32) (s : Adapter) : Adapter :=
  if s.hooks.cpuPosition then s else configure s (.setCpuPosition position)

/-- A synchronisation that reads a position, from the host or as it was set. -/
def SyncsAt (position : UInt32) (s t : Adapter) : Prop :=
  ∃ trace, Run (Step anyReply) (audioSync (standing position s), ()) trace (.done ((), t), ()) ∧
    (s.hooks.cpuPosition = true → trace = [⟨.cpuPosition, position⟩])

def overflowReason : SyncError → String
  | .guestCycles => "guest cycle overflow"
  | .frameTimestamp => "frame timestamp overflow"

/-- How a synchronisation ends: with a clock, or with an overflow that changes nothing else. -/
def Settles (s t : Adapter) : Except SyncError ClockValues → Prop
  | .ok values => clockValues t.guest = values ∧ t.failure = s.failure
  | .error status => t = failing s (overflowReason status)

def outcome (g : GuestState) (position : UInt32) : Except SyncError ClockValues :=
  (compute g position).map fun plan => clockValues (applyPlan g plan)

variable {s s' t t' : Adapter} {limit now now' position : UInt32}

@[simp] theorem standing_guest : (standing position s).guest = s.guest := by
  rw [standing]
  split <;> rfl

@[simp] theorem standing_hooks : (standing position s).hooks = s.hooks := by
  rw [standing]
  split <;> rfl

theorem standing_manual (h : ¬ s.hooks.cpuPosition = true) :
    (standing position s).manualCpuPosition = position := by
  rw [standing, if_neg h]
  rfl

/-- The end of a synchronisation, from the position that it has read. -/
def settle (s : Adapter) (position : UInt32) : Adapter :=
  match compute s.guest position with
  | .error status => failing s (overflowReason status)
  | .ok plan => { s with guest := applyPlan s.guest plan }

/-- The calls of a program, one after the other. -/
def observeCalls (trace : List CallLabel) (label : CallLabel) : Option (List CallLabel) :=
  some (trace ++ [label])

theorem foldlM_observeCalls (trace seen : List CallLabel) :
    trace.foldlM observeCalls seen = some (seen ++ trace) := by
  induction trace generalizing seen with
  | nil => rw [List.append_nil]; rfl
  | cons label rest ih =>
      rw [List.append_cons]
      exact ih (seen ++ [label])

/-- The state has not changed since the position was read. -/
def Reads (start : Adapter) (trace : List CallLabel) (position : UInt32) (s : Adapter) : Prop :=
  s = start ∧ if start.hooks.cpuPosition then trace = [⟨.cpuPosition, position⟩]
    else start.manualCpuPosition = position

theorem ensures_read (start : Adapter) :
    Ensures observeCalls (fun trace s => trace = [] ∧ s = start) currentCpuPosition
      (Reads start) := by
  rintro trace s ⟨rfl, rfl⟩
  rw [currentCpuPosition, get_bind_run, ite_run]
  split
  case isTrue hhook => exact fun position => ⟨_, rfl, rfl, by rw [if_pos hhook]; rfl⟩
  case isFalse hhook => exact ⟨rfl, by rw [if_neg hhook]⟩

theorem ensures_settle (start : Adapter) :
    Ensures observeCalls (fun trace s => trace = [] ∧ s = start) audioSync fun trace _ s =>
      ∃ position, Reads start trace position start ∧ s = settle start position := by
  have hplan : Ensures observeCalls (fun trace s => trace = [] ∧ s = start) syncPlanCompute
      fun trace result s => ∃ position, Reads start trace position s ∧
        result = compute start.guest position := by
    refine (ensures_read start).bind fun position => ?_
    rintro trace s ⟨rfl, hread⟩
    rw [get_bind_run]
    dsimp only
    rw [ite_run]
    split
    case isTrue hinvalid => exact ⟨position, ⟨rfl, hread⟩, (if_pos hinvalid).symm⟩
    case isFalse hvalid => exact ⟨position, ⟨rfl, hread⟩, (if_neg hvalid).symm⟩
  refine hplan.bind fun result => ?_
  rintro trace s ⟨position, ⟨rfl, hread⟩, hresult⟩
  cases result with
  | error status =>
      have hsettle : settle s position = failing s (overflowReason status) := by
        rw [settle, ← hresult]
      cases status <;> exact ⟨position, ⟨rfl, hread⟩, hsettle.symm⟩
  | ok plan =>
      have hsettle : settle s position = { s with guest := applyPlan s.guest plan } := by
        rw [settle, ← hresult]
      exact ⟨position, ⟨rfl, hread⟩, hsettle.symm⟩

theorem settles_of_syncsAt (h : SyncsAt position s t) :
    Settles (standing position s) t (outcome s.guest position) := by
  obtain ⟨trace, hrun, hread⟩ := h
  obtain ⟨seen, hseen, hresult⟩ := (ensures_settle _ [] _ ⟨rfl, rfl⟩).run hrun
  rw [foldlM_observeCalls, List.nil_append] at hseen
  obtain rfl := Option.some.inj hseen
  obtain ⟨read, ⟨-, hread'⟩, hsettle⟩ := hresult
  have hsame : read = position := by
    rw [standing_hooks] at hread'
    split at hread'
    case isTrue hhook =>
      rw [hread hhook] at hread'
      exact (eq_of_heq (Sigma.mk.inj (List.cons.inj hread').1).2).symm
    case isFalse hhook => exact hread'.symm.trans (standing_manual hhook)
  subst hsame
  dsimp only at hsettle
  rw [hsettle, outcome, settle, standing_guest]
  cases compute s.guest read with
  | error status => rfl
  | ok plan => exact ⟨rfl, rfl⟩

theorem outcome_of_compute {g g' : GuestState} (h : compute g' position = compute g position) :
    outcome g' position = outcome g position := by
  rw [outcome, outcome, h]
  cases compute g position with
  | error status => rfl
  | ok plan => rfl

/-- Whatever synchronises the clock on the way, the clock at a position depends on the position
alone, and the frame clock stays as far from the cycles of the guest. -/
theorem clock_path_independent (hreachable : Reachable s) (hvalid : s.guest.cpuPositionValid = true)
    (hstep : 1 ≤ s.guest.pcmStepclock) (hlast : s.guest.lastCpuPosition ≤ now)
      (hwithin : now ≤ limit)
    (hnear : s.guest.pcmRateval ≠ 0 → distance s.guest.pcmLastclock now +
      (limit.toNat - now.toNat) * 64 ≤ pastCycle.toNat / 2)
    (hmanual : s.hooks.cpuPosition = false → s.manualCpuPosition = now)
    (hjourney : Journey limit s now s' now') :
    drift s'.guest = drift s.guest ∧
      ∀ position t t', now' ≤ position → position ≤ limit → SyncsAt position s t →
        SyncsAt position s' t' → ∃ result, Settles (standing position s) t result ∧
          Settles (standing position s') t' result := by
  have hsteady := reachable_steady hreachable
  have hstart : OnCourse s.guest limit (some now) s := by
    intro instant hinstant
    obtain rfl := Option.some.inj hinstant
    exact ⟨⟨hvalid, hsteady.valid hvalid, hstep, hsteady.placed, hsteady.masked, hlast, hwithin,
      hnear⟩, fun _ _ _ => rfl, hmanual⟩
  obtain ⟨-, hcompute, -⟩ := journey_onCourse hstart hjourney now' rfl
  refine ⟨(journey_steady hsteady hjourney).drift, fun position t t' hnow hlimit ht ht' => ?_⟩
  refine ⟨outcome s.guest position, settles_of_syncsAt ht, ?_⟩
  rw [← outcome_of_compute (hcompute position hnow hlimit)]
  exact settles_of_syncsAt ht'

/-- The host that answers every call, and whose CPU stays at a position. -/
def serveAt (position : UInt32) (_ : Unit) : (request : Call) → Reply request × Unit
  | .reserveChecked .. | .extendChecked .. => ((.ok, Vector.replicate 4 0), ())
  | .commitEvent token _ | .commitPcmByte token .. | .commitDataRun token _
  | .commitHorizon token _ => (token, ())
  | .publishProgressChecked _ => (.ok, ())
  | .cpuPosition => (position, ())
  | .isWork _ => (false, ())
  | .schedule .. | .cancel _ | .irq .. | .extension _ => ((), ())

/-- The adapter after an operation at a position. -/
def afterAt (position : UInt32) (operation : Operation) (s : Adapter) : Adapter :=
  (((execute (serveAt position) 30 (operation.code s, ())).2.1.value?).map Prod.snd).getD s

def traceAt (position : UInt32) (operation : Operation) (s : Adapter) : List CallLabel :=
  (execute (serveAt position) 30 (operation.code s, ())).1

theorem run_at (position : UInt32) (operation : Operation) (s : Adapter)
    (h : ((execute (serveAt position) 30 (operation.code s, ())).2.1.value?).isSome) :
    Run (Step anyReply) (operation.code s, ()) (traceAt position operation s)
      (.done ((), afterAt position operation s), ()) := by
  obtain ⟨value, hvalue⟩ := Option.isSome_iff_exists.mp h
  have hafter : value = ((), afterAt position operation s) := by
    rw [afterAt, hvalue]
    rfl
  rw [hafter] at hvalue
  exact execute_result anyReply (serveAt position) (fun _ _ => trivial) hvalue

def hostedAdapter : Adapter := configure {} (.setCpuPositionFn true)

def resetAdapter : Adapter := afterAt 0 (.opnaReset 0 0 0 0) hostedAdapter

def syncedAdapter : Adapter := afterAt 1000 .audioSync resetAdapter

theorem reachable_syncedAdapter : Reachable syncedAdapter := by
  have hhosted : Reachable hostedAdapter := .configuration (.setCpuPositionFn true) .start
  have hreset : Reachable resetAdapter :=
    .operation (.opnaReset 0 0 0 0) hhosted (run_at 0 _ _ (by decide +kernel))
  exact .operation .audioSync hreset (run_at 1000 _ _ (by decide +kernel))

/-- A read of the PCM part between two synchronisations. -/
theorem clock_path_independent_read :
    drift (afterAt 2000 (.pcm86Read 0) syncedAdapter).guest = drift syncedAdapter.guest ∧
      ∃ result,
        Settles (standing 5000 syncedAdapter) (afterAt 5000 .audioSync syncedAdapter) result ∧
        Settles (standing 5000 (afterAt 2000 (.pcm86Read 0) syncedAdapter))
          (afterAt 5000 .audioSync (afterAt 2000 (.pcm86Read 0) syncedAdapter)) result := by
  have hjourney : Journey 10000 syncedAdapter 1000
    (afterAt 2000 (.pcm86Read 0) syncedAdapter) 2000 :=
    .operation .start rfl (run_at 2000 _ _ (by decide +kernel))
      (show ReadsFrom 10000 1000 (traceAt 2000 (.pcm86Read 0) syncedAdapter) 2000 by
        rw [ReadsFrom]; decide +kernel)
  obtain ⟨hdrift, hsyncs⟩ := clock_path_independent reachable_syncedAdapter (by decide +kernel)
    (by decide +kernel) (by decide +kernel) (by decide) (fun _ => by decide +kernel)
    (fun h => absurd h (by decide +kernel)) hjourney
  refine ⟨hdrift, hsyncs 5000 _ _ (by decide) (by decide) ?_ ?_⟩
  · exact ⟨_, run_at 5000 .audioSync _ (by decide +kernel), fun _ => rfl⟩
  · exact ⟨_, run_at 5000 .audioSync _ (by decide +kernel), fun _ => rfl⟩

end Independence

end EspNp2.GuestAdapter.ClockJourneys
