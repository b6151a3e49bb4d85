import EspNp2.GuestAdapter.CommitStream

/-!
An operation that the sink refuses has no effect on the guest. Before the answer of the
sink an operation only reads the clock and commits a run that earlier operations have
opened; the hooks and the commits of its own come after a granted check.
-/

namespace EspNp2.GuestAdapter.RejectionAtomicity

open EspNp2.GuestAdapter.AdapterFrame
open EspNp2.GuestAdapter.AdapterOperations
open EspNp2.GuestAdapter.AdapterState
open EspNp2.GuestAdapter.CommitStream
open EspNp2.Library.CallMonitor
open EspNp2.Library.CallProgram
open EspNp2.Library.LabelledRun

section Calls

/-- The answer of the sink to a checked call. -/
def answer : CallLabel → Option Check
  | ⟨.reserveChecked .., reply⟩ | ⟨.extendChecked .., reply⟩ => some reply.1
  | ⟨.publishProgressChecked _, reply⟩ => some reply
  | _ => none

def Refuses (label : CallLabel) : Prop := ∃ check, answer label = some check ∧ check ≠ .ok

/-- A call that an operation may make before it is authorised: it reads the clock, or
commits the run that was open in `s`. -/
def harmless (s : Adapter) : Call → Bool
  | .cpuPosition => true
  | .commitDataRun _ run => s.runPending && s.runTransactionActive && run = pendingRun s
  | .commitHorizon _ timestamp =>
      s.runPending && s.runTransactionActive && timestamp = s.runTimestamp
  | _ => false

inductive Progress where
  | preparing
  | refused
  | authorised
deriving DecidableEq, Repr

/-- An operation asks once; before and after a refusal its calls are harmless. -/
def watch (s : Adapter) (progress : Progress) (label : CallLabel) : Option Progress :=
  match progress, answer label with
  | .preparing, some .ok => some .authorised
  | .preparing, some _ => some .refused
  | .preparing, none => if harmless s label.1 then some .preparing else none
  | .refused, some _ => none
  | .refused, none => if harmless s label.1 then some .refused else none
  | .authorised, some _ => none
  | .authorised, none => some .authorised

/-- What the calls so far tell about the progress. -/
def Tells (s : Adapter) (trace : List CallLabel) : Progress → Prop
  | .preparing => ∀ label ∈ trace, ¬ Refuses label ∧ harmless s label.1 = true
  | .refused => ∀ label ∈ trace, Refuses label ∨ harmless s label.1 = true
  | .authorised => ∀ label ∈ trace, ¬ Refuses label

theorem tells_of_watch {s : Adapter} {trace : List CallLabel} {progress : Progress}
    (h : trace.foldlM (watch s) .preparing = some progress) : Tells s trace progress := by
  induction trace using List.reverseRecOn generalizing progress with
  | nil =>
      obtain rfl := Option.some.inj h
      intro label hmem
      cases hmem
  | append_singleton trace label ih =>
      rw [List.foldlM_append] at h
      obtain ⟨before, hbefore, hlabel⟩ := Option.bind_eq_some_iff.mp h
      replace hlabel : watch s before label = some progress := by simpa using hlabel
      have htells := ih hbefore
      unfold watch at hlabel
      split at hlabel
      · rename_i hanswer
        obtain rfl := Option.some.inj hlabel
        intro other hmem
        rcases List.mem_append.mp hmem with hmem | hmem
        · exact (htells other hmem).1
        · rw [List.mem_singleton.mp hmem]
          rintro ⟨check, hcheck, hne⟩
          exact hne (Option.some.inj (hcheck.symm.trans hanswer))
      · rename_i check hne hanswer
        obtain rfl := Option.some.inj hlabel
        intro other hmem
        rcases List.mem_append.mp hmem with hmem | hmem
        · exact .inr (htells other hmem).2
        · rw [List.mem_singleton.mp hmem]
          exact .inl ⟨check, hanswer, hne⟩
      · rename_i hanswer
        split at hlabel
        · rename_i hharmless
          obtain rfl := Option.some.inj hlabel
          intro other hmem
          rcases List.mem_append.mp hmem with hmem | hmem
          · exact htells other hmem
          · rw [List.mem_singleton.mp hmem]
            refine ⟨?_, hharmless⟩
            rintro ⟨check, hcheck, -⟩
            simp [hanswer] at hcheck
        · cases hlabel
      · cases hlabel
      · split at hlabel
        · rename_i hharmless
          obtain rfl := Option.some.inj hlabel
          intro other hmem
          rcases List.mem_append.mp hmem with hmem | hmem
          · exact htells other hmem
          · rw [List.mem_singleton.mp hmem]
            exact .inr hharmless
        · cases hlabel
      · cases hlabel
      · rename_i hanswer
        obtain rfl := Option.some.inj hlabel
        intro other hmem
        rcases List.mem_append.mp hmem with hmem | hmem
        · exact htells other hmem
        · rw [List.mem_singleton.mp hmem]
          rintro ⟨check, hcheck, -⟩
          simp [hanswer] at hcheck

end Calls

section Kept

/-- The guest is untouched, and a run that is still pending was so in `s`. -/
structure Kept (s s' : Adapter) : Prop where
  guest : s'.guest = s.guest
  sink : s'.sink = s.sink
  run : s'.runPending = true → s.runPending = true ∧
    s'.runTransactionActive = s.runTransactionActive ∧ pendingRun s' = pendingRun s

variable {s s' s'' : Adapter}

theorem Kept.refl (s : Adapter) : Kept s s := ⟨rfl, rfl, fun h => ⟨h, rfl, rfl⟩⟩

theorem Kept.trans (h : Kept s s') (h' : Kept s' s'') : Kept s s'' := by
  refine ⟨h'.guest.trans h.guest, h'.sink.trans h.sink, fun hpending => ?_⟩
  obtain ⟨hpending', hactive', hrun'⟩ := h'.run hpending
  obtain ⟨hpending, hactive, hrun⟩ := h.run hpending'
  exact ⟨hpending, hactive'.trans hactive, hrun'.trans hrun⟩

theorem kept_of_core (hcore : core s' = core s) (hguest : s'.guest = s.guest) : Kept s s' := by
  simp only [core, Core.mk.injEq] at hcore
  obtain ⟨hsink, -, -, hpending, htimestamp, hsequence, hoffset, hcount, -, hactive⟩ := hcore
  refine ⟨hguest, hsink, fun h => ⟨hpending ▸ h, hactive, ?_⟩⟩
  simp only [pendingRun, htimestamp, hsequence, hoffset, hcount]

theorem Kept.failing (h : Kept s s') (reason : String) :
    Kept s (AdapterFrame.failing s' reason) :=
  h.trans (kept_of_core (failing_core s' reason).1 (failing_core s' reason).2)

theorem Kept.closed (h : Kept s s') (hguest : s''.guest = s'.guest) (hsink : s''.sink = s'.sink)
    (hclosed : s''.runPending = false) : Kept s s'' :=
  ⟨hguest.trans h.guest, hsink.trans h.sink, fun hpending => absurd (hclosed.symm.trans hpending)
    (by simp)⟩

theorem Kept.flushes (h : Kept s s') (hpending : s'.runPending = true)
    (hactive : s'.runTransactionActive = true) (token : Token) :
    harmless s (.commitDataRun token (pendingRun s')) = true ∧
      harmless s (.commitHorizon token s'.runTimestamp) = true := by
  obtain ⟨hbefore, hactive', hrun⟩ := h.run hpending
  have htimestamp : s'.runTimestamp = s.runTimestamp := congrArg DataRun.frameTimestamp hrun
  simp [harmless, hbefore, ← hactive', hactive, hrun, htimestamp]

end Kept

section Asking

variable {s s' : Adapter} {progress : Progress} {label : CallLabel}

theorem watch_harmless (hprogress : progress ≠ .authorised) (hanswer : answer label = none)
    (hharmless : harmless s label.1 = true) : watch s progress label = some progress := by
  cases progress with
  | preparing => simp only [watch, hanswer, hharmless, if_true]
  | refused => simp only [watch, hanswer, hharmless, if_true]
  | authorised => exact absurd rfl hprogress

theorem watch_readsClock (hprogress : progress ≠ .authorised) (h : ReadsClock label) :
    watch s progress label = some progress := by
  obtain ⟨request, reply⟩ := label
  obtain rfl : request = .cpuPosition := h
  exact watch_harmless hprogress rfl rfl

theorem watched_flushPendingRun_kept (hprogress : progress ≠ .authorised) (h : Kept s s') :
    Watched (watch s) (fun progress' result => progress' = progress ∧ Kept s result.2)
      (flushPendingRun s') progress := by
  rw [flushPendingRun_eq]
  split
  · exact ⟨rfl, h⟩
  rename_i hpending
  split
  · exact ⟨rfl, h.closed rfl rfl rfl⟩
  split
  · exact ⟨rfl, h.failing _⟩
  split
  · exact ⟨rfl, h.failing _⟩
  split
  · rename_i hactive
    have hharmless := h.flushes (by simpa using hpending) hactive.2
    intro token
    refine ⟨progress, watch_harmless hprogress rfl (hharmless _).1, ?_⟩
    intro token'
    refine ⟨progress, watch_harmless hprogress rfl (hharmless _).2, rfl, ?_⟩
    exact h.closed rfl rfl rfl
  · exact ⟨rfl, h.closed rfl rfl rfl⟩

/-- The progress says whether the operation was granted; nothing has happened if not. -/
def Answered (s : Adapter) (progress : Progress) (check : Check) (s' : Adapter) : Prop :=
  (progress = .authorised ↔ check = .ok) ∧ (check ≠ .ok → Kept s s')

theorem answered_retry (h : Kept s s') : Answered s .preparing .retry s' := ⟨by simp, fun _ => h⟩

theorem watch_check (s : Adapter) (label : CallLabel) {check : Check}
    (hanswer : answer label = some check) : ∃ progress, watch s .preparing label = some progress ∧
      (progress = .authorised ↔ check = .ok) := by
  cases check with
  | ok => exact ⟨.authorised, by simp only [watch, hanswer], by simp⟩
  | retry => exact ⟨.refused, by simp only [watch, hanswer], by simp⟩
  | terminated => exact ⟨.refused, by simp only [watch, hanswer], by simp⟩
  | contract => exact ⟨.refused, by simp only [watch, hanswer], by simp⟩

theorem watched_transactionBegin_kept (hsink : s.sink.isSome = true) (h : Kept s s') (kind : Kind)
    {bytes : Nat} (hbytes : kind = .dataRun → bytes ≠ 0) :
    Watched (watch s) (fun progress result => Answered s progress result.1.1 result.2)
      (transactionBegin kind bytes s') .preparing := by
  rcases transactionBegin_cases (h.sink ▸ hsink) kind hbytes with ⟨token, heq⟩ | heq
  · rw [heq]
    exact answered_retry h
  · rw [heq]
    intro reply
    obtain ⟨progress, hprogress, hok⟩ := watch_check s
      ⟨.reserveChecked kind bytes, reply⟩ rfl
    exact ⟨progress, hprogress, hok, fun _ => h⟩

theorem watched_prepareEventTransaction_kept (hsink : s.sink.isSome = true) (h : Kept s s')
    {kind : Kind} (hkind : kind ≠ .dataRun) :
    Watched (watch s) (fun progress result => Answered s progress result.1.1 result.2)
      (prepareEventTransaction kind s') .preparing := by
  refine Watched.bind ((watched_flushPendingRun_kept (by simp) h).mono ?_)
  rintro progress ⟨flushed, s₁⟩ ⟨rfl, h₁⟩
  cases flushed with
  | false =>
      change Watched _ _ ((onlyIf (s₁.guest.sequence = (-1 : UInt64)) _ >>= fun _ => _) s₁) _
      rw [onlyIf]
      split
      · exact answered_retry (h₁.failing _)
      · exact answered_retry h₁
  | true =>
      change Watched _ _ ((if s₁.guest.sequence = (-1 : UInt64) then _ else _ :
        Guest (Check × Token)) s₁) _
      split
      · exact answered_retry (h₁.failing _)
      · exact watched_transactionBegin_kept hsink h₁ kind fun hrun => absurd hrun hkind

theorem watched_beginRun_kept (hsink : s.sink.isSome = true) (h : Kept s s') :
    Watched (watch s) (fun progress result => Answered s progress result.1.1 result.2)
      (beginRun s') .preparing := by
  refine Watched.bind ((watched_flushPendingRun_kept (by simp) h).mono ?_)
  rintro progress ⟨flushed, s₁⟩ ⟨rfl, h₁⟩
  cases flushed with
  | false => exact answered_retry h₁
  | true =>
      change Watched _ _ ((if s₁.guest.sequence = (-1 : UInt64) then _ else _ :
        Guest (Check × Bool)) s₁) _
      split
      · exact answered_retry (h₁.failing _)
      · refine Watched.bind ((watched_transactionBegin_kept hsink h₁ .dataRun (by simp)).mono ?_)
        rintro progress ⟨⟨check, token⟩, s₂⟩ hanswered
        by_cases hc : check = .ok
        · subst hc
          exact ⟨hanswered.1, fun hne => absurd rfl hne⟩
        · change Watched _ _ ((if check ≠ .ok then _ else _ : Guest (Check × Bool)) s₂) _
          rw [if_pos hc]
          exact hanswered

theorem watched_transactionExtend_kept (hsink : s.sink.isSome = true) (h : Kept s s')
    (bytes : Nat) :
    Watched (watch s) (fun progress result => Answered s progress result.1 result.2)
      (transactionExtend bytes s') .preparing := by
  rw [transactionExtend, get_bind_run]
  simp only [ite_run]
  split
  · exact ⟨by simp, fun _ => h⟩
  have hsink' : s'.sink.isSome = true := h.sink ▸ hsink
  split
  · have hrefuse : refuseTrace "PCM byte trace capacity" s' =
        .done ((.retry, s'.runTransaction), s') := by
      rw [refuseTrace, get_bind_run, onlyIf, if_neg (by simp [Option.isSome_iff_ne_none.mp hsink'])]
      rfl
    change Watched _ _ ((refuseTrace _ s').bind _) _
    rw [hrefuse]
    exact answered_retry h
  · intro reply
    obtain ⟨progress, hprogress, hok⟩ := watch_check s
      ⟨.extendChecked s'.runTransaction bytes, reply⟩ rfl
    exact ⟨progress, hprogress, hok, fun _ => h.trans ⟨rfl, rfl, fun hrun => ⟨hrun, rfl, rfl⟩⟩⟩

theorem watched_prepareByteTransaction_kept (hsink : s.sink.isSome = true) (h : Kept s s') :
    Watched (watch s) (fun progress result => Answered s progress result.1.1 result.2)
      (prepareByteTransaction s') .preparing := by
  rw [prepareByteTransaction, get_bind_run]
  simp only [ite_run]
  split
  · exact answered_retry h
  split
  · exact watched_beginRun_kept hsink h
  · refine Watched.bind ((watched_transactionExtend_kept hsink h 1).mono ?_)
    rintro progress ⟨check, s₁⟩ hanswered
    exact hanswered

end Asking

section Effects

/-- A call that asks the sink for nothing. -/
def AsksNothing (label : CallLabel) : Prop := answer label = none

theorem asksNothing_of_isHook {label : CallLabel} (h : IsHook label) : AsksNothing label := by
  obtain ⟨request, reply⟩ := label
  cases request <;> first | rfl | exact h.elim

/-- The part of an operation that follows the authorisation. -/
abbrev Unchecked {α : Type} (program : Guest α) : Prop :=
  Within AsksNothing (fun _ _ => True) program

instance : Std.Refl (fun _ _ : Adapter => True) := ⟨fun _ => trivial⟩

instance : IsTrans Adapter (fun _ _ : Adapter => True) := ⟨fun _ _ _ _ _ => trivial⟩

theorem unchecked_of_effect {α : Type} {program : Guest α} (h : Effect program) :
    Unchecked program :=
  fun s => ((h s).weaken fun _ => asksNothing_of_isHook).mono fun _ _ => trivial

theorem unchecked_callOut {request : Call} (h : ∀ reply, AsksNothing ⟨request, reply⟩) :
    Unchecked (callOut request) :=
  fun _ reply => ⟨h reply, trivial⟩

theorem unchecked_onlyIf {condition : Prop} [Decidable condition] {body : Guest Unit}
    (h : Unchecked body) : Unchecked (onlyIf condition body) :=
  within_ite (fun _ => h) fun _ => within_pure _

theorem unchecked_modify (change : Adapter → Adapter) :
    Unchecked (modify change : Guest PUnit) :=
  within_modify fun _ => trivial

theorem unchecked_discard {program : Guest α} (h : Unchecked program) :
    Unchecked (discard program) :=
  fun s => Makes.bind ((h s).mono fun _ _ => trivial)

theorem unchecked_commitEvent (token : Token) (opcode payload : UInt32) :
    Unchecked (commitEvent token opcode payload) := by
  refine within_get.bind fun s => (unchecked_modify _).bind fun _ => ?_
  refine Within.bind (unchecked_onlyIf ?_) fun _ => unchecked_modify _
  refine Within.bind (unchecked_callOut fun _ => rfl) fun token => ?_
  exact unchecked_discard (unchecked_callOut fun _ => rfl)

theorem unchecked_acceptByte (cur : UInt32) (starting : Bool) (value : UInt8) :
    Unchecked (acceptByte cur starting value) := by
  refine within_get.bind fun s => (unchecked_modify _).bind fun _ => ?_
  refine Within.bind (unchecked_onlyIf (unchecked_modify _)) fun _ => ?_
  refine (unchecked_modify _).bind fun _ => within_get.bind fun s => ?_
  refine Within.bind (unchecked_onlyIf ?_) fun _ => unchecked_modify _
  refine Within.bind ?_ fun _ => unchecked_modify _
  exact unchecked_callOut fun _ => rfl

theorem unchecked_resetEffects (old : GuestState) (capabilities : UInt8) (irq : UInt32)
    (timerAEvent timerBEvent : UInt8) :
    Unchecked (resetEffects old capabilities irq timerAEvent timerBEvent) := by
  refine (unchecked_of_effect (effect_cancelEvent _)).bind fun _ => ?_
  refine (unchecked_of_effect (effect_cancelEvent _)).bind fun _ => ?_
  exact (unchecked_of_effect (effect_cancelEvent _)).bind fun _ => unchecked_modify _

end Effects

section Operations

variable {s s' : Adapter} {α β : Type}

/-- The guest is as before when the operation is refused. -/
abbrev Atomic (s : Adapter) (progress : Progress) (p : Program Call Reply (α × Adapter)) : Prop :=
  Watched (watch s) (fun progress' result => progress' = .refused → result.2.guest = s.guest) p
    progress

theorem atomic_unchecked {program : Guest α} (h : Unchecked program) (s' : Adapter) :
    Atomic s .authorised (program s') := by
  refine (h s').watched (fun label hlabel => ?_) fun _ _ hrefused => by cases hrefused
  simp only [watch, show answer label = none from hlabel]

theorem atomic_of_kept {progress : Progress} {value : α} (h : Kept s s') :
    Atomic s progress (.done (value, s')) :=
  fun _ => h.guest

theorem atomic_discard {program : Guest α} {progress : Progress}
    (h : Atomic s progress (program s')) : Atomic s progress (discard program s') :=
  Watched.bind (h.mono fun _ _ hresult => hresult)

theorem atomic_semanticCall {refused : α} {body : Guest α}
    (hbody : ∀ s', Kept s s' → Atomic s .preparing (body s')) (h : Kept s s') :
    Atomic s .preparing (semanticCall refused body s') := by
  obtain ⟨entered, s₁, hentered, hcore, hguest⟩ := semanticEnter_cases s'
  have hkept : Kept s s₁ := h.trans (kept_of_core hcore hguest)
  change Atomic s .preparing ((semanticEnter s').bind _)
  rw [hentered]
  cases entered with
  | false => exact atomic_of_kept hkept
  | true =>
      change Atomic s .preparing ((do let value ← body; semanticLeave; return value : Guest α) s₁)
      refine Watched.bind ((hbody s₁ hkept).mono ?_)
      rintro progress ⟨value, s₂⟩ hresult
      exact hresult

theorem atomic_flush_then {rest : Bool → Guest α} (h : Kept s s')
    (hrest : ∀ flushed s'', Kept s s'' → Atomic s .preparing (rest flushed s'')) :
    Atomic s .preparing ((flushPendingRun >>= rest) s') := by
  refine Watched.bind ((watched_flushPendingRun_kept (by simp) h).mono ?_)
  rintro progress ⟨flushed, s₁⟩ ⟨rfl, h₁⟩
  exact hrest flushed s₁ h₁

/-- The answer to an event, and what follows either way. -/
theorem atomic_event {kind : Kind} {granted : Token → Guest α} {refused : α}
    (hsink : s.sink.isSome = true) (hkind : kind ≠ .dataRun) (h : Kept s s')
    (hgranted : ∀ token, Unchecked (granted token)) :
    Atomic s .preparing ((prepareEventTransaction kind >>= fun reply =>
      if reply.1 = .ok then granted reply.2 else pure refused) s') := by
  refine Watched.bind ((watched_prepareEventTransaction_kept hsink h hkind).mono ?_)
  rintro progress ⟨⟨check, token⟩, s₁⟩ ⟨hiff, hkept⟩
  change Atomic s progress ((if check = .ok then _ else _ : Guest α) s₁)
  split
  · rename_i hc
    rw [hiff.mpr hc]
    exact atomic_unchecked (hgranted token) s₁
  · rename_i hc
    exact atomic_of_kept (hkept hc)

theorem atomic_opnaWriteRegister (hsink : s.sink.isSome = true) (h : Kept s s') (address : UInt16)
    (value : UInt8) : Atomic s .preparing (opnaWriteRegister address value s') :=
  atomic_event hsink (by simp) h fun token =>
    (unchecked_of_effect (effect_writeRegister address value)).bind fun _ =>
      unchecked_commitEvent token _ _

theorem atomic_opnaReset (hsink : s.sink.isSome = true) (hbound : s.guest.bound = true)
    (capabilities : UInt8) (irq : UInt32) (timerAEvent timerBEvent : UInt8) :
    Atomic s .preparing (opnaReset capabilities irq timerAEvent timerBEvent s) := by
  rw [opnaReset, get_bind_run]
  simp only [hbound, if_true]
  refine atomic_semanticCall (fun s₁ h₁ => ?_) (.refl s)
  exact atomic_event hsink (by simp) h₁ fun token =>
    (unchecked_resetEffects _ _ _ _ _).bind fun _ => unchecked_commitEvent token _ _

theorem atomic_failSyncPlan (h : Kept s s') (status : SyncError) :
    Atomic s .preparing (failSyncPlan status s') := by
  cases status with
  | guestCycles => exact fun _ => (h.failing _).guest
  | frameTimestamp => exact fun _ => (h.failing _).guest

/-- A plan of the clock only reads the clock. -/
theorem atomic_plan_then {plan : Guest (Except SyncError SyncPlan)}
    {rest : Except SyncError SyncPlan → Guest α} (h : Kept s s')
    (hplan : Makes ReadsClock (fun result => Ahead s' result.1 ∧ result.2 = s') (plan s'))
    (hrest : ∀ result, Atomic s .preparing (rest result s')) :
    Atomic s .preparing ((plan >>= rest) s') := by
  refine Watched.bind (hplan.watched (fun _ => watch_readsClock (by simp)) ?_)
  rintro ⟨result, s₁⟩ ⟨-, rfl⟩
  exact hrest result

theorem unchecked_syncPlanApply (plan : SyncPlan) : Unchecked (syncPlanApply plan) :=
  unchecked_modify _

theorem atomic_pcm86Write (hsink : s.sink.isSome = true) {registerIndex value : UInt8}
    (hvalid : isInvalidDac s.guest registerIndex value = false) :
    Atomic s .preparing (pcm86Write registerIndex value s) := by
  refine atomic_semanticCall (fun s₁ h₁ => ?_) (.refl s)
  rw [get_bind_run]
  simp only [h₁.guest, hvalid, Bool.false_eq_true, if_false]
  refine atomic_flush_then h₁ fun flushed s₂ h₂ => ?_
  cases flushed with
  | false => exact atomic_of_kept h₂
  | true =>
      refine atomic_plan_then h₂ (makes_pcmSyncPlan registerIndex s₂) fun result => ?_
      cases result with
      | error status =>
          refine Watched.bind ((atomic_failSyncPlan h₂ status).mono ?_)
          exact fun _ _ hresult => hresult
      | ok plan =>
          have hgranted : ∀ token, Unchecked (do
              syncPlanApply plan
              writePcmRegister registerIndex value plan.cpuPosition
              commitEvent token tracePcmControl ((registerIndex.toUInt32 <<< 8) ||| value.toUInt32)
              return true) := by
            intro token
            refine (unchecked_syncPlanApply plan).bind fun _ => ?_
            refine (unchecked_of_effect (effect_writePcmRegister _ _ _)).bind fun _ => ?_
            exact (unchecked_commitEvent token _ _).bind fun _ => within_pure _
          exact atomic_event hsink (by simp) h₂ hgranted

theorem atomic_flushTerminated {progress : Progress} (hprogress : progress ≠ .authorised)
    (h : Kept s s') : Atomic s progress (flushTerminated s') := by
  refine Watched.bind ((watched_flushPendingRun_kept hprogress h).mono ?_)
  rintro progress' ⟨flushed, s₁⟩ ⟨rfl, h₁⟩
  cases flushed with
  | false => exact atomic_of_kept h₁
  | true => exact fun _ => h₁.guest

theorem atomic_writeByte (hsink : s.sink.isSome = true) (h : Kept s s') (cur : UInt32)
    (value : UInt8) : Atomic s .preparing (writeByte cur value s') := by
  refine Watched.bind ((watched_prepareByteTransaction_kept hsink h).mono ?_)
  rintro progress ⟨⟨check, starting⟩, s₁⟩ ⟨hiff, hkept⟩
  change Atomic s progress ((if check = .ok then _ else _ : Guest Bool) s₁)
  split
  · rename_i hc
    rw [hiff.mpr hc]
    exact atomic_unchecked ((unchecked_acceptByte cur starting value).bind fun _ =>
      within_pure _) s₁
  · rename_i hc
    rw [get_bind_run, onlyIf]
    split
    · refine Watched.bind ((atomic_flushTerminated (mt hiff.mp hc) (hkept hc)).mono ?_)
      exact fun _ _ hresult => hresult
    · exact atomic_of_kept (hkept hc)

theorem atomic_pcm86WriteData (hsink : s.sink.isSome = true) (value : UInt8) :
    Atomic s .preparing (pcm86WriteData value s) := by
  refine Watched.bind ((makes_currentCpuPosition s).watched
    (fun _ => watch_readsClock (by simp)) ?_)
  rintro ⟨cur, s₁⟩ rfl
  exact atomic_semanticCall (fun s₂ h₂ => atomic_writeByte hsink h₂ cur value) (.refl s₁)

theorem atomic_timerExpire (hsink : s.sink.isSome = true) {timer : UInt8}
    (hcsm : isCsm s.guest timer = true) (h : Kept s s') :
    Atomic s .preparing (timerExpire timer s') := by
  rw [timerExpire, get_bind_run]
  simp only [h.guest, hcsm, if_true]
  refine atomic_flush_then h fun flushed s₂ h₂ => ?_
  cases flushed with
  | false => exact atomic_of_kept h₂
  | true =>
      refine atomic_plan_then h₂ (makes_syncPlanCompute s₂) fun result => ?_
      cases result with
      | error status => exact atomic_failSyncPlan h₂ status
      | ok plan =>
          change Atomic s .preparing ((if s₂.guest.sequence = (-1 : UInt64) then fail _
            else _ : Guest Unit) s₂)
          split
          · exact fun _ => (h₂.failing _).guest
          · refine Watched.bind ((watched_transactionBegin_kept hsink h₂ .event (by simp)).mono ?_)
            rintro progress ⟨⟨check, token⟩, s₃⟩ ⟨hiff, hkept⟩
            change Atomic s progress ((if check = .ok then _ else _ : Guest Unit) s₃)
            split
            · rename_i hc
              rw [hiff.mpr hc]
              refine atomic_unchecked ?_ s₃
              refine (unchecked_syncPlanApply plan).bind fun _ => ?_
              refine (unchecked_of_effect (effect_timerEffects timer)).bind fun _ => ?_
              exact unchecked_commitEvent token _ _
            · rename_i hc
              exact atomic_of_kept (hkept hc)

theorem atomic_timerDispatch (hsink : s.sink.isSome = true) {timer : UInt8}
    (hcsm : isCsm s.guest timer = true) : Atomic s .preparing (timerDispatch timer s) := by
  obtain rfl : timer = traceTimerA := by
    simp only [isCsm, Bool.and_eq_true, decide_eq_true_eq] at hcsm
    exact hcsm.1
  exact atomic_semanticCall (fun s₁ h₁ => atomic_timerExpire hsink hcsm h₁) (.refl s)

theorem atomic_publishPlan (h : Kept s s') (plan : SyncPlan) :
    Atomic s .preparing (publishPlan plan s') := by
  change Atomic s .preparing ((publishProgress plan.frameTimestamp s').bind _)
  rcases publishProgress_cases s' plan.frameTimestamp with heq | heq
  · rw [heq]
    intro hrefused
    cases hrefused
  · rw [heq]
    intro reply
    obtain ⟨progress, hprogress, hok⟩ := watch_check s
      ⟨.publishProgressChecked plan.frameTimestamp, reply⟩ rfl
    refine ⟨progress, hprogress, ?_⟩
    cases reply with
    | ok => exact fun hrefused => by simp [hok.mpr rfl] at hrefused
    | retry => exact atomic_of_kept h
    | terminated => exact atomic_of_kept h
    | contract => exact fun _ => (h.failing _).guest

theorem atomic_progressCheckpoint : Atomic s .preparing (progressCheckpoint s) := by
  refine atomic_semanticCall (fun s₁ h₁ => atomic_flush_then h₁ fun flushed s₂ h₂ => ?_) (.refl s)
  cases flushed with
  | false => exact atomic_of_kept h₂
  | true =>
      refine atomic_plan_then h₂ (makes_syncPlanCompute s₂) fun result => ?_
      cases result with
      | error status =>
          refine Watched.bind ((atomic_failSyncPlan h₂ status).mono ?_)
          exact fun _ _ hresult => hresult
      | ok plan => exact atomic_publishPlan h₂ plan

end Operations

section Rejection

/-- The operations that the sink is asked about: not the write that the DAC refuses, and
of the timers only one that keys the CSM voices. -/
def Asks (s : Adapter) : Operation → Bool
  | .opnaWriteDataLow _ | .opnaWriteDataExtended _ | .opnaReset .. | .pcm86WriteData _
  | .progressCheckpoint => true
  | .pcm86Write registerIndex value => !isInvalidDac s.guest registerIndex value
  | .timerDispatch timer => isCsm s.guest timer
  | _ => false

theorem atomic_operation {s : Adapter} (hsink : s.sink.isSome = true)
    (hbound : s.guest.bound = true) {operation : Operation} (hasks : Asks s operation = true) :
    Atomic s .preparing (operation.code s) := by
  cases operation with
  | opnaWriteDataLow value =>
      exact atomic_semanticCall (fun s₁ h₁ => atomic_opnaWriteRegister hsink h₁ _ value) (.refl s)
  | opnaWriteDataExtended value =>
      change Atomic s .preparing ((if s.guest.extension = true then _ else pure () : Guest Unit) s)
      split
      · exact atomic_semanticCall (fun s₁ h₁ => atomic_opnaWriteRegister hsink h₁ _ value) (.refl s)
      · exact atomic_of_kept (.refl s)
  | opnaReset capabilities irq timerAEvent timerBEvent =>
      exact atomic_opnaReset hsink hbound _ _ _ _
  | pcm86Write registerIndex value =>
      have hvalid : (!isInvalidDac s.guest registerIndex value) = true := hasks
      rw [Bool.not_eq_true'] at hvalid
      exact atomic_discard (atomic_pcm86Write hsink hvalid)
  | pcm86WriteData value => exact atomic_discard (atomic_pcm86WriteData hsink value)
  | timerDispatch timer => exact atomic_timerDispatch hsink hasks
  | progressCheckpoint => exact atomic_discard atomic_progressCheckpoint
  | opnaWriteAddressLow | opnaWriteAddressExtended | opnaReadStatus | opnaReadData
  | opnaReadExtendedStatus | opnaReadExtendedData | opnaReadJoy | opnaSetExtension | pcm86Read
  | audioSync | flushDataRun => cases hasks

/-- An operation that the sink refuses leaves the guest as it was: besides the refused
check it has made no call but to read the clock and to commit the run that was open. -/
theorem rejection_atomic (s : Adapter) (hsink : s.sink.isSome = true)
    (hbound : s.guest.bound = true) (operation : Operation)
    (hasks : Asks s operation = true) (trace : List CallLabel) (s' : Adapter)
    (hrun : Run (Step anyReply) (operation.code s, ()) trace (.done ((), s'), ()))
    (hrefused : ∃ label ∈ trace, Refuses label) :
    s'.guest = s.guest ∧ ∀ label ∈ trace, Refuses label ∨ harmless s label.1 = true := by
  obtain ⟨progress, haccepted, hguest⟩ := (atomic_operation hsink hbound hasks).run hrun
  have htells := tells_of_watch haccepted
  obtain ⟨label, hmem, hrefuses⟩ := hrefused
  cases progress with
  | preparing => exact absurd hrefuses (htells label hmem).1
  | authorised => exact absurd hrefuses (htells label hmem)
  | refused => exact ⟨hguest rfl, htells⟩

/-- A sink that is stopping. -/
def terminate (_ : Unit) : (request : Call) → Reply request × Unit
  | .reserveChecked .. => ((.terminated, Vector.replicate 4 0), ())
  | .extendChecked token _ => ((.terminated, token), ())
  | .commitEvent token _ | .commitPcmByte token _ _ _ | .commitDataRun token _
  | .commitHorizon token _ => (token, ())
  | .publishProgressChecked _ => (.terminated, ())
  | .cpuPosition => (0, ())
  | .isWork _ => (false, ())
  | .schedule .. | .cancel _ | .irq .. | .extension _ => ((), ())

/-- An adapter with a run of two bytes. -/
def openAdapter : Adapter :=
  { boundAdapter with
    guest := { bound := true, sequence := 1 }
    runPending := true
    runCount := 2
    runTransactionActive := true }

theorem openAdapter_refused :
    (execute terminate 5 (Operation.code (.pcm86WriteData 7) openAdapter, ())).1.map
        (fun label => (label.1, answer label)) =
      [(.extendChecked openAdapter.runTransaction 1, some .terminated),
        (.commitDataRun openAdapter.runTransaction (pendingRun openAdapter), none),
        (.commitHorizon openAdapter.runTransaction 0, none)] ∧
      (execute terminate 5
        (Operation.code (.pcm86WriteData 7) openAdapter, ())).2.1.value?.isSome = true := by
  decide +kernel

theorem rejection_atomic_terminated : ∃ trace s',
    Run (Step anyReply) (Operation.code (.pcm86WriteData 7) openAdapter, ()) trace
        (.done ((), s'), ()) ∧
      trace.map (fun label => (label.1, answer label)) =
        [(.extendChecked openAdapter.runTransaction 1, some .terminated),
          (.commitDataRun openAdapter.runTransaction (pendingRun openAdapter), none),
          (.commitHorizon openAdapter.runTransaction 0, none)] ∧
      s'.guest = openAdapter.guest ∧
      ∀ label ∈ trace, Refuses label ∨ harmless openAdapter label.1 = true := by
  obtain ⟨hcalls, hdone⟩ := openAdapter_refused
  obtain ⟨⟨⟨⟩, s'⟩, hvalue⟩ := Option.isSome_iff_exists.mp hdone
  have hrun := execute_result anyReply terminate (fun _ _ => trivial) hvalue
  generalize execute terminate 5 (Operation.code (.pcm86WriteData 7) openAdapter, ()) = final
    at hrun hcalls
  obtain ⟨trace, rest, _⟩ := final
  have hrefused : ∃ label ∈ trace, Refuses label := by
    have hmem : (Call.extendChecked openAdapter.runTransaction 1, some Check.terminated) ∈
        trace.map fun label => (label.1, answer label) := by
      rw [hcalls]
      exact List.mem_cons_self
    obtain ⟨label, hlabel, heq⟩ := List.mem_map.mp hmem
    exact ⟨label, hlabel, .terminated, congrArg Prod.snd heq, by simp⟩
  exact ⟨trace, s', hrun, hcalls, rejection_atomic openAdapter rfl rfl (.pcm86WriteData 7) rfl trace
    s' hrun hrefused⟩

end Rejection

end EspNp2.GuestAdapter.RejectionAtomicity
