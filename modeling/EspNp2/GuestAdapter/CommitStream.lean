import EspNp2.GuestAdapter.AdapterFrame

/-!
The stream of calls that a bound sink sees. `observe` says what a well-formed stream is:
an authorised transaction commits one record and then its horizon before the next one is
authorised, the records are numbered one after the other, and the horizons never go back.
-/

namespace EspNp2.GuestAdapter.CommitStream

open EspNp2.GuestAdapter.AdapterFrame
open EspNp2.GuestAdapter.AdapterOperations
open EspNp2.GuestAdapter.AdapterState
open EspNp2.Library.CallMonitor
open EspNp2.Library.CallProgram
open EspNp2.Library.LabelledRun

section Stream

inductive Phase where
  | idle
  /-- An authorised transaction that has committed nothing. -/
  | reserved (kind : Kind)
  /-- An open run with the bytes it has, and whether one more is authorised. -/
  | running (timestamp sequence : UInt64) (count : Nat) (due : Bool)
  /-- A record that waits for its horizon. -/
  | committed (timestamp : UInt64)
deriving DecidableEq, Repr

/-- The number of the next record, the last horizon and the token in use. -/
structure Stream where
  phase : Phase := .idle
  sequence : UInt64
  horizon : UInt64
  token : Token := Vector.replicate 4 0
deriving DecidableEq

def initialBytes : Kind → Nat
  | .dataRun => 1
  | .event | .reset => 0

def Kind.allows : Kind → UInt32 → Bool
  | .event, opcode => opcode = traceRegister || opcode = traceCsm || opcode = tracePcmControl
  | .reset, opcode => opcode = traceResetBarrier
  | .dataRun, _ => false

def observeReserve (m : Stream) (kind : Kind) (bytes : Nat) (reply : Check × Token) :
    Option Stream :=
  if m.phase = .idle ∧ bytes = initialBytes kind then
    some (if reply.1 = .ok then { m with phase := .reserved kind, token := reply.2 } else m)
  else none

def observeExtend (m : Stream) (token : Token) (bytes : Nat) (reply : Check × Token) :
    Option Stream :=
  match m.phase with
  | .running timestamp sequence count false =>
      if token = m.token ∧ bytes = 1 then
        some { m with
          phase := .running timestamp sequence count (decide (reply.1 = .ok))
          token := reply.2 }
      else none
  | _ => none

def observeByte (m : Stream) (token : Token) (timestamp sequence : UInt64) (reply : Token) :
    Option Stream :=
  match m.phase with
  | .reserved .dataRun =>
      if token = m.token ∧ sequence = m.sequence ∧ m.horizon ≤ timestamp then
        some { m with phase := .running timestamp sequence 1 false, token := reply }
      else none
  | .running timestamp' sequence' count true =>
      if token = m.token ∧ sequence = sequence' ∧ timestamp = timestamp' then
        some { m with phase := .running timestamp sequence (count + 1) false, token := reply }
      else none
  | _ => none

def observeRun (m : Stream) (token : Token) (run : DataRun) (reply : Token) : Option Stream :=
  match m.phase with
  | .running timestamp sequence count false =>
      if token = m.token ∧ run.sequence = sequence ∧ sequence = m.sequence ∧
          run.frameTimestamp = timestamp ∧ run.count.toNat = count ∧ 1 ≤ count ∧
          count ≤ maxDataRun then
        some { m with phase := .committed timestamp, sequence := m.sequence + 1, token := reply }
      else none
  | _ => none

def observeEvent (m : Stream) (token : Token) (event : GuestEvent) (reply : Token) :
    Option Stream :=
  match m.phase with
  | .reserved kind =>
      if token = m.token ∧ Kind.allows kind event.opcode ∧ event.sequence = m.sequence ∧
          m.horizon ≤ event.frameTimestamp then
        some { m with
          phase := .committed event.frameTimestamp
          sequence := m.sequence + 1
          token := reply }
      else none
  | _ => none

def observeHorizon (m : Stream) (token : Token) (timestamp : UInt64) : Option Stream :=
  match m.phase with
  | .committed timestamp' =>
      if token = m.token ∧ timestamp = timestamp' then
        some { m with phase := .idle, horizon := timestamp }
      else none
  | _ => none

def observeProgress (m : Stream) (timestamp : UInt64) (reply : Check) : Option Stream :=
  if m.phase = .idle ∧ m.horizon ≤ timestamp then
    some (if reply = .ok then { m with horizon := timestamp } else m)
  else none

/-- The stream after a call; a call that does not fit is rejected. -/
def observe (m : Stream) : CallLabel → Option Stream
  | ⟨.reserveChecked kind bytes, reply⟩ => observeReserve m kind bytes reply
  | ⟨.extendChecked token bytes, reply⟩ => observeExtend m token bytes reply
  | ⟨.commitPcmByte token timestamp sequence _, reply⟩ =>
      observeByte m token timestamp sequence reply
  | ⟨.commitDataRun token run, reply⟩ => observeRun m token run reply
  | ⟨.commitEvent token event, reply⟩ => observeEvent m token event reply
  | ⟨.commitHorizon token timestamp, _⟩ => observeHorizon m token timestamp
  | ⟨.publishProgressChecked timestamp, reply⟩ => observeProgress m timestamp reply
  | ⟨.cpuPosition, _⟩ | ⟨.schedule .., _⟩ | ⟨.cancel _, _⟩ | ⟨.isWork _, _⟩ | ⟨.irq .., _⟩
  | ⟨.extension _, _⟩ => some m

theorem observe_hook {m : Stream} {label : CallLabel} (h : IsHook label) :
    observe m label = some m := by
  obtain ⟨request, reply⟩ := label
  cases request <;> first | rfl | exact h.elim

end Stream

section Invariant

/-- The stream and the adapter agree between two operations. -/
structure Linked (m : Stream) (s : Adapter) : Prop where
  sink : s.sink.isSome = true
  bound : s.guest.bound = true
  horizon : m.horizon ≤ s.guest.frameTimestamp
  idle : s.runPending = false → m.phase = .idle ∧ s.guest.sequence = m.sequence
  pending : s.runPending = true →
    m.phase = .running s.runTimestamp s.runSequence s.runCount false ∧
      m.token = s.runTransaction ∧ s.runTransactionActive = true ∧
      m.sequence = s.runSequence ∧ s.guest.sequence = m.sequence + 1 ∧ 1 ≤ s.runCount ∧
      s.runCount ≤ maxDataRun ∧ m.horizon ≤ s.runTimestamp ∧
      s.runTimestamp ≤ s.guest.frameTimestamp

/-- A transaction of `kind` is authorised and has committed nothing. -/
structure Authorised (kind : Kind) (token : Token) (m : Stream) (s : Adapter) : Prop where
  sink : s.sink.isSome = true
  bound : s.guest.bound = true
  horizon : m.horizon ≤ s.guest.frameTimestamp
  notPending : s.runPending = false
  phase : m.phase = .reserved kind
  token_eq : m.token = token
  sequence : s.guest.sequence = m.sequence

variable {m : Stream} {s s' : Adapter}

theorem Linked.advances (h : Linked m s) (hadvances : Advances s s') : Linked m s' := by
  obtain ⟨hcore, hframe⟩ := hadvances
  simp only [core, Core.mk.injEq] at hcore
  obtain ⟨hsink, hsequence, hbound, hpending, htimestamp, hrunSequence, -, hcount, htransaction,
    hactive⟩ := hcore
  refine ⟨hsink ▸ h.sink, hbound ▸ h.bound, UInt64.le_trans h.horizon hframe, ?_, ?_⟩
  · rw [hpending, hsequence]
    exact h.idle
  · rw [hpending, hsequence, htimestamp, hrunSequence, hcount, htransaction, hactive]
    intro hrun
    obtain ⟨hphase, htoken, hactive, hrunSequence, hnext, hlow, hhigh, hhorizon, hclock⟩ :=
      h.pending hrun
    exact ⟨hphase, htoken, hactive, hrunSequence, hnext, hlow, hhigh, hhorizon,
      UInt64.le_trans hclock hframe⟩

theorem Authorised.advances {kind : Kind} {token : Token} (h : Authorised kind token m s)
    (hadvances : Advances s s') : Authorised kind token m s' := by
  obtain ⟨hcore, hframe⟩ := hadvances
  simp only [core, Core.mk.injEq] at hcore
  obtain ⟨hsink, hsequence, hbound, hpending, -⟩ := hcore
  exact ⟨hsink ▸ h.sink, hbound ▸ h.bound, UInt64.le_trans h.horizon hframe,
    hpending ▸ h.notPending, h.phase, h.token_eq, hsequence ▸ h.sequence⟩

/-- An effect is invisible in the stream. -/
theorem watched_effect {α β : Type} {program : Guest α} {rest : α → Guest β}
    {post : Stream → β × Adapter → Prop}
    (h : Makes IsHook (fun result => Advances s result.2) (program s))
    (hrest : ∀ value s', Advances s s' → Watched observe post (rest value s') m) :
    Watched observe post ((program >>= rest) s) m :=
  Watched.bind (h.watched (fun _ => observe_hook) fun result hresult =>
    hrest result.1 result.2 hresult)

theorem Linked.failing (h : Linked m s) (reason : String) : Linked m (failing s reason) := by
  obtain ⟨hcore, hguest⟩ := failing_core s reason
  exact h.advances (advances_of_eq hcore (by rw [hguest]))

end Invariant

section Transactions

variable {m : Stream} {s : Adapter}

theorem toNat_runCount (h : s.runCount ≤ maxDataRun) : (pendingRun s).count.toNat = s.runCount := by
  rw [pendingRun, UInt32.toNat_ofNat']
  rw [maxDataRun] at h
  omega

theorem watched_flushPendingRun (h : Linked m s) :
    Watched observe (fun m' result => Linked m' result.2 ∧ result.2.guest = s.guest ∧
      (result.1 = true → result.2.runPending = false)) (flushPendingRun s) m := by
  rw [flushPendingRun_eq]
  split
  · exact ⟨h, rfl, fun _ => ‹_›⟩
  rename_i hpending
  rw [Bool.not_eq_false] at hpending
  obtain ⟨hphase, htoken, hactive, hsequence, hnext, hlow, hhigh, hhorizon, hclock⟩ :=
    h.pending hpending
  rw [if_neg (by simp [Option.isSome_iff_ne_none.mp h.sink]), if_neg (by omega)]
  split
  · obtain ⟨-, hguest⟩ := failing_core s "reserved PCM DATA_RUN trace capacity lost"
    exact ⟨h.failing _, hguest, by simp⟩
  rw [if_pos ⟨h.sink, hactive⟩]
  intro token
  refine ⟨{ m with phase := .committed s.runTimestamp, sequence := m.sequence + 1, token := token },
    ?_, fun token' => ⟨{ m with
      phase := .idle, sequence := m.sequence + 1, horizon := s.runTimestamp, token := token },
      by simp [observe, observeHorizon], ?_⟩⟩
  · simp only [observe, observeRun, hphase]
    rw [if_pos ⟨htoken.symm, rfl, hsequence.symm, rfl, toNat_runCount hhigh, hlow, hhigh⟩]
  · exact ⟨⟨h.sink, h.bound, hclock, fun _ => ⟨rfl, hnext⟩, by simp [closeRun]⟩, rfl, fun _ => rfl⟩

/-- A reservation while nothing is open. -/
theorem watched_transactionBegin (h : Linked m s) (hidle : s.runPending = false) (kind : Kind) :
    Watched observe (fun m' result => result.2 = s ∧
        if result.1.1 = .ok then Authorised kind result.1.2 m' s else m' = m)
      (transactionBegin kind (initialBytes kind) s) m := by
  obtain ⟨hphase, hsequence⟩ := h.idle hidle
  have hbytes : kind = .dataRun → initialBytes kind ≠ 0 := by
    rintro rfl
    simp [initialBytes]
  rcases transactionBegin_cases h.sink kind hbytes with ⟨token, heq⟩ | heq
  · rw [heq]
    exact ⟨rfl, rfl⟩
  · rw [heq]
    intro reply
    refine ⟨_, if_pos ⟨hphase, rfl⟩, rfl, ?_⟩
    by_cases hok : reply.1 = .ok
    · simp only [hok, if_true]
      exact ⟨h.sink, h.bound, h.horizon, hidle, rfl, rfl, hsequence⟩
    · simp only [hok, if_false]

theorem watched_prepareEventTransaction (h : Linked m s) {kind : Kind}
    (hkind : initialBytes kind = 0) :
    Watched observe (fun m' result => result.2.guest = s.guest ∧
        if result.1.1 = .ok then Authorised kind result.1.2 m' result.2 else Linked m' result.2)
      (prepareEventTransaction kind s) m := by
  refine Watched.bind ((watched_flushPendingRun h).mono ?_)
  rintro m₁ ⟨flushed, s₁⟩ ⟨hlinked, hguest, hidle⟩
  have hoverflow : ∀ (m' : Stream) (token : Token), Linked m' s₁ →
      (failing s₁ "event sequence overflow").guest = s.guest ∧
        Linked m' (failing s₁ "event sequence overflow") := by
    intro m' token hlinked
    exact ⟨(failing_core s₁ _).2.trans hguest, hlinked.failing _⟩
  cases flushed with
  | false =>
      change Watched observe _ ((onlyIf _ (fail "event sequence overflow") >>= fun _ => _) s₁) m₁
      rw [onlyIf]
      split
      · exact hoverflow m₁ s₁.runTransaction hlinked
      · exact ⟨hguest, hlinked⟩
  | true =>
      change Watched observe _ ((if _ then _ else transactionBegin kind 0 : Guest _) s₁) m₁
      split
      · exact hoverflow m₁ s₁.runTransaction hlinked
      · rw [← hkind]
        refine (watched_transactionBegin hlinked (hidle rfl) kind).mono ?_
        rintro m₂ ⟨⟨check, token⟩, s₂⟩ ⟨rfl, hcheck⟩
        refine ⟨hguest, ?_⟩
        by_cases hok : check = .ok
        · simpa only [hok, if_true] using hcheck
        · simp only [hok, if_false] at hcheck ⊢
          rw [hcheck]
          exact hlinked

theorem watched_commitEvent {kind : Kind} {token : Token} (h : Authorised kind token m s)
    {opcode payload : UInt32} (hopcode : Kind.allows kind opcode = true) :
    Watched observe (fun m' result => Linked m' result.2)
      (commitEvent token opcode payload s) m := by
  have hevent : commitEvent token opcode payload s =
      .call (.commitEvent token ⟨s.guest.frameTimestamp, s.guest.sequence, opcode, payload⟩)
        fun token => .call (.commitHorizon token s.guest.frameTimestamp) fun _ =>
          .done ((), { countEvent s with
            guest := { s.guest with sequence := s.guest.sequence + 1 } }) := by
    change (onlyIf _ _ >>= fun _ => _) (countEvent s) = _
    rw [onlyIf, if_pos h.sink]
    rfl
  rw [hevent]
  intro token'
  refine ⟨{ m with
    phase := .committed s.guest.frameTimestamp, sequence := m.sequence + 1, token := token' }, ?_,
    fun _ => ⟨{ m with
      phase := .idle, sequence := m.sequence + 1, horizon := s.guest.frameTimestamp,
      token := token' }, by simp [observe, observeHorizon], ?_⟩⟩
  · simp only [observe, observeEvent, h.phase]
    rw [if_pos ⟨h.token_eq.symm, hopcode, h.sequence, h.horizon⟩]
  · refine ⟨h.sink, h.bound, UInt64.le_refl _, fun _ => ⟨rfl, ?_⟩, fun hpending => ?_⟩
    · change s.guest.sequence + 1 = m.sequence + 1
      rw [h.sequence]
    · exact absurd (h.notPending.symm.trans hpending) (by simp)

/-- An authorised data byte: the first of a run, or one more. -/
inductive ByteDue (m : Stream) (s : Adapter) : Bool → Prop
  | first (h : Authorised .dataRun s.runTransaction m s) (hactive : s.runTransactionActive = true) :
      ByteDue m s true
  | next (h : Linked { m with phase := .running s.runTimestamp s.runSequence s.runCount false } s)
      (hpending : s.runPending = true)
      (hphase : m.phase = .running s.runTimestamp s.runSequence s.runCount true)
      (hroom : s.runCount < maxDataRun) : ByteDue m s false

theorem ByteDue.advances {starting : Bool} {s' : Adapter} (h : ByteDue m s starting)
    (hadvances : Advances s s') : ByteDue m s' starting := by
  have hcore := hadvances.1
  simp only [core, Core.mk.injEq] at hcore
  obtain ⟨-, -, -, hpending', htimestamp, hsequence, -, hcount, htransaction, hactive'⟩ := hcore
  cases h with
  | first h hactive =>
      refine .first ?_ (hactive'.trans hactive)
      rw [htransaction]
      exact h.advances hadvances
  | next h hpending hphase hroom =>
      refine .next ?_ (hpending'.trans hpending) ?_ (hcount ▸ hroom)
      · rw [htimestamp, hsequence, hcount]
        exact h.advances hadvances
      · rw [htimestamp, hsequence, hcount]
        exact hphase

theorem watched_beginRun (h : Linked m s) :
    Watched observe (fun m' result => result.2.guest = s.guest ∧
        if result.1.1 = .ok then ByteDue m' result.2 result.1.2 else Linked m' result.2)
      (beginRun s) m := by
  refine Watched.bind ((watched_flushPendingRun h).mono ?_)
  rintro m₁ ⟨flushed, s₁⟩ ⟨hlinked, hguest, hidle⟩
  cases flushed with
  | false => exact ⟨hguest, hlinked⟩
  | true =>
      change Watched observe _
        ((if s₁.guest.sequence = (-1 : UInt64) then _ else _ : Guest _) s₁) m₁
      split
      · exact ⟨(failing_core s₁ _).2.trans hguest, hlinked.failing _⟩
      · refine Watched.bind ((watched_transactionBegin hlinked (hidle rfl) .dataRun).mono ?_)
        rintro m₂ ⟨⟨check, token⟩, s₂⟩ ⟨rfl, hcheck⟩
        by_cases hok : check = .ok
        · subst hok
          simp only [if_true] at hcheck
          exact ⟨hguest, .first ⟨hcheck.sink, hcheck.bound, hcheck.horizon, hcheck.notPending,
            hcheck.phase, hcheck.token_eq, hcheck.sequence⟩ hcheck.sink⟩
        · simp only [hok, if_false] at hcheck
          subst hcheck
          simp only [hok, ne_eq, not_false_eq_true, if_true]
          refine ⟨hguest, ?_⟩
          simp only [hok, if_false]
          exact hlinked

theorem watched_transactionExtend (h : Linked m s) (hfailed : ¬ s.failed = true)
    (hpending : s.runPending = true) (hroom : s.runCount < maxDataRun) :
    Watched observe (fun m' result => result.2.guest = s.guest ∧
        if result.1 = .ok then ByteDue m' result.2 false else Linked m' result.2)
      (transactionExtend 1 s) m := by
  obtain ⟨hphase, htoken, hactive, hsequence, hnext, hlow, hhigh, hhorizon, hclock⟩ :=
    h.pending hpending
  rw [transactionExtend, get_bind_run]
  simp only [ite_run]
  rw [if_neg (by simp [hfailed])]
  split
  · have hrefuse : refuseTrace "PCM byte trace capacity" s =
        .done ((.retry, s.runTransaction), s) := by
      rw [refuseTrace, get_bind_run, onlyIf, if_neg (by simp [Option.isSome_iff_ne_none.mp h.sink])]
      rfl
    change Watched observe _ ((refuseTrace _ s).bind _) m
    rw [hrefuse]
    exact ⟨rfl, h⟩
  · rw [if_pos h.sink]
    intro reply
    refine ⟨{ m with
      phase := .running s.runTimestamp s.runSequence s.runCount (decide (reply.1 = .ok))
      token := reply.2 }, ?_, rfl, ?_⟩
    · simp only [observe, observeExtend, hphase]
      rw [if_pos ⟨htoken.symm, trivial⟩]
    · have hlinked : Linked { m with
          phase := .running s.runTimestamp s.runSequence s.runCount false, token := reply.2 }
          { s with runTransaction := reply.2 } :=
        ⟨h.sink, h.bound, h.horizon, fun hidle => absurd (hpending.symm.trans hidle) (by simp),
          fun _ => ⟨rfl, rfl, hactive, hsequence, hnext, hlow, hhigh, hhorizon, hclock⟩⟩
      by_cases hok : reply.1 = .ok
      · simp only [hok, decide_true, if_true]
        exact .next hlinked hpending rfl hroom
      · simp only [hok, decide_false, if_false]
        exact hlinked

theorem watched_prepareByteTransaction (h : Linked m s) :
    Watched observe (fun m' result => result.2.guest = s.guest ∧
        if result.1.1 = .ok then ByteDue m' result.2 result.1.2 else Linked m' result.2)
      (prepareByteTransaction s) m := by
  rw [prepareByteTransaction, get_bind_run]
  simp only [ite_run]
  split
  · exact ⟨rfl, h⟩
  rename_i hfailed
  split
  · exact watched_beginRun h
  · rename_i hextends
    simp only [not_or, Bool.not_eq_false, not_not, ge_iff_le, Nat.not_le] at hextends
    obtain ⟨hpending, -, hroom⟩ := hextends
    refine Watched.bind ((watched_transactionExtend h hfailed hpending hroom).mono ?_)
    rintro m' ⟨check, s'⟩ hresult
    exact hresult

theorem commitPcmByte_eq (starting : Bool) (value : UInt8) (hsink : s.sink.isSome = true)
    (hactive : s.runTransactionActive = true) : commitPcmByte starting value s =
      let started := countPcmByte (if starting then startRun s else s)
      .call (.commitPcmByte s.runTransaction started.runTimestamp started.runSequence value)
        fun token => .done ((), { started with
          runTransaction := token, runCount := started.runCount + 1 }) := by
  cases starting with
  | true =>
      change (onlyIf (s.sink.isSome = true ∧ s.runTransactionActive = true) _ >>= fun _ => _)
        (countPcmByte (startRun s)) = _
      rw [onlyIf, if_pos ⟨hsink, hactive⟩]
      rfl
  | false =>
      change (onlyIf (s.sink.isSome = true ∧ s.runTransactionActive = true) _ >>= fun _ => _)
        (countPcmByte s) = _
      rw [onlyIf, if_pos ⟨hsink, hactive⟩]
      rfl

theorem watched_commitPcmByte {starting : Bool} (h : ByteDue m s starting) (value : UInt8) :
    Watched observe (fun m' result => Linked m' result.2)
      (commitPcmByte starting value s) m := by
  cases h with
  | first h hactive =>
      rw [commitPcmByte_eq true value h.sink hactive]
      intro token
      refine ⟨{ m with
        phase := .running s.guest.frameTimestamp s.guest.sequence 1 false, token := token }, ?_, ?_⟩
      · simp only [observe, observeByte, h.phase]
        exact if_pos ⟨h.token_eq.symm, h.sequence, h.horizon⟩
      · refine ⟨h.sink, h.bound, h.horizon, fun hidle => (by cases hidle), fun _ => ?_⟩
        refine ⟨rfl, rfl, hactive, h.sequence.symm, ?_,
          Nat.le_refl _, by simp [maxDataRun, countPcmByte, startRun], h.horizon, UInt64.le_refl _⟩
        change s.guest.sequence + 1 = m.sequence + 1
        rw [h.sequence]
  | next h hpending hphase hroom =>
      obtain ⟨-, htoken, hactive, hsequence, hnext, hlow, hhigh, hhorizon, hclock⟩ :=
        h.pending hpending
      rw [commitPcmByte_eq false value h.sink hactive]
      intro token
      refine ⟨{ m with
        phase := .running s.runTimestamp s.runSequence (s.runCount + 1) false, token := token },
        ?_, ?_⟩
      · simp only [observe, observeByte, hphase]
        exact if_pos ⟨htoken.symm, rfl, rfl⟩
      · refine ⟨h.sink, h.bound, h.horizon,
          fun hidle => absurd (hpending.symm.trans hidle) (by simp), fun _ => ?_⟩
        exact ⟨rfl, rfl, hactive, hsequence, hnext, Nat.le_add_left _ _, hroom, hhorizon, hclock⟩

end Transactions

section Operations

variable {m : Stream} {s : Adapter}

/-- The stream stays well formed and linked to the adapter. -/
abbrev Keeps {α : Type} (m : Stream) (p : Program Call Reply (α × Adapter)) : Prop :=
  Watched observe (fun m' result => Linked m' result.2) p m

theorem semanticEnter_cases (s : Adapter) : ∃ entered s', semanticEnter s = .done (entered, s') ∧
    core s' = core s ∧ s'.guest = s.guest := by
  rw [semanticEnter, get_bind_run]
  simp only [ite_run]
  split
  · exact ⟨_, _, rfl, rfl, rfl⟩
  split
  · exact ⟨_, _, rfl, rfl, rfl⟩
  split
  · exact ⟨_, _, rfl, failing_core s _⟩
  split
  · exact ⟨_, _, rfl, failing_core s _⟩
  · exact ⟨_, _, rfl, rfl, rfl⟩

theorem keeps_effect {α : Type} {program : Guest α} (heffect : Effect program) (h : Linked m s) :
    Keeps m (program s) :=
  (heffect s).watched (fun _ => observe_hook) fun _ hresult => h.advances hresult

theorem keeps_semanticCall {α : Type} {refused : α} {body : Guest α} (h : Linked m s)
    (hbody : ∀ s', s'.guest = s.guest → Linked m s' → Keeps m (body s')) :
    Keeps m (semanticCall refused body s) := by
  obtain ⟨entered, s', hentered, hcore, hguest⟩ := semanticEnter_cases s
  have hlinked : Linked m s' := h.advances (advances_of_eq hcore (by rw [hguest]))
  change Keeps m ((semanticEnter s).bind _)
  rw [hentered]
  cases entered with
  | false => exact hlinked
  | true =>
      change Keeps m ((do let value ← body; semanticLeave; return value : Guest α) s')
      refine Watched.bind ((hbody s' hguest hlinked).mono ?_)
      rintro m' ⟨value, s''⟩ hlinked'
      exact hlinked'.advances (advances_of_eq rfl rfl)

theorem keeps_flush_then {β : Type} {rest : Bool → Guest β} (h : Linked m s)
    (hrest : ∀ m' flushed s', Linked m' s' → s'.guest = s.guest →
      (flushed = true → s'.runPending = false) → Keeps m' (rest flushed s')) :
    Keeps m ((flushPendingRun >>= rest) s) := by
  refine Watched.bind ((watched_flushPendingRun h).mono ?_)
  rintro m' ⟨flushed, s'⟩ ⟨hlinked, hguest, hidle⟩
  exact hrest m' flushed s' hlinked hguest hidle

theorem keeps_flush (h : Linked m s) : Keeps m (flushPendingRun s) :=
  (watched_flushPendingRun h).mono fun _ _ hresult => hresult.1

/-- An authorised event with the effects that come before its commit. -/
theorem keeps_event {kind : Kind} {token : Token} {effects : Guest Unit} {opcode payload : UInt32}
    (h : Authorised kind token m s) (heffects : Effect effects)
    (hopcode : Kind.allows kind opcode = true) :
    Keeps m ((do effects; commitEvent token opcode payload) s) :=
  watched_effect (heffects s) fun _ _ hadvances =>
    watched_commitEvent (h.advances hadvances) hopcode

theorem keeps_prepareEvent {β : Type} {kind : Kind} {rest : Check × Token → Guest β}
    (h : Linked m s) (hkind : initialBytes kind = 0)
    (hok : ∀ m' token s', s'.guest = s.guest → Authorised kind token m' s' →
      Keeps m' (rest (.ok, token) s'))
    (hrefused : ∀ m' check token s', check ≠ .ok → Linked m' s' →
      Keeps m' (rest (check, token) s')) :
    Keeps m ((prepareEventTransaction kind >>= rest) s) := by
  refine Watched.bind ((watched_prepareEventTransaction h hkind).mono ?_)
  rintro m' ⟨⟨check, token⟩, s'⟩ ⟨hguest, hcheck⟩
  by_cases hc : check = .ok
  · subst hc
    exact hok m' token s' hguest hcheck
  · simp only [hc, if_false] at hcheck
    exact hrefused m' check token s' hc hcheck

theorem keeps_opnaWriteRegister (h : Linked m s) (address : UInt16) (value : UInt8) :
    Keeps m (opnaWriteRegister address value s) := by
  refine keeps_prepareEvent h rfl ?_ ?_
  · intro m' token s' _ hauthorised
    exact keeps_event hauthorised (effect_writeRegister address value) rfl
  · intro m' check token s' hc hlinked
    simp only [hc, if_false]
    exact hlinked

/-- The effects of an authorised reset. -/
theorem watched_resetEffects {token : Token} (h : Authorised .reset token m s) {old : GuestState}
    (hold : s.guest = old) (capabilities : UInt8) (irq : UInt32) (timerAEvent timerBEvent : UInt8) :
    Watched observe (fun m' result => Authorised .reset token m' result.2)
      (resetEffects old capabilities irq timerAEvent timerBEvent s) m := by
  subst hold
  refine watched_effect (effect_cancelEvent _ s) fun _ s₁ h₁ => ?_
  refine watched_effect (effect_cancelEvent _ s₁) fun _ s₂ h₂ => ?_
  refine watched_effect (effect_cancelEvent _ s₂) fun _ s₃ h₃ => ?_
  have hcancelled : Authorised .reset token m s₃ :=
    h.advances (IsTrans.trans _ _ _ h₁ (IsTrans.trans _ _ _ h₂ h₃))
  exact ⟨hcancelled.sink, h.bound, h.horizon, rfl, h.phase, h.token_eq, h.sequence⟩

theorem keeps_opnaReset (h : Linked m s) (capabilities : UInt8) (irq : UInt32)
    (timerAEvent timerBEvent : UInt8) :
    Keeps m (opnaReset capabilities irq timerAEvent timerBEvent s) := by
  rw [opnaReset, get_bind_run]
  simp only [h.bound, if_true]
  refine keeps_semanticCall h fun s₁ hguest₁ hlinked => keeps_prepareEvent hlinked rfl ?_ ?_
  · intro m' token s₂ hguest₂ hauthorised
    refine Watched.bind ((watched_resetEffects hauthorised (hguest₂.trans hguest₁) _ _ _ _).mono ?_)
    intro m'' result hreset
    exact watched_commitEvent hreset rfl
  · intro m' check token s₂ hc hlinked'
    simp only [hc, if_false]
    exact hlinked'

theorem effect_failSyncPlan (status : SyncError) : Effect (failSyncPlan status) := by
  cases status <;> exact effect_fail _

theorem keeps_pcm86Write (h : Linked m s) (registerIndex value : UInt8) :
    Keeps m (pcm86Write registerIndex value s) := by
  refine keeps_semanticCall h fun s₁ hguest₁ hlinked => ?_
  rw [get_bind_run]
  simp only [ite_run]
  split
  · refine watched_effect (effect_audioSync s₁) fun _ s₂ hadvances => ?_
    exact hlinked.advances hadvances
  refine keeps_flush_then hlinked fun m₂ flushed s₂ hlinked₂ hguest₂ hidle => ?_
  cases flushed with
  | false => exact hlinked₂
  | true =>
      refine Watched.bind ((makes_pcmSyncPlan registerIndex s₂).watched
        (fun _ h => observe_hook h.isHook) ?_)
      rintro ⟨result, s₃⟩ ⟨hahead, rfl⟩
      cases result with
      | error status =>
          refine watched_effect (effect_failSyncPlan status s₃) fun _ s₄ hadvances => ?_
          exact hlinked₂.advances hadvances
      | ok plan =>
          refine keeps_prepareEvent hlinked₂ rfl ?_ ?_
          · intro m₄ token s₄ hguest₄ hauthorised
            have hplan : s₄.guest.frameTimestamp ≤ plan.frameTimestamp := by
              rw [hguest₄]
              exact hahead
            refine watched_effect (advances_syncPlanApply hplan) fun _ s₅ h₅ => ?_
            refine watched_effect (effect_writePcmRegister registerIndex value plan.cpuPosition s₅)
              fun _ s₆ h₆ => ?_
            refine Watched.bind ((watched_commitEvent
              ((hauthorised.advances h₅).advances h₆) rfl).mono ?_)
            exact fun _ _ hresult => hresult
          · intro m₄ check token s₄ hc hlinked₄
            simp only [hc, if_false]
            exact hlinked₄

theorem keeps_acceptByte {starting : Bool} (h : ByteDue m s starting) (cur : UInt32)
    (value : UInt8) : Keeps m (acceptByte cur starting value s) := by
  rw [acceptByte, get_bind_run]
  refine watched_effect (effect_modifyGuest (fun g => ⟨rfl, rfl, rfl⟩) s) fun _ s' hadvances => ?_
  exact watched_commitPcmByte (h.advances hadvances) value

theorem keeps_flushTerminated (h : Linked m s) : Keeps m (flushTerminated s) := by
  refine keeps_flush_then h fun m' flushed s' hlinked _ _ => ?_
  cases flushed with
  | false => exact hlinked
  | true => exact hlinked.advances (advances_of_eq rfl rfl)

theorem keeps_pcm86WriteData (h : Linked m s) (value : UInt8) :
    Keeps m (pcm86WriteData value s) := by
  refine watched_effect (effect_currentCpuPosition s) fun cur s₁ h₁ => ?_
  refine keeps_semanticCall (h.advances h₁) fun s₂ hguest₂ hlinked => ?_
  refine Watched.bind ((watched_prepareByteTransaction hlinked).mono ?_)
  rintro m₃ ⟨⟨check, starting⟩, s₃⟩ ⟨hguest₃, hcheck⟩
  by_cases hc : check = .ok
  · subst hc
    refine Watched.bind ((keeps_acceptByte hcheck cur value).mono ?_)
    exact fun _ _ hresult => hresult
  · simp only [hc, if_false] at hcheck ⊢
    rw [get_bind_run, onlyIf]
    split
    · refine Watched.bind ((keeps_flushTerminated hcheck).mono ?_)
      exact fun _ _ hresult => hresult
    · exact hcheck

theorem keeps_timerExpire (h : Linked m s) (timer : UInt8) : Keeps m (timerExpire timer s) := by
  rw [timerExpire, get_bind_run]
  simp only [ite_run]
  split
  · refine keeps_flush_then h fun m₂ flushed s₂ hlinked₂ hguest₂ hidle => ?_
    cases flushed with
    | false => exact hlinked₂
    | true =>
        refine Watched.bind ((makes_syncPlanCompute s₂).watched
          (fun _ h => observe_hook h.isHook) ?_)
        rintro ⟨result, s₃⟩ ⟨hahead, rfl⟩
        cases result with
        | error status => exact keeps_effect (effect_failSyncPlan status) hlinked₂
        | ok plan =>
            change Keeps m₂ ((if _ then fail _ else _ : Guest Unit) s₃)
            split
            · exact keeps_effect (effect_fail _) hlinked₂
            · refine Watched.bind ((watched_transactionBegin hlinked₂ (hidle rfl) .event).mono ?_)
              rintro m₄ ⟨⟨check, token⟩, s₄⟩ ⟨rfl, hcheck⟩
              by_cases hc : check = .ok
              · subst hc
                simp only [if_true] at hcheck
                refine watched_effect (advances_syncPlanApply hahead) fun _ s₅ h₅ => ?_
                exact keeps_event (hcheck.advances h₅) (effect_timerEffects timer) rfl
              · simp only [hc, if_false] at hcheck ⊢
                rw [hcheck]
                exact hlinked₂
  · refine watched_effect (effect_audioSync s) fun _ s₂ h₂ => ?_
    change Keeps m ((if s₂.failed = false then timerEffects timer else pure () : Guest Unit) s₂)
    split
    · exact keeps_effect (effect_timerEffects timer) (h.advances h₂)
    · exact h.advances h₂

theorem keeps_publishPlan (h : Linked m s) (hidle : s.runPending = false) {plan : SyncPlan}
    (hahead : s.guest.frameTimestamp ≤ plan.frameTimestamp) : Keeps m (publishPlan plan s) := by
  have happlied : ∀ m', m'.horizon ≤ plan.frameTimestamp → m'.phase = m.phase →
      m'.sequence = m.sequence →
        Keeps m' ((do syncPlanApply plan; return .ok : Guest Check) s) := by
    intro m' hhorizon hphase hsequence
    refine ⟨h.sink, h.bound, hhorizon, fun _ => ?_, fun hpending => ?_⟩
    · rw [hphase, hsequence]
      exact h.idle hidle
    · exact absurd (hidle.symm.trans hpending) (by simp)
  have hbefore : m.horizon ≤ plan.frameTimestamp := UInt64.le_trans h.horizon hahead
  change Keeps m ((publishProgress plan.frameTimestamp s).bind _)
  rcases publishProgress_cases s plan.frameTimestamp with heq | heq
  · rw [heq]
    exact happlied m hbefore rfl rfl
  · rw [heq]
    intro reply
    refine ⟨_, if_pos ⟨(h.idle hidle).1, hbefore⟩, ?_⟩
    cases reply with
    | ok => exact happlied { m with horizon := plan.frameTimestamp } (UInt64.le_refl _) rfl rfl
    | retry => exact h
    | terminated => exact h
    | contract => exact h.failing _

theorem keeps_progressCheckpoint (h : Linked m s) : Keeps m (progressCheckpoint s) := by
  refine keeps_semanticCall h fun s₁ hguest₁ hlinked => ?_
  refine keeps_flush_then hlinked fun m₂ flushed s₂ hlinked₂ hguest₂ hidle => ?_
  cases flushed with
  | false => exact hlinked₂
  | true =>
      refine Watched.bind ((makes_syncPlanCompute s₂).watched (fun _ h => observe_hook h.isHook) ?_)
      rintro ⟨result, s₃⟩ ⟨hahead, rfl⟩
      cases result with
      | error status =>
          refine watched_effect (effect_failSyncPlan status s₃) fun _ s₄ hadvances => ?_
          exact hlinked₂.advances hadvances
      | ok plan => exact keeps_publishPlan hlinked₂ (hidle rfl) hahead

theorem keeps_timerDispatch (h : Linked m s) (timer : UInt8) :
    Keeps m (timerDispatch timer s) := by
  refine keeps_semanticCall h fun s₁ _ hlinked => ?_
  simp only [ite_run]
  split
  · refine watched_effect (effect_audioSync s₁) fun _ s₂ h₂ => ?_
    change Keeps m ((if s₂.failed = false then pcmExpire else pure () : Guest Unit) s₂)
    split
    · exact keeps_effect effect_pcmExpire (hlinked.advances h₂)
    · exact hlinked.advances h₂
  split
  · exact keeps_timerExpire hlinked timer
  · exact hlinked

theorem effect_opnaWriteAddressExtended (value : UInt8) :
    Effect (opnaWriteAddressExtended value) := by
  refine effect_modifyGuest fun g => ?_
  split <;> exact ⟨rfl, rfl, rfl⟩

theorem keeps_pcm86Read (h : Linked m s) (registerIndex : UInt8) :
    Keeps m (pcm86Read registerIndex s) := by
  refine keeps_flush_then h fun m' flushed s' hlinked _ _ => ?_
  refine watched_effect (effect_audioSync s') fun _ s₁ h₁ => ?_
  have hlinked₁ := hlinked.advances h₁
  refine keeps_effect ?_ hlinked₁
  refine within_ite (fun _ => within_get.bind fun _ => within_pure _) fun _ => ?_
  refine within_ite (fun _ => ?_) fun _ => ?_
  · exact effect_currentCpuPosition.bind fun _ => within_get.bind fun _ => within_pure _
  refine within_ite (fun _ => ?_) fun _ => ?_
  · exact within_get.bind fun _ => effect_pcmgenIntrq.bind fun _ => within_pure _
  · exact within_ite (fun _ => within_get.bind fun _ => within_pure _) fun _ => within_pure _

theorem keeps_discard {α : Type} {program : Guest α} (h : Keeps m (program s)) :
    Keeps m (discard program s) :=
  Watched.bind (h.mono fun _ _ hresult => hresult)

theorem keeps_read {read : Adapter → UInt8} (h : Linked m s) :
    Keeps m ((do let _ ← flushPendingRun; return read (← get) : Guest UInt8) s) :=
  keeps_flush_then h fun _ _ _ hlinked _ _ => hlinked

/-- Every operation keeps the stream well formed. -/
theorem keeps_operation (operation : Operation) (h : Linked m s) : Keeps m (operation.code s) := by
  cases operation with
  | opnaWriteAddressLow value => exact keeps_effect (effect_modifyGuest fun g => ⟨rfl, rfl, rfl⟩) h
  | opnaWriteDataLow value =>
      exact keeps_semanticCall h fun s' _ hlinked => keeps_opnaWriteRegister hlinked _ value
  | opnaWriteAddressExtended value =>
      exact keeps_effect (effect_opnaWriteAddressExtended value) h
  | opnaWriteDataExtended value =>
      change Keeps m ((if s.guest.extension = true then _ else pure () : Guest Unit) s)
      split
      · exact keeps_semanticCall h fun s' _ hlinked => keeps_opnaWriteRegister hlinked _ value
      · exact h
  | opnaReadStatus => exact keeps_discard (keeps_read h)
  | opnaReadData => exact keeps_discard (keeps_read h)
  | opnaReadExtendedStatus => exact keeps_discard (keeps_read h)
  | opnaReadExtendedData => exact keeps_discard (keeps_read h)
  | opnaReadJoy => exact keeps_discard (keeps_read h)
  | opnaSetExtension enabled => exact keeps_effect (effect_opnaSetExtension enabled) h
  | opnaReset capabilities irq timerAEvent timerBEvent => exact keeps_opnaReset h _ _ _ _
  | pcm86Write registerIndex value => exact keeps_discard (keeps_pcm86Write h registerIndex value)
  | pcm86WriteData value => exact keeps_discard (keeps_pcm86WriteData h value)
  | pcm86Read registerIndex => exact keeps_discard (keeps_pcm86Read h registerIndex)
  | timerDispatch timer => exact keeps_timerDispatch h timer
  | progressCheckpoint => exact keeps_discard (keeps_progressCheckpoint h)
  | audioSync => exact keeps_effect effect_audioSync h
  | flushDataRun => exact keeps_discard (keeps_flush h)

/-- The operations of a guest, one after the other. -/
def runOperations : List Operation → Guest Unit
  | [] => pure ()
  | operation :: rest => do
      operation.code
      runOperations rest

theorem keeps_runOperations (operations : List Operation) (h : Linked m s) :
    Keeps m (runOperations operations s) := by
  induction operations generalizing m s with
  | nil => exact h
  | cons operation rest ih =>
      refine Watched.bind ((keeps_operation operation h).mono ?_)
      rintro m' ⟨_, s'⟩ hlinked
      exact ih hlinked

end Operations

section WholeStream

/-- The numbers of the records that are committed. -/
def recordSequences (trace : List CallLabel) : List UInt64 :=
  trace.filterMap fun
    | ⟨.commitEvent _ event, _⟩ => some event.sequence
    | ⟨.commitDataRun _ run, _⟩ => some run.sequence
    | _ => none

/-- The horizons that are committed or published. -/
def horizons (trace : List CallLabel) : List UInt64 :=
  trace.filterMap fun
    | ⟨.commitHorizon _ timestamp, _⟩ => some timestamp
    | ⟨.publishProgressChecked timestamp, .ok⟩ => some timestamp
    | _ => none

variable {start m m' : Stream} {trace : List CallLabel} {label : CallLabel}

/-- The horizon of an open record lies ahead. -/
def Ordered (m : Stream) : Prop :=
  match m.phase with
  | .running timestamp _ _ _ | .committed timestamp => m.horizon ≤ timestamp
  | .idle | .reserved _ => True

/-- What one call adds to the records and the horizons. -/
structure Adds (m : Stream) (label : CallLabel) (m' : Stream) : Prop where
  ordered : Ordered m'
  records : recordSequences [label] = [] ∧ m'.sequence = m.sequence ∨
    recordSequences [label] = [m.sequence] ∧ m'.sequence = m.sequence + 1
  horizon : horizons [label] = [] ∧ m'.horizon = m.horizon ∨
    horizons [label] = [m'.horizon] ∧ m.horizon ≤ m'.horizon

theorem adds_observe (hm : Ordered m) (h : observe m label = some m') : Adds m label m' := by
  obtain ⟨request, reply⟩ := label
  cases request with
  | reserveChecked kind bytes =>
      simp only [observe, observeReserve] at h
      split at h
      · obtain rfl := Option.some.inj h
        split
        · exact ⟨trivial, .inl ⟨rfl, rfl⟩, .inl ⟨rfl, rfl⟩⟩
        · exact ⟨hm, .inl ⟨rfl, rfl⟩, .inl ⟨rfl, rfl⟩⟩
      · cases h
  | extendChecked token bytes =>
      simp only [observe, observeExtend] at h
      split at h
      · split at h
        · rename_i hphase _
          obtain rfl := Option.some.inj h
          rw [Ordered, hphase] at hm
          exact ⟨hm, .inl ⟨rfl, rfl⟩, .inl ⟨rfl, rfl⟩⟩
        · cases h
      · cases h
  | commitPcmByte token timestamp sequence value =>
      simp only [observe, observeByte] at h
      split at h
      · split at h
        · rename_i hcheck
          obtain rfl := Option.some.inj h
          exact ⟨hcheck.2.2, .inl ⟨rfl, rfl⟩, .inl ⟨rfl, rfl⟩⟩
        · cases h
      · split at h
        · rename_i hphase hcheck
          obtain rfl := Option.some.inj h
          rw [Ordered, hphase] at hm
          refine ⟨?_, .inl ⟨rfl, rfl⟩, .inl ⟨rfl, rfl⟩⟩
          change m.horizon ≤ timestamp
          rw [hcheck.2.2]
          exact hm
        · cases h
      · cases h
  | commitDataRun token run =>
      simp only [observe, observeRun] at h
      split at h
      · split at h
        · rename_i hphase hcheck
          obtain rfl := Option.some.inj h
          rw [Ordered, hphase] at hm
          refine ⟨hm, .inr ⟨?_, rfl⟩, .inl ⟨rfl, rfl⟩⟩
          change [run.sequence] = [m.sequence]
          rw [hcheck.2.1, hcheck.2.2.1]
        · cases h
      · cases h
  | commitEvent token event =>
      simp only [observe, observeEvent] at h
      split at h
      · split at h
        · rename_i hcheck
          obtain rfl := Option.some.inj h
          refine ⟨hcheck.2.2.2, .inr ⟨?_, rfl⟩, .inl ⟨rfl, rfl⟩⟩
          change [event.sequence] = [m.sequence]
          rw [hcheck.2.2.1]
        · cases h
      · cases h
  | commitHorizon token timestamp =>
      simp only [observe, observeHorizon] at h
      split at h
      · split at h
        · rename_i hphase hcheck
          obtain rfl := Option.some.inj h
          rw [Ordered, hphase] at hm
          refine ⟨trivial, .inl ⟨rfl, rfl⟩, .inr ⟨rfl, ?_⟩⟩
          change m.horizon ≤ timestamp
          rw [hcheck.2]
          exact hm
        · cases h
      · cases h
  | publishProgressChecked timestamp =>
      simp only [observe, observeProgress] at h
      split at h
      · rename_i hcheck
        obtain rfl := Option.some.inj h
        cases reply with
        | ok =>
            refine ⟨?_, .inl ⟨rfl, rfl⟩, .inr ⟨rfl, hcheck.2⟩⟩
            simp only [Ordered, hcheck.1, if_true]
        | retry => exact ⟨hm, .inl ⟨rfl, rfl⟩, .inl ⟨rfl, rfl⟩⟩
        | terminated => exact ⟨hm, .inl ⟨rfl, rfl⟩, .inl ⟨rfl, rfl⟩⟩
        | contract => exact ⟨hm, .inl ⟨rfl, rfl⟩, .inl ⟨rfl, rfl⟩⟩
      · cases h
  | cpuPosition | schedule | cancel | isWork | irq | extension =>
      obtain rfl := Option.some.inj h
      exact ⟨hm, .inl ⟨rfl, rfl⟩, .inl ⟨rfl, rfl⟩⟩

/-- The records and the horizons of an accepted stream. -/
structure Sorted (start : Stream) (trace : List CallLabel) (m : Stream) : Prop where
  ordered : Ordered m
  records : ∃ n, m.sequence = start.sequence + UInt64.ofNat n ∧
    recordSequences trace = (List.range n).map fun i => start.sequence + UInt64.ofNat i
  pairwise : (horizons trace).Pairwise (· ≤ ·)
  last : ∀ horizon ∈ horizons trace, horizon ≤ m.horizon

theorem sorted_of_accepted (hstart : Ordered start) (h : trace.foldlM observe start = some m) :
    Sorted start trace m := by
  induction trace using List.reverseRecOn generalizing m with
  | nil =>
      obtain rfl := Option.some.inj h
      exact ⟨hstart, ⟨0, by simp, rfl⟩, .nil, by simp [horizons]⟩
  | append_singleton trace label ih =>
      rw [List.foldlM_append] at h
      obtain ⟨m₁, hm₁, hlabel⟩ := Option.bind_eq_some_iff.mp h
      have hsorted := ih hm₁
      have hadds : Adds m₁ label m := adds_observe hsorted.ordered (by simpa using hlabel)
      refine ⟨hadds.ordered, ?_, ?_, ?_⟩
      · obtain ⟨n, hnext, hrecords⟩ := hsorted.records
        rw [recordSequences, List.filterMap_append, ← recordSequences, ← recordSequences, hrecords]
        rcases hadds.records with ⟨hnone, hsame⟩ | ⟨hone, hsucc⟩
        · exact ⟨n, hsame.trans hnext, by rw [hnone, List.append_nil]⟩
        · refine ⟨n + 1, ?_, ?_⟩
          · rw [hsucc, hnext, UInt64.add_assoc]
            simp
          · rw [hone, List.range_succ, List.map_append, hnext]
            rfl
      · rw [horizons, List.filterMap_append, ← horizons, ← horizons, List.pairwise_append]
        rcases hadds.horizon with ⟨hnone, -⟩ | ⟨hone, hle⟩
        · rw [hnone]
          exact ⟨hsorted.pairwise, .nil, by simp⟩
        · rw [hone]
          refine ⟨hsorted.pairwise, List.pairwise_singleton _ _, fun horizon hmem last hlast => ?_⟩
          rw [List.mem_singleton.mp hlast]
          exact UInt64.le_trans (hsorted.last horizon hmem) hle
      · intro horizon hmem
        rw [horizons, List.filterMap_append, ← horizons, ← horizons, List.mem_append] at hmem
        rcases hadds.horizon with ⟨hnone, hsame⟩ | ⟨hone, hle⟩
        · rw [hnone] at hmem
          rw [hsame]
          exact hsorted.last horizon (by simpa using hmem)
        · rw [hone, List.mem_singleton] at hmem
          rcases hmem with hbefore | rfl
          · exact UInt64.le_trans (hsorted.last horizon hbefore) hle
          · exact UInt64.le_refl _

/-- Whatever the guest does and whatever the sink refuses, the calls are a well-formed
stream: the records are numbered one after the other and the horizons never go back. -/
theorem commit_stream_well_formed (s : Adapter) (hsink : s.sink.isSome = true)
    (hbound : s.guest.bound = true) (hidle : s.runPending = false) (operations : List Operation)
    (trace : List CallLabel) (rest : Program Call Reply (Unit × Adapter))
    (hrun : Run (Step anyReply) (runOperations operations s, ()) trace (rest, ())) :
    (∃ m, trace.foldlM observe ⟨.idle, s.guest.sequence, s.guest.frameTimestamp, s.runTransaction⟩ =
        some m) ∧
      (∃ n, recordSequences trace =
        (List.range n).map fun i => s.guest.sequence + UInt64.ofNat i) ∧
      (horizons trace).Pairwise (· ≤ ·) := by
  have hlinked : Linked ⟨.idle, s.guest.sequence, s.guest.frameTimestamp, s.runTransaction⟩ s :=
    ⟨hsink, hbound, UInt64.le_refl _, fun _ => ⟨rfl, rfl⟩,
      fun hpending => absurd (hidle.symm.trans hpending) (by simp)⟩
  have hordered : Ordered ⟨.idle, s.guest.sequence, s.guest.frameTimestamp, s.runTransaction⟩ :=
    trivial
  obtain ⟨m, haccepted, -⟩ := (keeps_runOperations operations hlinked).run hrun
  have hsorted := sorted_of_accepted hordered haccepted
  obtain ⟨n, -, hrecords⟩ := hsorted.records
  exact ⟨⟨m, haccepted⟩, ⟨n, hrecords⟩, hsorted.pairwise⟩

/-- A sink that grants everything. -/
def grant (_ : Unit) : (request : Call) → Reply request × Unit
  | .reserveChecked .. => ((.ok, Vector.replicate 4 1), ())
  | .extendChecked token _ => ((.ok, token), ())
  | .commitEvent token _ | .commitPcmByte token _ _ _ | .commitDataRun token _
  | .commitHorizon token _ => (token, ())
  | .publishProgressChecked _ => (.ok, ())
  | .cpuPosition => (0, ())
  | .isWork _ => (false, ())
  | .schedule .. | .cancel _ | .irq .. | .extension _ => ((), ())

def boundAdapter : Adapter := { sink := some ⟨true⟩, guest := { bound := true } }

def threeRecords : List Operation :=
  [.opnaWriteDataLow 1, .pcm86WriteData 7, .pcm86WriteData 8, .opnaReset 0 0 0 0]

theorem threeRecords_committed :
    (recordSequences (execute grant 30 (runOperations threeRecords boundAdapter, ())).1).length =
      3 := by
  decide +kernel

theorem commit_stream_three_records : ∃ trace rest,
    Run (Step anyReply) (runOperations threeRecords boundAdapter, ()) trace (rest, ()) ∧
      (recordSequences trace).length = 3 ∧ (horizons trace).Pairwise (· ≤ ·) ∧
      ∃ n, recordSequences trace =
        (List.range n).map fun i => boundAdapter.guest.sequence + UInt64.ofNat i := by
  have hrun := execute_run anyReply grant (fun _ _ => trivial) 30
    (runOperations threeRecords boundAdapter, ())
  have hlength := threeRecords_committed
  generalize execute grant 30 (runOperations threeRecords boundAdapter, ()) = final at hrun hlength
  obtain ⟨trace, rest, _⟩ := final
  obtain ⟨-, hrecords, hhorizons⟩ := commit_stream_well_formed boundAdapter rfl rfl rfl threeRecords
    trace rest hrun
  exact ⟨trace, rest, hrun, hlength, hhorizons, hrecords⟩

end WholeStream

end EspNp2.GuestAdapter.CommitStream
