import EspNp2.S98Parser.FileFormat

/-!
The reading of a dump: the syncs before a command, the frame they stand for, the first command
that cannot be played, and the events of the commands before it.
-/

namespace EspNp2.S98Parser.DumpReading

open EspNp2.BinaryDataPlane.BinaryCodec
open EspNp2.Digest.Sha256Digest
open EspNp2.S98Parser.DumpFormat
open EspNp2.S98Parser.FileFormat
open EspNp2.S98Parser.PullParser
open EspNp2.S98Parser.SynthEvents

section Reading

def syncsOf (commands : List Command) : ℕ := (commands.map Command.syncs).sum

/-- Why a command cannot be played after the commands before it. -/
def faultAt (header : Header) (before : List Command) (command : Command) :
    Option (ResultCategory × Error) :=
  match command with
  | .write reg value =>
      if 2 ^ 64 ≤ header.frameAt (syncsOf before) then
        some (.malformed, .timing)
      else
        match payloadOf reg value with
        | .ok _ => none
        | .error error => some (.unsupported, error)
  | .extended _ _ => some (.unsupported, .command)
  | command => if 2 ^ 64 ≤ syncsOf before + command.syncs then some (.malformed, .timing) else none

/-- Commands that can all be played, and the events of their writes. -/
inductive Reads (header : Header) : List Command → List SynthEvent → Prop where
  | nil : Reads header [] []
  | silent {commands : List Command} {events : List SynthEvent} {command : Command}
      (reads : Reads header commands events) (quiet : ∀ reg value, command ≠ .write reg value)
      (playable : faultAt header commands command = none) :
      Reads header (commands ++ [command]) events
  | write {commands : List Command} {events : List SynthEvent} {reg value : UInt8}
      {event : SynthEvent} (reads : Reads header commands events)
      (playable : faultAt header commands (.write reg value) = none)
      (payload : payloadOf reg value = .ok event.payload)
      (timestamp : event.sampleTimestamp.toNat = header.frameAt (syncsOf commands))
      (sequence : event.sequence.toNat = events.length) :
      Reads header (commands ++ [.write reg value]) (events ++ [event])

theorem syncsOf_snoc (commands : List Command) (command : Command) :
    syncsOf (commands ++ [command]) = syncsOf commands + command.syncs := by
  rw [syncsOf, List.map_append, List.sum_append, List.map_singleton, List.sum_singleton]
  rfl

variable {header : Header} {commands : List Command} {events : List SynthEvent}

theorem Reads.length_le (h : Reads header commands events) : events.length ≤ commands.length := by
  induction h with
  | nil => exact le_rfl
  | silent _ _ _ ih =>
      rw [List.length_append]
      exact ih.trans (Nat.le_add_right _ _)
  | write _ _ _ _ _ ih =>
      rw [List.length_append, List.length_append]
      exact Nat.add_le_add_right ih 1

theorem Reads.sequence_eq (h : Reads header commands events) {i : ℕ} {event : SynthEvent}
    (hevent : events[i]? = some event) : event.sequence.toNat = i := by
  induction h with
  | nil => cases hevent
  | silent _ _ _ ih => exact ih hevent
  | @write commands events reg value last _ _ _ _ hsequence ih =>
      by_cases hi : i < events.length
      · rw [List.getElem?_append_left hi] at hevent
        exact ih hevent
      · obtain rfl : i = events.length := by
          have := (List.getElem?_eq_some_iff.mp hevent).1
          rw [List.length_append, List.length_singleton] at this
          omega
        rw [List.getElem?_concat_length, Option.some.injEq] at hevent
        rw [← hevent]
        exact hsequence

theorem Reads.timestamp_le (h : Reads header commands events) {event : SynthEvent}
    (hevent : event ∈ events) :
    event.sampleTimestamp.toNat ≤ header.frameAt (syncsOf commands) := by
  induction h with
  | nil => cases hevent
  | silent _ _ _ ih =>
      rw [syncsOf_snoc]
      exact (ih hevent).trans (header.frameAt_mono (Nat.le_add_right _ _))
  | write _ _ _ htimestamp _ ih =>
      rw [syncsOf_snoc]
      rcases List.mem_append.mp hevent with hearlier | hlast
      · exact ih hearlier
      · rw [List.mem_singleton.mp hlast]
        exact le_of_eq htimestamp

theorem Reads.sorted (h : Reads header commands events) :
    events.Pairwise fun first second => first.sampleTimestamp ≤ second.sampleTimestamp := by
  induction h with
  | nil => exact List.Pairwise.nil
  | silent _ _ _ ih => exact ih
  | write hreads _ _ htimestamp _ ih =>
      refine List.pairwise_append.mpr ⟨ih, List.pairwise_singleton .., ?_⟩
      intro first hfirst second hsecond
      rw [List.mem_singleton.mp hsecond, UInt64.le_iff_toNat_le, htimestamp]
      exact hreads.timestamp_le hfirst

end Reading

section Traced

def recordOf (event : SynthEvent) : List UInt8 :=
  match serializeEvent event with
  | .ok record => record
  | .error _ => []

/-- A trace that was given the records of some events. -/
structure Traced (events : List SynthEvent) (trace : TraceState) : Prop where
  count : trace.count = UInt64.ofNat events.length
  crc32 : trace.runningCrc32 = Crc32.update Crc32.init (events.flatMap recordOf)
  sha256 : Streamed (events.flatMap recordOf) trace.sha256

theorem traced_traceInit (state : TraceState) : Traced [] (traceInit state) :=
  ⟨rfl, rfl, fed_init state.sha256, rfl⟩

theorem serializeEvent_eq {reg value : UInt8} {event : SynthEvent}
    (h : payloadOf reg value = .ok event.payload) :
    serializeEvent event = .ok (recordOf event) := by
  rcases event with ⟨timestamp, sequence, payload⟩
  cases payload with
  | registerWrite _ _ _ => rfl
  | keyEvent _ _ _ => rfl
  | other type =>
      exfalso
      unfold payloadOf at h
      split at h
      · split at h
        · cases h
        · cases h
      · split at h
        · cases h
        · cases h

theorem traceUpdate_traced {events : List SynthEvent} {trace : TraceState} {reg value : UInt8}
    {event : SynthEvent} (h : Traced events trace) (hroom : events.length < 2 ^ 64 - 1)
    (hpayload : payloadOf reg value = .ok event.payload) :
    ∃ next, traceUpdate trace event = some (.ok, next) ∧ Traced (events ++ [event]) next := by
  obtain ⟨fed, hfed, hstreamed⟩ := update_streamed h.sha256 (recordOf event)
  have hcount : ¬(trace.count == 0xffffffffffffffff) = true := by
    rw [beq_iff_eq, h.count, ← UInt64.toNat_inj,
      UInt64.toNat_ofNat_of_lt' (by change events.length < 2 ^ 64; omega)]
    change events.length ≠ 2 ^ 64 - 1
    omega
  have hrecords : (events ++ [event]).flatMap recordOf =
      events.flatMap recordOf ++ recordOf event := by
    rw [List.flatMap_append, List.flatMap_singleton]
  refine ⟨⟨trace.count + 1, Crc32.update trace.runningCrc32 (recordOf event), fed⟩, ?_, ?_, ?_, ?_⟩
  · unfold traceUpdate
    rw [if_neg hcount, serializeEvent_eq hpayload]
    simp only [hfed, Option.bind_eq_bind, Option.bind_some]
  · rw [List.length_append, List.length_singleton, UInt64.ofNat_add]
    change trace.count + 1 = _
    rw [h.count]
    rfl
  · rw [hrecords, Crc32.update_append, ← h.crc32]
  · rw [hrecords]
    exact hstreamed

end Traced

end EspNp2.S98Parser.DumpReading
