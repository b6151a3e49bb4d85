import EspNp2.S98Parser.DumpReading

/-!
The parser against the reading of the dump: the calls for the next event give the events of the
commands that can be played, in order, and then the end of the dump or the error of the first
command that cannot be played. Then the last answer is repeated, and the trace is of the events.
-/

namespace EspNp2.S98Parser.ParserContract

open EspNp2.BinaryDataPlane.BinaryCodec
open EspNp2.Digest.Sha256Digest (final_streamed messageBits)
open EspNp2.Library.ByteReader
open EspNp2.Library.Sha256Standard (sha256)
open EspNp2.S98Parser.DumpFormat
open EspNp2.S98Parser.DumpReading
open EspNp2.S98Parser.FileFormat
open EspNp2.S98Parser.MulDivFloor
open EspNp2.S98Parser.PullParser
open EspNp2.S98Parser.SynthEvents

/-- The callers' loop: a call for the next event until there is none. -/
def drain (memory : List UInt8) : ℕ → Parser → Option (List SynthEvent × Next × Parser)
  | 0, _ => none
  | calls + 1, parser => do
      let (result, parser) ← next memory parser
      match result with
      | .event event => do
          let (events, result, parser) ← drain memory calls parser
          some (event :: events, result, parser)
      | result => some ([], result, parser)

/-- What the calls for a dump can end with. -/
inductive Outcome (header : Header) (commands : List Command) (events : List SynthEvent)
    (final : Parser) : Next → Prop where
  | finished (reads : Reads header commands events)
      (endFrame : final.metadata.endFrame.toNat = header.frameAt (syncsOf commands))
      (finalSyncCount : final.metadata.finalSyncCount.toNat = syncsOf commands)
      (emittedEventCount : final.metadata.emittedEventCount.toNat = events.length)
      (pass : final.resultCategory = .pass ∧ final.error = .none) (ended : final.ended = true)
      (traced : Traced events final.eventTrace) : Outcome header commands events final .end
  | stopped {played rest : List Command} {command : Command}
      (commands_eq : commands = played ++ command :: rest) (reads : Reads header played events)
      (fault : faultAt header played command = some (final.resultCategory, final.error)) :
      Outcome header commands events final .error
  | overrun (reads : Reads header commands events)
      (overflow : 2 ^ 64 ≤ header.frameAt (syncsOf commands))
      (fault : (final.resultCategory, final.error) = (.malformed, .timing)) :
      Outcome header commands events final .error

/-- The parser between two commands. -/
structure Position (memory : List UInt8) (header : Header) (before rest : List Command)
    (events : List SynthEvent) (parser : Parser) : Prop where
  reads : Reads header before events
  dump : ∃ bytes, Dump rest bytes ∧ Stands memory parser.cursor bytes ∧
    parser.dumpEnd = parser.cursor + bytes.length
  room : before.length + rest.length < 2 ^ 64 - 1
  syncCount : parser.syncCount.toNat = syncsOf before
  nextSequence : parser.nextSequence = UInt64.ofNat events.length
  sourceWriteCount : parser.metadata.sourceWriteCount = UInt64.ofNat events.length
  emittedEventCount : parser.metadata.emittedEventCount = UInt64.ofNat events.length
  lastTimestamp : parser.hasEvent = true →
    parser.lastTimestamp.toNat ≤ header.frameAt (syncsOf before)
  numerator : parser.metadata.effectiveTimerNumerator =
    if header.timerNumerator == 0 then 10 else header.timerNumerator
  denominator : parser.metadata.effectiveTimerDenominator =
    if header.timerDenominator == 0 then 1000 else header.timerDenominator
  pass : parser.resultCategory = .pass ∧ parser.error = .none
  ended : parser.ended = false
  traced : Traced events parser.eventTrace

section Arithmetic

/-- The frame of a count of syncs, when it is a word. -/
theorem mappedFrame_eq {header : Header} {parser : Parser}
    (hnumerator : parser.metadata.effectiveTimerNumerator =
      if header.timerNumerator == 0 then 10 else header.timerNumerator)
    (hdenominator : parser.metadata.effectiveTimerDenominator =
      if header.timerDenominator == 0 then 1000 else header.timerDenominator)
    (syncCount : UInt64) :
    mappedFrame parser syncCount =
      if 2 ^ 64 ≤ header.frameAt syncCount.toNat then none
      else some (UInt64.ofNat (header.frameAt syncCount.toNat)) := by
  have hnonzero : parser.metadata.effectiveTimerDenominator ≠ 0 := by
    rw [hdenominator]
    split
    · decide
    · rename_i hzero
      rwa [beq_iff_eq] at hzero
  have hscale : (parser.metadata.effectiveTimerNumerator.toUInt64 * 48000).toNat =
      parser.metadata.effectiveTimerNumerator.toNat * 48000 := by
    have hlt := parser.metadata.effectiveTimerNumerator.toNat_lt
    rw [UInt64.toNat_mul, UInt32.toNat_toUInt64]
    apply Nat.mod_eq_of_lt
    change _ * 48000 < _
    omega
  have hframe : syncCount.toNat *
      (parser.metadata.effectiveTimerNumerator.toUInt64 * 48000).toNat /
      parser.metadata.effectiveTimerDenominator.toNat = header.frameAt syncCount.toNat := by
    rw [hscale, hnumerator, hdenominator, ← Nat.mul_assoc]
    unfold Header.frameAt
    simp only [beq_iff_eq, apply_ite UInt32.toNat]
    rfl
  have hexact := mulDivFloor_exactly syncCount
    (parser.metadata.effectiveTimerNumerator.toUInt64 * 48000) hnonzero
  rw [hframe] at hexact
  unfold mappedFrame
  unfold EspNp2.Library.WrappingWords.Marked.Exactly at hexact
  dsimp only
  unfold EspNp2.Library.WrappingWords.Marked.run
  rcases hrun : mulDivFloor syncCount
    (parser.metadata.effectiveTimerNumerator.toUInt64 * 48000)
    parser.metadata.effectiveTimerDenominator false with ⟨_ | frame, wrapped⟩
  · rw [hrun] at hexact
    rw [if_pos hexact.1]
  · rw [hrun] at hexact
    have hlt := frame.toNat_lt
    rw [← hexact.1, if_neg (by omega), UInt64.ofNat_toNat]

/-- The syncs are added when the sum is a word. -/
theorem addSyncs_eq (parser : Parser) (syncs : UInt64) :
    addSyncs parser syncs =
      if 2 ^ 64 ≤ parser.syncCount.toNat + syncs.toNat then
        setError parser .malformed .timing
      else
        (0, { parser with syncCount := parser.syncCount + syncs }) := by
  have hiff : syncs > 0xffffffffffffffff - parser.syncCount ↔
      2 ^ 64 ≤ parser.syncCount.toNat + syncs.toNat := by
    have hlt := parser.syncCount.toNat_lt
    have hmax : (0xffffffffffffffff - parser.syncCount : UInt64).toNat =
        2 ^ 64 - 1 - parser.syncCount.toNat := by
      apply UInt64.toNat_sub_of_le
      change parser.syncCount.toNat ≤ 2 ^ 64 - 1
      omega
    rw [gt_iff_lt, UInt64.lt_iff_toNat_lt, hmax]
    omega
  unfold addSyncs
  simp only [hiff]

end Arithmetic

section Steps

variable {memory : List UInt8} {header : Header} {before rest : List Command}
  {events : List SynthEvent} {parser : Parser} {command : Command}

theorem Position.bytes (h : Position memory header before (command :: rest) events parser) :
    ∃ first tail, Encoded command first ∧ Dump rest tail ∧ Stands memory parser.cursor first ∧
      Stands memory (parser.cursor + first.length) tail ∧
      parser.dumpEnd = parser.cursor + first.length + tail.length := by
  obtain ⟨bytes, hdump, hstands, hend⟩ := h.dump
  cases hdump with
  | @command command rest first tail hhead htail =>
      obtain ⟨hfirst, hfollow⟩ := stands_append_iff.mp hstands
      rw [List.length_append, ← Nat.add_assoc] at hend
      exact ⟨first, tail, hhead, htail, hfirst, hfollow, hend⟩

/-- The parser after a command that adds its syncs. -/
theorem Position.add (h : Position memory header before (command :: rest) events parser)
    {next : ℕ} {tail : List UInt8} {syncs : UInt64}
    (hquiet : ∀ reg value, command ≠ .write reg value)
    (hplayable : faultAt header before command = none) (htail : Dump rest tail)
    (hfollow : Stands memory next tail) (hend : parser.dumpEnd = next + tail.length)
    (hsyncs : syncs.toNat = command.syncs) (hfits : syncsOf before + command.syncs < 2 ^ 64) :
    Position memory header (before ++ [command]) rest events { parser with
      cursor := next
      syncCount := parser.syncCount + syncs } where
  reads := .silent h.reads hquiet hplayable
  dump := ⟨tail, htail, hfollow, hend⟩
  room := by
    have hroom := h.room
    rw [List.length_cons] at hroom
    rw [List.length_append, List.length_singleton]
    omega
  syncCount := by
    rw [syncsOf_snoc]
    change (parser.syncCount + syncs).toNat = _
    rw [UInt64.toNat_add, h.syncCount, hsyncs, Nat.mod_eq_of_lt hfits]
  nextSequence := h.nextSequence
  sourceWriteCount := h.sourceWriteCount
  emittedEventCount := h.emittedEventCount
  lastTimestamp := fun hevent => (h.lastTimestamp hevent).trans (by
    rw [syncsOf_snoc]
    exact header.frameAt_mono (Nat.le_add_right _ _))
  numerator := h.numerator
  denominator := h.denominator
  pass := h.pass
  ended := h.ended
  traced := h.traced

/-- What the loop does at a command: it goes on after it, gives its event, or stops there. -/
inductive Stepped (memory : List UInt8) (header : Header) (before rest : List Command)
    (events : List SynthEvent) (command : Command) (passes : ℕ) :
    Option (Next × Parser) → Prop where
  | silent {moved : Parser}
      (position : Position memory header (before ++ [command]) rest events moved) :
      Stepped memory header before rest events command passes (nextLoop memory passes moved)
  | emitted {event : SynthEvent} {moved : Parser}
      (position : Position memory header (before ++ [command]) rest (events ++ [event]) moved) :
      Stepped memory header before rest events command passes (some (.event event, moved))
  | stopped {final : Parser}
      (fault : faultAt header before command = some (final.resultCategory, final.error)) :
      Stepped memory header before rest events command passes (some (.error, final))

theorem Position.added (h : Position memory header before (command :: rest) events parser)
    {next : ℕ} {tail : List UInt8} {syncs : UInt64} {passes : ℕ} {added : Int32 × Parser}
    (hquiet : ∀ reg value, command ≠ .write reg value)
    (hfault : faultAt header before command =
      if 2 ^ 64 ≤ syncsOf before + command.syncs then some (.malformed, .timing) else none)
    (htail : Dump rest tail) (hfollow : Stands memory next tail)
    (hend : parser.dumpEnd = next + tail.length) (hsyncs : syncs.toNat = command.syncs)
    (hadded : added = addSyncs { parser with cursor := next } syncs) :
    Stepped memory header before rest events command passes
      (if added.1 != 0 then some (.error, added.2) else nextLoop memory passes added.2) := by
  have hsum : (2 ^ 64 ≤ parser.syncCount.toNat + syncs.toNat) =
      (2 ^ 64 ≤ syncsOf before + command.syncs) := by
    rw [h.syncCount, hsyncs]
  rw [addSyncs_eq] at hadded
  by_cases hfits : 2 ^ 64 ≤ syncsOf before + command.syncs
  · rw [if_pos (hsum.mpr hfits)] at hadded
    rw [if_pos hfits] at hfault
    subst hadded
    exact .stopped hfault
  · rw [if_neg (hsum.mp.mt hfits)] at hadded
    rw [if_neg hfits] at hfault
    subst hadded
    exact .silent (h.add hquiet hfault htail hfollow hend hsyncs (not_le.mp hfits))

theorem Position.sync (h : Position memory header before (.sync :: rest) events parser)
    (passes : ℕ) : Stepped memory header before rest events .sync passes
      (nextLoop memory (passes + 1) parser) := by
  obtain ⟨first, tail, hhead, htail, hfirst, hfollow, hend⟩ := h.bytes
  cases hhead with
  | sync =>
      obtain ⟨hbyte, -⟩ := stands_cons_iff.mp hfirst
      have hpositive := htail.length_pos
      rw [List.length_singleton] at hfollow hend
      rw [nextLoop, if_pos (by omega), hbyte, Option.bind_eq_bind, Option.bind_some]
      dsimp only
      rw [if_neg (show ¬((0xff : UInt8) == 0x00) = true by decide),
        if_neg (show ¬((0xff : UInt8) == 0x01) = true by decide),
        if_pos (show ((0xff : UInt8) == 0xff) = true by decide)]
      refine h.added ?_ ?_ htail hfollow hend ?_ rfl
      · rintro reg value ⟨⟩
      · simp only [faultAt]
      · rfl

theorem Position.wait {number : ℕ}
    (h : Position memory header before (.wait number :: rest) events parser) (passes : ℕ) :
    Stepped memory header before rest events (.wait number) passes
      (nextLoop memory (passes + 1) parser) := by
  obtain ⟨first, tail, hhead, htail, hfirst, hfollow, hend⟩ := h.bytes
  cases hhead with
  | @wait _ digits hnumber hlength hfits =>
      obtain ⟨hbyte, hdigits⟩ := stands_cons_iff.mp hfirst
      have hpositive := htail.length_pos
      rw [List.length_cons, Nat.add_comm digits.length, ← Nat.add_assoc] at hend hfollow
      have hword : (UInt64.ofNat number).toNat = number :=
        UInt64.toNat_ofNat_of_lt' (by change number < 2 ^ 64; omega)
      have hguard : ¬UInt64.ofNat number > 0xffffffffffffffff - 2 := by
        rw [wait_guard_iff, hword]
        omega
      have hrun : decodeVarint memory parser.dumpEnd (parser.cursor + 1) = _ :=
        decodeVarint_eq hnumber hdigits (by omega) hlength (by omega)
      rw [nextLoop, if_pos (by omega), hbyte, Option.bind_eq_bind, Option.bind_some]
      dsimp only
      rw [if_neg (show ¬((0xfe : UInt8) == 0x00) = true by decide),
        if_neg (show ¬((0xfe : UInt8) == 0x01) = true by decide),
        if_neg (show ¬((0xfe : UInt8) == 0xff) = true by decide),
        if_pos (show ((0xfe : UInt8) == 0xfe) = true by decide), hrun, Option.bind_eq_bind,
        Option.bind_some]
      refine h.added ?_ ?_ htail hfollow hend ?_ (if_neg hguard)
      · rintro reg value ⟨⟩
      · simp only [faultAt]
      · rw [UInt64.toNat_add, hword]
        exact Nat.mod_eq_of_lt hfits

theorem Position.extended {reg value : UInt8}
    (h : Position memory header before (.extended reg value :: rest) events parser) (passes : ℕ) :
    Stepped memory header before rest events (.extended reg value) passes
      (nextLoop memory (passes + 1) parser) := by
  obtain ⟨first, tail, hhead, htail, hfirst, hfollow, hend⟩ := h.bytes
  cases hhead with
  | extended =>
      obtain ⟨hbyte, -⟩ := stands_cons_iff.mp hfirst
      rw [nextLoop, if_pos (by rw [hend]; change _ < _ + 3 + _; omega), hbyte, Option.bind_eq_bind,
        Option.bind_some]
      dsimp only
      rw [if_neg (show ¬((0x01 : UInt8) == 0x00) = true by decide),
        if_pos (show ((0x01 : UInt8) == 0x01) = true by decide)]
      exact .stopped rfl

theorem Position.events_lt
    (h : Position memory header before (command :: rest) events parser) :
    events.length < 2 ^ 64 - 1 := by
  have hlength := h.reads.length_le
  have hroom := h.room
  rw [List.length_cons] at hroom
  omega

/-- A count that has not come to its end. -/
theorem count_ne_last (h : events.length < 2 ^ 64 - 1) :
    ¬(UInt64.ofNat events.length == 0xffffffffffffffff) = true := by
  rw [beq_iff_eq, ← UInt64.toNat_inj,
    UInt64.toNat_ofNat_of_lt' (by change events.length < 2 ^ 64; omega)]
  change events.length ≠ 2 ^ 64 - 1
  omega

theorem count_snoc (events : List SynthEvent) (event : SynthEvent) :
    UInt64.ofNat events.length + 1 = UInt64.ofNat (events ++ [event]).length := by
  rw [List.length_append, List.length_singleton, UInt64.ofNat_add]
  rfl

/-- The frame of a write that can be mapped is a word. -/
theorem timestamp_toNat {frame : ℕ} (h : ¬2 ^ 64 ≤ frame) : (UInt64.ofNat frame).toNat = frame :=
  UInt64.toNat_ofNat_of_lt' (not_le.mp h)

/-- The parser after a write that gives its event. -/
theorem Position.emit {reg value : UInt8} {payload : Payload} {trace : TraceState}
    {tail : List UInt8}
    (h : Position memory header before (.write reg value :: rest) events parser)
    (htail : Dump rest tail) (hfollow : Stands memory (parser.cursor + 3) tail)
    (hend : parser.dumpEnd = parser.cursor + 3 + tail.length)
    (hplayable : faultAt header before (.write reg value) = none)
    (hpayload : payloadOf reg value = .ok payload)
    (hframe : ¬2 ^ 64 ≤ header.frameAt (syncsOf before))
    (htraced : Traced (events ++ [⟨UInt64.ofNat (header.frameAt (syncsOf before)),
      UInt64.ofNat events.length, payload⟩]) trace) :
    Position memory header (before ++ [.write reg value]) rest
      (events ++ [⟨UInt64.ofNat (header.frameAt (syncsOf before)), UInt64.ofNat events.length,
        payload⟩])
      { parser with
        cursor := parser.cursor + 3
        metadata := { parser.metadata with
          sourceWriteCount := parser.metadata.sourceWriteCount + 1
          emittedEventCount := parser.metadata.emittedEventCount + 1 }
        eventTrace := trace
        nextSequence := parser.nextSequence + 1
        lastTimestamp := UInt64.ofNat (header.frameAt (syncsOf before))
        hasEvent := true } where
  reads := .write h.reads hplayable hpayload (timestamp_toNat hframe)
    (UInt64.toNat_ofNat_of_lt' (Nat.lt_of_lt_of_le h.events_lt (by decide)))
  dump := ⟨tail, htail, hfollow, hend⟩
  room := by
    have hroom := h.room
    rw [List.length_cons] at hroom
    rw [List.length_append, List.length_singleton]
    omega
  syncCount := by
    rw [syncsOf_snoc]
    exact h.syncCount
  nextSequence := by
    rw [← count_snoc, ← h.nextSequence]
  sourceWriteCount := by
    rw [← count_snoc, ← h.sourceWriteCount]
  emittedEventCount := by
    rw [← count_snoc, ← h.emittedEventCount]
  lastTimestamp := fun _ => by
    rw [syncsOf_snoc]
    exact le_of_eq (timestamp_toNat hframe)
  numerator := h.numerator
  denominator := h.denominator
  pass := h.pass
  ended := h.ended
  traced := htraced

theorem Position.write {reg value : UInt8}
    (h : Position memory header before (.write reg value :: rest) events parser) (passes : ℕ) :
    Stepped memory header before rest events (.write reg value) passes
      (nextLoop memory (passes + 1) parser) := by
  obtain ⟨first, tail, hhead, htail, hfirst, hfollow, hend⟩ := h.bytes
  cases hhead with
  | write =>
      obtain ⟨hbyte, hargs⟩ := stands_cons_iff.mp hfirst
      obtain ⟨hreg, harg⟩ := stands_cons_iff.mp hargs
      obtain ⟨hvalue, -⟩ := stands_cons_iff.mp harg
      have hroom := h.events_lt
      have hframe := @mappedFrame_eq header { parser with
        cursor := parser.cursor + 1 + 2
        metadata := { parser.metadata with
          sourceWriteCount := parser.metadata.sourceWriteCount + 1 } } h.numerator h.denominator
        parser.syncCount
      rw [h.syncCount] at hframe
      rw [nextLoop, if_pos (by rw [hend]; change _ < _ + 3 + _; omega)]
      simp only [hbyte, hreg, hvalue, Option.bind_eq_bind, Option.bind_some, beq_self_eq_true,
        ↓reduceIte]
      unfold emitRegisterOrKey
      dsimp only
      rw [if_neg (by rw [h.sourceWriteCount]; exact count_ne_last hroom),
        if_neg (by rw [h.nextSequence]; exact count_ne_last hroom), hframe]
      by_cases hfits : 2 ^ 64 ≤ header.frameAt (syncsOf before)
      · rw [if_pos hfits]
        exact .stopped (if_pos hfits)
      rw [if_neg hfits]
      cases hpayload : payloadOf reg value with
      | error error =>
          refine .stopped ((if_neg hfits).trans ?_)
          rw [hpayload]
          rfl
      | ok payload =>
          have hplayable : faultAt header before (.write reg value) = none := by
            refine (if_neg hfits).trans ?_
            rw [hpayload]
          obtain ⟨trace, hupdate, htraced⟩ := @traceUpdate_traced _ _ reg value
            ⟨UInt64.ofNat (header.frameAt (syncsOf before)), UInt64.ofNat events.length, payload⟩
            h.traced hroom hpayload
          rw [← h.nextSequence] at hupdate
          simp only [hupdate]
          have hmoved := h.emit htail hfollow hend hplayable hpayload hfits htraced
          rw [← h.nextSequence] at hmoved
          exact .emitted hmoved

/-- The step of the loop at any command. -/
theorem Position.step (h : Position memory header before (command :: rest) events parser)
    (passes : ℕ) : Stepped memory header before rest events command passes
      (nextLoop memory (passes + 1) parser) := by
  cases command with
  | write reg value => exact h.write passes
  | extended reg value => exact h.extended passes
  | sync => exact h.sync passes
  | wait number => exact h.wait passes

/-- The end of the dump. -/
theorem Position.stop (h : Position memory header before [] events parser) (passes : ℕ) :
    ∃ result final, nextLoop memory (passes + 1) parser = some (result, final) ∧
      Outcome header before events final result := by
  obtain ⟨bytes, hdump, -, hend⟩ := h.dump
  cases hdump with
  | stop =>
      have hframe := mappedFrame_eq h.numerator h.denominator parser.syncCount
      rw [h.syncCount] at hframe
      rw [nextLoop, if_neg (by rw [hend]; exact lt_irrefl _), endOfDump, hframe]
      by_cases hfits : 2 ^ 64 ≤ header.frameAt (syncsOf before)
      · rw [if_pos hfits]
        exact ⟨_, _, rfl, .overrun h.reads hfits rfl⟩
      rw [if_neg hfits]
      have hword := timestamp_toNat hfits
      have hlate : (parser.hasEvent && decide (UInt64.ofNat (header.frameAt (syncsOf before)) <
          parser.lastTimestamp)) = false := by
        rw [Bool.and_eq_false_imp]
        intro hevent
        rw [decide_eq_false_iff_not, UInt64.not_lt, UInt64.le_iff_toNat_le, hword]
        exact h.lastTimestamp hevent
      dsimp only
      rw [if_neg (Bool.eq_false_iff.mp hlate)]
      refine ⟨_, _, rfl, .finished h.reads hword h.syncCount ?_ h.pass rfl h.traced⟩
      have hlength := h.reads.length_le
      have hroom := h.room
      rw [List.length_nil] at hroom
      change parser.metadata.emittedEventCount.toNat = _
      rw [h.emittedEventCount]
      exact UInt64.toNat_ofNat_of_lt' (by change events.length < 2 ^ 64; omega)

end Steps

section Runs

variable {memory : List UInt8} {header : Header} {before rest commands : List Command}
  {events : List SynthEvent} {parser final : Parser} {result : Next}

/-- What a call for the next event gives. -/
inductive Answer (memory : List UInt8) (header : Header) (before rest : List Command)
    (events : List SynthEvent) : Next × Parser → Prop where
  | event {earlier later : List Command} {event : SynthEvent} {moved : Parser}
      (commands_eq : before ++ rest = earlier ++ later) (shorter : later.length < rest.length)
      (position : Position memory header earlier later (events ++ [event]) moved) :
      Answer memory header before rest events (.event event, moved)
  | outcome {result : Next} {final : Parser}
      (outcome : Outcome header (before ++ rest) events final result) :
      Answer memory header before rest events (result, final)

theorem Position.nextLoop_answer (h : Position memory header before rest events parser)
    {passes : ℕ} (hpasses : rest.length < passes) :
    ∃ answer, nextLoop memory passes parser = some answer ∧
      Answer memory header before rest events answer := by
  induction rest generalizing before parser passes with
  | nil =>
      obtain ⟨passes, rfl⟩ := Nat.exists_eq_add_one.mpr hpasses
      obtain ⟨result, final, hrun, houtcome⟩ := h.stop passes
      refine ⟨_, hrun, .outcome ?_⟩
      rwa [List.append_nil]
  | cons command rest ih =>
      obtain ⟨passes, rfl⟩ := Nat.exists_eq_add_one.mpr (Nat.zero_lt_of_lt hpasses)
      have hmoved : before ++ command :: rest = before ++ [command] ++ rest := by simp
      have hstep := h.step passes
      generalize nextLoop memory (passes + 1) parser = code at hstep
      cases hstep with
      | silent position =>
          obtain ⟨answer, hrun, hanswer⟩ := ih position (Nat.lt_of_succ_lt_succ hpasses)
          refine ⟨answer, hrun, ?_⟩
          cases hanswer with
          | event commands_eq shorter position =>
              exact .event (hmoved.trans commands_eq) (Nat.lt_succ_of_lt shorter) position
          | outcome outcome =>
              rw [← hmoved] at outcome
              exact .outcome outcome
      | emitted position =>
          exact ⟨_, rfl, .event hmoved (Nat.lt_succ_self _) position⟩
      | stopped fault =>
          exact ⟨_, rfl, .outcome (.stopped rfl h.reads fault)⟩

theorem Position.next_answer (h : Position memory header before rest events parser) :
    ∃ answer, next memory parser = some answer ∧
      Answer memory header before rest events answer := by
  obtain ⟨bytes, hdump, -, hend⟩ := h.dump
  have hlength := hdump.length_commands
  unfold next
  rw [h.pass.1, h.ended]
  exact h.nextLoop_answer (by omega)

/-- All calls for a dump, from any command of it on. -/
theorem Position.drain (h : Position memory header before rest events parser) {calls : ℕ}
    (hcalls : rest.length < calls) :
    ∃ more result final, drain memory calls parser = some (more, result, final) ∧
      Outcome header (before ++ rest) (events ++ more) final result := by
  induction calls generalizing before rest events parser with
  | zero => omega
  | succ calls ih =>
      obtain ⟨answer, hnext, hanswer⟩ := h.next_answer
      cases hanswer with
      | @event earlier later event moved commands_eq shorter position =>
          obtain ⟨more, result, final, hrun, houtcome⟩ := ih position (by omega)
          refine ⟨event :: more, result, final, ?_, ?_⟩
          · simp only [ParserContract.drain, hnext, hrun, Option.bind_eq_bind, Option.bind_some]
          · rwa [commands_eq, List.append_cons]
      | @outcome result final outcome =>
          refine ⟨[], result, final, ?_, ?_⟩
          · cases outcome <;>
              simp only [ParserContract.drain, hnext, Option.bind_eq_bind, Option.bind_some]
          · rwa [List.append_nil]

theorem faultAt_ne_pass {command : Command} {category : ResultCategory} {error : Error}
    (h : faultAt header before command = some (category, error)) : category ≠ .pass := by
  rintro rfl
  unfold faultAt at h
  split at h
  · split at h
    · cases h
    · split at h
      · cases h
      · cases h
  · cases h
  · split at h
    · cases h
    · cases h

/-- After the last event every call gives the same answer. -/
theorem Outcome.next_eq (h : Outcome header commands events final result) :
    next memory final = some (result, final) := by
  unfold next
  cases h with
  | finished _ _ _ _ hpass hended _ =>
      rw [hpass.1, hended]
      rfl
  | stopped _ _ hfault =>
      rw [if_pos (bne_iff_ne.mpr (faultAt_ne_pass hfault))]
  | overrun _ _ hfault =>
      obtain ⟨hcategory, -⟩ := Prod.mk.inj hfault
      rw [hcategory]
      rfl

/-- The events are those of the commands before the end or before the error. -/
theorem Outcome.reads (h : Outcome header commands events final result) :
    ∃ played, played <+: commands ∧ Reads header played events := by
  cases h with
  | finished reads _ _ _ _ _ _ => exact ⟨commands, List.prefix_rfl, reads⟩
  | stopped commands_eq reads _ => exact ⟨_, ⟨_, commands_eq.symm⟩, reads⟩
  | overrun reads _ _ => exact ⟨commands, List.prefix_rfl, reads⟩

/-- The events are numbered from zero, and none is before the one that was given before it. -/
theorem Outcome.ordered (h : Outcome header commands events final result) :
    (events.Pairwise fun first second => first.sampleTimestamp ≤ second.sampleTimestamp) ∧
      ∀ (i : ℕ) (event : SynthEvent), events[i]? = some event → event.sequence.toNat = i := by
  obtain ⟨played, -, hreads⟩ := h.reads
  exact ⟨hreads.sorted, fun i event => hreads.sequence_eq⟩

/-- The trace of a dump that was read to its end: the count of the events, and the checksum and
the digest of their records. -/
theorem Outcome.traceFinish (h : Outcome header commands events final .end) :
    ∃ closed digest, eventTraceFinish final = some (some (UInt64.ofNat events.length,
        Crc32.finish (Crc32.update Crc32.init (events.flatMap recordOf)), digest), closed) ∧
      digest.length = 32 ∧
      messageBits digest = sha256 (messageBits (events.flatMap recordOf)) := by
  cases h with
  | finished _ _ _ _ hpass hended htraced =>
      obtain ⟨closed, digest, hfinal, hlength, hdigest⟩ := final_streamed htraced.sha256
      have hfinish : SynthEvents.traceFinish final.eventTrace =
          some ({ final.eventTrace with sha256 := closed }, UInt64.ofNat events.length,
            Crc32.finish (Crc32.update Crc32.init (events.flatMap recordOf)), digest) := by
        rw [SynthEvents.traceFinish, hfinal, ← htraced.count, ← htraced.crc32]
        rfl
      have hopen : (final.resultCategory != .pass || !final.ended) = false := by
        rw [hpass.1, hended]
        rfl
      refine ⟨{ final with eventTrace := { final.eventTrace with sha256 := closed } }, digest, ?_,
        hlength, hdigest⟩
      rw [eventTraceFinish, if_neg (Bool.eq_false_iff.mp hopen), hfinish]
      rfl

theorem S98File.position {file dump : List UInt8} (h : S98File file header commands dump)
    (hroom : file.length < 2 ^ 64) :
    Position file header [] commands [] (opened file.length header dump) where
  reads := .nil
  dump := ⟨dump, h.isDump, h.dumpStands, rfl⟩
  room := by
    have hcommands := h.isDump.length_commands
    have hdump := List.IsPrefix.length_le h.dumpStands
    rw [List.length_drop] at hdump
    rw [List.length_nil]
    omega
  syncCount := rfl
  nextSequence := rfl
  sourceWriteCount := rfl
  emittedEventCount := rfl
  lastTimestamp := fun hevent => by cases hevent
  numerator := rfl
  denominator := rfl
  pass := ⟨rfl, rfl⟩
  ended := rfl
  traced := traced_traceInit _

/-- An S98 file sets the parser up, and the calls for the next event read it as its dump says. -/
theorem S98File.drain {file dump : List UInt8} (h : S98File file header commands dump)
    (hroom : file.length < 2 ^ 64) :
    ∃ parser events result final, init file = some (0, parser) ∧
      drain file (commands.length + 1) parser = some (events, result, final) ∧
      Outcome header commands events final result := by
  obtain ⟨events, result, final, hrun, houtcome⟩ :=
    (S98File.position h hroom).drain (Nat.lt_succ_self _)
  exact ⟨_, events, result, final, h.init_eq, hrun, houtcome⟩

end Runs

end EspNp2.S98Parser.ParserContract
