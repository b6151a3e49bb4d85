import EspNp2.KeyboardInput.UsbFidelity

/-!
The boot report differ over any sequence of calls.  A call that its caller's buffer cannot
hold, a report of the wrong length and a report with an error usage leave the state alone; any
other report replaces it, and its transitions are the difference, each once.
-/

namespace EspNp2.KeyboardInput.BootReports

open UsbEdges
open UsbFidelity
open UsbReports

section Differ

/-- A caller's buffer, which may be missing whatever its capacity is said to be. -/
structure EventBuffer where
  null : Bool := false
  capacity : Nat := maxEvents
deriving DecidableEq, Repr

/-- The required number of events, the events written and the state afterwards. -/
def hidBootKeyboardProcessInto (state : ParserState) (report : List UInt8) (buffer : EventBuffer) :
    Nat × List Transition × ParserState :=
  if report.length ≠ reportSize then
    (0, [], state)
  else
    let modifiers := report.getD 0 0
    let keys := report.drop 2
    let staged := stagedEvents state modifiers keys
    if staged.length > buffer.capacity ∨ staged.length ≠ 0 ∧ buffer.null = true then
      (staged.length, [], state)
    else if keys.any isErrorUsage then
      (staged.length, staged, state)
    else
      (staged.length, staged, { modifiers := modifiers, keys := keys })

/-- A missing buffer is as good as one without room. -/
theorem hidBootKeyboardProcessInto_eq (state : ParserState) (report : List UInt8)
    (buffer : EventBuffer) :
    hidBootKeyboardProcessInto state report buffer =
      hidBootKeyboardProcess state report (if buffer.null then 0 else buffer.capacity) := by
  have hroom : ∀ length : Nat, (length > buffer.capacity ∨ length ≠ 0 ∧ buffer.null = true) ↔
      length > (if buffer.null then 0 else buffer.capacity) := by
    intro length
    cases buffer.null with
    | false => simp
    | true =>
        simp only [and_true, if_true]
        omega
  simp only [hidBootKeyboardProcessInto, hidBootKeyboardProcess, hroom]

/-- The call commits nothing: its events do not fit, or the report is not a clean one. -/
def Rejected (state : ParserState) (report : List UInt8) (buffer : EventBuffer) : Prop :=
  (hidBootKeyboardProcessInto state report buffer).1 > buffer.capacity ∨
    (hidBootKeyboardProcessInto state report buffer).1 ≠ 0 ∧ buffer.null = true ∨
    report.length ≠ reportSize ∨ (report.drop 2).any isErrorUsage = true

instance (state : ParserState) (report : List UInt8) (buffer : EventBuffer) :
    Decidable (Rejected state report buffer) :=
  inferInstanceAs (Decidable (_ ∨ _ ∧ _ ∨ _ ∨ _))

/-- The transitions are the difference of two states: an edge for each usage and each modifier
that changes, and none for any other. -/
structure ExactDifference (old new : ParserState) (events : List Transition) : Prop where
  releases : ∀ usage, events.countP (fun t => t.kind = .keyRelease ∧ t.usage = usage) =
    if usage ≠ 0 ∧ usage ∈ old.keys ∧ usage ∉ new.keys then 1 else 0
  presses : ∀ usage, events.countP (fun t => t.kind = .keyPress ∧ t.usage = usage) =
    if usage ≠ 0 ∧ usage ∈ new.keys ∧ usage ∉ old.keys then 1 else 0
  modifierPresses : ∀ bit < modifierCount,
    events.countP (fun t => t.kind = .modPress ∧ t.usage = modifierUsage bit) =
      if old.modifiers &&& modifierMask bit = 0 ∧ new.modifiers &&& modifierMask bit ≠ 0 then 1
      else 0
  modifierReleases : ∀ bit < modifierCount,
    events.countP (fun t => t.kind = .modRelease ∧ t.usage = modifierUsage bit) =
      if old.modifiers &&& modifierMask bit ≠ 0 ∧ new.modifiers &&& modifierMask bit = 0 then 1
      else 0
  edges : ∀ t ∈ events, t.modifiers = new.modifiers ∧ (t.kind = .keyRelease ∨ t.kind = .keyPress ∨
    (t.kind = .modPress ∨ t.kind = .modRelease) ∧ ∃ bit < modifierCount, t.usage =
      modifierUsage bit)
  order : events.Pairwise fun first second =>
    ¬ (first.kind = .keyPress ∧ second.kind = .keyRelease)

end Differ

section Difference

variable {old new : ParserState} {kind : EventKind} {keys others : List UInt8}
  {modifiers previous : UInt8}

theorem keyEvents_nodup (hlength : keys.length = keyCount) :
    (keyEvents kind keys others modifiers).Nodup := by
  rw [keyEvents, List.Nodup, List.pairwise_filterMap]
  refine List.Pairwise.imp_of_mem ?_ List.pairwise_lt_range
  intro i j hi hj hlt first hfirst second hsecond hsame
  obtain ⟨-, ⟨⟩⟩ := Option.ite_none_right_eq_some.mp hfirst
  obtain ⟨⟨-, hseen, -⟩, ⟨⟩⟩ := Option.ite_none_right_eq_some.mp hsecond
  have husage : keys.getD i 0 = keys.getD j 0 := congrArg Transition.usage hsame
  have hrange : i < keys.length := by
    rw [hlength]
    exact List.mem_range.mp hi
  have hmem : keys.getD j 0 ∈ keys.take j := by
    rw [← husage, List.getD_eq_getElem _ _ hrange]
    exact List.mem_take_iff_getElem.mpr ⟨i, by omega, rfl⟩
  rw [keySeenBefore, List.contains_iff_mem.mpr hmem] at hseen
  cases hseen

theorem modifierUsage_injective : ∀ bit < modifierCount, ∀ other < modifierCount,
    modifierUsage bit = modifierUsage other → bit = other := by
  decide

theorem modifierEvents_nodup : (modifierEvents previous modifiers).Nodup := by
  rw [modifierEvents, List.Nodup, List.pairwise_filterMap]
  refine List.Pairwise.imp_of_mem ?_ List.pairwise_lt_range
  intro i j hi hj hlt first hfirst second hsecond hsame
  have husage : ∀ bit t, (if previous &&& modifierMask bit = 0 ∧ modifiers &&& modifierMask bit ≠ 0
      then some (⟨.modPress, modifierUsage bit, modifiers⟩ : Transition)
      else if previous &&& modifierMask bit ≠ 0 ∧ modifiers &&& modifierMask bit = 0 then
        some ⟨.modRelease, modifierUsage bit, modifiers⟩
      else none) = some t → t.usage = modifierUsage bit := by
    intro bit t ht
    split at ht
    · cases ht
      rfl
    · obtain ⟨-, ⟨⟩⟩ := Option.ite_none_right_eq_some.mp ht
      rfl
  have hbits : modifierUsage i = modifierUsage j := by
    rw [← husage i first hfirst, ← husage j second hsecond, hsame]
  have := modifierUsage_injective i (List.mem_range.mp hi) j (List.mem_range.mp hj) hbits
  omega

/-- How often an edge occurs among events that occur once. -/
theorem countP_edge {events : List Transition} (hnodup : events.Nodup) (usage : UInt8)
    (hmodifiers : ∀ t ∈ events, t.modifiers = modifiers) :
    events.countP (fun t => t.kind = kind ∧ t.usage = usage) =
      if ⟨kind, usage, modifiers⟩ ∈ events then 1 else 0 := by
  have hcount : events.countP (fun t => t.kind = kind ∧ t.usage = usage) =
      events.count ⟨kind, usage, modifiers⟩ := by
    rw [List.count]
    refine List.countP_congr fun t ht => ?_
    obtain ⟨tkind, tusage, tmodifiers⟩ := t
    have := hmodifiers _ ht
    simp_all
  rw [hcount]
  split
  · rename_i hmem
    exact List.count_eq_one_of_mem hnodup hmem
  · rename_i hmem
    exact List.count_eq_zero.mpr hmem

theorem cleanEvents_nodup (hold : old.keys.length = keyCount) (hnew : new.keys.length = keyCount) :
    (cleanEvents old new).Nodup := by
  rw [cleanEvents]
  refine List.Nodup.append (List.Nodup.append modifierEvents_nodup (keyEvents_nodup hold) ?_)
    (keyEvents_nodup hnew) ?_
  · intro t hmodifier hkey
    obtain ⟨-, bit, -, -, hkind⟩ := (mem_modifierEvents t).mp hmodifier
    have hrelease := ((mem_keyEvents hold t).mp hkey).1
    rcases hkind with ⟨hkind, -⟩ | ⟨hkind, -⟩ <;> simp [hrelease] at hkind
  · intro t hearlier hkey
    have hpress := ((mem_keyEvents hnew t).mp hkey).1
    rcases List.mem_append.mp hearlier with hmodifier | hkey'
    · obtain ⟨-, bit, -, -, hkind⟩ := (mem_modifierEvents t).mp hmodifier
      rcases hkind with ⟨hkind, -⟩ | ⟨hkind, -⟩ <;> simp [hpress] at hkind
    · have hrelease := ((mem_keyEvents hold t).mp hkey').1
      rw [hpress] at hrelease
      cases hrelease

theorem mem_cleanEvents (hold : old.keys.length = keyCount) (hnew : new.keys.length = keyCount)
    (t : Transition) : t ∈ cleanEvents old new ↔ t.modifiers = new.modifiers ∧
      ((t.kind = .keyRelease ∧ t.usage ≠ 0 ∧ t.usage ∈ old.keys ∧ t.usage ∉ new.keys) ∨
        (t.kind = .keyPress ∧ t.usage ≠ 0 ∧ t.usage ∈ new.keys ∧ t.usage ∉ old.keys) ∨
        ∃ bit, bit < modifierCount ∧ t.usage = modifierUsage bit ∧
          ((t.kind = .modPress ∧ old.modifiers &&& modifierMask bit = 0 ∧
              new.modifiers &&& modifierMask bit ≠ 0) ∨
            (t.kind = .modRelease ∧ old.modifiers &&& modifierMask bit ≠ 0 ∧
              new.modifiers &&& modifierMask bit = 0))) := by
  simp only [cleanEvents, List.mem_append, mem_modifierEvents, mem_keyEvents hold,
    mem_keyEvents hnew]
  constructor
  · rintro ((⟨hmodifiers, hbit⟩ | ⟨hkind, hmodifiers, husage⟩) | ⟨hkind, hmodifiers, husage⟩)
    · exact ⟨hmodifiers, .inr (.inr hbit)⟩
    · exact ⟨hmodifiers, .inl ⟨hkind, husage⟩⟩
    · exact ⟨hmodifiers, .inr (.inl ⟨hkind, husage⟩)⟩
  · rintro ⟨hmodifiers, ⟨hkind, husage⟩ | ⟨hkind, husage⟩ | hbit⟩
    · exact .inl (.inr ⟨hkind, hmodifiers, husage⟩)
    · exact .inr ⟨hkind, hmodifiers, husage⟩
    · exact .inl (.inl ⟨hmodifiers, hbit⟩)

theorem exactDifference_cleanEvents (hold : old.keys.length = keyCount)
    (hnew : new.keys.length = keyCount) : ExactDifference old new (cleanEvents old new) := by
  have hmem := mem_cleanEvents hold hnew
  have hcount : ∀ kind usage, (cleanEvents old new).countP
      (fun t => t.kind = kind ∧ t.usage = usage) =
        if ⟨kind, usage, new.modifiers⟩ ∈ cleanEvents old new then 1 else 0 := fun kind usage =>
    countP_edge (cleanEvents_nodup hold hnew) usage fun t ht => ((hmem t).mp ht).1
  have hbit : ∀ {bit : Nat} {p : Nat → Prop}, bit < modifierCount →
      ((∃ other, other < modifierCount ∧ modifierUsage bit = modifierUsage other ∧ p other) ↔
        p bit) := by
    intro bit p hbit
    constructor
    · rintro ⟨other, hother, hsame, hp⟩
      rwa [modifierUsage_injective bit hbit other hother hsame]
    · exact fun hp => ⟨bit, hbit, rfl, hp⟩
  refine ⟨?_, ?_, ?_, ?_, ?_, ?_⟩
  · intro usage
    rw [hcount]
    simp [hmem]
  · intro usage
    rw [hcount]
    simp [hmem]
  · intro bit hlt
    rw [hcount]
    simp [hmem, hbit hlt]
  · intro bit hlt
    rw [hcount]
    simp [hmem, hbit hlt]
  · intro t ht
    obtain ⟨hmodifiers, ⟨hkind, -⟩ | ⟨hkind, -⟩ | ⟨bit, hlt, husage, hkind⟩⟩ := (hmem t).mp ht
    · exact ⟨hmodifiers, .inl hkind⟩
    · exact ⟨hmodifiers, .inr (.inl hkind)⟩
    · exact ⟨hmodifiers, .inr (.inr ⟨hkind.imp And.left And.left, bit, hlt, husage⟩)⟩
  · rw [cleanEvents, List.pairwise_append]
    refine ⟨?_, ?_, ?_⟩
    · refine List.pairwise_of_forall_mem_list fun first hfirst second _ hkinds => ?_
      rcases List.mem_append.mp hfirst with hmodifier | hkey
      · obtain ⟨-, bit, -, -, hkind⟩ := (mem_modifierEvents first).mp hmodifier
        rcases hkind with ⟨hkind, -⟩ | ⟨hkind, -⟩ <;> simp [hkinds.1] at hkind
      · have hkind := ((mem_keyEvents hold first).mp hkey).1
        rw [hkinds.1] at hkind
        cases hkind
    · refine List.pairwise_of_forall_mem_list fun first _ second hsecond hkinds => ?_
      have hkind := ((mem_keyEvents hnew second).mp hsecond).1
      rw [hkinds.2] at hkind
      cases hkind
    · intro first _ second hsecond hkinds
      have hkind := ((mem_keyEvents hnew second).mp hsecond).1
      rw [hkinds.2] at hkind
      cases hkind

end Difference

section Held

variable {press release : EventKind} {held : Set UInt8} {usage : UInt8} {events : List Transition}

/-- What transitions of two kinds leave held. -/
def heldAfter (press release : EventKind) (held : Set UInt8) (events : List Transition) :
    Set UInt8 :=
  events.foldl (fun held t =>
    if t.kind = press then insert t.usage held
    else if t.kind = release then held \ {t.usage} else held) held

def Occurs (kind : EventKind) (usage : UInt8) (events : List Transition) : Prop :=
  ∃ t ∈ events, t.kind = kind ∧ t.usage = usage

theorem occurs_cons {kind : EventKind} {t : Transition} :
    Occurs kind usage (t :: events) ↔ t.kind = kind ∧ t.usage = usage ∨
      Occurs kind usage events := by
  simp [Occurs]

theorem mem_heldAfter_iff (hkinds : press ≠ release)
    (honce : ¬ (Occurs press usage events ∧ Occurs release usage events)) :
    usage ∈ heldAfter press release held events ↔
      Occurs press usage events ∨ usage ∈ held ∧ ¬ Occurs release usage events := by
  induction events generalizing held with
  | nil => simp [heldAfter, Occurs]
  | cons t events ih =>
      simp only [occurs_cons] at honce ⊢
      have hrest : ¬ (Occurs press usage events ∧ Occurs release usage events) :=
        fun h => honce ⟨.inr h.1, .inr h.2⟩
      rw [heldAfter, List.foldl_cons, ← heldAfter, ih hrest]
      by_cases hpress : t.kind = press
      · rw [if_pos hpress, Set.mem_insert_iff]
        have hrelease : t.kind ≠ release := by
          rw [hpress]
          exact hkinds
        constructor
        · rintro (hlater | ⟨hmem | hmem, hnone⟩)
          · exact .inl (.inr hlater)
          · exact .inl (.inl ⟨hpress, hmem.symm⟩)
          · exact .inr ⟨hmem, by simp [hrelease, hnone]⟩
        · rintro ((⟨-, husage⟩ | hlater) | ⟨hmem, hnone⟩)
          · exact .inr ⟨.inl husage.symm, fun h => honce ⟨.inl ⟨hpress, husage⟩, .inr h⟩⟩
          · exact .inl hlater
          · exact .inr ⟨.inr hmem, fun h => hnone (.inr h)⟩
      · rw [if_neg hpress]
        by_cases hrelease : t.kind = release
        · rw [if_pos hrelease, Set.mem_sdiff, Set.mem_singleton_iff]
          have hother : release ≠ press := hkinds.symm
          simp only [hrelease, hother, false_and, false_or, true_and]
          tauto
        · rw [if_neg hrelease]
          simp [hpress, hrelease]

/-- The usages that the slots of a report hold. -/
def heldUsages (state : ParserState) : Set UInt8 := { usage | usage ≠ 0 ∧ usage ∈ state.keys }

/-- The usages of the modifiers of a report. -/
def heldModifiers (state : ParserState) : Set UInt8 :=
  { usage | ∃ bit < modifierCount, usage = modifierUsage bit ∧
    state.modifiers &&& modifierMask bit ≠ 0 }

variable {old new : ParserState}

theorem heldAfter_keys (hold : old.keys.length = keyCount) (hnew : new.keys.length = keyCount) :
    heldAfter .keyPress .keyRelease (heldUsages old) (cleanEvents old new) = heldUsages new := by
  have hpress : ∀ usage, Occurs .keyPress usage (cleanEvents old new) ↔
      usage ≠ 0 ∧ usage ∈ new.keys ∧ usage ∉ old.keys := by
    intro usage
    constructor
    · rintro ⟨t, ht, hkind, rfl⟩
      simpa [hkind] using ((mem_cleanEvents hold hnew t).mp ht).2
    · exact fun h => ⟨⟨.keyPress, usage, new.modifiers⟩,
        (mem_cleanEvents hold hnew _).mpr ⟨rfl, .inr (.inl ⟨rfl, h⟩)⟩, rfl, rfl⟩
  have hrelease : ∀ usage, Occurs .keyRelease usage (cleanEvents old new) ↔
      usage ≠ 0 ∧ usage ∈ old.keys ∧ usage ∉ new.keys := by
    intro usage
    constructor
    · rintro ⟨t, ht, hkind, rfl⟩
      simpa [hkind] using ((mem_cleanEvents hold hnew t).mp ht).2
    · exact fun h => ⟨⟨.keyRelease, usage, new.modifiers⟩,
        (mem_cleanEvents hold hnew _).mpr ⟨rfl, .inl ⟨rfl, h⟩⟩, rfl, rfl⟩
  have hkinds : EventKind.keyPress ≠ .keyRelease := by decide
  ext usage
  rw [mem_heldAfter_iff hkinds (by rw [hpress, hrelease]; tauto), hpress, hrelease]
  simp only [heldUsages, Set.mem_ofPred_eq]
  tauto

theorem heldAfter_modifiers (hold : old.keys.length = keyCount)
    (hnew : new.keys.length = keyCount) :
    heldAfter .modPress .modRelease (heldModifiers old) (cleanEvents old new) =
      heldModifiers new := by
  have hpress : ∀ usage, Occurs .modPress usage (cleanEvents old new) ↔
      ∃ bit < modifierCount, usage = modifierUsage bit ∧
        old.modifiers &&& modifierMask bit = 0 ∧ new.modifiers &&& modifierMask bit ≠ 0 := by
    intro usage
    constructor
    · rintro ⟨t, ht, hkind, rfl⟩
      simpa [hkind] using ((mem_cleanEvents hold hnew t).mp ht).2
    · rintro ⟨bit, hlt, rfl, hbits⟩
      exact ⟨⟨.modPress, modifierUsage bit, new.modifiers⟩, (mem_cleanEvents hold hnew _).mpr
        ⟨rfl, .inr (.inr ⟨bit, hlt, rfl, .inl ⟨rfl, hbits⟩⟩)⟩, rfl, rfl⟩
  have hrelease : ∀ usage, Occurs .modRelease usage (cleanEvents old new) ↔
      ∃ bit < modifierCount, usage = modifierUsage bit ∧
        old.modifiers &&& modifierMask bit ≠ 0 ∧ new.modifiers &&& modifierMask bit = 0 := by
    intro usage
    constructor
    · rintro ⟨t, ht, hkind, rfl⟩
      simpa [hkind] using ((mem_cleanEvents hold hnew t).mp ht).2
    · rintro ⟨bit, hlt, rfl, hbits⟩
      exact ⟨⟨.modRelease, modifierUsage bit, new.modifiers⟩, (mem_cleanEvents hold hnew _).mpr
        ⟨rfl, .inr (.inr ⟨bit, hlt, rfl, .inr ⟨rfl, hbits⟩⟩)⟩, rfl, rfl⟩
  have hsame : ∀ {bit other}, bit < modifierCount → other < modifierCount →
      modifierUsage bit = modifierUsage other → bit = other :=
    fun hbit hother h => modifierUsage_injective _ hbit _ hother h
  have hkinds : EventKind.modPress ≠ .modRelease := by decide
  ext usage
  rw [mem_heldAfter_iff hkinds, hpress, hrelease]
  · constructor
    · rintro (⟨bit, hlt, rfl, -, hset⟩ | ⟨⟨bit, hlt, rfl, hset⟩, hnone⟩)
      · exact ⟨bit, hlt, rfl, hset⟩
      · exact ⟨bit, hlt, rfl, fun hclear => hnone ⟨bit, hlt, rfl, hset, hclear⟩⟩
    · rintro ⟨bit, hlt, rfl, hset⟩
      by_cases hclear : old.modifiers &&& modifierMask bit = 0
      · exact .inl ⟨bit, hlt, rfl, hclear, hset⟩
      · refine .inr ⟨⟨bit, hlt, rfl, hclear⟩, ?_⟩
        rintro ⟨other, hother, husage, -, hgone⟩
        rw [hsame hlt hother husage] at hset
        exact hset hgone
  · rw [hpress, hrelease]
    rintro ⟨⟨bit, hlt, rfl, hclear, -⟩, other, hother, husage, hset, -⟩
    rw [hsame hlt hother husage] at hclear
    exact hset hclear

end Held

section Calls

structure ReportCall where
  report : List UInt8
  buffer : EventBuffer
deriving DecidableEq, Repr

/-- The state of the differ, with all that was written out so far and the report that was
committed last. -/
structure Differ where
  state : ParserState := {}
  written : List Transition := []
  committed : Option (List UInt8) := none
deriving DecidableEq, Repr

def Differ.process (differ : Differ) (call : ReportCall) : Differ :=
  let result := hidBootKeyboardProcessInto differ.state call.report call.buffer
  { state := result.2.2
    written := differ.written ++ result.2.1
    committed :=
      if Rejected differ.state call.report call.buffer then differ.committed
      else some call.report }

def processAll (calls : List ReportCall) : Differ := calls.foldl Differ.process {}

/-- The state that a committed report leaves. -/
def committedState : Option (List UInt8) → ParserState
  | none => {}
  | some report => stateOf report

/-- What the differ does after a sequence of calls, and what all of them have told. -/
structure ExactAfter (differ : Differ) : Prop where
  staged : ∀ report : List UInt8, report.length = reportSize →
    (stagedEvents differ.state (report.getD 0 0) (report.drop 2)).length ≤ maxEvents
  kept : ∀ report buffer, Rejected differ.state report buffer →
    (hidBootKeyboardProcessInto differ.state report buffer).2.2 = differ.state
  replaced : ∀ report buffer, ¬ Rejected differ.state report buffer →
    let result := hidBootKeyboardProcessInto differ.state report buffer
    result.2.2 = stateOf report ∧ result.1 = result.2.1.length ∧
      ExactDifference differ.state (stateOf report) result.2.1
  told : differ.state = committedState differ.committed ∧
    heldAfter .keyPress .keyRelease ∅ differ.written =
      heldUsages (committedState differ.committed) ∧
    heldAfter .modPress .modRelease ∅ differ.written =
      heldModifiers (committedState differ.committed)
  retried : ∀ report buffer retry, Rejected differ.state report buffer →
    hidBootKeyboardProcessInto (hidBootKeyboardProcessInto differ.state report buffer).2.2 report
      retry = hidBootKeyboardProcessInto differ.state report retry

variable {state : ParserState} {report : List UInt8} {buffer : EventBuffer} {differ : Differ}

theorem stagedEvents_clean (h : (report.drop 2).any isErrorUsage = false) :
    stagedEvents state (report.getD 0 0) (report.drop 2) = cleanEvents state (stateOf report) := by
  rw [stagedEvents, if_neg (by simp [h])]
  rfl

theorem stagedEvents_error (h : (report.drop 2).any isErrorUsage = true) :
    stagedEvents state (report.getD 0 0) (report.drop 2) =
      errorEvents (report.drop 2) (report.getD 0 0) := by
  rw [stagedEvents, if_pos h]

theorem stagedEvents_length (hlength : report.length = reportSize) :
    (stagedEvents state (report.getD 0 0) (report.drop 2)).length ≤ maxEvents := by
  cases herror : (report.drop 2).any isErrorUsage with
  | false =>
      rw [stagedEvents_clean herror]
      exact cleanEvents_length state (stateOf report)
  | true =>
      rw [stagedEvents_error herror, errorEvents, List.length_map]
      refine (List.length_filter_le _ _).trans ?_
      rw [List.length_drop, hlength]
      decide

/-- A call that commits nothing writes at most the events of an error. -/
theorem process_rejected (h : Rejected state report buffer) :
    (hidBootKeyboardProcessInto state report buffer).2.2 = state ∧
      ∀ t ∈ (hidBootKeyboardProcessInto state report buffer).2.1, t.kind = .errorUsage := by
  unfold Rejected at h
  unfold hidBootKeyboardProcessInto at h ⊢
  split
  · exact ⟨rfl, nofun⟩
  · rename_i hlength
    rw [if_neg hlength] at h
    dsimp only at h ⊢
    split
    · exact ⟨rfl, nofun⟩
    · rename_i hfits
      rw [if_neg hfits] at h
      split
      · rename_i herror
        refine ⟨rfl, fun t ht => ?_⟩
        rw [stagedEvents_error herror, errorEvents] at ht
        obtain ⟨usage, -, rfl⟩ := List.mem_map.mp ht
        rfl
      · rename_i herror
        rw [if_neg herror] at h
        rcases h with hcount | hnull | hshort | herror'
        · exact absurd (.inl hcount) hfits
        · exact absurd (.inr hnull) hfits
        · exact absurd hshort hlength
        · exact absurd herror' herror

/-- A call that commits its report writes the difference. -/
theorem process_committed (h : ¬ Rejected state report buffer) :
    report.length = reportSize ∧ hidBootKeyboardProcessInto state report buffer =
      ((cleanEvents state (stateOf report)).length, cleanEvents state (stateOf report),
        stateOf report) := by
  simp only [Rejected, not_or, not_not] at h
  obtain ⟨hcount, hnull, hlength, herror⟩ := h
  have hclean : (report.drop 2).any isErrorUsage = false := by simpa using herror
  refine ⟨hlength, ?_⟩
  unfold hidBootKeyboardProcessInto at hcount hnull ⊢
  rw [if_neg (not_not.mpr hlength)] at hcount hnull ⊢
  dsimp only at hcount hnull ⊢
  rw [if_neg herror] at hcount hnull ⊢
  have hfits : ¬ ((stagedEvents state (report.getD 0 0) (report.drop 2)).length > buffer.capacity ∨
      (stagedEvents state (report.getD 0 0) (report.drop 2)).length ≠ 0 ∧ buffer.null = true) := by
    intro hfails
    rw [if_pos hfails] at hcount hnull
    exact hfails.elim hcount hnull
  rw [if_neg hfits, stagedEvents_clean hclean]
  rfl

theorem heldAfter_append {press release : EventKind} {held : Set UInt8}
    (events others : List Transition) : heldAfter press release held (events ++ others) =
      heldAfter press release (heldAfter press release held events) others :=
  List.foldl_append

theorem heldAfter_error {press release : EventKind} {held : Set UInt8} {events : List Transition}
    (hpress : press ≠ .errorUsage) (hrelease : release ≠ .errorUsage)
    (h : ∀ t ∈ events, t.kind = .errorUsage) : heldAfter press release held events = held := by
  induction events with
  | nil => rfl
  | cons t events ih =>
      have hkind := h t List.mem_cons_self
      rw [heldAfter, List.foldl_cons, hkind, if_neg hpress.symm, if_neg hrelease.symm]
      exact ih fun t ht => h t (List.mem_cons_of_mem _ ht)

/-- What one call preserves: the state is that of the last committed report, and what was
written tells the same. -/
structure Tells (differ : Differ) : Prop where
  state : differ.state = committedState differ.committed
  length : differ.state.keys.length = keyCount
  keys : heldAfter .keyPress .keyRelease ∅ differ.written = heldUsages differ.state
  modifiers : heldAfter .modPress .modRelease ∅ differ.written = heldModifiers differ.state

theorem tells_start : Tells {} where
  state := rfl
  length := rfl
  keys := by
    ext usage
    simp +contextual [heldAfter, heldUsages]
  modifiers := by
    ext usage
    simp [heldAfter, heldModifiers]

theorem Tells.process (h : Tells differ) (call : ReportCall) : Tells (differ.process call) := by
  by_cases hrejected : Rejected differ.state call.report call.buffer
  · obtain ⟨hstate, herrors⟩ := process_rejected hrejected
    have hcommitted : (differ.process call).committed = differ.committed := if_pos hrejected
    refine ⟨?_, ?_, ?_, ?_⟩
    · rw [hcommitted]
      exact hstate.trans h.state
    · exact (congrArg (fun state => state.keys.length) hstate).trans h.length
    · change heldAfter _ _ _ (differ.written ++ _) = _
      rw [heldAfter_append, h.keys, heldAfter_error (by decide) (by decide) herrors]
      exact congrArg heldUsages hstate.symm
    · change heldAfter _ _ _ (differ.written ++ _) = _
      rw [heldAfter_append, h.modifiers, heldAfter_error (by decide) (by decide) herrors]
      exact congrArg heldModifiers hstate.symm
  · obtain ⟨hlength, hresult⟩ := process_committed hrejected
    have hcommitted : (differ.process call).committed = some call.report := if_neg hrejected
    have hstate : (differ.process call).state = stateOf call.report :=
      congrArg (fun result => result.2.2) hresult
    have hwritten : (differ.process call).written =
        differ.written ++ cleanEvents differ.state (stateOf call.report) :=
      congrArg (fun result : Nat × List Transition × ParserState => differ.written ++ result.2.1)
        hresult
    have hkeys : (stateOf call.report).keys.length = keyCount := by
      simp [stateOf, hlength, reportSize, keyCount]
    refine ⟨?_, ?_, ?_, ?_⟩
    · rw [hcommitted]
      exact hstate
    · rw [hstate]
      exact hkeys
    · rw [hwritten, hstate, heldAfter_append, h.keys]
      exact heldAfter_keys h.length hkeys
    · rw [hwritten, hstate, heldAfter_append, h.modifiers]
      exact heldAfter_modifiers h.length hkeys

theorem tells_processAll (calls : List ReportCall) : Tells (processAll calls) := by
  induction calls using List.reverseRecOn with
  | nil => exact tells_start
  | append_singleton calls call ih =>
      rw [processAll, List.foldl_append]
      exact ih.process call

/-- After every sequence of calls the differ stages at most twenty events, keeps its state or
replaces it with an exact difference, and has told what the last committed report holds. -/
theorem boot_reports_exact (calls : List ReportCall) :
    maxEvents = 20 ∧ ExactAfter (processAll calls) := by
  have htells := tells_processAll calls
  refine ⟨rfl, fun report => stagedEvents_length, ?_, ?_, ?_, ?_⟩
  · intro report buffer hrejected
    exact (process_rejected hrejected).1
  · intro report buffer haccepted
    obtain ⟨hlength, hresult⟩ := process_committed haccepted
    have hkeys : (stateOf report).keys.length = keyCount := by
      simp [stateOf, hlength, reportSize, keyCount]
    simp only [hresult]
    exact ⟨trivial, trivial, exactDifference_cleanEvents htells.length hkeys⟩
  · rw [← htells.state]
    exact ⟨rfl, htells.keys, htells.modifiers⟩
  · intro report buffer retry hrejected
    rw [(process_rejected hrejected).1]

end Calls

end EspNp2.KeyboardInput.BootReports
