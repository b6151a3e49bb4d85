import EspNp2.KeyboardInput.UsbEdges
import EspNp2.Library.LittleEndian

/-!
Whole sequences of reports against the HID usage table.  The adapter finds a letter by
counting on from `Key::A`, but the enumeration lists the letters row by row as they lie on
the keyboard, so every letter but A comes out as some other key; all other usages agree
with the table.
-/

namespace EspNp2.KeyboardInput.UsbFidelity

open KeyMapping
open Ownership
open OwnershipInvariant
open OwnershipRuns
open EspNp2.Library.LittleEndian (forall_byte)
open SoleSource
open UsbReports
open UsbEdges

section Table

/-- The letters in the order of their usages. -/
def letters : List Key :=
  [.a, .b, .c, .d, .e, .f, .g, .h, .i, .j, .k, .l, .m, .n, .o, .p, .q, .r, .s, .t, .u, .v, .w, .x,
    .y, .z]

def digits : List Key :=
  [.digit1, .digit2, .digit3, .digit4, .digit5, .digit6, .digit7, .digit8, .digit9, .digit0]

def functionKeys : List Key :=
  [.f1, .f2, .f3, .f4, .f5, .f6, .f7, .f8, .f9, .f10]

/-- The HID usage table: letters in alphabetical order, digits from 1 to 0, function keys,
and the single usages of the adapter's switch. -/
def hidUsage (usage : UInt8) : Option Key :=
  if 0x04 ≤ usage ∧ usage ≤ 0x1d then
    letters[usage.toNat - 0x04]?
  else if 0x1e ≤ usage ∧ usage ≤ 0x27 then
    digits[usage.toNat - 0x1e]?
  else if 0x3a ≤ usage ∧ usage ≤ 0x43 then
    functionKeys[usage.toNat - 0x3a]?
  else
    switchUsage usage

/-- A letter other than A. -/
def misplaced (usage : UInt8) : Bool :=
  0x05 ≤ usage && usage ≤ 0x1d

theorem digit_eq_hidUsage : ∀ n < 10, mapUsage (UInt8.ofNat (n + 0x1e)) =
    hidUsage (UInt8.ofNat (n + 0x1e)) := by
  decide

theorem function_eq_hidUsage : ∀ n < 10, mapUsage (UInt8.ofNat (n + 0x3a)) =
    hidUsage (UInt8.ofNat (n + 0x3a)) := by
  decide

theorem exists_of_range {usage low high : UInt8} (h : low ≤ usage ∧ usage ≤ high) :
    ∃ n ≤ high.toNat - low.toNat, usage = UInt8.ofNat (n + low.toNat) := by
  have hlow := UInt8.le_iff_toNat_le.mp h.1
  have hhigh := UInt8.le_iff_toNat_le.mp h.2
  refine ⟨usage.toNat - low.toNat, by omega, ?_⟩
  rw [Nat.sub_add_cancel hlow, UInt8.ofNat_toNat]

theorem mapUsage_eq_hidUsage {usage : UInt8} (h : misplaced usage = false) :
    mapUsage usage = hidUsage usage := by
  by_cases hletter : 0x04 ≤ usage ∧ usage ≤ 0x1d
  · obtain rfl : usage = 0x04 := by
      by_contra hne
      have hmisplaced : misplaced usage = true := by
        have hlow := UInt8.le_iff_toNat_le.mp hletter.1
        have hne' : usage.toNat ≠ 4 := fun heq => hne (UInt8.toNat_inj.mp heq)
        simp only [misplaced, Bool.and_eq_true, decide_eq_true_eq]
        refine ⟨UInt8.le_iff_toNat_le.mpr ?_, hletter.2⟩
        simp only [UInt8.reduceToNat] at hlow ⊢
        omega
      rw [h] at hmisplaced
      cases hmisplaced
    decide
  · by_cases hdigit : 0x1e ≤ usage ∧ usage ≤ 0x27
    · obtain ⟨n, hn, rfl⟩ := exists_of_range hdigit
      exact digit_eq_hidUsage n (Nat.lt_succ_of_le hn)
    · by_cases hfunction : 0x3a ≤ usage ∧ usage ≤ 0x43
      · obtain ⟨n, hn, rfl⟩ := exists_of_range hfunction
        exact function_eq_hidUsage n (Nat.lt_succ_of_le hn)
      · rw [mapUsage, hidUsage, if_neg hletter, if_neg hletter, if_neg hdigit, if_neg hdigit,
          if_neg hfunction, if_neg hfunction]

/-- The usages of slots that the adapter maps as the table does. -/
def placedUsages : List UInt8 :=
  ((List.range 0xe0).map UInt8.ofNat).filter fun usage =>
    !misplaced usage && (mapUsage usage).isSome

theorem placedUsages_nodup : (placedUsages.map mapUsage).Nodup := by
  decide +kernel

theorem mem_placedUsages {usage : UInt8} {key : Key} (hslot : usage < 0xe0)
    (hplaced : misplaced usage = false) (hmap : mapUsage usage = some key) :
    usage ∈ placedUsages := by
  refine List.mem_filter.mpr ⟨List.mem_map.mpr ⟨usage.toNat, ?_, UInt8.ofNat_toNat⟩, ?_⟩
  · exact List.mem_range.mpr (UInt8.lt_iff_toNat_lt.mp hslot)
  · simp [hplaced, hmap]

theorem mapUsage_injective {usage other : UInt8} {key : Key} (hslot : usage < 0xe0)
    (hplaced : misplaced usage = false) (hmap : mapUsage usage = some key) (hslot' : other < 0xe0)
    (hplaced' : misplaced other = false) (hmap' : mapUsage other = some key) : usage = other :=
  List.inj_on_of_nodup_map placedUsages_nodup (mem_placedUsages hslot hplaced hmap)
    (mem_placedUsages hslot' hplaced' hmap') (hmap.trans hmap'.symm)

/-- What every mapped usage has: no slot holds a modifier's key, the key has a frontend id,
and a letter comes from the usages of the letters. -/
theorem mapUsage_facts {usage : UInt8} {key : Key} (hmap : mapUsage usage = some key) :
    (usage < 0xe0 → key ≠ .leftShift ∧ key ≠ .rightShift ∧ key ≠ .control ∧ key ≠ .grph) ∧
      (toFrontendKeyId key).isSome = true ∧ (key ∈ letters → 0x04 ≤ usage ∧ usage ≤ 0x1d) := by
  have hbyte := forall_byte (p := fun usage => (mapUsage usage).all fun key =>
    (usage < 0xe0 → key ≠ .leftShift ∧ key ≠ .rightShift ∧ key ≠ .control ∧ key ≠ .grph) ∧
      (toFrontendKeyId key).isSome = true ∧ (key ∈ letters → 0x04 ≤ usage ∧ usage ≤ 0x1d))
    (by decide +kernel) usage
  rw [hmap] at hbyte
  exact of_decide_eq_true hbyte

/-- How far the adapter's confusion of the letters can be followed back. -/
def letterRank (usage : UInt8) : Nat :=
  [0, 1, 1, 2, 0, 3, 1, 4, 0, 2, 5, 1, 3, 1, 0, 0, 0, 0, 2, 0, 0, 1, 0, 2, 0, 4].getD
    (usage.toNat - 0x04) 0

theorem hidUsage_letter : ∀ n < 26, n ≠ 0 → ∃ key ∈ letters, hidUsage (UInt8.ofNat (n + 4)) =
    some key := by
  decide +kernel

theorem letter_of_mapUsage {usage : UInt8} {key : Key} (hkey : key ∈ letters)
    (hmap : mapUsage usage = some key) : ∃ n < 26, usage = UInt8.ofNat (n + 4) := by
  obtain ⟨n, hn, husage⟩ := exists_of_range ((mapUsage_facts hmap).2.2 hkey)
  exact ⟨n, Nat.lt_succ_of_le hn, husage⟩

theorem letter_of_misplaced {usage : UInt8} (h : misplaced usage = true) :
    ∃ n < 26, n ≠ 0 ∧ usage = UInt8.ofNat (n + 4) := by
  obtain ⟨hlow, hhigh⟩ := Bool.and_eq_true_iff.mp h
  have hlow' := UInt8.le_iff_toNat_le.mp (of_decide_eq_true hlow)
  have hhigh' := UInt8.le_iff_toNat_le.mp (of_decide_eq_true hhigh)
  simp only [UInt8.reduceToNat] at hlow' hhigh'
  refine ⟨usage.toNat - 4, by omega, by omega, ?_⟩
  rw [Nat.sub_add_cancel (by omega), UInt8.ofNat_toNat]

theorem letter_chain : ∀ n < 26, n ≠ 0 → ∀ m < 26,
    mapUsage (UInt8.ofNat (m + 4)) = hidUsage (UInt8.ofNat (n + 4)) →
      misplaced (UInt8.ofNat (m + 4)) = true ∧
        letterRank (UInt8.ofNat (m + 4)) < letterRank (UInt8.ofNat (n + 4)) := by
  decide +kernel

/-- The key of a misplaced letter is reached, if at all, from another misplaced letter. -/
theorem misplaced_of_reached {usage other : UInt8} {key : Key} (hmisplaced : misplaced usage = true)
    (hkey : hidUsage usage = some key) (hmap : mapUsage other = some key) :
    misplaced other = true ∧ letterRank other < letterRank usage := by
  obtain ⟨n, hn, hzero, rfl⟩ := letter_of_misplaced hmisplaced
  obtain ⟨letter, hletter, hsame⟩ := hidUsage_letter n hn hzero
  obtain rfl : key = letter := Option.some.inj (hkey.symm.trans hsame)
  obtain ⟨m, hm, rfl⟩ := letter_of_mapUsage hletter hmap
  exact letter_chain n hn hzero m hm (hmap.trans hkey.symm)

end Table

section Reports

/-- Eight bytes with the modifiers in the first one only. -/
structure BootReport (report : List UInt8) : Prop where
  length : report.length = reportSize
  usages : ∀ usage ∈ report.drop 2, usage < 0xe0

/-- A report free of error usages. -/
def clean (report : List UInt8) : Bool :=
  !(report.drop 2).any isErrorUsage

def stateOf (report : List UInt8) : ParserState :=
  ⟨report.getD 0 0, report.drop 2⟩

/-- What the last clean report holds; nothing before the first one. -/
def lastState (reports : List (List UInt8)) : ParserState :=
  reports.foldl (fun state report => if clean report then stateOf report else state) {}

variable {report : List UInt8} {keyboard : Keyboard}

theorem wellShaped_stateOf (h : BootReport report) : WellShaped (stateOf report) := by
  refine ⟨?_, h.usages⟩
  simp [stateOf, h.length, reportSize, keyCount]

theorem wellShaped_initial : WellShaped {} := by
  refine ⟨rfl, ?_⟩
  decide +kernel

theorem cleanEvents_length (old new : ParserState) : (cleanEvents old new).length ≤ maxEvents := by
  have hmodifiers : (modifierEvents old.modifiers new.modifiers).length ≤ modifierCount :=
    modifierEvents_length
  have hkeys : ∀ kind keys others, (keyEvents kind keys others new.modifiers).length ≤ keyCount :=
    fun _ _ _ => keyEvents_length
  have hrelease := hkeys .keyRelease old.keys new.keys
  have hpress := hkeys .keyPress new.keys old.keys
  simp only [cleanEvents, List.length_append, maxEvents]
  omega

theorem cleanEvents_no_error {old new : ParserState} (hold : WellShaped old)
    (hnew : WellShaped new) :
    ((cleanEvents old new).any fun transition => transition.kind = .errorUsage) = false := by
  rw [List.any_eq_false]
  intro t ht
  simp only [cleanEvents, List.mem_append, mem_modifierEvents, mem_keyEvents hold.length,
    mem_keyEvents hnew.length] at ht
  rcases ht with (⟨-, bit, -, -, ⟨hkind, -⟩ | ⟨hkind, -⟩⟩ | ⟨hkind, -⟩) | ⟨hkind, -⟩
    <;> simp [hkind]

theorem translateReport_clean {adapter : Adapter} {old new : ParserState}
    (hold : WellShaped old) (hnew : WellShaped new) (hadapter : adapter.modifiers = old.modifiers) :
    ∃ result : TranslationResult, (result.status = .mapped ∨ result.status = .unsupported) ∧
      translateReport adapter (cleanEvents old new) new.modifiers maxNeutralEvents =
        (result, (reportEdges old.modifiers new.modifiers false (cleanEvents old new)).map eventOf,
          ⟨new.modifiers⟩) := by
  have hroom : (([] : List Event) ++ (reportEdges old.modifiers new.modifiers false
      (cleanEvents old new)).map eventOf).length ≤ maxNeutralEvents := by
    simpa using cleanEdges_length
  obtain ⟨s, hstage, hstaged⟩ := stageFrom_eq (s := {}) hroom
  have hlength : s.staged.length ≤ maxNeutralEvents := by
    rw [hstaged]
    exact hroom
  have hreport : stageReport old.modifiers new.modifiers (cleanEvents old new) = some s := hstage
  unfold translateReport
  rw [if_neg (Nat.not_lt.mpr (cleanEvents_length old new)),
    cleanEvents_no_error hold hnew, hadapter, hreport]
  simp only [Bool.false_eq_true, if_false, if_neg (Nat.not_lt.mpr hlength), Prod.mk.injEq]
  refine ⟨_, ?_, rfl, by simpa using hstaged, trivial⟩
  dsimp only
  split
  · exact .inl rfl
  · exact .inr rfl

theorem processInputReport_clean (hreport : BootReport report) (hclean : clean report = true)
    (haccepting : keyboard.accepting = true) (hparser : WellShaped keyboard.parser)
    (hadapter : keyboard.adapter.modifiers = keyboard.parser.modifiers) :
    processInputReport keyboard report =
      { parser := stateOf report
        adapter := ⟨(stateOf report).modifiers⟩
        engine := deliver usbKeyboardSource keyboard.engine
          (reportEdges keyboard.parser.modifiers (stateOf report).modifiers false
            (cleanEvents keyboard.parser (stateOf report)))
        accepting := true } := by
  have hnew := wellShaped_stateOf hreport
  have herror : (report.drop 2).any isErrorUsage = false := by
    simpa [clean] using hclean
  have hstaged : stagedEvents keyboard.parser (report.getD 0 0) (report.drop 2) =
      cleanEvents keyboard.parser (stateOf report) := by
    rw [stagedEvents, herror]
    rfl
  have hparsed : hidBootKeyboardProcess keyboard.parser report maxEvents =
      ((cleanEvents keyboard.parser (stateOf report)).length,
        cleanEvents keyboard.parser (stateOf report), stateOf report) := by
    unfold hidBootKeyboardProcess
    simp only [hreport.length, ne_eq, not_true, if_false, hstaged, herror, Bool.false_eq_true]
    rw [if_neg (Nat.not_lt.mpr (cleanEvents_length _ _))]
    rfl
  obtain ⟨result, hstatus, htranslated⟩ := translateReport_clean hparser hnew hadapter
  change translateReport keyboard.adapter (cleanEvents keyboard.parser (stateOf report))
    (report.getD 0 0) maxNeutralEvents = _ at htranslated
  unfold processInputReport
  simp only [haccepting, hreport.length, hparsed, htranslated, ne_eq, not_true, if_false,
    Bool.true_eq_false]
  rcases hstatus with hstatus | hstatus <;>
    simp [hstatus, deliver, List.foldl_map, eventOf]

theorem processInputReport_error (hreport : BootReport report) (hclean : clean report = false) :
    processInputReport keyboard report = keyboard := by
  have herror : (report.drop 2).any isErrorUsage = true := by
    simpa [clean] using hclean
  have hstaged : stagedEvents keyboard.parser (report.getD 0 0) (report.drop 2) =
      errorEvents (report.drop 2) (report.getD 0 0) := by
    rw [stagedEvents, herror]
    rfl
  have hlength : (errorEvents (report.drop 2) (report.getD 0 0)).length ≤ maxEvents := by
    rw [errorEvents, List.length_map]
    refine (List.length_filter_le _ _).trans ?_
    simp [hreport.length, reportSize, maxEvents, modifierCount, keyCount]
  have hany : ((errorEvents (report.drop 2) (report.getD 0 0)).any
      fun transition => transition.kind = .errorUsage) = true := by
    obtain ⟨usage, hmem, husage⟩ := List.any_eq_true.mp herror
    refine List.any_eq_true.mpr ⟨⟨.errorUsage, usage, report.getD 0 0⟩, ?_, rfl⟩
    exact List.mem_map.mpr ⟨usage, List.mem_filter.mpr ⟨hmem, husage⟩, rfl⟩
  have hparsed : hidBootKeyboardProcess keyboard.parser report maxEvents =
      ((errorEvents (report.drop 2) (report.getD 0 0)).length,
        errorEvents (report.drop 2) (report.getD 0 0), keyboard.parser) := by
    unfold hidBootKeyboardProcess
    simp only [hreport.length, ne_eq, not_true, if_false, hstaged, herror, if_true]
    rw [if_neg (Nat.not_lt.mpr hlength)]
  have htranslated : translateReport keyboard.adapter
      (errorEvents (report.drop 2) (report.getD 0 0)) (report.getD 0 0) maxNeutralEvents =
        ({ status := .errorUsage }, [], keyboard.adapter) := by
    unfold translateReport
    rw [if_neg (Nat.not_lt.mpr hlength), if_pos hany]
  unfold processInputReport
  split
  · rfl
  · simp only [hreport.length, hparsed, htranslated, ne_eq, not_true, if_false, if_true]

end Reports

section Tracking

variable {mode : ShiftMode} {held : Set Key} {old new : ParserState} {keyboard : Keyboard}
  {report : List UInt8} {reports : List (List UInt8)}

/-- The edges of a clean report against the last one. -/
def cleanEdges (old new : ParserState) : List (Key × Action) :=
  reportEdges old.modifiers new.modifiers false (cleanEvents old new)

/-- The keyboard works, remembers the last clean report and holds the given keys. -/
structure Tracks (mode : ShiftMode) (state : ParserState) (held : Set Key) (keyboard : Keyboard) :
    Prop where
  accepting : keyboard.accepting = true
  parser : keyboard.parser = state
  adapter : keyboard.adapter.modifiers = state.modifiers
  sole : Sole usbKeyboardSource mode held keyboard.engine

theorem contactKey_proper {contact : Contact} {key : Key}
    (h : contactKey mapUsage contact = some key) : ∃ mapped, toFrontendKeyId key = some mapped := by
  cases contact with
  | usage usage => exact Option.isSome_iff_exists.mp (mapUsage_facts h).2.1
  | leftShift | rightShift | control | grph =>
      cases h
      exact ⟨_, rfl⟩

theorem cleanEdges_proper (hold : WellShaped old) (hnew : WellShaped new) :
    Proper (cleanEdges old new) := by
  rintro ⟨key, action⟩ hedge
  obtain ⟨contact, hkey, -⟩ := (mem_cleanEdges hold hnew).mp hedge
  exact contactKey_proper hkey

theorem tracks_clean (h : Tracks mode old held keyboard) (hold : WellShaped old)
    (hreport : BootReport report) (hclean : clean report = true) :
    Tracks mode (stateOf report) ((cleanEdges old (stateOf report)).foldl applyEdge held)
      (processInputReport keyboard report) := by
  obtain ⟨haccepting, rfl, hadapter, hsole⟩ := h
  rw [processInputReport_clean hreport hclean haccepting hold hadapter]
  exact ⟨rfl, rfl, rfl, sole_deliver hsole rfl
    (cleanEdges_proper hold (wellShaped_stateOf hreport))⟩

/-- A key that stays held is held by a contact of the report. -/
theorem held_sub (hold : WellShaped old) (hnew : WellShaped new)
    (hheld : held ⊆ heldKeys mapUsage old) :
    (cleanEdges old new).foldl applyEdge held ⊆ heldKeys mapUsage new := by
  intro key hkey
  rcases mem_applyEdges hkey with hpress | ⟨hmem, hrelease⟩
  · obtain ⟨contact, hcontact, -, hdown⟩ := (mem_cleanEdges hold hnew).mp hpress
    exact ⟨contact, hcontact, hdown⟩
  · obtain ⟨contact, hcontact, hdown⟩ := hheld hmem
    refine ⟨contact, hcontact, ?_⟩
    by_contra hup
    exact hrelease ((mem_cleanEdges hold hnew).mpr ⟨contact, hcontact, hdown, hup⟩)

/-- No slot holds a misplaced letter. -/
def Placed (state : ParserState) : Prop :=
  ∀ usage ∈ state.keys, misplaced usage = false

theorem contact_unique {contact other : Contact} {key : Key} (hold : WellShaped old)
    (hnew : WellShaped new) (hplaced : Placed old) (hplaced' : Placed new)
    (hkey : contactKey mapUsage contact = some key) (hdown : down old contact)
    (hkey' : contactKey mapUsage other = some key) (hdown' : down new other) : contact = other := by
  cases contact with
  | usage usage =>
      have hslot := hold.usages usage hdown.1
      cases other with
      | usage usage' =>
          exact congrArg _ (mapUsage_injective hslot (hplaced usage hdown.1) hkey
            (hnew.usages usage' hdown'.1) (hplaced' usage' hdown'.1) hkey')
      | leftShift | rightShift | control | grph =>
          cases hkey'
          have hfacts := (mapUsage_facts hkey).1 hslot
          simp at hfacts
  | leftShift | rightShift | control | grph =>
      cases hkey
      cases other with
      | usage usage' =>
          have hfacts := (mapUsage_facts hkey').1 (hnew.usages usage' hdown'.1)
          simp at hfacts
      | leftShift | rightShift | control | grph =>
          first
          | rfl
          | cases hkey'

theorem not_press_and_release {key : Key} (hold : WellShaped old) (hnew : WellShaped new)
    (hplaced : Placed old) (hplaced' : Placed new) {contact : Contact}
    (hkey : contactKey mapUsage contact = some key) (hdown : down new contact) :
    (key, .release) ∉ cleanEdges old new := by
  intro hrelease
  obtain ⟨other, hother, hdown', hup⟩ := (mem_cleanEdges hold hnew).mp hrelease
  obtain rfl := contact_unique hold hnew hplaced hplaced' hother hdown' hkey hdown
  exact hup hdown

/-- Without misplaced letters the held keys follow the report exactly. -/
theorem held_eq (hold : WellShaped old) (hnew : WellShaped new) (hplaced : Placed old)
    (hplaced' : Placed new) :
    (cleanEdges old new).foldl applyEdge (heldKeys mapUsage old) = heldKeys mapUsage new := by
  refine Set.Subset.antisymm (held_sub hold hnew Set.Subset.rfl) ?_
  rintro key ⟨contact, hkey, hdown⟩
  have hrelease := not_press_and_release hold hnew hplaced hplaced' hkey hdown
  by_cases hbefore : down old contact
  · exact mem_applyEdges_of_down ⟨contact, hkey, hbefore⟩ hrelease
  · exact mem_applyEdges_of_press ((mem_cleanEdges hold hnew).mpr ⟨contact, hkey, hbefore, hdown⟩)
      hrelease

theorem lastState_snoc : lastState (reports ++ [report]) =
    if clean report then stateOf report else lastState reports := by
  simp [lastState]

theorem processReports_snoc : processReports mode (reports ++ [report]) =
    processInputReport (processReports mode reports) report := by
  simp [processReports]

theorem wellShaped_lastState (h : ∀ report ∈ reports, BootReport report) :
    WellShaped (lastState reports) := by
  induction reports using List.reverseRecOn with
  | nil => exact wellShaped_initial
  | append_singleton reports report ih =>
      rw [lastState_snoc]
      split
      · exact wellShaped_stateOf (h report (by simp))
      · exact ih fun other hother => h other (List.mem_append_left _ hother)

theorem heldKeys_initial (map : UInt8 → Option Key) : heldKeys map {} = ∅ := by
  refine Set.eq_empty_iff_forall_notMem.mpr ?_
  rintro key ⟨contact, -, hdown⟩
  cases contact with
  | usage usage => exact hdown.2 (List.eq_of_mem_replicate hdown.1)
  | leftShift | rightShift | control | grph => exact hdown (by decide)

theorem tracks_initial : Tracks mode {} ∅ (processReports mode []) :=
  ⟨rfl, rfl, rfl, sole_initial _ mode⟩

/-- After any reports the keyboard holds no key without a contact. -/
theorem tracks_reports (mode : ShiftMode) (h : ∀ report ∈ reports, BootReport report) :
    ∃ held ⊆ heldKeys mapUsage (lastState reports),
      Tracks mode (lastState reports) held (processReports mode reports) := by
  induction reports using List.reverseRecOn with
  | nil => exact ⟨∅, Set.empty_subset _, tracks_initial⟩
  | append_singleton reports report ih =>
      have hbefore : ∀ report ∈ reports, BootReport report :=
        fun other hother => h other (List.mem_append_left _ hother)
      have hreport := h report (by simp)
      obtain ⟨held, hsub, htracks⟩ := ih hbefore
      rw [processReports_snoc, lastState_snoc]
      cases hclean : clean report with
      | true =>
          exact ⟨_, held_sub (wellShaped_lastState hbefore) (wellShaped_stateOf hreport) hsub,
            tracks_clean htracks (wellShaped_lastState hbefore) hreport hclean⟩
      | false =>
          rw [processInputReport_error hreport hclean]
          exact ⟨held, hsub, htracks⟩

end Tracking

section Fidelity

variable {mode : ShiftMode} {reports : List (List UInt8)} {report : List UInt8}

/-- How often a usage goes down in the clean reports. -/
def downEdges (usage : UInt8) : ParserState → List (List UInt8) → Nat
  | _, [] => 0
  | state, report :: reports =>
      if clean report then
        (decide (usage ∉ state.keys ∧ usage ∈ (stateOf report).keys)).toNat +
          downEdges usage (stateOf report) reports
      else
        downEdges usage state reports

/-- After the reports the sink has pressed what the last clean one holds by the usage table,
the toggles once for each time they went down, and no key twice in a row. -/
structure FaithfulAfter (mode : ShiftMode) (reports : List (List UInt8)) : Prop where
  pressed : ∀ id, momentary id = true →
    (pressed id (processReports mode reports).engine.calls ↔
      Injects mode (heldKeys hidUsage (lastState reports)) id)
  capsLock : (processReports mode reports).engine.calls.count (.press .capsLock) =
    downEdges 0x39 {} reports
  kana : (processReports mode reports).engine.calls.count (.press .kana) =
    downEdges 0x88 {} reports
  alternating : ∀ id, momentary id = true →
    Alternating (edges id (processReports mode reports).engine.calls)

/-- The same after each of the reports. -/
def Faithful (mode : ShiftMode) (reports : List (List UInt8)) : Prop :=
  ∀ n, FaithfulAfter mode (reports.take n)

theorem downEdges_snoc (usage : UInt8) (state : ParserState) :
    downEdges usage state (reports ++ [report]) = downEdges usage state reports +
      if clean report then
        (decide (usage ∉ (reports.foldl (fun state report =>
          if clean report then stateOf report else state) state).keys ∧
            usage ∈ (stateOf report).keys)).toNat
      else 0 := by
  induction reports generalizing state with
  | nil =>
      simp only [List.nil_append, downEdges, List.foldl_nil, Nat.zero_add]
      rfl
  | cons first reports ih =>
      rw [List.cons_append, downEdges, downEdges, List.foldl_cons]
      cases hclean : clean first with
      | true =>
          simp only [if_true, ih]
          rw [Nat.add_assoc]
      | false =>
          simp only [Bool.false_eq_true, if_false]
          exact ih state

theorem heldKeys_placed {state : ParserState} (h : Placed state) :
    heldKeys mapUsage state = heldKeys hidUsage state := by
  ext key
  have hsame : ∀ contact, down state contact →
      contactKey mapUsage contact = contactKey hidUsage contact := by
    intro contact hdown
    cases contact with
    | usage usage => exact mapUsage_eq_hidUsage (h usage hdown.1)
    | leftShift | rightShift | control | grph => rfl
  constructor
  · rintro ⟨contact, hkey, hdown⟩
    exact ⟨contact, (hsame contact hdown).symm.trans hkey, hdown⟩
  · rintro ⟨contact, hkey, hdown⟩
    exact ⟨contact, (hsame contact hdown).trans hkey, hdown⟩

/-- A toggle is down while its usage is in a slot. -/
theorem toggle_mem_heldKeys {state : ParserState} {toggle : Key} {usage : UInt8}
    (hshape : WellShaped state) (hplaced : Placed state) (hmap : mapUsage usage = some toggle)
    (husage : usage < 0xe0 ∧ misplaced usage = false ∧ usage ≠ 0) :
    toggle ∈ heldKeys mapUsage state ↔ usage ∈ state.keys := by
  constructor
  · rintro ⟨contact, hkey, hdown⟩
    have hmodifier := (mapUsage_facts hmap).1 husage.1
    cases contact with
    | usage other =>
        have hother : other = usage := mapUsage_injective (hshape.usages other hdown.1)
          (hplaced other hdown.1) hkey husage.1 husage.2.1 hmap
        exact hother ▸ hdown.1
    | leftShift | rightShift | control | grph =>
        cases hkey
        simp at hmodifier
  · exact fun hmem => ⟨.usage usage, hmap, hmem, husage.2.2⟩

theorem count_toggle_clean {old : ParserState} {keyboard : Keyboard} {toggle : Key}
    {usage : UInt8} {id : FrontendKeyId}
    (h : Tracks mode old (heldKeys mapUsage old) keyboard) (hold : WellShaped old)
    (hreport : BootReport report) (hclean : clean report = true) (hplaced : Placed old)
    (hplaced' : Placed (stateOf report)) (htoggle : isToggleKey toggle = true)
    (hid : toFrontendKeyId toggle = some id) (hmap : mapUsage usage = some toggle)
    (husage : usage < 0xe0 ∧ misplaced usage = false ∧ usage ≠ 0) :
    (processInputReport keyboard report).engine.calls.count (.press id) =
      keyboard.engine.calls.count (.press id) +
        (decide (usage ∉ old.keys ∧ usage ∈ (stateOf report).keys)).toNat := by
  obtain ⟨haccepting, rfl, hadapter, hsole⟩ := h
  have hnew := wellShaped_stateOf hreport
  have hproper := cleanEdges_proper hold hnew
  have hbefore := toggle_mem_heldKeys hold hplaced hmap husage
  have hafter := toggle_mem_heldKeys hnew hplaced' hmap husage
  have hkey : contactKey mapUsage (.usage usage) = some toggle := hmap
  rw [processInputReport_clean hreport hclean haccepting hold hadapter]
  by_cases hfresh : usage ∉ keyboard.parser.keys ∧ usage ∈ (stateOf report).keys
  · rw [decide_eq_true hfresh]
    have hdown : down (stateOf report) (.usage usage) := ⟨hfresh.2, husage.2.2⟩
    refine count_press_deliver_fresh hsole rfl hproper htoggle hid (mt hbefore.mp hfresh.1) ?_
      (not_press_and_release hold hnew hplaced hplaced' hkey hdown)
    exact (mem_cleanEdges hold hnew).mpr ⟨.usage usage, hmap, fun hup => hfresh.1 hup.1, hdown⟩
  · rw [decide_eq_false hfresh]
    refine count_press_deliver_same hsole rfl hproper htoggle hid ?_
    by_cases hdown : usage ∈ (stateOf report).keys
    · have hmem : usage ∈ keyboard.parser.keys := by
        by_contra hup
        exact hfresh ⟨hup, hdown⟩
      exact .inr ⟨hbefore.mpr hmem, not_press_and_release hold hnew hplaced hplaced'
        hkey ⟨hdown, husage.2.2⟩⟩
    · refine .inl fun hpress => ?_
      obtain ⟨contact, hkey, -, hcontact⟩ := (mem_cleanEdges hold hnew).mp hpress
      exact hdown (hafter.mp ⟨contact, hkey, hcontact⟩)

/-- Clean reports without misplaced letters. -/
def AllPlaced (reports : List (List UInt8)) : Prop :=
  ∀ report ∈ reports, clean report = true → Placed (stateOf report)

theorem placed_lastState (h : AllPlaced reports) : Placed (lastState reports) := by
  induction reports using List.reverseRecOn with
  | nil =>
      intro usage hmem
      rw [List.eq_of_mem_replicate hmem]
      rfl
  | append_singleton reports report ih =>
      rw [lastState_snoc]
      split
      · rename_i hclean
        exact h report (by simp) hclean
      · exact ih fun other hother => h other (List.mem_append_left _ hother)

theorem tracks_placed (mode : ShiftMode) (h : ∀ report ∈ reports, BootReport report)
    (hplaced : AllPlaced reports) :
    Tracks mode (lastState reports) (heldKeys mapUsage (lastState reports))
        (processReports mode reports) ∧
      ∀ toggle usage id, isToggleKey toggle = true → toFrontendKeyId toggle = some id →
        mapUsage usage = some toggle → usage < 0xe0 ∧ misplaced usage = false ∧ usage ≠ 0 →
        (processReports mode reports).engine.calls.count (.press id) =
          downEdges usage {} reports := by
  induction reports using List.reverseRecOn with
  | nil =>
      refine ⟨?_, fun _ _ _ _ _ _ _ => rfl⟩
      change Tracks mode {} (heldKeys mapUsage {}) _
      rw [heldKeys_initial]
      exact tracks_initial
  | append_singleton reports report ih =>
      have hbefore : ∀ report ∈ reports, BootReport report :=
        fun other hother => h other (List.mem_append_left _ hother)
      have hplaced' : AllPlaced reports :=
        fun other hother => hplaced other (List.mem_append_left _ hother)
      have hreport := h report (by simp)
      have hold := wellShaped_lastState hbefore
      obtain ⟨htracks, hcount⟩ := ih hbefore hplaced'
      rw [processReports_snoc, lastState_snoc]
      cases hclean : clean report with
      | true =>
          have hnew := hplaced report (by simp) hclean
          have hnext := tracks_clean htracks hold hreport hclean
          rw [held_eq hold (wellShaped_stateOf hreport) (placed_lastState hplaced') hnew] at hnext
          refine ⟨hnext, fun toggle usage id htoggle hid hmap husage => ?_⟩
          rw [count_toggle_clean htracks hold hreport hclean
            (placed_lastState hplaced') hnew htoggle
            hid hmap husage, hcount toggle usage id htoggle hid hmap husage, downEdges_snoc,
            if_pos hclean]
          rfl
      | false =>
          rw [processInputReport_error hreport hclean]
          refine ⟨htracks, fun toggle usage id htoggle hid hmap husage => ?_⟩
          rw [hcount toggle usage id htoggle hid hmap husage, downEdges_snoc, hclean]
          rfl

theorem faithfulAfter_of_placed (h : ∀ report ∈ reports, BootReport report)
    (hplaced : AllPlaced reports) : FaithfulAfter mode reports := by
  obtain ⟨htracks, hcount⟩ := tracks_placed mode h hplaced
  refine ⟨fun id hid => ?_, ?_, ?_, fun id hid => ?_⟩
  · rw [htracks.sole.pressed_iff hid, heldKeys_placed (placed_lastState hplaced)]
  · exact hcount .capsLock 0x39 .capsLock rfl rfl rfl (by decide)
  · exact hcount .kana 0x88 .kana rfl rfl rfl (by decide)
  · exact htracks.sole.consistent.balanced.accounted.alternating id hid

/-- A letter's frontend id is the image of that letter alone, and momentary. -/
theorem letter_id : ∀ key ∈ letters, ∃ id, toFrontendKeyId key = some id ∧
    momentary id = true ∧ isToggleKey key = false ∧ id ≠ .leftShift ∧ id ≠ .rightShift := by
  have hall : ∀ key ∈ letters, (toFrontendKeyId key).any fun id =>
      momentary id && !isToggleKey key && decide (id ≠ .leftShift) && decide
        (id ≠ .rightShift) := by
    decide +kernel
  intro key hkey
  obtain ⟨id, hid, hfacts⟩ := (Option.any_eq_true _ _).mp (hall key hkey)
  simp only [Bool.and_eq_true, Bool.not_eq_true', decide_eq_true_eq] at hfacts
  exact ⟨id, hid, hfacts.1.1.1, hfacts.1.1.2, hfacts.1.2, hfacts.2⟩

theorem toFrontendKeyId_letter {key other : Key} {id : FrontendKeyId} (hkey : key ∈ letters)
    (hid : toFrontendKeyId key = some id) (hother : toFrontendKeyId other = some id) :
    other = key := by
  have hall : ∀ key ∈ letters, ∀ other, toFrontendKeyId other = toFrontendKeyId key →
      other = key := by
    decide +kernel
  exact hall key hkey other (hother.trans hid.symm)

/-- A pressed letter is held by the contact that the adapter takes for it. -/
theorem mem_of_pressed_letter {key : Key} (h : ∀ report ∈ reports, BootReport report)
    (hfaithful : FaithfulAfter mode reports) (hkey : key ∈ letters)
    (hheld : key ∈ heldKeys hidUsage (lastState reports)) :
    ∃ usage ∈ (lastState reports).keys, mapUsage usage = some key := by
  obtain ⟨held, hsub, htracks⟩ := tracks_reports mode h
  obtain ⟨id, hid, hmomentary, htoggle, hleft, hright⟩ := letter_id key hkey
  have heffective : effectiveFrontendKeyId id mode = id := by
    rw [effectiveFrontendKeyId, if_neg fun hcollapse => hright hcollapse.2]
  have hpressed := (hfaithful.pressed id hmomentary).mpr ⟨key, hheld, htoggle, id, hid, heffective⟩
  obtain ⟨other, hother, -, mapped, hmapped, hsame⟩ :=
    (htracks.sole.pressed_iff hmomentary).mp hpressed
  have hmappedid : mapped = id := by
    unfold effectiveFrontendKeyId at hsame
    split at hsame
    · exact absurd hsame.symm hleft
    · exact hsame
  obtain rfl : other = key := toFrontendKeyId_letter hkey hid (hmappedid ▸ hmapped)
  obtain ⟨contact, hcontact, hdown⟩ := hsub hother
  cases contact with
  | usage usage => exact ⟨usage, hdown.1, hcontact⟩
  | leftShift | rightShift | control | grph =>
      cases hcontact
      simp [letters] at hkey

/-- No report that holds a misplaced letter is rendered faithfully. -/
theorem placed_of_faithful (h : ∀ report ∈ reports, BootReport report)
    (hfaithful : FaithfulAfter mode reports) : Placed (lastState reports) := by
  have hchain : ∀ rank, ∀ usage ∈ (lastState reports).keys, misplaced usage = true →
      letterRank usage < rank → False := by
    intro rank
    induction rank with
    | zero => exact fun usage _ _ hrank => absurd hrank (Nat.not_lt_zero _)
    | succ rank ih =>
        intro usage hmem hmisplaced hrank
        obtain ⟨n, hn, hzero, rfl⟩ := letter_of_misplaced hmisplaced
        obtain ⟨key, hkey, hhid⟩ := hidUsage_letter n hn hzero
        have hnonzero : UInt8.ofNat (n + 4) ≠ 0 := by
          intro hnil
          rw [hnil] at hmisplaced
          cases hmisplaced
        obtain ⟨other, hother, hmap⟩ := mem_of_pressed_letter h hfaithful hkey
          ⟨.usage (UInt8.ofNat (n + 4)), hhid, hmem, hnonzero⟩
        obtain ⟨hmisplaced', hlt⟩ := misplaced_of_reached hmisplaced hhid hmap
        exact ih other hother hmisplaced' (by omega)
  intro usage hmem
  rw [← Bool.not_eq_true]
  exact fun hmisplaced => hchain _ usage hmem hmisplaced (Nat.lt_succ_self _)

/-- The keyboard renders a sequence of reports faithfully exactly when no clean report holds
one of the letters B to Z. -/
theorem faithful_iff_placed (mode : ShiftMode) (reports : List (List UInt8))
    (h : ∀ report ∈ reports, BootReport report) :
    Faithful mode reports ↔
      ∀ report ∈ reports, clean report = true → ∀ usage ∈ report.drop 2,
        misplaced usage = false := by
  have htake : ∀ n, ∀ report ∈ reports.take n, BootReport report :=
    fun n report hreport => h report (List.mem_of_mem_take hreport)
  constructor
  · intro hfaithful report hreport hclean
    obtain ⟨n, hn, rfl⟩ := List.getElem_of_mem hreport
    have hplaced := placed_of_faithful (htake (n + 1)) (hfaithful (n + 1))
    rw [List.take_succ_eq_append_getElem hn, lastState_snoc, if_pos hclean] at hplaced
    exact hplaced
  · intro hplaced n
    exact faithfulAfter_of_placed (htake n) fun report hreport =>
      hplaced report (List.mem_of_mem_take hreport)

theorem bootReport_of_slots {modifiers reserved : UInt8} {slots : List UInt8}
    (hlength : slots.length = keyCount) (hslots : ∀ usage ∈ slots, usage < 0xe0) :
    BootReport (modifiers :: reserved :: slots) := by
  refine ⟨?_, hslots⟩
  simp only [List.length_cons, hlength]
  rfl

/-- Shift and A, then CapsLock under an overrun report in between. -/
theorem faithful_shifted_a :
    Faithful .collapsed [[0x02, 0, 0x04, 0, 0, 0, 0, 0], [0, 0, 1, 1, 1, 1, 1, 1],
      [0x20, 0, 0x39, 0x04, 0, 0, 0, 0]] := by
  refine (faithful_iff_placed .collapsed _ fun report hreport => ?_).mpr (by decide +kernel)
  simp only [List.mem_cons, List.not_mem_nil, or_false] at hreport
  rcases hreport with rfl | rfl | rfl <;> exact bootReport_of_slots rfl (by decide +kernel)

/-- A report that holds B has S pressed. -/
theorem not_faithful_b : ¬ Faithful .collapsed [[0, 0, 0x05, 0, 0, 0, 0, 0]] := by
  intro hfaithful
  have hpressed := (hfaithful 1).pressed .b rfl
  have hinjects : Injects .collapsed
      (heldKeys hidUsage (lastState [[0, 0, 0x05, 0, 0, 0, 0, 0]])) .b :=
    ⟨.b, ⟨.usage 0x05, by decide, by decide, by decide⟩, rfl, .b, rfl, rfl⟩
  have hnot :
    ¬ pressed .b (processReports .collapsed [[0, 0, 0x05, 0, 0, 0, 0, 0]]).engine.calls := by
    unfold pressed
    decide +kernel
  exact hnot (hpressed.mpr hinjects)

end Fidelity

end EspNp2.KeyboardInput.UsbFidelity
