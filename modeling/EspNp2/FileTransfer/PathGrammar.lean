import EspNp2.Library.LittleEndian
import EspNp2.Library.Utf8
import EspNp2.StorageBackend.FatfsStorage

/-!
The logical paths that `path.cpp` and `StorageFatfs` accept, as a grammar over byte strings.
-/

namespace EspNp2.FileTransfer.PathGrammar

open EspNp2.FileTransfer.PathValidation
open EspNp2.Library.LittleEndian (forall_byte)
open EspNp2.Library.Utf8
open EspNp2.StorageBackend
open EspNp2.StorageBackend.FatfsStorage (isFatInvalid validatePath makePhysicalPath
  RootConfig kSpiNorRootConfig kSdmmcRootConfig kPhysicalPathBytes)
open EspNp2.StorageBackend.StorageInterface

section Sequences

theorem leadByte_eq (c : UInt8) :
    leadByte c =
      if c.toNat ≤ 0x7f then some (1, c.toNat)
      else if 0xc2 ≤ c.toNat ∧ c.toNat ≤ 0xdf then some (2, c.toNat - 0xc0)
      else if 0xe0 ≤ c.toNat ∧ c.toNat ≤ 0xef then some (3, c.toNat - 0xe0)
      else if 0xf0 ≤ c.toNat ∧ c.toNat ≤ 0xf4 then some (4, c.toNat - 0xf0)
      else none := by
  revert c
  exact forall_byte (by decide +kernel)

/-- A byte `10xxxxxx` appends its six bits. -/
theorem continuation_eq (code : Nat) (next : UInt8) :
    continuation (some code) next =
      if 0x80 ≤ next.toNat ∧ next.toNat < 0xc0 then some (code * 64 + (next.toNat - 0x80))
      else none := by
  have hmark : next &&& 0xc0 ≠ 0x80 ↔ ¬(0x80 ≤ next.toNat ∧ next.toNat < 0xc0) := by
    revert next
    exact forall_byte (by decide +kernel)
  have hbits : (next &&& 0x3f).toNat = next.toNat % 64 := by
    rw [UInt8.toNat_and]
    exact Nat.and_two_pow_sub_one_eq_mod next.toNat 6
  have hbound : next.toNat % 64 < 2 ^ 6 := Nat.mod_lt _ (by decide)
  have hor : code <<< 6 ||| next.toNat % 64 = code * 64 + next.toNat % 64 := by
    rw [← Nat.shiftLeft_add_eq_or_of_lt hbound, Nat.shiftLeft_eq]
  simp only [continuation, hbits, hor]
  by_cases hnext : 0x80 ≤ next.toNat ∧ next.toNat < 0xc0
  · rw [if_neg (fun h => hmark.mp h hnext), if_pos hnext]
    have hlow : next.toNat % 64 = next.toNat - 0x80 := by omega
    rw [hlow]
  · rw [if_pos (hmark.mpr hnext), if_neg hnext]

theorem foldl_continuation_none (bytes : List UInt8) :
    bytes.foldl continuation none = none := by
  induction bytes with
  | nil => rfl
  | cons _ _ ih => exact ih

theorem foldl_continuation {code value : Nat} {next : UInt8} {tail : List UInt8}
    (h : (next :: tail).foldl continuation (some code) = some value) :
    0x80 ≤ next.toNat ∧ next.toNat < 0xc0 ∧
      tail.foldl continuation (some (code * 64 + (next.toNat - 0x80))) = some value := by
  rw [List.foldl_cons, continuation_eq] at h
  split_ifs at h with hnext
  · exact ⟨hnext.1, hnext.2, h⟩
  · rw [foldl_continuation_none] at h
    cases h

theorem continuation_tail (code : Nat) {bits : Nat} (hbits : bits < 64) :
    continuation (some code) (UInt8.ofNat (bits + 0x80)) = some (code * 64 + bits) := by
  have hbyte := toNat_ofNat (n := bits + 0x80) (by omega)
  rw [continuation_eq, if_pos (by omega), hbyte, Nat.add_sub_cancel]

theorem ofNat_eq {n : Nat} (byte : UInt8) (h : n = byte.toNat) : UInt8.ofNat n = byte := by
  rw [h, UInt8.ofNat_toNat]

theorem invalidCode_eq_false_iff {count code : Nat} :
    invalidCode count code = false ↔
      (count = 2 → 0x80 ≤ code) ∧ (count = 3 → 0x800 ≤ code) ∧ (count = 4 → 0x10000 ≤ code) ∧
        code ≤ 0x10ffff ∧ (code < 0xd800 ∨ 0xdfff < code) := by
  simp only [invalidCode, Bool.or_eq_false_iff, Bool.and_eq_false_iff, beq_eq_false_iff_ne,
    decide_eq_false_iff_not]
  constructor
  · rintro ⟨⟨⟨⟨htwo, hthree⟩, hfour⟩, hhigh⟩, hsurrogate⟩
    refine ⟨?_, ?_, ?_, ?_, ?_⟩ <;> omega
  · rintro ⟨htwo, hthree, hfour, hhigh, hsurrogate⟩
    refine ⟨⟨⟨⟨?_, ?_⟩, ?_⟩, ?_⟩, ?_⟩ <;> omega

/-- What the checks of `valid_utf8` let through is the encoding of one character. -/
theorem exists_char_of_sequence {c : UInt8} {tail : List UInt8} {code value : Nat}
    (hlead : leadByte c = some (tail.length + 1, code))
    (hfold : tail.foldl continuation (some code) = some value)
    (hvalid : invalidCode (tail.length + 1) value = false) :
    ∃ k : Char, String.utf8EncodeChar k = c :: tail := by
  rcases invalidCode_eq_false_iff.mp hvalid with ⟨htwo, hthree, hfour, hhigh, hsurrogate⟩
  rcases exists_char hsurrogate hhigh with ⟨k, hk⟩
  refine ⟨k, ?_⟩
  rw [leadByte_eq] at hlead
  split_ifs at hlead with hone' htwo' hthree' hfour' <;>
    simp only [Option.some.injEq, Prod.mk.injEq] at hlead <;>
    rcases hlead with ⟨hlength, rfl⟩
  · obtain rfl := List.length_eq_zero_iff.mp (by omega : tail.length = 0)
    cases hfold
    rcases encode_cases k with ⟨-, h⟩ | ⟨hlow, -⟩ | ⟨hlow, -⟩ | ⟨hlow, -⟩
    · rw [h, hk, UInt8.ofNat_toNat]
    all_goals omega
  · obtain ⟨a, rfl⟩ := List.length_eq_one_iff.mp (by omega : tail.length = 1)
    rcases foldl_continuation hfold with ⟨ha, ha', hvalue⟩
    have hvalue := Option.some.inj hvalue
    rcases encode_cases k with ⟨hlow, -⟩ | ⟨-, -, h⟩ | ⟨hlow, -⟩ | ⟨hlow, -⟩
    · have hleast := htwo rfl
      omega
    · rw [h, hk, ofNat_eq c (by omega), ofNat_eq a (by omega)]
    all_goals omega
  · obtain ⟨a, b, rfl⟩ := List.length_eq_two.mp (by omega : tail.length = 2)
    rcases foldl_continuation hfold with ⟨ha, ha', hfold⟩
    rcases foldl_continuation hfold with ⟨hb, hb', hvalue⟩
    have hvalue := Option.some.inj hvalue
    rcases encode_cases k with ⟨hlow, -⟩ | ⟨-, hlow, -⟩ | ⟨-, -, h⟩ | ⟨hlow, -⟩
    · have hleast := hthree rfl
      omega
    · have hleast := hthree rfl
      omega
    · rw [h, hk, ofNat_eq c (by omega), ofNat_eq a (by omega),
        ofNat_eq b (by omega)]
    · omega
  · obtain ⟨a, b, d, rfl⟩ := List.length_eq_three.mp (by omega : tail.length = 3)
    rcases foldl_continuation hfold with ⟨ha, ha', hfold⟩
    rcases foldl_continuation hfold with ⟨hb, hb', hfold⟩
    rcases foldl_continuation hfold with ⟨hd, hd', hvalue⟩
    have hvalue := Option.some.inj hvalue
    have hleast := hfour rfl
    rcases encode_cases k with ⟨hlow, -⟩ | ⟨-, hlow, -⟩ | ⟨-, hlow, -⟩ | ⟨-, h⟩
    · omega
    · omega
    · omega
    · rw [h, hk, ofNat_eq c (by omega), ofNat_eq a (by omega),
        ofNat_eq b (by omega), ofNat_eq d (by omega)]

/-- The encoding of a character passes the checks of `valid_utf8`. -/
theorem sequence_of_char (k : Char) :
    ∃ c tail code, String.utf8EncodeChar k = c :: tail ∧
      leadByte c = some (tail.length + 1, code) ∧
      tail.foldl continuation (some code) = some k.val.toNat ∧
      invalidCode (tail.length + 1) k.val.toNat = false := by
  rcases char_range k with ⟨hsurrogate, hhigh⟩
  rcases encode_cases k with ⟨hlast, h⟩ | ⟨hlow, hlast, h⟩ | ⟨hlow, hlast, h⟩ | ⟨hlow, h⟩
  · refine ⟨_, _, k.val.toNat, h, ?_, rfl, ?_⟩
    · rw [leadByte_eq, toNat_ofNat (by omega), if_pos hlast]
      rfl
    · rw [invalidCode_eq_false_iff]
      simp only [List.length_nil]
      omega
  · refine ⟨_, _, k.val.toNat / 64, h, ?_, ?_, ?_⟩
    · rw [leadByte_eq, toNat_ofNat (by omega), if_neg (by omega), if_pos (by omega),
        Nat.add_sub_cancel]
      rfl
    · rw [List.foldl_cons, continuation_tail _ (by omega), List.foldl_nil]
      congr 1
      omega
    · rw [invalidCode_eq_false_iff]
      simp only [List.length_cons, List.length_nil]
      omega
  · refine ⟨_, _, k.val.toNat / 4096, h, ?_, ?_, ?_⟩
    · rw [leadByte_eq, toNat_ofNat (by omega), if_neg (by omega), if_neg (by omega),
        if_pos (by omega), Nat.add_sub_cancel]
      rfl
    · rw [List.foldl_cons, continuation_tail _ (by omega), List.foldl_cons,
        continuation_tail _ (by omega), List.foldl_nil]
      congr 1
      omega
    · rw [invalidCode_eq_false_iff]
      simp only [List.length_cons, List.length_nil]
      omega
  · refine ⟨_, _, k.val.toNat / 262144, h, ?_, ?_, ?_⟩
    · rw [leadByte_eq, toNat_ofNat (by omega), if_neg (by omega), if_neg (by omega),
        if_neg (by omega), if_pos (by omega), Nat.add_sub_cancel]
      rfl
    · rw [List.foldl_cons, continuation_tail _ (by omega), List.foldl_cons,
        continuation_tail _ (by omega), List.foldl_cons, continuation_tail _ (by omega),
        List.foldl_nil]
      congr 1
      omega
    · rw [invalidCode_eq_false_iff]
      simp only [List.length_cons, List.length_nil]
      omega

theorem leadByte_pos {c : UInt8} {count code : Nat} (h : leadByte c = some (count, code)) :
    ∃ more, count = more + 1 := by
  unfold leadByte at h
  split_ifs at h <;> cases h
  exacts [⟨0, rfl⟩, ⟨1, rfl⟩, ⟨2, rfl⟩, ⟨3, rfl⟩]

/-- One round of `valid_utf8`: the bytes left begin with a sequence that passes the checks. -/
theorem validUtf8From_cons_iff (rounds : Nat) (c : UInt8) (rest : List UInt8) :
    validUtf8From (rounds + 1) (c :: rest) = true ↔
      ∃ tail left code value, rest = tail ++ left ∧ leadByte c = some (tail.length + 1, code) ∧
        tail.foldl continuation (some code) = some value ∧
        invalidCode (tail.length + 1) value = false ∧ validUtf8From rounds left = true := by
  constructor
  · intro h
    simp only [validUtf8From] at h
    split at h
    · cases h
    · next count code hlead =>
        rcases leadByte_pos hlead with ⟨more, rfl⟩
        split_ifs at h with hcount
        rw [List.length_cons] at hcount
        have hlength : (rest.take more).length = more := by
          rw [List.length_take]
          omega
        simp only [Nat.add_sub_cancel] at h
        split at h
        · cases h
        · next value hfold =>
            split_ifs at h with hinvalid
            refine ⟨rest.take more, rest.drop more, code, value, ?_, ?_, hfold, ?_, h⟩
            · exact (List.take_append_drop more rest).symm
            · rw [hlength, hlead]
            · rw [hlength]
              exact Bool.eq_false_iff.mpr hinvalid
  · rintro ⟨tail, left, code, value, rfl, hlead, hfold, hvalid, h⟩
    have hcount : ¬tail.length + 1 > (c :: (tail ++ left)).length := by
      rw [List.length_cons, List.length_append]
      omega
    simp only [validUtf8From, hlead, if_neg hcount, Nat.add_sub_cancel, List.take_left, hfold,
      hvalid, List.drop_left, h, Bool.false_eq_true, if_false]

/-- The loop of `valid_utf8` accepts exactly the texts. -/
theorem validUtf8From_iff (rounds : Nat) (bytes : List UInt8) (hrounds : bytes.length ≤ rounds) :
    validUtf8From rounds bytes = true ↔ WellFormed bytes := by
  induction rounds generalizing bytes with
  | zero =>
      obtain rfl := List.length_eq_zero_iff.mp (by omega : bytes.length = 0)
      exact iff_of_true rfl wellFormed_nil
  | succ rounds ih =>
      cases bytes with
      | nil => exact iff_of_true rfl wellFormed_nil
      | cons c rest =>
          rw [List.length_cons] at hrounds
          rw [validUtf8From_cons_iff]
          constructor
          · rintro ⟨tail, left, code, value, rfl, hlead, hfold, hvalid, h⟩
            rw [List.length_append] at hrounds
            rcases exists_char_of_sequence hlead hfold hvalid with ⟨k, hk⟩
            rw [← List.cons_append, ← hk]
            exact (wellFormed_char k).append ((ih left (by omega)).mp h)
          · rintro ⟨chars, h⟩
            cases chars with
            | nil => cases h
            | cons k chars =>
                rcases sequence_of_char k with ⟨first, tail, code, hk, hlead, hfold, hvalid⟩
                rw [List.flatMap_cons, hk, List.cons_append, List.cons.injEq] at h
                rcases h with ⟨rfl, rfl⟩
                rw [List.length_append] at hrounds
                exact ⟨tail, _, code, _, rfl, hlead, hfold, hvalid,
                  (ih _ (by omega)).mpr ⟨chars, rfl⟩⟩

theorem validUtf8_iff (bytes : List UInt8) : validUtf8 bytes = true ↔ WellFormed bytes :=
  validUtf8From_iff bytes.length bytes le_rfl

end Sequences

section Components

/-- A name of the grammar. -/
structure Component (name : Path) : Prop where
  length_pos : 1 ≤ name.length
  length_le : name.length ≤ 128
  not_dot : name ≠ bytesOf "."
  not_dotdot : name ≠ bytesOf ".."
  printable : ∀ byte ∈ name, 0x20 ≤ byte ∧ byte ≠ 0x7f
  no_backslash : 0x5c ∉ name
  no_slash : slash ∉ name

/-- The names one after the other, each with a slash before it. -/
def joined (components : List Path) : Path :=
  components.flatMap fun name => slash :: name

/-- A logical path: the root, or at least one name. -/
structure LogicalPath (allowRoot : Bool) (path : Path) : Prop where
  length_le : path.length ≤ 192
  text : WellFormed path
  shape : path = [slash] ∧ allowRoot = true ∨
    ∃ components ≠ [], (∀ name ∈ components, Component name) ∧ path = joined components

/-- The loop that both validators run over the names, for any check of one name. -/
def scan (valid : Path → Bool) : Nat → Path → Bool
  | _, [] => true
  | 0, _ :: _ => false
  | rounds + 1, rest =>
      let component := rest.takeWhile (· != slash)
      if valid component = false then false
      else scan valid rounds (rest.drop (component.length + 1))

theorem validateFrom_eq_scan (rounds : Nat) (rest : Path) :
    PathValidation.validateFrom rounds rest = scan PathValidation.validComponent rounds rest := by
  induction rounds generalizing rest with
  | zero => cases rest <;> rfl
  | succ rounds ih =>
      cases rest with
      | nil => rfl
      | cons c rest => simp only [PathValidation.validateFrom, scan, ih]

theorem fatfs_validateFrom_eq_scan (rounds : Nat) (rest : Path) :
    FatfsStorage.validateFrom rounds rest = scan FatfsStorage.validComponent rounds rest := by
  induction rounds generalizing rest with
  | zero => cases rest <;> rfl
  | succ rounds ih =>
      cases rest with
      | nil => rfl
      | cons c rest =>
          simp only [FatfsStorage.validateFrom, scan, ih]

theorem joined_cons (name : Path) (components : List Path) :
    joined (name :: components) = slash :: (name ++ joined components) :=
  rfl

/-- The bytes before the first slash, and what is left after it. -/
theorem takeWhile_cases (rest : Path) :
    slash ∉ rest.takeWhile (· != slash) ∧
      (rest = rest.takeWhile (· != slash) ∨
        rest = rest.takeWhile (· != slash) ++
          slash :: rest.drop ((rest.takeWhile (· != slash)).length + 1)) := by
  induction rest with
  | nil => exact ⟨List.not_mem_nil, Or.inl rfl⟩
  | cons c rest ih =>
      by_cases hc : c = slash
      · subst hc
        have htake : (slash :: rest).takeWhile (· != slash) = [] := by
          rw [List.takeWhile_cons_of_neg (by simp)]
        rw [htake]
        exact ⟨List.not_mem_nil, Or.inr rfl⟩
      · rw [List.takeWhile_cons_of_pos (by simpa using hc)]
        refine ⟨?_, ih.2.imp (congrArg (c :: ·)) (congrArg (c :: ·))⟩
        rw [List.mem_cons]
        exact not_or.mpr ⟨Ne.symm hc, ih.1⟩

theorem takeWhile_append {name left : Path} (hname : slash ∉ name)
    (hleft : left = [] ∨ left.head? = some slash) :
    (name ++ left).takeWhile (· != slash) = name := by
  have hall : ∀ byte ∈ name, (byte != slash) = true := by
    intro byte hbyte
    rw [bne_iff_ne]
    exact fun h => hname (h ▸ hbyte)
  rw [List.takeWhile_append_of_pos hall]
  rcases hleft with rfl | hleft
  · rw [List.takeWhile_nil, List.append_nil]
  · cases left with
    | nil => cases hleft
    | cons c left =>
        cases hleft
        rw [List.takeWhile_cons_of_neg (by simp), List.append_nil]

theorem scan_succ_iff {valid : Path → Bool} {rounds : Nat} {rest : Path} (hrest : rest ≠ []) :
    scan valid (rounds + 1) rest = true ↔
      valid (rest.takeWhile (· != slash)) = true ∧
        scan valid rounds (rest.drop ((rest.takeWhile (· != slash)).length + 1)) = true := by
  cases rest with
  | nil => exact absurd rfl hrest
  | cons c rest =>
      simp only [scan]
      cases valid ((c :: rest).takeWhile (· != slash)) <;> simp

theorem scan_joined {valid : Path → Bool} (rounds : Nat) (name : Path) (components : List Path)
    (hnames : ∀ other ∈ name :: components, slash ∉ other ∧ valid other = true)
    (hrounds : (name ++ joined components).length ≤ rounds) :
    scan valid rounds (name ++ joined components) = true := by
  induction components generalizing name rounds with
  | nil =>
      have hname := hnames name (List.mem_cons_self ..)
      have htake := takeWhile_append hname.1 (Or.inl rfl : ([] : Path) = [] ∨ _)
      change (name ++ []).length ≤ rounds at hrounds
      change scan valid rounds (name ++ []) = true
      rw [List.append_nil] at htake hrounds ⊢
      cases name with
      | nil => cases rounds <;> rfl
      | cons c name =>
          have hone : 1 ≤ rounds := le_trans (by simp) hrounds
          obtain ⟨left, rfl⟩ := Nat.exists_eq_add_of_le' hone
          rw [scan_succ_iff (by simp), htake]
          refine ⟨hname.2, ?_⟩
          rw [List.drop_eq_nil_of_le (by simp)]
          cases left <;> rfl
  | cons next components ih =>
      have hname := hnames name (List.mem_cons_self ..)
      have htake : (name ++ joined (next :: components)).takeWhile (· != slash) = name :=
        takeWhile_append hname.1 (Or.inr rfl)
      have hlength := hrounds
      rw [joined_cons, List.length_append, List.length_cons] at hlength
      obtain ⟨left, rfl⟩ := Nat.exists_eq_add_of_le' (by omega : 1 ≤ rounds)
      rw [scan_succ_iff (by simp [joined_cons]), htake]
      refine ⟨hname.2, ?_⟩
      rw [List.drop_append, List.drop_eq_nil_of_le (by omega), Nat.add_sub_cancel_left, joined_cons]
      exact ih left next (fun other hother => hnames other (List.mem_cons_of_mem _ hother))
        (by omega)

/-- The loop accepts the names that a check accepts, one after the other. -/
theorem scan_iff {valid : Path → Bool} (rounds : Nat) {rest : Path} (hrounds : rest.length ≤ rounds)
    (hrest : rest ≠ []) (hlast : rest.getLast? ≠ some slash) :
    scan valid rounds rest = true ↔
      ∃ components ≠ [], (∀ name ∈ components, slash ∉ name ∧ valid name = true) ∧
        slash :: rest = joined components := by
  constructor
  · intro h
    induction rounds generalizing rest with
    | zero => exact absurd (List.length_eq_zero_iff.mp (by omega)) hrest
    | succ rounds ih =>
        rcases (scan_succ_iff hrest).mp h with ⟨hvalid, hleft⟩
        rcases takeWhile_cases rest with ⟨hslash, hwhole | hsplit⟩
        · refine ⟨[rest], by simp, ?_, by simp [joined]⟩
          rw [← hwhole] at hslash hvalid
          simpa using ⟨hslash, hvalid⟩
        · generalize rest.drop ((rest.takeWhile (· != slash)).length + 1) = left at hleft hsplit
          have hlength := congrArg List.length hsplit
          rw [List.length_append, List.length_cons] at hlength
          rw [hsplit, List.getLast?_append, List.getLast?_cons] at hlast
          have hsome : left ≠ [] := by
            rintro rfl
            simp at hlast
          have hend : left.getLast? ≠ some slash := by
            intro hend
            simp [hend] at hlast
          rcases ih (by omega) hsome hend hleft with ⟨components, -, hnames, heq⟩
          refine ⟨rest.takeWhile (· != slash) :: components, by simp, ?_, ?_⟩
          · simpa using ⟨⟨hslash, hvalid⟩, hnames⟩
          · rw [joined_cons, ← heq, ← hsplit]
  · rintro ⟨components, hsome, hnames, heq⟩
    cases components with
    | nil => exact absurd rfl hsome
    | cons name components =>
        rw [joined_cons, List.cons.injEq] at heq
        rw [heq.2] at hrounds ⊢
        exact scan_joined rounds name components hnames hrounds

/-- The whole of either validator, for any check of one name. -/
def scanPath (valid : Path → Bool) (path : Path) (allowRoot : Bool) : Bool :=
  if path = [] ∨ path.length > kMaxPathBytes ∨ path.head? ≠ some slash ∨
      validUtf8 path = false then false
  else if path = [slash] then allowRoot
  else if path.getLast? = some slash then false
  else scan valid path.length (path.drop 1)

theorem validate_eq_scanPath (path : Path) (allowRoot : Bool) :
    validate path allowRoot = scanPath PathValidation.validComponent path allowRoot := by
  simp only [validate, scanPath, validateFrom_eq_scan]

theorem validatePath_eq_scanPath (path : Path) (allowRoot : Bool) :
    validatePath path allowRoot = scanPath FatfsStorage.validComponent path allowRoot := by
  simp only [validatePath, scanPath, fatfs_validateFrom_eq_scan]

theorem getLast_joined {components : List Path} (hsome : components ≠ [])
    (hnames : ∀ name ∈ components, slash ∉ name ∧ name ≠ []) :
    (joined components).getLast? ≠ some slash := by
  rw [← List.dropLast_append_getLast hsome]
  have hlast := hnames _ (List.getLast_mem hsome)
  generalize components.getLast hsome = name at hlast ⊢
  intro h
  rw [joined, List.flatMap_append, List.flatMap_singleton, List.getLast?_append,
    List.getLast?_cons] at h
  cases hname : name.getLast? with
  | none => exact hlast.2 (List.getLast?_eq_none_iff.mp hname)
  | some byte =>
      rw [hname] at h
      obtain rfl : byte = slash := by simpa using h
      exact hlast.1 (List.mem_of_getLast? hname)

theorem joined_ne_root {components : List Path} (hsome : components ≠ [])
    (hnames : ∀ name ∈ components, slash ∉ name ∧ name ≠ []) : joined components ≠ [slash] := by
  intro h
  have hlast := getLast_joined hsome hnames
  rw [h] at hlast
  exact hlast rfl

/-- A path is accepted when it is a short text that is the root or made of accepted names. -/
theorem scanPath_iff {valid : Path → Bool} (hvalid : valid [] = false) (path : Path)
    (allowRoot : Bool) :
    scanPath valid path allowRoot = true ↔
      path.length ≤ 192 ∧ WellFormed path ∧
        (path = [slash] ∧ allowRoot = true ∨
          ∃ components ≠ [], (∀ name ∈ components, slash ∉ name ∧ valid name = true) ∧
            path = joined components) := by
  have hnonempty : ∀ {components : List Path},
      (∀ name ∈ components, slash ∉ name ∧ valid name = true) →
        ∀ name ∈ components, slash ∉ name ∧ name ≠ [] := by
    rintro components hnames name hname
    refine ⟨(hnames name hname).1, ?_⟩
    rintro rfl
    rw [(hnames [] hname).2] at hvalid
    cases hvalid
  unfold scanPath
  constructor
  · intro h
    split_ifs at h with hbad hroot hlast
    · simp only [not_or, not_lt, not_not, Bool.not_eq_false, validUtf8_iff] at hbad
      exact ⟨hbad.2.1, hbad.2.2.2, Or.inl ⟨hroot, h⟩⟩
    · simp only [not_or, not_lt, not_not, Bool.not_eq_false, validUtf8_iff] at hbad
      rcases hbad with ⟨-, hlength, hhead, htext⟩
      refine ⟨hlength, htext, Or.inr ?_⟩
      cases path with
      | nil => cases hhead
      | cons c rest =>
          cases hhead
          have hrest : rest ≠ [] := by
            rintro rfl
            exact hroot rfl
          have hend : rest.getLast? ≠ some slash := by
            rw [List.getLast?_cons] at hlast
            intro hend
            simp [hend] at hlast
          exact (scan_iff _ (by simp) hrest hend).mp h
  · rintro ⟨hlength, htext, hshape⟩
    have hbad : ∀ rest, path = slash :: rest → ¬(path = [] ∨ path.length > kMaxPathBytes ∨
        path.head? ≠ some slash ∨ validUtf8 path = false) := by
      rintro rest rfl
      simp only [not_or, not_lt, not_not, Bool.not_eq_false, validUtf8_iff]
      exact ⟨by simp, hlength, rfl, htext⟩
    rcases hshape with ⟨hroot, hallow⟩ | ⟨components, hsome, hnames, heq⟩
    · rw [if_neg (hbad [] hroot), if_pos hroot, hallow]
    · have hcons : ∃ rest, path = slash :: rest := by
        cases components with
        | nil => exact absurd rfl hsome
        | cons name components => exact ⟨_, heq⟩
      rcases hcons with ⟨rest, rfl⟩
      have hroot := joined_ne_root hsome (hnonempty hnames)
      have hlast := getLast_joined hsome (hnonempty hnames)
      rw [← heq] at hroot hlast
      have hrest : rest ≠ [] := fun h => hroot (congrArg (slash :: ·) h)
      have hend : rest.getLast? ≠ some slash := by
        rw [List.getLast?_cons] at hlast
        intro hend
        simp [hend] at hlast
      rw [if_neg (hbad rest rfl), if_neg hroot, if_neg hlast]
      exact (scan_iff _ (by simp) hrest hend).mpr ⟨components, hsome, hnames, heq⟩

end Components

section Validators

theorem text_of_joined {components : List Path} (h : WellFormed (joined components)) :
    ∀ name ∈ components, WellFormed name := by
  induction components with
  | nil => simp
  | cons name components ih =>
      have hascii : slash.toNat < 0x80 := by decide
      have hcut : WellFormed [] ∧ WellFormed (name ++ joined components) := WellFormed.cut hascii h
      have hrest := hcut.2
      have hboth : WellFormed name ∧ WellFormed (joined components) := by
        cases components with
        | nil =>
            rw [← List.append_nil name]
            exact ⟨hrest, wellFormed_nil⟩
        | cons next components =>
            rw [joined_cons] at hrest ⊢
            rcases hrest.cut hascii with ⟨hname, hleft⟩
            exact ⟨hname, (wellFormed_ascii hascii).append hleft⟩
      rw [List.forall_mem_cons]
      exact ⟨hboth.1, ih hboth.2⟩

theorem validComponent_iff (name : Path) :
    slash ∉ name ∧ PathValidation.validComponent name = true ↔ Component name ∧
      WellFormed name := by
  have hbyte : ∀ byte : UInt8, (!(byte == slash || byte == 0x5c || byte == 0x7f || byte < 0x20)) =
      true ↔ byte ≠ slash ∧ byte ≠ 0x5c ∧ byte ≠ 0x7f ∧ 0x20 ≤ byte := by
    intro byte
    simp only [Bool.not_eq_true', Bool.or_eq_false_iff, beq_eq_false_iff_ne,
      decide_eq_false_iff_not, UInt8.not_lt, and_assoc]
  constructor
  · rintro ⟨hslash, h⟩
    unfold PathValidation.validComponent at h
    split_ifs at h with hsize hdots
    simp only [not_or, not_lt, Bool.not_eq_false, validUtf8_iff] at hsize hdots
    simp only [List.all_eq_true, hbyte] at h
    refine ⟨⟨?_, hsize.2.1, hdots.1, hdots.2, ?_, ?_, hslash⟩, hsize.2.2⟩
    · exact List.length_pos_iff.mpr hsize.1
    · intro byte hmem
      exact ⟨(h byte hmem).2.2.2, (h byte hmem).2.2.1⟩
    · intro hmem
      exact (h 0x5c hmem).2.1 rfl
  · rintro ⟨hname, htext⟩
    refine ⟨hname.no_slash, ?_⟩
    unfold PathValidation.validComponent
    rw [if_neg, if_neg]
    · simp only [List.all_eq_true, hbyte]
      rintro byte hmem
      rcases hname.printable byte hmem with ⟨hlow, hdelete⟩
      refine ⟨?_, ?_, hdelete, hlow⟩
      · rintro rfl
        exact hname.no_slash hmem
      · rintro rfl
        exact hname.no_backslash hmem
    · exact not_or.mpr ⟨hname.not_dot, hname.not_dotdot⟩
    · simp only [not_or, not_lt, Bool.not_eq_false, validUtf8_iff]
      exact ⟨List.length_pos_iff.mp hname.length_pos, hname.length_le, htext⟩

theorem fatfs_validComponent_iff (name : Path) :
    FatfsStorage.validComponent name = true ↔
      PathValidation.validComponent name = true ∧ ∀ byte ∈ name, isFatInvalid byte = false := by
  unfold FatfsStorage.validComponent PathValidation.validComponent
  by_cases hsize : name = [] ∨ name.length > kMaxComponentBytes ∨ validUtf8 name = false
  · have hguard : name = [] ∨ name.length > kMaxComponentBytes ∨ validUtf8 name = false ∨
        name = [0x2e] ∨ name = [0x2e, 0x2e] := by
      rcases hsize with h | h | h
      exacts [Or.inl h, Or.inr (Or.inl h), Or.inr (Or.inr (Or.inl h))]
    rw [if_pos hguard, if_pos hsize]
    simp
  · rw [if_neg hsize]
    simp only [not_or] at hsize
    by_cases hdots : name = [0x2e] ∨ name = [0x2e, 0x2e]
    · rw [if_pos (Or.inr (Or.inr (Or.inr hdots))), if_pos hdots]
      simp
    · have hguard : ¬(name = [] ∨ name.length > kMaxComponentBytes ∨ validUtf8 name = false ∨
          name = [0x2e] ∨ name = [0x2e, 0x2e]) := by
        simp only [not_or] at hdots ⊢
        exact ⟨hsize.1, hsize.2.1, hsize.2.2, hdots⟩
      rw [if_neg hdots, if_neg hguard]
      simp only [List.all_eq_true, Bool.not_eq_true', Bool.or_eq_false_iff]
      constructor
      · intro h
        refine ⟨fun byte hmem => ?_, fun byte hmem => (h byte hmem).2⟩
        rcases (h byte hmem).1 with ⟨⟨hplain, hlow⟩, hdelete⟩
        exact ⟨⟨hplain, hdelete⟩, hlow⟩
      · rintro ⟨h, hfat⟩ byte hmem
        rcases h byte hmem with ⟨⟨hplain, hdelete⟩, hlow⟩
        exact ⟨⟨⟨hplain, hlow⟩, hdelete⟩, hfat byte hmem⟩

theorem validate_iff (path : Path) (allowRoot : Bool) :
    validate path allowRoot = true ↔ LogicalPath allowRoot path := by
  rw [validate_eq_scanPath, scanPath_iff rfl]
  constructor
  · rintro ⟨hlength, htext, hroot | ⟨components, hsome, hnames, rfl⟩⟩
    · exact ⟨hlength, htext, Or.inl hroot⟩
    · refine ⟨hlength, htext, Or.inr ⟨components, hsome, fun name hname => ?_, rfl⟩⟩
      exact ((validComponent_iff name).mp (hnames name hname)).1
  · rintro ⟨hlength, htext, hroot | ⟨components, hsome, hnames, rfl⟩⟩
    · exact ⟨hlength, htext, Or.inl hroot⟩
    · refine ⟨hlength, htext, Or.inr ⟨components, hsome, fun name hname => ?_, rfl⟩⟩
      exact (validComponent_iff name).mpr ⟨hnames name hname, text_of_joined htext name hname⟩

/-- The bytes that FAT forbids in a name: `: * ? " < > |`. -/
def fatReserved : List UInt8 := bytesOf ":*?" ++ [0x22] ++ bytesOf "<>|"

theorem isFatInvalid_eq_false_iff (byte : UInt8) :
    isFatInvalid byte = false ↔ byte ∉ fatReserved := by
  revert byte
  exact forall_byte (by decide +kernel)

theorem fat_joined {components : List Path} :
    (∀ byte ∈ joined components, isFatInvalid byte = false) ↔
      ∀ name ∈ components, ∀ byte ∈ name, isFatInvalid byte = false := by
  have hslash : isFatInvalid slash = false := by decide
  simp only [joined, List.mem_flatMap, List.mem_cons]
  constructor
  · intro h name hname byte hbyte
    exact h byte ⟨name, hname, Or.inr hbyte⟩
  · rintro h byte ⟨name, hname, rfl | hbyte⟩
    · exact hslash
    · exact h name hname byte hbyte

theorem validatePath_iff (path : Path) (allowRoot : Bool) :
    validatePath path allowRoot = true ↔
      validate path allowRoot = true ∧ ∀ byte ∈ path, byte ∉ fatReserved := by
  simp only [← isFatInvalid_eq_false_iff]
  rw [validatePath_eq_scanPath, validate_eq_scanPath, scanPath_iff rfl, scanPath_iff rfl]
  constructor
  · rintro ⟨hlength, htext, hroot | ⟨components, hsome, hnames, rfl⟩⟩
    · refine ⟨⟨hlength, htext, Or.inl hroot⟩, ?_⟩
      rw [hroot.1, List.forall_mem_singleton]
      decide
    · simp only [fatfs_validComponent_iff, ← and_assoc] at hnames
      refine ⟨⟨hlength, htext, Or.inr ⟨components, hsome, ?_, rfl⟩⟩, fat_joined.mpr ?_⟩
      · exact fun name hname => (hnames name hname).1
      · exact fun name hname => (hnames name hname).2
  · rintro ⟨⟨hlength, htext, hroot | ⟨components, hsome, hnames, rfl⟩⟩, hfat⟩
    · exact ⟨hlength, htext, Or.inl hroot⟩
    · refine ⟨hlength, htext, Or.inr ⟨components, hsome, fun name hname => ?_, rfl⟩⟩
      rw [fatfs_validComponent_iff]
      exact ⟨(hnames name hname).1, (hnames name hname).2, fat_joined.mp hfat name hname⟩

end Validators

section PhysicalPaths

theorem splitOn_joined (root : Path) {components : List Path}
    (hnames : ∀ name ∈ components, slash ∉ name) :
    (root ++ joined components).splitOn slash = root.splitOn slash ++ components := by
  induction components generalizing root with
  | nil => simp [joined]
  | cons name components ih =>
      rw [List.forall_mem_cons] at hnames
      rw [joined_cons, List.splitOn_append_cons_self, ih name hnames.2,
        List.splitOn_eq_singleton hnames.1, List.singleton_append]

/-- Below the root of the files every component is a name of the path. -/
theorem physical_components {allowRoot : Bool} {path physical : Path} {roots : RootConfig}
    (h : LogicalPath allowRoot path) (hphysical : makePhysicalPath roots path = some physical) :
    roots.fileTransferRoot <+: physical ∧
      (bytesOf ".." ∈ physical.splitOn slash →
        bytesOf ".." ∈ roots.fileTransferRoot.splitOn slash) := by
  simp only [makePhysicalPath, Option.ite_none_left_eq_some, Option.some.injEq] at hphysical
  rcases hphysical with ⟨-, rfl⟩
  by_cases hroot : path = [slash]
  · rw [if_pos hroot]
    exact ⟨List.prefix_rfl, id⟩
  · rw [if_neg hroot]
    refine ⟨List.prefix_append .., ?_⟩
    rcases h.shape with ⟨hpath, -⟩ | ⟨components, -, hnames, rfl⟩
    · exact absurd hpath hroot
    · rw [splitOn_joined _ fun name hname => (hnames name hname).no_slash, List.mem_append]
      rintro (hmem | hmem)
      · exact hmem
      · exact absurd rfl (hnames _ hmem).not_dotdot

theorem shipped_room {roots : RootConfig} (hroots : roots ∈ [kSpiNorRootConfig, kSdmmcRootConfig]) :
    roots.fileTransferRoot.length ≤ 14 ∧ bytesOf ".." ∉ roots.fileTransferRoot.splitOn slash := by
  rw [List.mem_cons, List.mem_singleton] at hroots
  rcases hroots with rfl | rfl <;> decide

/-- The two validators accept the logical paths, the one of the file system those without the
bytes that FAT reserves; what an accepted path stands for lies below the root of the files. -/
theorem path_validation_grammar (path : Path) (allowRoot : Bool) :
    (validate path allowRoot = true ↔ LogicalPath allowRoot path) ∧
    (validatePath path allowRoot = true ↔
      validate path allowRoot = true ∧ ∀ byte ∈ path, byte ∉ fatReserved) ∧
    (validatePath path allowRoot = true →
      (∀ roots physical, makePhysicalPath roots path = some physical →
        roots.fileTransferRoot <+: physical ∧
          (bytesOf ".." ∈ physical.splitOn slash →
            bytesOf ".." ∈ roots.fileTransferRoot.splitOn slash)) ∧
      ∀ roots ∈ [kSpiNorRootConfig, kSdmmcRootConfig], ∃ physical,
        makePhysicalPath roots path = some physical ∧ roots.fileTransferRoot <+: physical ∧
          bytesOf ".." ∉ physical.splitOn slash) := by
  refine ⟨validate_iff path allowRoot, validatePath_iff path allowRoot, fun h => ?_⟩
  have hpath := (validate_iff path allowRoot).mp ((validatePath_iff path allowRoot).mp h).1
  refine ⟨fun roots physical hphysical => physical_components hpath hphysical, ?_⟩
  intro roots hroots
  rcases shipped_room hroots with ⟨hlength, hdots⟩
  have hphysical : ∃ physical, makePhysicalPath roots path = some physical := by
    have hbound := hpath.length_le
    refine ⟨_, if_neg (not_le.mpr ?_)⟩
    split_ifs
    · exact lt_of_le_of_lt hlength (by decide)
    · rw [List.length_append]
      exact lt_of_le_of_lt (Nat.add_le_add hlength hbound) (by decide)
  rcases hphysical with ⟨physical, hphysical⟩
  rcases physical_components hpath hphysical with ⟨hbelow, hdotdot⟩
  exact ⟨physical, hphysical, hbelow, fun h => hdots (hdotdot h)⟩

/-- The path `/a/é`. -/
theorem path_validation_grammar_accent :
    LogicalPath false [0x2f, 0x61, 0x2f, 0xc3, 0xa9] ∧
      makePhysicalPath kSpiNorRootConfig [0x2f, 0x61, 0x2f, 0xc3, 0xa9] ≠ none := by
  rcases path_validation_grammar [0x2f, 0x61, 0x2f, 0xc3, 0xa9] false with ⟨hgrammar, -, hphysical⟩
  refine ⟨hgrammar.mp (by decide), ?_⟩
  rcases (hphysical (by decide)).2 kSpiNorRootConfig (List.mem_cons_self ..) with ⟨_, h, -⟩
  rw [h]
  exact Option.some_ne_none _

end PhysicalPaths

end EspNp2.FileTransfer.PathGrammar
