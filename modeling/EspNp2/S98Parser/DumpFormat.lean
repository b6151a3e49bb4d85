import EspNp2.Library.ByteReader
import EspNp2.Library.LittleEndian
import EspNp2.S98Parser.PullParser

/-!
The dump of an S98 file: its commands, the bytes they are written with and the bytes of a whole
dump. The scan of the parser accepts the bytes of a dump and nothing else.
-/

namespace EspNp2.S98Parser.DumpFormat

open EspNp2.Library.ByteReader
open EspNp2.S98Parser.PullParser

/-- A write to the first or to the second half of the device, one sync, or a wait. -/
inductive Command where
  | write (reg value : UInt8)
  | extended (reg value : UInt8)
  | sync
  | wait (value : ℕ)
deriving DecidableEq, Repr

/-- What a command adds to the syncs. -/
def Command.syncs : Command → ℕ
  | .write _ _ => 0
  | .extended _ _ => 0
  | .sync => 1
  | .wait value => value + 2

inductive Encoded : Command → List UInt8 → Prop where
  | write (reg value : UInt8) : Encoded (.write reg value) [0x00, reg, value]
  | extended (reg value : UInt8) : Encoded (.extended reg value) [0x01, reg, value]
  | sync : Encoded .sync [0xff]
  | wait {value : ℕ} {bytes : List UInt8} (number : Base128 bytes value)
      (length_le : bytes.length ≤ 10) (value_lt : value + 2 < 2 ^ 64) :
      Encoded (.wait value) (0xfe :: bytes)

inductive Dump : List Command → List UInt8 → Prop where
  | stop : Dump [] [0xfd]
  | command {command : Command} {commands : List Command} {first rest : List UInt8}
      (head : Encoded command first) (tail : Dump commands rest) :
      Dump (command :: commands) (first ++ rest)

theorem Encoded.length_pos {command : Command} {bytes : List UInt8} (h : Encoded command bytes) :
    0 < bytes.length := by
  cases h with
  | write _ _ => exact Nat.succ_pos _
  | extended _ _ => exact Nat.succ_pos _
  | sync => exact Nat.succ_pos _
  | wait _ _ _ => exact Nat.succ_pos _

theorem Dump.length_commands {commands : List Command} {bytes : List UInt8}
    (h : Dump commands bytes) : commands.length < bytes.length := by
  induction h with
  | stop => exact Nat.one_pos
  | command head _ ih =>
      have := head.length_pos
      rw [List.length_append, List.length_cons]
      omega

theorem Dump.length_pos {commands : List Command} {bytes : List UInt8} (h : Dump commands bytes) :
    0 < bytes.length :=
  Nat.zero_lt_of_lt h.length_commands

section Varint

theorem payload_toNat (byte : UInt8) : (byte &&& 0x7f).toUInt64.toNat = byte.toNat % 128 := by
  rw [UInt8.toNat_toUInt64, UInt8.toNat_and]
  exact Nat.and_two_pow_sub_one_eq_mod byte.toNat 7

theorem last_iff (byte : UInt8) : (byte &&& 0x80 == 0) = decide (byte.toNat < 128) := by
  revert byte
  apply EspNp2.Library.LittleEndian.forall_byte
  decide +kernel

/-- The bits of a byte are put above the bits read so far. -/
theorem or_payload {decoded : UInt64} (payload : UInt64) {shift : ℕ} (hshift : shift < 64)
    (hdecoded : decoded.toNat < 2 ^ shift) (hfits : payload.toNat * 2 ^ shift < 2 ^ 64) :
    (decoded ||| (payload <<< UInt64.ofNat shift)).toNat =
      decoded.toNat + 2 ^ shift * payload.toNat := by
  have hword : (UInt64.ofNat shift).toNat = shift :=
    UInt64.toNat_ofNat_of_lt' (Nat.lt_trans hshift (by decide))
  rw [UInt64.toNat_or, UInt64.toNat_shiftLeft, hword, Nat.mod_eq_of_lt hshift, Nat.shiftLeft_eq,
    Nat.mod_eq_of_lt hfits, Nat.mul_comm payload.toNat, Nat.or_comm,
    ← Nat.two_pow_add_eq_or_of_lt hdecoded, Nat.add_comm]

theorem place_succ (k : ℕ) : 2 ^ (7 * (k + 1)) = 2 ^ (7 * k) * 128 := by
  rw [Nat.mul_add, Nat.pow_add]

/-- The guard of the loop is about the place and the number. -/
theorem guard_iff {k : ℕ} (hk : k ≤ 10) (byte : UInt8) :
    (decide (7 * k > 63) || (7 * k == 63 && decide ((byte &&& 0x7f).toUInt64 > 1))) = false ↔
      k < 10 ∧ byte.toNat % 128 * 2 ^ (7 * k) < 2 ^ 64 := by
  have hgt : (byte &&& 0x7f).toUInt64 > 1 ↔ 1 < byte.toNat % 128 := by
    rw [← payload_toNat]
    exact Iff.rfl
  have hmod : byte.toNat % 128 < 128 := Nat.mod_lt _ (by decide)
  rw [Bool.or_eq_false_iff, Bool.and_eq_false_imp, decide_eq_false_iff_not, decide_eq_false_iff_not,
    beq_iff_eq, hgt]
  constructor
  · rintro ⟨hlow, hnine⟩
    refine ⟨by omega, ?_⟩
    by_cases hlast : 7 * k = 63
    · rw [hlast]
      have := hnine hlast
      omega
    · have hpow : 2 ^ (7 * k) ≤ 2 ^ 56 := Nat.pow_le_pow_right (by decide) (by omega)
      calc byte.toNat % 128 * 2 ^ (7 * k)
          ≤ byte.toNat % 128 * 2 ^ 56 := Nat.mul_le_mul_left _ hpow
        _ < 2 ^ 64 := by omega
  · rintro ⟨hk, hfits⟩
    refine ⟨by omega, fun hlast => ?_⟩
    rw [hlast] at hfits
    omega

/-- The loop ends without a value or has read a number, the bytes of which stand there. -/
theorem decodeVarintLoop_cases {memory : List UInt8} {left cursor k : ℕ} {decoded : UInt64}
    (hread : cursor + left ≤ memory.length) (hk : k ≤ 10)
    (hdecoded : k < 10 → decoded.toNat < 2 ^ (7 * k)) :
    ∃ next value, decodeVarintLoop memory left cursor decoded (7 * k) = some (next, value) ∧
      next ≤ cursor + left ∧ ∀ result, value = some result → ∃ bytes number,
        Stands memory cursor bytes ∧ next = cursor + bytes.length ∧ Base128 bytes number ∧
        k + bytes.length ≤ 10 ∧ result.toNat = decoded.toNat + 2 ^ (7 * k) * number := by
  induction left generalizing cursor decoded k with
  | zero => exact ⟨cursor, none, rfl, le_rfl, fun _ h => by cases h⟩
  | succ left ih =>
      have hcursor : cursor < memory.length := by omega
      have hbyte : memory[cursor]? = some memory[cursor] := List.getElem?_eq_getElem hcursor
      generalize memory[cursor] = byte at hbyte
      unfold decodeVarintLoop
      simp only [hbyte, Option.bind_eq_bind, Option.bind_some]
      split
      · exact ⟨cursor + 1, none, rfl, by omega, fun _ h => by cases h⟩
      · rename_i hguard
        obtain ⟨hlow, hfits⟩ := (guard_iff hk byte).mp (Bool.eq_false_iff.mpr hguard)
        have hsum := or_payload (byte &&& 0x7f).toUInt64 (by omega : 7 * k < 64)
          (hdecoded hlow) (by rw [payload_toNat]; exact hfits)
        rw [payload_toNat] at hsum
        rw [last_iff]
        split
        · rename_i hlast
          refine ⟨cursor + 1, _, rfl, by omega, ?_⟩
          rintro result ⟨rfl⟩
          have hlast := of_decide_eq_true hlast
          refine ⟨[byte], byte.toNat, stands_cons_iff.mpr ⟨hbyte, stands_nil _ _⟩, rfl,
            Base128.last hlast, hlow, ?_⟩
          rw [hsum, Nat.mod_eq_of_lt hlast]
        · rename_i hmore
          have hmore : 128 ≤ byte.toNat := by
            rw [decide_eq_true_eq] at hmore
            omega
          have hpow := place_succ k
          have hmod : byte.toNat % 128 < 128 := Nat.mod_lt _ (by decide)
          obtain ⟨next, value, hrun, hnext, hvalue⟩ :=
            @ih (cursor + 1) (k + 1) _ (by omega) hlow (fun _ => by
              rw [hsum, hpow]
              have := hdecoded hlow
              have := Nat.mul_le_mul_left (2 ^ (7 * k)) (by omega : byte.toNat % 128 ≤ 127)
              omega)
          refine ⟨next, value, hrun, by omega, ?_⟩
          intro result hresult
          obtain ⟨bytes, number, hstands, hlength, hnumber, hbound, heq⟩ := hvalue result hresult
          refine ⟨byte :: bytes, byte.toNat % 128 + 128 * number,
            stands_cons_iff.mpr ⟨hbyte, hstands⟩, ?_, Base128.more hmore hnumber, ?_, ?_⟩
          · rw [hlength, List.length_cons]
            omega
          · rw [List.length_cons]
            omega
          · rw [heq, hsum, hpow, Nat.mul_add, Nat.mul_assoc, Nat.add_assoc]

/-- A number that is a word is read where its bytes stand. -/
theorem decodeVarintLoop_eq {memory bytes : List UInt8} {number left cursor k : ℕ}
    {decoded : UInt64} (hnumber : Base128 bytes number) (hstands : Stands memory cursor bytes)
    (hleft : bytes.length ≤ left) (hk : k + bytes.length ≤ 10)
    (hdecoded : decoded.toNat < 2 ^ (7 * k))
    (hfits : decoded.toNat + 2 ^ (7 * k) * number < 2 ^ 64) :
    decodeVarintLoop memory left cursor decoded (7 * k) =
      some (cursor + bytes.length, some (UInt64.ofNat (decoded.toNat + 2 ^ (7 * k) * number))) := by
  induction hnumber generalizing left cursor decoded k with
  | @last byte hlast =>
      obtain ⟨left, rfl⟩ : ∃ rest, left = rest + 1 := Nat.exists_eq_add_one.mpr hleft
      obtain ⟨hbyte, -⟩ := stands_cons_iff.mp hstands
      rw [List.length_singleton] at hk
      have hmod : byte.toNat % 128 = byte.toNat := Nat.mod_eq_of_lt hlast
      have hplace : byte.toNat % 128 * 2 ^ (7 * k) < 2 ^ 64 := by
        rw [hmod, Nat.mul_comm]
        omega
      have hsum := or_payload (byte &&& 0x7f).toUInt64 (by omega : 7 * k < 64) hdecoded
        (by rw [payload_toNat]; exact hplace)
      unfold decodeVarintLoop
      simp only [hbyte, Option.bind_eq_bind, Option.bind_some]
      rw [(guard_iff (by omega) byte).mpr ⟨by omega, hplace⟩, last_iff, decide_eq_true hlast]
      rw [payload_toNat, hmod] at hsum
      simp only [Bool.false_eq_true, ↓reduceIte, List.length_singleton, ← hsum, UInt64.ofNat_toNat]
  | @more byte bytes number hmore hrest ih =>
      obtain ⟨left, rfl⟩ : ∃ rest, left = rest + 1 :=
        Nat.exists_eq_add_one.mpr (Nat.lt_of_lt_of_le (Nat.succ_pos _) hleft)
      obtain ⟨hbyte, hstands⟩ := stands_cons_iff.mp hstands
      rw [List.length_cons] at hleft hk ⊢
      have hpow := place_succ k
      have hmod : byte.toNat % 128 < 128 := Nat.mod_lt _ (by decide)
      have hexpand : 2 ^ (7 * k) * (byte.toNat % 128 + 128 * number) =
          2 ^ (7 * k) * (byte.toNat % 128) + 2 ^ (7 * (k + 1)) * number := by
        rw [hpow, Nat.mul_add, Nat.mul_assoc]
      rw [hexpand] at hfits ⊢
      have hplace : byte.toNat % 128 * 2 ^ (7 * k) < 2 ^ 64 := by
        rw [Nat.mul_comm]
        omega
      have hsum := or_payload (byte &&& 0x7f).toUInt64 (by omega : 7 * k < 64) hdecoded
        (by rw [payload_toNat]; exact hplace)
      rw [payload_toNat] at hsum
      unfold decodeVarintLoop
      simp only [hbyte, Option.bind_eq_bind, Option.bind_some]
      rw [(guard_iff (by omega) byte).mpr ⟨by omega, hplace⟩, last_iff,
        decide_eq_false (by omega)]
      simp only [Bool.false_eq_true, ↓reduceIte]
      have hnext := @ih left (cursor + 1) (k + 1)
        (decoded ||| (byte &&& 0x7f).toUInt64 <<< UInt64.ofNat (7 * k)) hstands
        (by omega) (by omega)
        (by
          rw [hsum, hpow]
          have := Nat.mul_le_mul_left (2 ^ (7 * k)) (by omega : byte.toNat % 128 ≤ 127)
          omega)
        (by rw [hsum]; omega)
      rw [hsum] at hnext
      refine hnext.trans ?_
      rw [Nat.add_assoc decoded.toNat, Nat.add_assoc cursor, Nat.add_comm 1]

theorem decodeVarint_cases {memory : List UInt8} {size cursor : ℕ} (hsize : size ≤ memory.length)
    (hcursor : cursor ≤ size) :
    ∃ next value, decodeVarint memory size cursor = some (next, value) ∧ next ≤ size ∧
      ∀ result, value = some result → ∃ bytes,
        Stands memory cursor bytes ∧ next = cursor + bytes.length ∧
        Base128 bytes result.toNat ∧ bytes.length ≤ 10 := by
  obtain ⟨next, value, hrun, hnext, hvalue⟩ :=
    @decodeVarintLoop_cases memory (size - cursor) cursor 0 0 (by omega) (by omega)
      (fun _ => by decide)
  refine ⟨next, value, hrun, by omega, ?_⟩
  intro result hresult
  obtain ⟨bytes, number, hstands, hlength, hnumber, hbound, heq⟩ := hvalue result hresult
  have heq : result.toNat = number := by
    rw [heq]
    change 0 + 1 * number = number
    omega
  exact ⟨bytes, hstands, hlength, by rwa [heq], by omega⟩

theorem decodeVarint_eq {memory bytes : List UInt8} {number size cursor : ℕ}
    (hnumber : Base128 bytes number) (hstands : Stands memory cursor bytes)
    (hsize : cursor + bytes.length ≤ size) (hlength : bytes.length ≤ 10)
    (hfits : number < 2 ^ 64) :
    decodeVarint memory size cursor =
      some (cursor + bytes.length, some (UInt64.ofNat number)) := by
  have hsum : (0 : UInt64).toNat + 2 ^ (7 * 0) * number = number := by
    change 0 + 1 * number = number
    omega
  have hrun := @decodeVarintLoop_eq memory bytes number (size - cursor) cursor 0 0 hnumber hstands
    (by omega) (by omega) (by decide) (by rwa [hsum])
  rwa [hsum] at hrun

theorem wait_guard_iff {rawWait : UInt64} :
    rawWait > 0xffffffffffffffff - 2 ↔ 2 ^ 64 ≤ rawWait.toNat + 2 := by
  have hmax : (0xffffffffffffffff - 2 : UInt64).toNat = 2 ^ 64 - 3 := rfl
  rw [gt_iff_lt, UInt64.lt_iff_toNat_lt, hmax]
  omega

end Varint

section Preflight

/-- What the scan can end with: an error, the end of the file, or a dump. -/
inductive Scanned (memory : List UInt8) (parser : Parser) (cursor : ℕ) :
    Int32 × Parser × Bool → Prop where
  | failed (category : ResultCategory) (error : Error) (flag : Bool)
      (hcategory : category ≠ .pass) :
      Scanned memory parser cursor
        (-1, { parser with resultCategory := category, error := error }, flag)
  | unfinished (flag : Bool) : Scanned memory parser cursor (0, parser, flag)
  | dump {commands : List Command} {bytes : List UInt8} (flag : Bool) (dump : Dump commands bytes)
      (stands : Stands memory cursor bytes) :
      Scanned memory parser cursor (0, { parser with dumpEnd := cursor + bytes.length }, flag)

theorem Scanned.cons {memory bytes : List UInt8} {parser : Parser} {cursor : ℕ}
    {command : Command} {result : Int32 × Parser × Bool} (h : Encoded command bytes)
    (hstands : Stands memory cursor bytes)
    (hscanned : Scanned memory parser (cursor + bytes.length) result) :
    Scanned memory parser cursor result := by
  cases hscanned with
  | failed category error flag hcategory => exact .failed category error flag hcategory
  | unfinished flag => exact .unfinished flag
  | @dump commands rest flag hdump hfollow =>
      rw [Nat.add_assoc, ← List.length_append]
      exact .dump flag (.command h hdump) (stands_append_iff.mpr ⟨hstands, hfollow⟩)

/-- The scan ends, and it reads nothing outside the file. -/
theorem preflightLoop_scanned {memory : List UInt8} {parser : Parser} {passes cursor : ℕ}
    (flag : Bool) (hsize : parser.size = memory.length) (hcursor : cursor ≤ parser.size)
    (hpasses : parser.size < cursor + passes) :
    ∃ result, preflightLoop memory passes parser cursor flag = some result ∧
      Scanned memory parser cursor result := by
  induction passes generalizing cursor flag with
  | zero => omega
  | succ passes ih =>
      unfold preflightLoop
      split
      · rename_i hlt
        have hbyte : memory[cursor]? = some memory[cursor] := List.getElem?_eq_getElem _
        generalize memory[cursor] = command at hbyte
        simp only [hbyte, Option.bind_eq_bind, Option.bind_some]
        generalize (flag || _) = flag
        split
        · rename_i hwrite
          split
          · exact ⟨_, rfl, .failed .malformed .truncated flag (by decide)⟩
          · rename_i hroom
            obtain ⟨reg, hreg⟩ : ∃ reg, memory[cursor + 1]? = some reg :=
              ⟨_, List.getElem?_eq_getElem (by omega)⟩
            obtain ⟨value, hvalue⟩ : ∃ value, memory[cursor + 1 + 1]? = some value :=
              ⟨_, List.getElem?_eq_getElem (by omega)⟩
            obtain ⟨result, hrun, hscanned⟩ := @ih (cursor + 1 + 2) flag (by omega)
              (by omega)
            have hstands (first : UInt8) (h : memory[cursor]? = some first) :
                Stands memory cursor [first, reg, value] :=
              stands_cons_iff.mpr ⟨h, stands_cons_iff.mpr
                ⟨hreg, stands_cons_iff.mpr ⟨hvalue, stands_nil _ _⟩⟩⟩
            refine ⟨result, hrun, ?_⟩
            rcases Bool.or_eq_true_iff.mp hwrite with hfirst | hsecond
            · rw [eq_of_beq hfirst] at hbyte
              exact .cons (.write reg value) (hstands 0x00 hbyte) hscanned
            · rw [eq_of_beq hsecond] at hbyte
              exact .cons (.extended reg value) (hstands 0x01 hbyte) hscanned
        · split
          · rename_i hsync
            rw [eq_of_beq hsync] at hbyte
            obtain ⟨result, hrun, hscanned⟩ := @ih (cursor + 1) flag (by omega) (by omega)
            exact ⟨result, hrun,
              .cons .sync (stands_cons_iff.mpr ⟨hbyte, stands_nil _ _⟩) hscanned⟩
          · split
            · rename_i hwait
              rw [eq_of_beq hwait] at hbyte
              obtain ⟨next, value, hrun, hnext, hvalue⟩ :=
                decodeVarint_cases (le_of_eq hsize) (by omega : cursor + 1 ≤ parser.size)
              simp only [hrun, Option.bind_some]
              cases value with
              | none => exact ⟨_, rfl, .failed .malformed .varint flag (by decide)⟩
              | some number =>
                  obtain ⟨bytes, hstands, rfl, hnumber, hlength⟩ := hvalue number rfl
                  dsimp only
                  split
                  · exact ⟨_, rfl, .failed .malformed .varint flag (by decide)⟩
                  · rename_i hfits
                    have hfits : number.toNat + 2 < 2 ^ 64 :=
                      not_le.mp fun h => hfits (wait_guard_iff.mpr h)
                    obtain ⟨result, hrun, hscanned⟩ :=
                      @ih (cursor + 1 + bytes.length) flag hnext (by omega)
                    refine ⟨result, hrun, .cons (.wait hnumber hlength hfits)
                      (stands_cons_iff.mpr ⟨hbyte, hstands⟩) ?_⟩
                    rwa [List.length_cons, Nat.add_comm bytes.length, ← Nat.add_assoc]
            · split
              · rename_i hstop
                rw [eq_of_beq hstop] at hbyte
                exact ⟨_, rfl, .dump flag .stop
                  (stands_cons_iff.mpr ⟨hbyte, stands_nil _ _⟩)⟩
              · exact ⟨_, rfl, .failed .malformed .command flag (by decide)⟩
      · exact ⟨_, rfl, .unfinished flag⟩

/-- A command that is followed by the rest of a dump is passed by. -/
theorem preflightLoop_encoded {memory bytes : List UInt8} {parser : Parser} {passes cursor : ℕ}
    {command : Command} (flag : Bool) (h : Encoded command bytes)
    (hstands : Stands memory cursor bytes) (hsize : cursor + bytes.length ≤ parser.size) :
    ∃ flag', preflightLoop memory (passes + 1) parser cursor flag =
      preflightLoop memory passes parser (cursor + bytes.length) flag' := by
  have hpositive := h.length_pos
  conv => enter [1, flag', 1]; unfold preflightLoop
  rw [if_pos (by omega : cursor < parser.size)]
  cases h with
  | write reg value =>
      obtain ⟨hbyte, -⟩ := stands_cons_iff.mp hstands
      have hroom : ¬parser.size - (cursor + 1) < 2 := by
        change cursor + 3 ≤ parser.size at hsize
        omega
      simp only [hbyte, Option.bind_eq_bind, Option.bind_some, if_neg hroom]
      exact ⟨_, rfl⟩
  | extended reg value =>
      obtain ⟨hbyte, -⟩ := stands_cons_iff.mp hstands
      have hroom : ¬parser.size - (cursor + 1) < 2 := by
        change cursor + 3 ≤ parser.size at hsize
        omega
      simp only [hbyte, Option.bind_eq_bind, Option.bind_some, if_neg hroom]
      exact ⟨_, rfl⟩
  | sync =>
      obtain ⟨hbyte, -⟩ := stands_cons_iff.mp hstands
      simp only [hbyte, Option.bind_eq_bind, Option.bind_some]
      exact ⟨_, rfl⟩
  | @wait number digits hnumber hlength hfits =>
      obtain ⟨hbyte, hrest⟩ := stands_cons_iff.mp hstands
      rw [List.length_cons] at hsize
      have hrun : decodeVarint memory parser.size (cursor + 1) = _ :=
        decodeVarint_eq hnumber hrest (by omega) hlength (by omega)
      have hroom : ¬UInt64.ofNat number > 0xffffffffffffffff - 2 := by
        rw [wait_guard_iff, UInt64.toNat_ofNat_of_lt' (by change number < 2 ^ 64; omega)]
        omega
      simp only [hbyte, Option.bind_eq_bind, Option.bind_some, hrun, if_neg hroom]
      rw [List.length_cons, Nat.add_comm digits.length, ← Nat.add_assoc]
      exact ⟨_, rfl⟩

theorem preflightLoop_dump {memory bytes : List UInt8} {parser : Parser} {passes cursor : ℕ}
    {commands : List Command} (flag : Bool) (h : Dump commands bytes)
    (hstands : Stands memory cursor bytes) (hsize : cursor + bytes.length ≤ parser.size)
    (hpasses : commands.length < passes) :
    ∃ flag', preflightLoop memory passes parser cursor flag =
      some (0, { parser with dumpEnd := cursor + bytes.length }, flag') := by
  induction h generalizing cursor flag passes with
  | stop =>
      obtain ⟨passes, rfl⟩ := Nat.exists_eq_add_one.mpr hpasses
      obtain ⟨hbyte, -⟩ := stands_cons_iff.mp hstands
      unfold preflightLoop
      rw [if_pos (by exact hsize)]
      simp only [hbyte, Option.bind_eq_bind, Option.bind_some]
      exact ⟨_, rfl⟩
  | @command command commands first rest hhead htail ih =>
      obtain ⟨passes, rfl⟩ := Nat.exists_eq_add_one.mpr (Nat.zero_lt_of_lt hpasses)
      obtain ⟨hfirst, hrest⟩ := stands_append_iff.mp hstands
      rw [List.length_append, ← Nat.add_assoc] at hsize ⊢
      obtain ⟨middle, hmiddle⟩ :=
        @preflightLoop_encoded memory first parser passes cursor command flag hhead
          hfirst (by omega)
      rw [hmiddle]
      exact ih middle hrest hsize (Nat.lt_of_succ_lt_succ hpasses)

end Preflight

end EspNp2.S98Parser.DumpFormat
