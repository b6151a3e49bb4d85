/-!
Byte strings that encode a text in UTF-8, over the encoding of the standard library: the
shortest form of every Unicode scalar value.
-/

namespace EspNp2.Library.Utf8

/-- The bytes are the encodings of some characters, one after the other. -/
def WellFormed (bytes : List UInt8) : Prop :=
  ∃ chars : List Char, bytes = chars.flatMap String.utf8EncodeChar

theorem wellFormed_nil : WellFormed [] :=
  ⟨[], rfl⟩

theorem wellFormed_char (c : Char) : WellFormed (String.utf8EncodeChar c) :=
  ⟨[c], by simp⟩

theorem WellFormed.append {first second : List UInt8} (hfirst : WellFormed first)
    (hsecond : WellFormed second) : WellFormed (first ++ second) := by
  rcases hfirst with ⟨chars, rfl⟩
  rcases hsecond with ⟨more, rfl⟩
  exact ⟨chars ++ more, by simp⟩

/-- Every number that is no surrogate and at most `0x10ffff` is that of a character. -/
theorem exists_char {code : Nat} (hlow : code < 0xd800 ∨ 0xdfff < code) (hhigh : code ≤ 0x10ffff) :
    ∃ c : Char, c.val.toNat = code := by
  have hvalid : code.isValidChar := by
    rcases hlow with hlow | hlow
    · exact Or.inl hlow
    · exact Or.inr ⟨hlow, by omega⟩
  have hcode : (UInt32.ofNat code).toNat = code :=
    UInt32.toNat_ofNat_of_lt' (Nat.lt_of_le_of_lt hhigh (by decide))
  refine ⟨⟨UInt32.ofNat code, ?_⟩, hcode⟩
  change (UInt32.ofNat code).toNat.isValidChar
  rwa [hcode]

theorem char_range (c : Char) :
    (c.val.toNat < 0xd800 ∨ 0xdfff < c.val.toNat) ∧ c.val.toNat ≤ 0x10ffff := by
  rcases c.valid with hlow | ⟨hlow, hhigh⟩
  · exact ⟨Or.inl hlow, by change c.val.toNat < _ at hlow; omega⟩
  · exact ⟨Or.inr hlow, by change c.val.toNat < _ at hhigh; omega⟩

/-- The four lengths of an encoding. -/
theorem encode_cases (c : Char) :
    (c.val.toNat ≤ 0x7f ∧ String.utf8EncodeChar c = [UInt8.ofNat c.val.toNat]) ∨
    (0x7f < c.val.toNat ∧ c.val.toNat ≤ 0x7ff ∧
      String.utf8EncodeChar c =
        [UInt8.ofNat (c.val.toNat / 64 + 0xc0), UInt8.ofNat (c.val.toNat % 64 + 0x80)]) ∨
    (0x7ff < c.val.toNat ∧ c.val.toNat ≤ 0xffff ∧
      String.utf8EncodeChar c =
        [UInt8.ofNat (c.val.toNat / 4096 + 0xe0), UInt8.ofNat (c.val.toNat / 64 % 64 + 0x80),
          UInt8.ofNat (c.val.toNat % 64 + 0x80)]) ∨
    (0xffff < c.val.toNat ∧
      String.utf8EncodeChar c =
        [UInt8.ofNat (c.val.toNat / 262144 + 0xf0), UInt8.ofNat (c.val.toNat / 4096 % 64 + 0x80),
          UInt8.ofNat (c.val.toNat / 64 % 64 + 0x80), UInt8.ofNat (c.val.toNat % 64 + 0x80)]) := by
  have hlast := (char_range c).2
  fun_cases String.utf8EncodeChar c with
  | case1 v hone => exact Or.inl ⟨hone, rfl⟩
  | case2 v hone htwo =>
      have hfirst : v / 64 % 0x20 = v / 64 := Nat.mod_eq_of_lt (by omega)
      rw [hfirst]
      exact Or.inr (Or.inl ⟨by omega, htwo, rfl⟩)
  | case3 v hone htwo hthree =>
      have hfirst : v / 4096 % 0x10 = v / 4096 := Nat.mod_eq_of_lt (by omega)
      rw [hfirst]
      exact Or.inr (Or.inr (Or.inl ⟨by omega, hthree, rfl⟩))
  | case4 v hone htwo hthree =>
      have hfirst : v / 262144 % 0x08 = v / 262144 := Nat.mod_eq_of_lt (by omega)
      rw [hfirst]
      exact Or.inr (Or.inr (Or.inr ⟨by omega, rfl⟩))

theorem toNat_ofNat {n : Nat} (h : n < 256) : (UInt8.ofNat n).toNat = n := by
  rw [UInt8.toNat_ofNat']
  exact Nat.mod_eq_of_lt h

/-- A byte below `0x80` is never part of a longer encoding. -/
theorem encoded_ascii {c : Char} {byte : UInt8} (hmem : byte ∈ String.utf8EncodeChar c)
    (hascii : byte.toNat < 0x80) : String.utf8EncodeChar c = [byte] := by
  have hlast := (char_range c).2
  have habove : ∀ {n : Nat}, 0x80 ≤ n → n < 256 → byte ≠ UInt8.ofNat n := by
    rintro n hlow hhigh rfl
    rw [toNat_ofNat hhigh] at hascii
    omega
  rcases encode_cases c with ⟨-, h⟩ | ⟨hlow, hhigh, h⟩ | ⟨hlow, hhigh, h⟩ | ⟨hlow, h⟩ <;>
    rw [h] at hmem ⊢ <;> simp only [List.mem_cons, List.not_mem_nil, or_false] at hmem
  · rw [hmem]
  · rcases hmem with h | h
    · exact absurd h (habove (by omega) (by omega))
    · exact absurd h (habove (by omega) (by omega))
  · rcases hmem with h | h | h
    all_goals exact absurd h (habove (by omega) (by omega))
  · rcases hmem with h | h | h | h
    all_goals exact absurd h (habove (by omega) (by omega))

/-- A text can be cut at any byte below `0x80`. -/
theorem WellFormed.cut {first second : List UInt8} {byte : UInt8} (hascii : byte.toNat < 0x80)
    (h : WellFormed (first ++ byte :: second)) : WellFormed first ∧ WellFormed second := by
  rcases h with ⟨chars, h⟩
  induction chars generalizing first with
  | nil => simp at h
  | cons c chars ih =>
      rw [List.flatMap_cons] at h
      rcases List.append_eq_append_iff.mp h with ⟨between, hchar, hrest⟩ | ⟨between, hfirst, hrest⟩
      · cases between with
        | nil =>
            rw [List.append_nil] at hchar
            have hsecond : WellFormed [] ∧ WellFormed second := ih hrest
            exact ⟨hchar ▸ wellFormed_char c, hsecond.2⟩
        | cons b between =>
            rw [List.cons_append, List.cons.injEq] at hrest
            rcases hrest with ⟨rfl, hrest⟩
            have hwhole : String.utf8EncodeChar c = [byte] :=
              encoded_ascii (by rw [hchar]; simp) hascii
            rw [hwhole] at hchar
            rcases List.append_eq_singleton_iff.mp hchar.symm with ⟨rfl, hbetween⟩ | ⟨rfl, hbetween⟩
            · rw [List.cons.injEq] at hbetween
              rw [hrest, hbetween.2]
              exact ⟨wellFormed_nil, chars, rfl⟩
            · simp at hbetween
      · have hcut := ih hrest.symm
        rw [hfirst]
        exact ⟨(wellFormed_char c).append hcut.1, hcut.2⟩

theorem wellFormed_ascii {byte : UInt8} (hascii : byte.toNat < 0x80) : WellFormed [byte] := by
  have hchar : ∃ c : Char, c.val.toNat = byte.toNat := exists_char (by omega) (by omega)
  rcases hchar with ⟨c, hc⟩
  refine ⟨[c], ?_⟩
  rcases encode_cases c with ⟨-, h⟩ | ⟨hlow, -⟩ | ⟨hlow, -⟩ | ⟨hlow, -⟩
  · rw [List.flatMap_singleton, h, hc, UInt8.ofNat_toNat]
  all_goals omega

end EspNp2.Library.Utf8
