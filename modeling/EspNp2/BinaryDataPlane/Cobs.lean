import EspNp2.Library.ByteStuffing

/-!
The bounded-buffer COBS encoder and decoder of the Binary Data Plane
(`cobs.cpp`), and their agreement with unbounded byte stuffing.
-/

namespace EspNp2.BinaryDataPlane.Cobs

open EspNp2.Library.ByteStuffing

/-- The locals of `cobs::encode`. `output` holds the first `write_index` bytes
of the output buffer; a code byte that is reserved and not yet written is
zero. -/
structure EncodeState where
  output : List UInt8
  codeIndex : Nat
  code : UInt8

/-- The `while` loop of `cobs::encode` over the remaining input. -/
def encodeLoop (outputCapacity : Nat) : List UInt8 → EncodeState → Option EncodeState
  | [], s => some s
  | byte :: rest, s =>
      if byte = 0 then
        if s.codeIndex ≥ outputCapacity then none
        else
          let output := s.output.set s.codeIndex s.code
          let codeIndex := output.length
          if codeIndex ≥ outputCapacity ∧ rest ≠ [] then none
          else encodeLoop outputCapacity rest
            { output := output ++ [0], codeIndex := codeIndex, code := 1 }
      else if s.output.length ≥ outputCapacity then none
      else
        let output := s.output ++ [byte]
        let code := s.code + 1
        if code = 0xff then
          let output := output.set s.codeIndex code
          let codeIndex := output.length
          if codeIndex > outputCapacity then none
          else encodeLoop outputCapacity rest
            { output := output ++ [0], codeIndex := codeIndex, code := 1 }
        else encodeLoop outputCapacity rest
          { output := output, codeIndex := s.codeIndex, code := code }

def encode (input : List UInt8) (outputCapacity : Nat) : Option (List UInt8) :=
  if outputCapacity = 0 then none
  else
    match encodeLoop outputCapacity input { output := [0], codeIndex := 0, code := 1 } with
    | none => none
    | some s =>
        if s.codeIndex ≥ outputCapacity then none
        else some (s.output.set s.codeIndex s.code)

/-- The `while` loop of `cobs::decode`. Every round reads at least one byte, so
the input length bounds the number of rounds. -/
def decodeLoop (outputCapacity : Nat) : Nat → List UInt8 → List UInt8 → Option (List UInt8)
  | _, [], output => some output
  | 0, _ :: _, _ => none
  | fuel + 1, code :: rest, output =>
      if code = 0 ∨ code.toNat - 1 > rest.length then none
      else
        let copyLength := code.toNat - 1
        if output.length + copyLength > outputCapacity then none
        else
          let output := output ++ rest.take copyLength
          let rest := rest.drop copyLength
          if code ≠ 0xff ∧ rest ≠ [] then
            if output.length ≥ outputCapacity then none
            else decodeLoop outputCapacity fuel rest (output ++ [0])
          else decodeLoop outputCapacity fuel rest output

def decode (input : List UInt8) (outputCapacity : Nat) : Option (List UInt8) :=
  if input = [] then none
  else decodeLoop outputCapacity input.length input []

/-- The encoder state while `block` is collected behind the finished bytes
`done`. -/
private def collecting (done block : List UInt8) : EncodeState :=
  { output := done ++ 0 :: block, codeIndex := done.length, code := blockCode block }

private theorem set_code (done block : List UInt8) (old code : UInt8) :
    (done ++ old :: block).set done.length code = done ++ code :: block := by
  simp

theorem encodeLoop_collecting (outputCapacity : Nat) (input done block : List UInt8)
    (hblock : block.length < 254)
    (hfits : (done ++ stuff block input).length ≤ outputCapacity) :
    ∃ s, encodeLoop outputCapacity input (collecting done block) = some s ∧
      s.codeIndex < outputCapacity ∧
      s.output.set s.codeIndex s.code = done ++ stuff block input := by
  induction input generalizing done block with
  | nil =>
      refine ⟨collecting done block, rfl, ?_, set_code done block 0 _⟩
      simp only [stuff, List.length_append, List.length_cons] at hfits
      simp only [collecting]
      omega
  | cons byte rest ih =>
      have hnext := length_le_stuff [] rest
      by_cases hzero : byte = 0
      · have hshape : done ++ stuff block (byte :: rest) =
            (done ++ blockCode block :: block) ++ stuff [] rest := by
          simp [stuff, hzero]
        rw [hshape] at hfits ⊢
        have hstep : encodeLoop outputCapacity (byte :: rest) (collecting done block) =
            encodeLoop outputCapacity rest
              (collecting (done ++ blockCode block :: block) []) := by
          simp only [List.length_append, List.length_cons, List.length_nil] at hfits hnext
          have hcode : ¬ done.length ≥ outputCapacity := by omega
          have hroom : ¬ (done.length + (block.length + 1) ≥ outputCapacity ∧ rest ≠ []) := by
            omega
          rw [encodeLoop, if_pos hzero]
          simp only [collecting, set_code, List.length_append, List.length_cons]
          rw [if_neg hcode, if_neg hroom]
          rfl
        rw [hstep]
        exact ih _ [] (by simp) hfits
      · by_cases hfull : block.length + 1 = 254
        · have hshape : done ++ stuff block (byte :: rest) =
              (done ++ 255 :: (block ++ [byte])) ++ stuff [] rest := by
            simp [stuff, hzero, hfull]
          rw [hshape] at hfits ⊢
          have hstep : encodeLoop outputCapacity (byte :: rest) (collecting done block) =
              encodeLoop outputCapacity rest
                (collecting (done ++ 255 :: (block ++ [byte])) []) := by
            simp only [List.length_append, List.length_cons, List.length_nil] at hfits hnext
            have hroom : ¬ done.length + (block.length + 1) ≥ outputCapacity := by omega
            have hslot : ¬ done.length + (block.length + (0 + 1) + 1) > outputCapacity := by
              omega
            have hcode : blockCode block + 1 = 0xff := by
              simp only [blockCode, hfull]
              decide
            rw [encodeLoop, if_neg hzero]
            simp only [collecting, List.append_assoc, List.cons_append, set_code,
              List.length_append, List.length_cons, List.length_nil, hcode]
            rw [if_neg hroom, if_pos trivial, if_neg hslot]
            rfl
          rw [hstep]
          exact ih _ [] (by simp) hfits
        · have hshape : stuff block (byte :: rest) = stuff (block ++ [byte]) rest := by
            simp [stuff, hzero, hfull]
          rw [hshape] at hfits ⊢
          have hlonger : (block ++ [byte]).length < 254 := by
            simp only [List.length_append, List.length_singleton]
            omega
          have hstep : encodeLoop outputCapacity (byte :: rest) (collecting done block) =
              encodeLoop outputCapacity rest (collecting done (block ++ [byte])) := by
            have hgrow := length_le_stuff (block ++ [byte]) rest
            simp only [List.length_append, List.length_cons, List.length_nil] at hfits hgrow
            have hroom : ¬ done.length + (block.length + 1) ≥ outputCapacity := by omega
            have hcode : blockCode block + 1 = blockCode (block ++ [byte]) := by
              simp [blockCode, UInt8.ofNat_add]
            rw [encodeLoop, if_neg hzero]
            simp only [collecting, List.append_assoc, List.cons_append,
              List.length_append, List.length_cons, hcode]
            rw [if_neg hroom, if_neg (blockCode_ne_full hlonger)]
          rw [hstep]
          exact ih done _ hlonger hfits

/-- Whenever the stuffed input fits, none of the encoder's capacity checks
rejects it and the buffer receives exactly the stuffed input. -/
theorem encode_eq_stuff (input : List UInt8) (outputCapacity : Nat)
    (hfits : (stuff [] input).length ≤ outputCapacity) :
    encode input outputCapacity = some (stuff [] input) := by
  have hpos := length_le_stuff [] input
  simp only [List.length_nil] at hpos
  obtain ⟨s, hloop, hindex, hout⟩ :=
    encodeLoop_collecting outputCapacity input [] [] (by simp) (by simpa using hfits)
  have hstart : collecting [] [] = { output := [0], codeIndex := 0, code := 1 } := rfl
  rw [hstart] at hloop
  rw [encode, if_neg (by omega), hloop]
  simp only
  rw [if_neg (by omega), hout, List.nil_append]

/-- A larger buffer changes nothing. -/
theorem encodeLoop_mono {small large : Nat} (hle : small ≤ large) {input : List UInt8}
    {s last : EncodeState} (h : encodeLoop small input s = some last) :
    encodeLoop large input s = some last := by
  induction input generalizing s with
  | nil => exact h
  | cons byte rest ih =>
      rw [encodeLoop] at h ⊢
      by_cases hzero : byte = 0
      · rw [if_pos hzero] at h ⊢
        by_cases hcode : s.codeIndex ≥ small
        · simp [if_pos hcode] at h
        · rw [if_neg hcode] at h
          rw [if_neg (by omega)]
          simp only at h ⊢
          split_ifs at h with hroom
          rw [if_neg (fun hbad => hroom ⟨hle.trans hbad.1, hbad.2⟩)]
          exact ih h
      · rw [if_neg hzero] at h ⊢
        by_cases hfull : s.output.length ≥ small
        · simp [if_pos hfull] at h
        · rw [if_neg hfull] at h
          rw [if_neg (by omega)]
          simp only at h ⊢
          split_ifs at h ⊢ with hcode hslot hslot'
          · omega
          · exact ih h
          · exact ih h

theorem stuff_of_encode {input output : List UInt8} {outputCapacity : Nat}
    (h : encode input outputCapacity = some output) : output = stuff [] input := by
  have hlarge : encode input (max outputCapacity (stuff [] input).length) = some output := by
    rw [encode] at h ⊢
    by_cases hzero : outputCapacity = 0
    · simp [if_pos hzero] at h
    · rw [if_neg hzero] at h
      rw [if_neg (by omega)]
      cases hloop :
        encodeLoop outputCapacity input { output := [0], codeIndex := 0, code := 1 } with
      | none => simp [hloop] at h
      | some s =>
          rw [encodeLoop_mono (le_max_left _ _) hloop]
          simp only [hloop] at h ⊢
          split_ifs at h with hindex
          rw [if_neg (by omega)]
          exact h
  rw [encode_eq_stuff input _ (le_max_right _ _)] at hlarge
  exact (Option.some.inj hlarge).symm

theorem decodeLoop_stuff (outputCapacity : Nat) (input block output : List UInt8) (fuel : Nat)
    (hblock : block.length < 254)
    (hfuel : (stuff block input).length ≤ fuel)
    (hfits : (output ++ block ++ input).length ≤ outputCapacity) :
    decodeLoop outputCapacity fuel (stuff block input) output =
      some (output ++ block ++ input) := by
  induction input generalizing block output fuel with
  | nil =>
      obtain ⟨fuel, rfl⟩ : ∃ n, fuel = n + 1 :=
        Nat.exists_eq_add_one.mpr (by have := length_le_stuff block []; omega)
      have hcopy := blockCode_toNat hblock
      simp only [List.append_nil, List.length_append] at hfits
      simp only [stuff, decodeLoop, hcopy, Nat.add_sub_cancel, List.take_length,
        List.drop_length, ne_eq, not_true_eq_false, and_false, if_false]
      rw [if_neg (by simp [blockCode_ne_zero hblock]), if_neg (by omega)]
      simp
  | cons byte rest ih =>
      obtain ⟨fuel, rfl⟩ : ∃ n, fuel = n + 1 :=
        Nat.exists_eq_add_one.mpr (by have := length_le_stuff block (byte :: rest); omega)
      have hne := stuff_ne_nil [] rest
      by_cases hzero : byte = 0
      · subst hzero
        have hcopy := blockCode_toNat hblock
        simp only [List.length_append, List.length_cons] at hfits
        have hshape : stuff block (0 :: rest) =
            blockCode block :: (block ++ stuff [] rest) := by simp [stuff]
        rw [hshape] at hfuel ⊢
        simp only [List.length_append, List.length_cons] at hfuel
        have hrec := ih [] (output ++ block ++ [0]) fuel (by simp) (by omega) (by
          simp only [List.length_append, List.length_cons, List.length_nil]
          omega)
        simp only [decodeLoop, hcopy, Nat.add_sub_cancel, List.take_left, List.drop_left]
        rw [if_neg (by simp [blockCode_ne_zero hblock]), if_neg (by omega),
          if_pos ⟨blockCode_ne_full hblock, hne⟩,
          if_neg (by simp only [List.length_append]; omega), hrec]
        simp
      · by_cases hfull : block.length + 1 = 254
        · simp only [List.length_append, List.length_cons] at hfits
          have hshape : stuff block (byte :: rest) =
              255 :: ((block ++ [byte]) ++ stuff [] rest) := by
            simp [stuff, hzero, hfull]
          have hcopy : (255 : UInt8).toNat - 1 = (block ++ [byte]).length := by
            simp only [List.length_append, List.length_singleton, hfull]
            decide
          rw [hshape] at hfuel ⊢
          simp only [List.length_append, List.length_cons, List.length_nil] at hfuel
          have hrec := ih [] (output ++ (block ++ [byte])) fuel (by simp) (by omega) (by
            simp only [List.length_append, List.length_cons, List.length_nil]
            omega)
          simp only [decodeLoop, hcopy, List.take_left, List.drop_left]
          rw [if_neg (by simp), if_neg (by
              simp only [List.length_append, List.length_singleton]
              omega), if_neg (by simp), hrec]
          simp
        · have hshape : stuff block (byte :: rest) = stuff (block ++ [byte]) rest := by
            simp [stuff, hzero, hfull]
          rw [hshape] at hfuel ⊢
          rw [ih (block ++ [byte]) output (fuel + 1) (by
            simp only [List.length_append, List.length_singleton]
            omega) hfuel (by simpa using hfits)]
          simp

/-- Decoding undoes stuffing for every buffer that holds the input. -/
theorem decode_stuff (input : List UInt8) (outputCapacity : Nat)
    (hfits : input.length ≤ outputCapacity) :
    decode (stuff [] input) outputCapacity = some input := by
  rw [decode, if_neg (stuff_ne_nil [] input),
    decodeLoop_stuff outputCapacity input [] [] _ (by simp) le_rfl (by simpa using hfits)]
  simp

end EspNp2.BinaryDataPlane.Cobs
