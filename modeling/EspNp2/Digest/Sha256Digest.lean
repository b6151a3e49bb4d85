import EspNp2.Digest.Sha256
import Mathlib.Tactic.IntervalCases

/-!
The streaming SHA-256 gives the digest of the standard, however the message is cut.
-/

namespace EspNp2.Digest.Sha256Digest

open EspNp2.Library.BitStrings
open EspNp2.Library.BlockHash
open EspNp2.Library.Sha256Standard
open EspNp2.Digest.Sha256

section Constants

theorem roundConstants_table : ∀ t < 64,
    firstPrimes.getD t 0 ∈ firstPrimes ∧
      firstPrimes.countP (· < firstPrimes.getD t 0) = t ∧
      isRootFraction 3 (firstPrimes.getD t 0) (roundConstants.getD t 0).toNat = true := by
  rw [firstPrimes_eq]
  decide +kernel

theorem roundConstants_eq {t : ℕ} (h : t < 64) :
    (roundConstants.getD t 0).toBitVec = roundConstant t := by
  obtain ⟨hmem, hcount, hfraction⟩ := roundConstants_table t h
  rw [roundConstant, rootFraction_eq (by decide) hmem hcount hfraction, ← UInt32.toNat_toBitVec,
    BitVec.ofNat_toNat, BitVec.setWidth_eq]

def hashOf (v : Locals) : Working where
  a := v.a.toBitVec
  b := v.b.toBitVec
  c := v.c.toBitVec
  d := v.d.toBitVec
  e := v.e.toBitVec
  f := v.f.toBitVec
  g := v.g.toBitVec
  h := v.h.toBitVec

theorem initialState_table : ∀ t < 8,
    firstPrimes.getD t 0 ∈ firstPrimes ∧
      firstPrimes.countP (· < firstPrimes.getD t 0) = t ∧
      isRootFraction 2 (firstPrimes.getD t 0) (initialState.toList.getD t 0).toNat = true := by
  rw [firstPrimes_eq]
  decide +kernel

theorem initialState_getD {t : ℕ} (h : t < 8) :
    (initialState.toList.getD t 0).toBitVec = rootFraction 2 t := by
  obtain ⟨hmem, hcount, hfraction⟩ := initialState_table t h
  rw [rootFraction_eq (by decide) hmem hcount hfraction, ← UInt32.toNat_toBitVec,
    BitVec.ofNat_toNat, BitVec.setWidth_eq]

theorem hashOf_initialState : hashOf (loadState initialState) = initialHash := by
  apply Working.ext
  · exact initialState_getD (t := 0) (by decide)
  · exact initialState_getD (t := 1) (by decide)
  · exact initialState_getD (t := 2) (by decide)
  · exact initialState_getD (t := 3) (by decide)
  · exact initialState_getD (t := 4) (by decide)
  · exact initialState_getD (t := 5) (by decide)
  · exact initialState_getD (t := 6) (by decide)
  · exact initialState_getD (t := 7) (by decide)

end Constants

section Bits

def byteBits (byte : UInt8) : List Bool := wordBits byte.toBitVec

def messageBits (message : List UInt8) : List Bool := message.flatMap byteBits

theorem length_byteBits (byte : UInt8) : (byteBits byte).length = 8 :=
  length_wordBits byte.toBitVec

theorem length_messageBits (message : List UInt8) :
    (messageBits message).length = message.length * 8 :=
  length_flatMap_of_width length_byteBits message

theorem word_wordBits (x : BitVec 32) : word (wordBits x) = x := by
  rw [word, bitsValue_wordBits, BitVec.ofNat_toNat, BitVec.setWidth_eq]

theorem rotateRight_toBitVec (value : UInt32) {count : ℕ} (hpositive : 0 < count)
    (h : count < 32) :
    (rotateRight value (UInt32.ofNat count)).toBitVec = value.toBitVec.rotateRight count := by
  have hcount : (UInt32.ofNat count).toNat = count := by
    change count % 2 ^ 32 = count
    omega
  have hrest : ((32 : UInt32) - UInt32.ofNat count).toNat = 32 - count := by
    have hle : UInt32.ofNat count ≤ 32 := by
      change (UInt32.ofNat count).toNat ≤ 32
      omega
    rw [UInt32.toNat_sub_of_le _ _ hle, hcount]
    rfl
  have hmod (x : UInt32) : (x.toBitVec % 32).toNat = x.toNat % 32 := rfl
  rw [rotateRight, UInt32.toBitVec_or, UInt32.toBitVec_shiftRight, UInt32.toBitVec_shiftLeft,
    BitVec.rotateRight_def, BitVec.ushiftRight_eq', BitVec.shiftLeft_eq', hmod, hmod, hcount,
    hrest, Nat.mod_eq_of_lt h, Nat.mod_eq_of_lt (by omega)]

theorem readU32be_toBitVec (b₀ b₁ b₂ b₃ : UInt8) :
    (readU32be [b₀, b₁, b₂, b₃]).toBitVec =
      (b₀.toBitVec ++ b₁.toBitVec ++ b₂.toBitVec ++ b₃.toBitVec : BitVec 32) := by
  apply BitVec.eq_of_toNat_eq
  have hbyte (b : UInt8) {shift : ℕ} (hshift : shift ≤ 24) :
      b.toNat <<< shift % 2 ^ 32 = b.toNat <<< shift := by
    apply Nat.mod_eq_of_lt
    rw [Nat.shiftLeft_eq]
    have hpow : 2 ^ shift ≤ 2 ^ 24 := Nat.pow_le_pow_right (by decide) hshift
    have hlt := b.toNat_lt
    calc b.toNat * 2 ^ shift ≤ 255 * 2 ^ 24 := Nat.mul_le_mul (by omega) hpow
      _ < 2 ^ 32 := by decide
  have hleft : (readU32be [b₀, b₁, b₂, b₃]).toNat =
      b₀.toNat <<< 24 ||| b₁.toNat <<< 16 ||| b₂.toNat <<< 8 ||| b₃.toNat := by
    change b₀.toNat <<< 24 % 2 ^ 32 ||| b₁.toNat <<< 16 % 2 ^ 32 ||| b₂.toNat <<< 8 % 2 ^ 32 |||
      b₃.toNat = _
    rw [hbyte b₀ (by decide), hbyte b₁ (by decide), hbyte b₂ (by decide)]
  rw [UInt32.toNat_toBitVec, hleft, BitVec.toNat_append, BitVec.toNat_append, BitVec.toNat_append,
    Nat.shiftLeft_or_distrib, Nat.shiftLeft_or_distrib, Nat.shiftLeft_or_distrib,
    ← Nat.shiftLeft_add, ← Nat.shiftLeft_add, ← Nat.shiftLeft_add]
  rfl

theorem word_messageBits {bytes : List UInt8} (h : bytes.length = 4) :
    word (messageBits bytes) = (readU32be bytes).toBitVec := by
  match bytes, h with
  | [b₀, b₁, b₂, b₃], _ =>
      have hbits : messageBits [b₀, b₁, b₂, b₃] =
          wordBits (b₀.toBitVec ++ b₁.toBitVec ++ b₂.toBitVec ++ b₃.toBitVec : BitVec 32) := by
        rw [wordBits_append, wordBits_append, wordBits_append]
        simp only [messageBits, List.flatMap_cons, List.flatMap_nil, List.append_nil, byteBits,
          List.append_assoc]
      rw [hbits, word_wordBits, readU32be_toBitVec]

/-- The bytes of a word, the most significant first, have its bits. -/
theorem messageBits_writeU32be (value : UInt32) :
    messageBits (writeU32be value) = wordBits value.toBitVec := by
  rw [@wordBits_eq_flatMap 32 4 value.toBitVec rfl]
  rfl

end Bits

section Compression

theorem smallSigma0_toBitVec (x : UInt32) :
    (rotateRight x 7 ^^^ rotateRight x 18 ^^^ (x >>> 3)).toBitVec = smallSigma0 x.toBitVec := by
  have h₁ : (rotateRight x 7).toBitVec = x.toBitVec.rotateRight 7 :=
    rotateRight_toBitVec x (by decide) (by decide)
  have h₂ : (rotateRight x 18).toBitVec = x.toBitVec.rotateRight 18 :=
    rotateRight_toBitVec x (by decide) (by decide)
  rw [UInt32.toBitVec_xor, UInt32.toBitVec_xor, h₁, h₂]
  rfl

theorem smallSigma1_toBitVec (x : UInt32) :
    (rotateRight x 17 ^^^ rotateRight x 19 ^^^ (x >>> 10)).toBitVec =
      smallSigma1 x.toBitVec := by
  have h₁ : (rotateRight x 17).toBitVec = x.toBitVec.rotateRight 17 :=
    rotateRight_toBitVec x (by decide) (by decide)
  have h₂ : (rotateRight x 19).toBitVec = x.toBitVec.rotateRight 19 :=
    rotateRight_toBitVec x (by decide) (by decide)
  rw [UInt32.toBitVec_xor, UInt32.toBitVec_xor, h₁, h₂]
  rfl

theorem bigSigma0_toBitVec (x : UInt32) :
    (rotateRight x 2 ^^^ rotateRight x 13 ^^^ rotateRight x 22).toBitVec =
      bigSigma0 x.toBitVec := by
  have h₁ : (rotateRight x 2).toBitVec = x.toBitVec.rotateRight 2 :=
    rotateRight_toBitVec x (by decide) (by decide)
  have h₂ : (rotateRight x 13).toBitVec = x.toBitVec.rotateRight 13 :=
    rotateRight_toBitVec x (by decide) (by decide)
  have h₃ : (rotateRight x 22).toBitVec = x.toBitVec.rotateRight 22 :=
    rotateRight_toBitVec x (by decide) (by decide)
  rw [UInt32.toBitVec_xor, UInt32.toBitVec_xor, h₁, h₂, h₃, bigSigma0]

theorem bigSigma1_toBitVec (x : UInt32) :
    (rotateRight x 6 ^^^ rotateRight x 11 ^^^ rotateRight x 25).toBitVec =
      bigSigma1 x.toBitVec := by
  have h₁ : (rotateRight x 6).toBitVec = x.toBitVec.rotateRight 6 :=
    rotateRight_toBitVec x (by decide) (by decide)
  have h₂ : (rotateRight x 11).toBitVec = x.toBitVec.rotateRight 11 :=
    rotateRight_toBitVec x (by decide) (by decide)
  have h₃ : (rotateRight x 25).toBitVec = x.toBitVec.rotateRight 25 :=
    rotateRight_toBitVec x (by decide) (by decide)
  rw [UInt32.toBitVec_xor, UInt32.toBitVec_xor, h₁, h₂, h₃, bigSigma1]

theorem hashOf_roundStep (constant word : UInt32) (v : Locals) :
    hashOf (roundStep constant word v) =
      round constant.toBitVec word.toBitVec (hashOf v) := by
  have ht₁ : (v.h + (rotateRight v.e 6 ^^^ rotateRight v.e 11 ^^^ rotateRight v.e 25) +
      ((v.e &&& v.f) ^^^ (~~~v.e &&& v.g)) + constant + word).toBitVec =
      v.h.toBitVec + bigSigma1 v.e.toBitVec + ch v.e.toBitVec v.f.toBitVec v.g.toBitVec +
        constant.toBitVec + word.toBitVec := by
    rw [UInt32.toBitVec_add, UInt32.toBitVec_add, UInt32.toBitVec_add, UInt32.toBitVec_add,
      bigSigma1_toBitVec]
    rfl
  have ht₂ : ((rotateRight v.a 2 ^^^ rotateRight v.a 13 ^^^ rotateRight v.a 22) +
      ((v.a &&& v.b) ^^^ (v.a &&& v.c) ^^^ (v.b &&& v.c))).toBitVec =
      bigSigma0 v.a.toBitVec + maj v.a.toBitVec v.b.toBitVec v.c.toBitVec := by
    rw [UInt32.toBitVec_add, bigSigma0_toBitVec]
    rfl
  apply Working.ext
  · change (_ + _ : UInt32).toBitVec = _
    rw [UInt32.toBitVec_add, ht₁, ht₂]
    rfl
  · rfl
  · rfl
  · rfl
  · change (_ + _ : UInt32).toBitVec = _
    rw [UInt32.toBitVec_add, ht₁]
    rfl
  · rfl
  · rfl
  · rfl

/-- The words written so far are the first words of the schedule. -/
structure Scheduled (block : List Bool) (words : List UInt32) : Prop where
  enough : 16 ≤ words.length
  word : ∀ t < words.length, (words.getD t 0).toBitVec = schedule block t

theorem scheduled_nextWord {block : List Bool} {words : List UInt32}
    (h : Scheduled block words) :
    (nextWord words).toBitVec = schedule block words.length := by
  have henough := h.enough
  rw [schedule, dif_neg (by omega), ← h.word (words.length - 2) (by omega),
    ← h.word (words.length - 7) (by omega), ← h.word (words.length - 15) (by omega),
    ← h.word (words.length - 16) (by omega), nextWord]
  rw [UInt32.toBitVec_add, UInt32.toBitVec_add, UInt32.toBitVec_add, smallSigma0_toBitVec,
    smallSigma1_toBitVec]
  ac_rfl

theorem scheduled_extendWords {block : List Bool} {words : List UInt32}
    (h : Scheduled block words) (count : ℕ) :
    Scheduled block (extendWords count words) ∧
      (extendWords count words).length = words.length + count := by
  induction count generalizing words with
  | zero => exact ⟨h, rfl⟩
  | succ count ih =>
      have hnext : Scheduled block (words ++ [nextWord words]) := by
        constructor
        · rw [List.length_append]
          exact h.enough.trans (Nat.le_add_right _ _)
        · intro t ht
          rw [List.length_append, List.length_singleton] at ht
          rcases Nat.lt_or_eq_of_le (Nat.le_of_lt_succ ht) with hlt | rfl
          · rw [List.getD_append _ _ _ _ hlt]
            exact h.word t hlt
          · rw [List.getD_append_right _ _ _ _ le_rfl, Nat.sub_self]
            exact scheduled_nextWord h
      obtain ⟨hwords, hlength⟩ := ih hnext
      refine ⟨hwords, ?_⟩
      rw [extendWords, hlength, List.length_append, List.length_singleton]
      omega

theorem scheduled_blockWords {block : List UInt8} (h : block.length = 64) :
    Scheduled (messageBits block) (blockWords block) ∧ (blockWords block).length = 64 := by
  have hstart : Scheduled (messageBits block)
      ((List.range 16).map fun i => readU32be (block.drop (i * 4))) := by
    constructor
    · simp
    · intro t ht
      rw [List.length_map, List.length_range] at ht
      have hword : readU32be (block.drop (t * 4)) = readU32be ((block.drop (t * 4)).take 4) := by
        simp only [readU32be, List.getD_eq_getElem?_getD, List.getElem?_take]
        rfl
      have hbits : ((messageBits block).drop (32 * t)).take 32 =
          messageBits ((block.drop (t * 4)).take 4) := by
        have hdrop := drop_flatMap_of_width length_byteBits block (t * 4)
        have htake := take_flatMap_of_width length_byteBits (block.drop (t * 4)) 4
        rw [messageBits, messageBits, ← htake, ← hdrop]
        congr 2
        omega
      have hlength : ((block.drop (t * 4)).take 4).length = 4 := by
        rw [List.length_take, List.length_drop]
        omega
      rw [schedule, dif_pos ht, hbits, word_messageBits hlength, ← hword,
        List.getD_eq_getElem _ _ (by simpa using ht), List.getElem_map, List.getElem_range]
  have hextend := scheduled_extendWords hstart 48
  rwa [List.length_map, List.length_range] at hextend

theorem hashOf_roundLoop {block : List UInt8} (h : block.length = 64) (v : Locals) {t : ℕ}
    (ht : t ≤ 64) :
    hashOf (roundLoop (blockWords block) v t) = rounds (messageBits block) (hashOf v) t := by
  obtain ⟨hscheduled, hlength⟩ := scheduled_blockWords h
  induction t with
  | zero => rfl
  | succ t ih =>
      rw [roundLoop, hashOf_roundStep, rounds, ih (by omega), roundConstants_eq (by omega),
        hscheduled.word t (by omega)]

def stateHash (state : Vector UInt32 8) : Working := hashOf (loadState state)

theorem stateHash_transform (context : Context) {block : List UInt8} (h : block.length = 64) :
    stateHash (transform context block).state =
      compress (stateHash context.state) (messageBits block) := by
  change addWords (stateHash context.state)
    (hashOf (roundLoop (blockWords block) (loadState context.state) 64)) = _
  rw [hashOf_roundLoop h _ le_rfl]
  rfl

end Compression

section Streaming

noncomputable def compressBytes (hash : Working) (block : List UInt8) : Working :=
  compress hash (messageBits block)

/-- The buffer of a context starts with the bytes it counts. -/
structure Holds (context : Context) (tail : List UInt8) : Prop where
  size : context.bufferSize = tail.length
  bytes : context.buffer.toList.take tail.length = tail

theorem Holds.length_le {context : Context} {tail : List UInt8} (h : Holds context tail) :
    tail.length ≤ 64 := by
  rw [← h.bytes, List.length_take, Vector.length_toList]
  exact Nat.min_le_right _ _

theorem Holds.buffer_eq {context : Context} {tail : List UInt8} (h : Holds context tail)
    (hfull : tail.length = 64) : context.buffer.toList = tail := by
  have hbytes := h.bytes
  rwa [hfull, List.take_of_length_le (by rw [Vector.length_toList])] at hbytes

theorem store_eq (buffer : Vector UInt8 64) (offset : ℕ) (data : List UInt8)
    (h : offset + data.length ≤ 64) :
    ∃ stored, store buffer offset data = some stored ∧
      stored.toList.take (offset + data.length) = buffer.toList.take offset ++ data := by
  refine ⟨_, dif_pos h, ?_⟩
  have hlength : (buffer.toList.take offset ++ data).length = offset + data.length := by
    rw [List.length_append, List.length_take, Vector.length_toList]
    omega
  change ((buffer.toList.take offset ++ data) ++ _).take (offset + data.length) = _
  rw [List.take_left' hlength]

/-- A copy that fits adds its bytes and leaves the hash and the count. -/
theorem copyIn_holds {context : Context} {tail : List UInt8} (h : Holds context tail)
    (data : List UInt8) (hfits : tail.length + data.length ≤ 64) :
    ∃ copied, copyIn context data = some copied ∧ Holds copied (tail ++ data) ∧
      copied.state = context.state ∧ copied.bitCount = context.bitCount := by
  obtain ⟨stored, hstored, hbytes⟩ := store_eq context.buffer _ data hfits
  refine ⟨{ context with buffer := stored, bufferSize := context.bufferSize + data.length },
    ?_, ⟨?_, ?_⟩, rfl, rfl⟩
  · rw [copyIn, h.size, hstored]
    rfl
  · rw [h.size, List.length_append]
  · rw [List.length_append, hbytes, h.bytes]

theorem padZeros_holds {context : Context} {tail : List UInt8} (h : Holds context tail)
    (count : ℕ) (hfits : tail.length + count ≤ 64) :
    ∃ padded, padZeros count context = some padded ∧
      Holds padded (tail ++ List.replicate count 0) ∧ padded.state = context.state := by
  induction count generalizing context tail with
  | zero => exact ⟨context, rfl, by rwa [List.replicate_zero, List.append_nil], rfl⟩
  | succ count ih =>
      obtain ⟨copied, hcopied, hholds, hstate, -⟩ :=
        copyIn_holds h [0] (by rw [List.length_singleton]; omega)
      obtain ⟨padded, hpadded, hfinal, hsame⟩ :=
        ih hholds (by rw [List.length_append, List.length_singleton]; omega)
      refine ⟨padded, ?_, ?_, hsame.trans hstate⟩
      · rw [padZeros, hcopied]
        exact hpadded
      · rwa [List.append_assoc, List.singleton_append, ← List.replicate_succ] at hfinal

/-- The context after a message: the hash of its complete blocks, the rest in the buffer. -/
def Fed (message : List UInt8) (context : Context) : Prop :=
  ∃ tail, Holds context tail ∧
    Buffered compressBytes 64 initialHash message (stateHash context.state) tail

theorem Fed.bufferSize_lt {message : List UInt8} {context : Context} (h : Fed message context) :
    context.bufferSize < 64 := by
  obtain ⟨tail, hholds, hbuffered⟩ := h
  rw [hholds.size]
  exact hbuffered.short

theorem fed_init (context : Context) : Fed [] (init context) := by
  refine ⟨[], ⟨rfl, rfl⟩, ?_⟩
  change Buffered _ _ _ _ (hashOf (loadState initialState)) _
  rw [hashOf_initialState]
  exact buffered_nil (by decide)

/-- A full buffer becomes a block of the hash. -/
theorem fed_of_full {message tail data : List UInt8} {context : Context}
    (hbuffered : Buffered compressBytes 64 initialHash message (stateHash context.state) tail)
    (hholds : Holds context (tail ++ data)) (hfull : (tail ++ data).length = 64) :
    Fed (message ++ data)
      { transform context context.buffer.toList with bufferSize := 0 } := by
  refine ⟨[], ⟨rfl, rfl⟩, ?_⟩
  have hfill := hbuffered.fill hfull
  change Buffered _ _ _ _ (stateHash (transform context context.buffer.toList).state) _
  rw [hholds.buffer_eq hfull, stateHash_transform context hfull]
  exact hfill

theorem fed_drainFull {message tail data : List UInt8} {context : Context}
    (hbuffered : Buffered compressBytes 64 initialHash message (stateHash context.state) tail)
    (hholds : Holds context (tail ++ data)) :
    Fed (message ++ data) (drainFull context) := by
  rw [drainFull]
  split
  · rename_i hfull
    rw [beq_iff_eq, hholds.size] at hfull
    exact fed_of_full hbuffered hholds hfull
  · rename_i hpart
    have hle := hholds.length_le
    rw [beq_iff_eq, hholds.size] at hpart
    exact ⟨tail ++ data, hholds, hbuffered.keep (by omega)⟩

theorem bitCount_drainFull (context : Context) :
    (drainFull context).bitCount = context.bitCount := by
  rw [drainFull]
  split
  · rfl
  · rfl

/-- Every pass copies a byte at least, so the passes suffice. -/
theorem updateLoop_fed {message data : List UInt8} {context : Context} (h : Fed message context)
    {passes : ℕ} (hpasses : data.length ≤ passes) :
    ∃ fed, updateLoop passes context data = some fed ∧ Fed (message ++ data) fed ∧
      fed.bitCount = context.bitCount := by
  induction passes generalizing message data context with
  | zero =>
      have hnil : data = [] := List.eq_nil_of_length_eq_zero (by omega)
      refine ⟨context, ?_, ?_, rfl⟩
      · rw [hnil, updateLoop]
      · rwa [hnil, List.append_nil]
  | succ passes ih =>
      cases data with
      | nil => exact ⟨context, rfl, by rwa [List.append_nil], rfl⟩
      | cons byte rest =>
          have hsize := h.bufferSize_lt
          obtain ⟨tail, hholds, hbuffered⟩ := h
          have htail := hholds.size
          set copied := min (byte :: rest).length (64 - context.bufferSize) with hcopied
          have hpositive : 0 < copied := by
            rw [hcopied, List.length_cons]
            omega
          have htake : ((byte :: rest).take copied).length = copied := by
            rw [List.length_take]
            omega
          obtain ⟨next, hnext, hnextHolds, hstate, hcount⟩ :=
            copyIn_holds hholds ((byte :: rest).take copied) (by omega)
          rw [← hstate] at hbuffered
          have hfed := fed_drainFull hbuffered hnextHolds
          have hrest : ((byte :: rest).drop copied).length ≤ passes := by
            rw [List.length_drop]
            omega
          obtain ⟨fed, hrun, hfinal, hsame⟩ := ih hfed hrest
          refine ⟨fed, ?_, ?_, ?_⟩
          · rw [updateLoop, ← hcopied, hnext]
            exact hrun
          · rwa [List.append_assoc, List.take_append_drop] at hfinal
          · rw [hsame, bitCount_drainFull, hcount]

/-- A context that was given a message, with the count of its bits. -/
structure Streamed (message : List UInt8) (context : Context) : Prop where
  fed : Fed message context
  bitCount : context.bitCount = UInt64.ofNat (message.length * 8)

theorem update_streamed {message : List UInt8} {context : Context}
    (h : Streamed message context) (data : List UInt8) :
    ∃ fed, update context data = some fed ∧ Streamed (message ++ data) fed := by
  obtain ⟨tail, hholds, hbuffered⟩ := h.fed
  have hfed : Fed message
      { context with bitCount := context.bitCount + UInt64.ofNat data.length * 8 } :=
    ⟨tail, ⟨hholds.size, hholds.bytes⟩, hbuffered⟩
  obtain ⟨fed, hrun, hfinal, hcount⟩ := updateLoop_fed hfed (le_refl data.length)
  refine ⟨fed, hrun, hfinal, ?_⟩
  rw [hcount]
  change context.bitCount + UInt64.ofNat data.length * UInt64.ofNat 8 = _
  rw [h.bitCount, List.length_append, Nat.add_mul, UInt64.ofNat_add, UInt64.ofNat_mul data.length]

theorem updates_streamed {message : List UInt8} {context : Context}
    (h : Streamed message context) (parts : List (List UInt8)) :
    ∃ fed, updates context parts = some fed ∧ Streamed (message ++ parts.flatten) fed := by
  induction parts generalizing message context with
  | nil => exact ⟨context, rfl, by rwa [List.flatten_nil, List.append_nil]⟩
  | cons part parts ih =>
      obtain ⟨next, hnext, hstreamed⟩ := update_streamed h part
      obtain ⟨fed, hrun, hfinal⟩ := ih hstreamed
      refine ⟨fed, ?_, ?_⟩
      · rw [updates, hnext]
        exact hrun
      · rwa [List.append_assoc, ← List.flatten_cons] at hfinal

end Streaming

section Padding

theorem zeros_eq {length k : ℕ} (h : (length + 1 + k) % 512 = 448) (hk : k < 512) :
    zeros length = k := by
  have hle : zeros length ≤ k := Nat.find_min' (exists_padding length) h
  have hspec : (length + 1 + zeros length) % 512 = 448 := Nat.find_spec (exists_padding length)
  omega

/-- The bytes after a message: a one bit, zeros, and the count of bits. -/
def padding (length count : ℕ) : List UInt8 :=
  0x80 :: List.replicate count 0 ++ (List.range 8).map (countByte (UInt64.ofNat (length * 8)))

theorem messageBits_countBytes (bitCount : UInt64) :
    messageBits ((List.range 8).map (countByte bitCount)) = wordBits bitCount.toBitVec := by
  have hbits := @wordBits_eq_flatMap 64 8 bitCount.toBitVec rfl
  rw [hbits, messageBits, List.flatMap_map]
  apply List.flatMap_congr
  intro i hi
  rw [List.mem_range] at hi
  interval_cases i <;> rfl

theorem messageBits_replicate (count : ℕ) :
    messageBits (List.replicate count 0) = List.replicate (count * 8) false := by
  induction count with
  | zero => rfl
  | succ count ih =>
      have hbyte : byteBits 0 = List.replicate 8 false := by decide
      rw [List.replicate_succ, messageBits, List.flatMap_cons, ← messageBits, ih, hbyte,
        List.replicate_append_replicate, Nat.succ_mul, Nat.add_comm]

theorem pad_messageBits (message : List UInt8) {count : ℕ}
    (h : (message.length + 1 + count) % 64 = 56) (hcount : count < 64) :
    pad (messageBits message) = messageBits (message ++ padding message.length count) := by
  have hzeros : zeros (messageBits message).length = 7 + count * 8 := by
    rw [length_messageBits]
    exact zeros_eq (by omega) (by omega)
  have hfirst : byteBits 0x80 = true :: List.replicate 7 false := by decide
  have hmessage : messageBits (message ++ padding message.length count) =
      messageBits message ++ (byteBits 0x80 ++ messageBits (List.replicate count 0) ++
        messageBits ((List.range 8).map (countByte (UInt64.ofNat (message.length * 8))))) := by
    rw [padding, messageBits, List.flatMap_append, List.flatMap_append, List.flatMap_cons]
    rfl
  rw [hmessage, pad, hzeros, messageBits_countBytes, messageBits_replicate, hfirst,
    length_messageBits, List.cons_append, List.replicate_append_replicate, List.append_assoc]
  rfl

/-- The count takes the last eight bytes of the block. -/
theorem storeCount_eq {context : Context} {tail : List UInt8} (h : Holds context tail)
    (htail : tail.length = 56) (bitCount : UInt64) :
    ∃ stored, storeCount context.buffer bitCount = some stored ∧
      stored.toList = tail ++ (List.range 8).map (countByte bitCount) := by
  have hloop : ∀ count ≤ 8, ∃ stored : Vector UInt8 64,
      (List.range count).foldlM
        (fun buffer i => store buffer (56 + i) [countByte bitCount i]) context.buffer =
          some stored ∧
      stored.toList.take (56 + count) = tail ++ (List.range count).map (countByte bitCount) := by
    intro count hcount
    induction count with
    | zero =>
        refine ⟨context.buffer, rfl, ?_⟩
        rw [List.range_zero, List.map_nil, List.append_nil, Nat.add_zero, ← htail]
        exact h.bytes
    | succ count ih =>
        obtain ⟨stored, hstored, hbytes⟩ := ih (by omega)
        obtain ⟨next, hnext, htake⟩ := store_eq stored (56 + count)
          [countByte bitCount count] (by rw [List.length_singleton]; omega)
        refine ⟨next, ?_, ?_⟩
        · rw [List.range_succ, List.foldlM_append, hstored]
          change (store stored (56 + count) [countByte bitCount count] >>= pure) = _
          rw [hnext]
          rfl
        · rw [List.length_singleton] at htake
          rw [← Nat.add_assoc, htake, hbytes, List.range_succ, List.map_append,
            List.append_assoc]
          rfl
  obtain ⟨stored, hstored, hbytes⟩ := hloop 8 le_rfl
  refine ⟨stored, hstored, ?_⟩
  rwa [List.take_of_length_le (by rw [Vector.length_toList])] at hbytes

/-- After the one bit a block without room for the count is closed. -/
theorem closeBlock_fed {message tail : List UInt8} {context : Context}
    (hbuffered : Buffered compressBytes 64 initialHash message (stateHash context.state) tail)
    (hholds : Holds context (tail ++ [0x80])) :
    ∃ closed count, closeBlock context = some closed ∧ closed.bufferSize ≤ 56 ∧
      Fed (message ++ 0x80 :: List.replicate count 0) closed ∧ count < 8 ∧
      (count ≠ 0 → (message.length + 1 + count) % 64 = 0) := by
  have hsize := hholds.size
  have hlength := hbuffered.length_mod
  rw [List.length_append, List.length_singleton] at hsize
  have hshort := hbuffered.short
  rw [closeBlock]
  split
  · rename_i hlarge
    obtain ⟨padded, hpadded, hpaddedHolds, hstate⟩ :=
      padZeros_holds hholds (64 - context.bufferSize)
        (by rw [List.length_append, List.length_singleton]; omega)
    rw [List.append_assoc, List.singleton_append] at hpaddedHolds
    rw [← hstate] at hbuffered
    have hfull : (tail ++ 0x80 :: List.replicate (64 - context.bufferSize) 0).length = 64 := by
      rw [List.length_append, List.length_cons, List.length_replicate]
      omega
    refine ⟨_, 64 - context.bufferSize, ?_, ?_, fed_of_full hbuffered hpaddedHolds hfull, ?_, ?_⟩
    · rw [hpadded]
      rfl
    · exact Nat.zero_le 56
    · omega
    · intro _
      omega
  · rename_i hsmall
    refine ⟨context, 0, rfl, by omega, ⟨tail ++ [0x80], hholds, ?_⟩, by omega, fun h => ?_⟩
    · apply hbuffered.keep
      rw [List.replicate_zero, List.length_append, List.length_singleton]
      omega
    · exact absurd rfl h

theorem length_writeU32be (value : UInt32) : (writeU32be value).length = 4 := rfl

theorem messageBits_writeDigest (state : Vector UInt32 8) :
    messageBits (writeDigest state) = hashBits (stateHash state) := by
  have hlist : state.toList = [state[0], state[1], state[2], state[3], state[4], state[5],
      state[6], state[7]] := by
    apply List.ext_getElem
    · rw [Vector.length_toList]
      rfl
    · intro i hi _
      rw [Vector.length_toList] at hi
      interval_cases i <;> rfl
  rw [writeDigest, hlist, messageBits, List.flatMap_assoc]
  change [state[0], state[1], state[2], state[3], state[4], state[5], state[6],
    state[7]].flatMap (fun value => messageBits (writeU32be value)) = _
  simp only [messageBits_writeU32be, List.flatMap_cons, List.flatMap_nil, List.append_nil,
    hashBits, List.append_assoc]
  rfl

/-- The last block ends with the count, so that the hash is the one of the padded message. -/
theorem stateHash_final {message tail : List UInt8} {context : Context}
    (hfed : Fed message context) (hholds : Holds context tail) (hsize : tail.length ≤ 56)
    (bitCount : UInt64) :
    ∃ padded stored, padZeros (56 - context.bufferSize) context = some padded ∧
      storeCount padded.buffer bitCount = some stored ∧
      stateHash (transform { padded with buffer := stored } stored.toList).state =
        absorb compressBytes 64 initialHash (message ++
          (List.replicate (56 - tail.length) 0 ++ (List.range 8).map (countByte bitCount))) := by
  obtain ⟨kept, hkept, hbuffered⟩ := hfed
  have hlength : kept.length = tail.length := by
    rw [← hkept.size, hholds.size]
  obtain rfl : kept = tail := by
    rw [← hkept.bytes, hlength, hholds.bytes]
  obtain ⟨padded, hpadded, hpaddedHolds, hstate⟩ :=
    padZeros_holds hholds (56 - context.bufferSize)
      (by have hcounted := hholds.size; omega)
  rw [hholds.size] at hpaddedHolds
  obtain ⟨stored, hstored, hbytes⟩ := storeCount_eq hpaddedHolds
    (by rw [List.length_append, List.length_replicate]; omega) bitCount
  rw [List.append_assoc] at hbytes
  have hfull : stored.toList.length = 64 := Vector.length_toList
  rw [← hstate] at hbuffered
  have hfill := hbuffered.fill (by rw [← hbytes, hfull])
  refine ⟨padded, stored, hpadded, hstored, ?_⟩
  rw [stateHash_transform _ hfull, hbytes]
  exact hfill.absorb_eq

theorem final_streamed {message : List UInt8} {context : Context}
    (h : Streamed message context) :
    ∃ closed digest, final context = some (closed, digest) ∧ digest.length = 32 ∧
      messageBits digest = sha256 (messageBits message) := by
  obtain ⟨tail, hholds, hbuffered⟩ := h.fed
  have hshort := hbuffered.short
  obtain ⟨marked, hmarked, hmarkedHolds, hstate, -⟩ :=
    copyIn_holds hholds [0x80] (by rw [List.length_singleton]; omega)
  rw [← hstate] at hbuffered
  obtain ⟨closed, count, hclosed, hsize, hfed, hcount, hempty⟩ :=
    closeBlock_fed hbuffered hmarkedHolds
  obtain ⟨rest, hrest, hrestBuffered⟩ := hfed
  have hrestLength := hrestBuffered.length_mod
  rw [List.length_append, List.length_cons, List.length_replicate] at hrestLength
  have hrestSize := hrest.size
  obtain ⟨padded, stored, hpadded, hstored, hhash⟩ :=
    stateHash_final ⟨rest, hrest, hrestBuffered⟩ hrest (by omega) context.bitCount
  refine ⟨transform { padded with buffer := stored } stored.toList,
    writeDigest (transform { padded with buffer := stored } stored.toList).state, ?_, ?_, ?_⟩
  · simp only [final, hmarked, hclosed, hpadded, hstored, Option.bind_eq_bind, Option.bind_some]
  · rw [writeDigest, length_flatMap_of_width length_writeU32be, Vector.length_toList]
  · have hbytes : message ++ 0x80 :: List.replicate count 0 ++
        (List.replicate (56 - rest.length) 0 ++ (List.range 8).map (countByte context.bitCount)) =
        message ++ padding message.length (count + (56 - rest.length)) := by
      rw [padding, h.bitCount, ← List.replicate_append_replicate]
      simp only [List.append_assoc, List.cons_append]
    have hmod : (message.length + 1 + (count + (56 - rest.length))) % 64 = 56 := by
      omega
    have hbound : count + (56 - rest.length) < 64 := by
      by_cases hzero : count = 0
      · omega
      · have := hempty hzero
        omega
    rw [messageBits_writeDigest, hhash, hbytes, sha256, pad_messageBits message hmod hbound]
    exact congrArg hashBits (absorb_flatMap length_byteBits (by decide) (fun _ _ _ => rfl)
      initialHash _).symm

end Padding

/-- The digest of the standard, for every way to cut the message; the buffer is never full
between two calls, and no write leaves it. -/
theorem sha256_streaming (context : Context) (parts : List (List UInt8)) :
    ∃ fed, updates (init context) parts = some fed ∧ fed.bufferSize < 64 ∧
      ∃ closed digest, final fed = some (closed, digest) ∧ digest.length = 32 ∧
        messageBits digest = sha256 (messageBits parts.flatten) := by
  have hstart : Streamed [] (init context) := ⟨fed_init context, rfl⟩
  obtain ⟨fed, hrun, hstreamed⟩ := updates_streamed hstart parts
  exact ⟨fed, hrun, hstreamed.fed.bufferSize_lt, final_streamed hstreamed⟩

/-- The digest of `abc`, cut after its first byte. -/
example :
    ((updates (init ⟨Vector.replicate 8 0, 0, Vector.replicate 64 0xff, 0⟩)
      [[0x61], [], [0x62, 0x63]]).bind final).map (fun closed => closed.2) = some
      [0xba, 0x78, 0x16, 0xbf, 0x8f, 0x01, 0xcf, 0xea, 0x41, 0x41, 0x40, 0xde,
       0x5d, 0xae, 0x22, 0x23, 0xb0, 0x03, 0x61, 0xa3, 0x96, 0x17, 0x7a, 0x9c,
       0xb4, 0x10, 0xff, 0x61, 0xf2, 0x00, 0x15, 0xad] := by
  decide +kernel

end EspNp2.Digest.Sha256Digest
