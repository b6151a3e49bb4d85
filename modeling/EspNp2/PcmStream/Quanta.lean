import Mathlib.Algebra.GroupWithZero.Nat
import EspNp2.LiveService.PcmOutput

/-!
A stream of frames cut into quanta, and the queue of quanta that holds what has not been sent yet.
-/

namespace EspNp2.PcmStream.Quanta

open EspNp2.LiveService.ServiceMemory
open EspNp2.LiveService.PcmOutput

def quantumBytes : ℕ := quantumFrames * bytesPerFrame

section Stream

variable (bytes : List UInt8)

/-- The quanta of a stream that are complete. -/
def complete : ℕ := bytes.length / quantumBytes

def quantum (index : ℕ) : SinkView where
  pcm := (bytes.drop (index * quantumBytes)).take quantumBytes
  frameOffset := UInt64.ofNat (index * quantumFrames)
  sequence := UInt32.ofNat index
  validFrames := quantumFrames
  finalPartial := false

/-- The frames behind the last complete quantum. -/
def rest : List UInt8 := bytes.drop (complete bytes * quantumBytes)

def lastPartial : SinkView where
  pcm := rest bytes
  frameOffset := UInt64.ofNat (complete bytes * quantumFrames)
  sequence := UInt32.ofNat (complete bytes)
  validFrames := (rest bytes).length / bytesPerFrame
  finalPartial := true

/-- The views that a stream is sent in. The frames behind the last complete quantum are sent
when the stream has ended. -/
def quanta (ended : Bool) : List SinkView :=
  (List.range (complete bytes)).map (quantum bytes) ++
    if ended ∧ rest bytes ≠ [] then [lastPartial bytes] else []

theorem rest_length : (rest bytes).length = bytes.length % quantumBytes := by
  rw [rest, List.length_drop, complete, Nat.mod_eq_sub_div_mul]

theorem rest_length_lt : (rest bytes).length < quantumBytes := by
  rw [rest_length]
  exact Nat.mod_lt _ (by decide)

theorem length_eq : bytes.length = complete bytes * quantumBytes + (rest bytes).length := by
  rw [rest_length, complete]
  exact (Nat.div_add_mod' _ _).symm

theorem take_append_rest : bytes.take (complete bytes * quantumBytes) ++ rest bytes = bytes :=
  List.take_append_drop _ _

theorem quanta_false : quanta bytes false = (List.range (complete bytes)).map (quantum bytes) := by
  simp [quanta]

variable {bytes}

theorem quantum_append {index : ℕ} (more : List UInt8) (h : index < complete bytes) :
    quantum (bytes ++ more) index = quantum bytes index := by
  have hlength := length_eq bytes
  have hend : (index + 1) * quantumBytes ≤ complete bytes * quantumBytes :=
    Nat.mul_le_mul_right _ h
  have hstart : index * quantumBytes ≤ bytes.length := by
    rw [Nat.add_mul] at hend
    omega
  have hroom : quantumBytes ≤ (bytes.drop (index * quantumBytes)).length := by
    rw [List.length_drop]
    rw [Nat.add_mul] at hend
    omega
  simp only [quantum, List.drop_append_of_le_length hstart, List.take_append_of_le_length hroom]

/-- Frames that do not complete a quantum make no view. -/
theorem append_short {more : List UInt8} (h : (rest bytes).length + more.length < quantumBytes) :
    complete (bytes ++ more) = complete bytes ∧ rest (bytes ++ more) = rest bytes ++ more ∧
      quanta (bytes ++ more) false = quanta bytes false := by
  have hlength := length_eq bytes
  have hcomplete : complete (bytes ++ more) = complete bytes := by
    rw [complete, List.length_append, hlength, Nat.add_assoc, Nat.add_comm,
      Nat.add_mul_div_right _ _ (by decide), Nat.div_eq_of_lt h, Nat.zero_add]
  refine ⟨hcomplete, ?_, ?_⟩
  · rw [rest, hcomplete, List.drop_append_of_le_length (by omega), rest]
  · rw [quanta_false, quanta_false, hcomplete]
    refine List.map_congr_left fun index hindex => ?_
    exact quantum_append more (List.mem_range.mp hindex)

/-- The frames that complete a quantum make one view. -/
theorem append_full {more : List UInt8} (h : (rest bytes).length + more.length = quantumBytes) :
    complete (bytes ++ more) = complete bytes + 1 ∧ rest (bytes ++ more) = [] ∧
      quanta (bytes ++ more) false = quanta bytes false ++
        [⟨rest bytes ++ more, UInt64.ofNat (complete bytes * quantumFrames),
          UInt32.ofNat (complete bytes), quantumFrames, false⟩] := by
  have hlength := length_eq bytes
  have hcomplete : complete (bytes ++ more) = complete bytes + 1 := by
    rw [complete, List.length_append, hlength, Nat.add_assoc, h, ← Nat.succ_mul,
      Nat.mul_div_cancel _ (by decide)]
  have hrest : rest (bytes ++ more) = [] := by
    rw [rest, hcomplete, List.drop_eq_nil_iff, List.length_append, Nat.add_mul]
    omega
  refine ⟨hcomplete, hrest, ?_⟩
  rw [quanta_false, quanta_false, hcomplete, List.range_succ, List.map_append, List.map_singleton]
  congr 1
  · refine List.map_congr_left fun index hindex => ?_
    exact quantum_append more (List.mem_range.mp hindex)
  · have hdrop : (bytes ++ more).drop (complete bytes * quantumBytes) = rest bytes ++ more := by
      rw [List.drop_append_of_le_length (by omega), rest]
    have htake : (rest bytes ++ more).take quantumBytes = rest bytes ++ more := by
      rw [List.take_of_length_le (by rw [List.length_append]; exact Nat.le_of_eq h)]
    rw [quantum, hdrop, htake]

theorem quantum_pcm_length {index : ℕ} (h : index < complete bytes) :
    (quantum bytes index).pcm.length = quantumBytes := by
  have hlength := length_eq bytes
  have hend : (index + 1) * quantumBytes ≤ complete bytes * quantumBytes :=
    Nat.mul_le_mul_right _ h
  rw [Nat.add_mul] at hend
  rw [quantum, List.length_take, List.length_drop]
  omega

/-- Where the views sent so far end, the next one is a quantum or the last frames. -/
theorem quanta_split {ended : Bool} {sent views : List SinkView} {view : SinkView}
    (h : sent ++ view :: views = quanta bytes ended) :
    (sent.map SinkView.validFrames).sum = sent.length * quantumFrames ∧
      (sent.length < complete bytes ∧ view = quantum bytes sent.length ∨
        sent.length = complete bytes ∧ view = lastPartial bytes ∧ rest bytes ≠ []) := by
  have hget : (quanta bytes ended)[sent.length]? = some view := by simp [← h]
  have htake : (quanta bytes ended).take sent.length = sent := by simp [← h]
  have hfull : ((List.range (complete bytes)).map (quantum bytes)).length = complete bytes := by
    simp
  have hplace : sent.length < complete bytes ∧ view = quantum bytes sent.length ∨
      sent.length = complete bytes ∧ view = lastPartial bytes ∧ rest bytes ≠ [] := by
    rw [quanta] at hget
    by_cases hlt : sent.length < complete bytes
    · rw [List.getElem?_append_left (by rwa [hfull])] at hget
      simp only [List.getElem?_map, List.getElem?_range hlt, Option.map_some,
        Option.some.injEq] at hget
      exact .inl ⟨hlt, hget.symm⟩
    · rw [List.getElem?_append_right (by rw [hfull]; exact Nat.le_of_not_lt hlt), hfull] at hget
      split at hget
      case isTrue hrest =>
        rw [List.getElem?_singleton] at hget
        split at hget
        case isTrue hzero =>
          exact .inr ⟨by omega, (Option.some.inj hget).symm, hrest.2⟩
        case isFalse => cases hget
      case isFalse => simp at hget
  have hle : sent.length ≤ complete bytes := by
    rcases hplace with ⟨hlt, _⟩ | ⟨heq, _⟩
    · exact Nat.le_of_lt hlt
    · exact Nat.le_of_eq heq
  refine ⟨?_, hplace⟩
  rw [quanta, List.take_append_of_le_length (by rwa [hfull]), ← List.map_take, List.take_range,
    Nat.min_eq_left hle] at htake
  rw [← htake, List.map_map]
  change (((List.range sent.length).map fun _ => quantumFrames).sum) = _
  rw [List.map_const', List.length_range, List.sum_replicate_nat, List.length_map,
    List.length_range]

/-- The views of a stream have its bytes, in order. -/
theorem quanta_bytes (bytes : List UInt8) (ended : Bool) :
    ((quanta bytes ended).map SinkView.pcm).flatten =
      bytes.take (complete bytes * quantumBytes) ++ if ended then rest bytes else [] := by
  have hquanta : ∀ count ≤ complete bytes,
      (((List.range count).map (quantum bytes)).map SinkView.pcm).flatten =
        bytes.take (count * quantumBytes) := by
    intro count hcount
    induction count with
    | zero => simp
    | succ count ih =>
        rw [List.range_succ, List.map_append, List.map_append, List.flatten_append,
          ih (Nat.le_of_succ_le hcount), Nat.add_mul, Nat.one_mul, List.take_add]
        simp [quantum]
  rw [quanta, List.map_append, List.flatten_append, hquanta _ (Nat.le_refl _)]
  congr 1
  cases ended with
  | false => simp
  | true =>
      by_cases hrest : rest bytes = []
      · simp [hrest]
      · simp [hrest, lastPartial]

theorem quanta_true_bytes (bytes : List UInt8) :
    ((quanta bytes true).map SinkView.pcm).flatten = bytes := by
  rw [quanta_bytes, if_pos rfl, take_append_rest]

theorem quanta_bytes_isPrefix (bytes : List UInt8) (ended : Bool) :
    ((quanta bytes ended).map SinkView.pcm).flatten <+: bytes := by
  cases ended with
  | false =>
      rw [quanta_bytes]
      exact ⟨rest bytes, by simpa using take_append_rest bytes⟩
  | true =>
      exact ⟨[], by rw [List.append_nil, quanta_true_bytes]⟩

end Stream

section Queue

/-- The bytes are those of the quanta sent, then of those in the queue, then of the one that is
being filled. -/
structure Tiled (bytes : List UInt8) (sent : List SinkView) (queue : PcmRing) : Prop where
  views : sent ++ queue.slots = quanta bytes queue.finalized
  frames : bytes.length = queue.nextFrameOffset.toNat * bytesPerFrame
  room : queue.slots.length ≤ ringCapacity
  partialPcm : queue.finalized = false → queue.partialPcm = rest bytes
  partialFrames : queue.finalized = false →
    queue.partialValidFrames * bytesPerFrame = (rest bytes).length
  partialOffset : queue.finalized = false → queue.partialValidFrames ≠ 0 →
    queue.partialOffset = UInt64.ofNat (complete bytes * quantumFrames)
  sequence : queue.finalized = false → queue.nextSequence = UInt32.ofNat (complete bytes)

theorem tiled_nil : Tiled [] [] {} where
  views := rfl
  frames := rfl
  room := Nat.zero_le _
  partialPcm _ := rfl
  partialFrames _ := rfl
  partialOffset _ h := absurd rfl h
  sequence _ := rfl

variable {bytes pcm : List UInt8} {sent : List SinkView} {queue : PcmRing} {chunk : ℕ}

theorem Tiled.partial_lt (h : Tiled bytes sent queue) (hopen : queue.finalized = false) :
    queue.partialValidFrames < quantumFrames := by
  have hlength := rest_length_lt bytes
  rw [← h.partialFrames hopen] at hlength
  exact Nat.lt_of_mul_lt_mul_right hlength

/-- A quantum starts where the complete ones end. -/
theorem Tiled.offset (h : Tiled bytes sent queue) (hopen : queue.finalized = false) :
    (if queue.partialValidFrames = 0 then queue.nextFrameOffset else queue.partialOffset) =
      UInt64.ofNat (complete bytes * quantumFrames) := by
  split
  case isTrue hzero =>
    have hframes := h.frames
    rw [length_eq bytes, ← h.partialFrames hopen, hzero, Nat.zero_mul, Nat.add_zero,
      quantumBytes, ← Nat.mul_assoc] at hframes
    rw [Nat.eq_of_mul_eq_mul_right (by decide) hframes, UInt64.ofNat_toNat]
  case isFalse hpositive => exact h.partialOffset hopen hpositive

theorem Tiled.fill (h : Tiled bytes sent queue) (hopen : queue.finalized = false)
    (hroom : queue.slots.length < ringCapacity)
    (hchunk : queue.partialValidFrames + chunk ≤ quantumFrames)
    (henough : chunk * bytesPerFrame ≤ pcm.length)
    (hrange : queue.nextFrameOffset.toNat + chunk < 2 ^ 64) :
    Tiled (bytes ++ pcm.take (chunk * bytesPerFrame)) sent (queue.fill pcm chunk) := by
  set more := pcm.take (chunk * bytesPerFrame) with hmore
  have hlength : more.length = chunk * bytesPerFrame := by
    rw [hmore, List.length_take, Nat.min_eq_left henough]
  have htotal : (rest bytes).length + more.length =
      (queue.partialValidFrames + chunk) * bytesPerFrame := by
    rw [← h.partialFrames hopen, hlength, Nat.add_mul]
  have hsmall : chunk < 2 ^ 64 := by omega
  have hnext : (queue.nextFrameOffset + UInt64.ofNat chunk).toNat =
      queue.nextFrameOffset.toNat + chunk := by
    rw [UInt64.toNat_add, UInt64.toNat_ofNat_of_lt' hsmall, Nat.mod_eq_of_lt hrange]
  have hframes : (bytes ++ more).length =
      (queue.nextFrameOffset + UInt64.ofNat chunk).toNat * bytesPerFrame := by
    rw [hnext, List.length_append, h.frames, hlength, Nat.add_mul]
  have hviews := h.views
  rw [hopen] at hviews
  rw [PcmRing.fill, h.offset hopen]
  split
  case isTrue hfull =>
    rw [hfull] at htotal
    obtain ⟨hcomplete, hrest, hquanta⟩ := append_full htotal
    constructor
    case views =>
      change sent ++ (queue.slots ++ _) = quanta (bytes ++ more) queue.finalized
      rw [hopen, hquanta, ← List.append_assoc, hviews, h.partialPcm hopen, h.sequence hopen]
    case frames => exact hframes
    case room =>
      change (queue.slots ++ [_]).length ≤ ringCapacity
      rw [List.length_append]
      exact hroom
    case partialPcm => exact fun _ => hrest.symm
    case partialFrames =>
      intro _
      rw [hrest]
      rfl
    case partialOffset => exact fun _ hzero => absurd rfl hzero
    case sequence =>
      intro _
      change queue.nextSequence + 1 = _
      rw [hcomplete, h.sequence hopen, UInt32.ofNat_add]
      rfl
  case isFalse hshort =>
    have hlt : (rest bytes).length + more.length < quantumBytes := by
      rw [htotal]
      exact Nat.mul_lt_mul_of_pos_right (by omega) (by decide)
    obtain ⟨hcomplete, hrest, hquanta⟩ := append_short hlt
    constructor
    case views =>
      change sent ++ queue.slots = quanta (bytes ++ more) queue.finalized
      rw [hopen, hquanta, hviews]
    case frames => exact hframes
    case room => exact h.room
    case partialPcm =>
      intro _
      rw [hrest, h.partialPcm hopen]
    case partialFrames =>
      intro _
      rw [hrest, List.length_append, htotal]
    case partialOffset =>
      intro _ _
      rw [hcomplete]
    case sequence =>
      intro _
      rw [hcomplete]
      exact h.sequence hopen

theorem fill_slots : queue.slots <+: (queue.fill pcm chunk).slots := by
  rw [PcmRing.fill]
  split
  · exact List.prefix_append _ _
  · exact List.prefix_refl _

@[simp] theorem fill_finalized : (queue.fill pcm chunk).finalized = queue.finalized := by
  rw [PcmRing.fill]
  split <;> rfl

/-- The frames that a round takes are the next ones of the stream. -/
theorem Tiled.appendRounds (rounds : ℕ) {frameCount : ℕ} (h : Tiled bytes sent queue)
    (hopen : queue.finalized = false) (henough : frameCount * bytesPerFrame ≤ pcm.length)
    (hrange : queue.nextFrameOffset.toNat + frameCount < 2 ^ 64) :
    let result := queue.appendRounds rounds pcm frameCount
    result.1 ≠ .invariant ∧ result.2.1 ≤ frameCount ∧ queue.slots <+: result.2.2.slots ∧
      Tiled (bytes ++ pcm.take (result.2.1 * bytesPerFrame)) sent result.2.2 := by
  induction rounds generalizing bytes queue pcm frameCount with
  | zero => simpa [PcmRing.appendRounds] using h
  | succ rounds ih =>
      rw [PcmRing.appendRounds]
      split
      case isTrue => simpa using h
      split
      case isTrue hover => exact absurd h.room (Nat.not_le_of_lt hover)
      split
      case isTrue => simpa using h
      case isFalse hfull =>
        have hroom : queue.slots.length < ringCapacity :=
          Nat.lt_of_le_of_ne h.room hfull
        have hpartial := h.partial_lt hopen
        set chunk := min frameCount (quantumFrames - queue.partialValidFrames) with hchunk
        have hle : chunk ≤ frameCount := Nat.min_le_left _ _
        have hbytes : chunk * bytesPerFrame ≤ pcm.length :=
          Nat.le_trans (Nat.mul_le_mul_right _ hle) henough
        have hfits : queue.partialValidFrames + chunk ≤ quantumFrames := by omega
        have hfill := h.fill hopen hroom hfits hbytes (by omega)
        have hleft : (frameCount - chunk) * bytesPerFrame ≤
            (pcm.drop (chunk * bytesPerFrame)).length := by
          rw [List.length_drop, Nat.sub_mul]
          omega
        have hnext : (queue.fill pcm chunk).nextFrameOffset.toNat =
            queue.nextFrameOffset.toNat + chunk := by
          have hframes := hfill.frames
          rw [List.length_append, h.frames, List.length_take, Nat.min_eq_left hbytes,
            ← Nat.add_mul] at hframes
          exact (Nat.eq_of_mul_eq_mul_right (by decide) hframes).symm
        obtain ⟨hstatus, hconsumed, hslots, htiled⟩ :=
          ih hfill (fill_finalized.trans hopen) hleft (by omega)
        refine ⟨hstatus, ?_, fill_slots.trans hslots, ?_⟩
        · change chunk + _ ≤ frameCount
          exact Nat.le_trans (Nat.add_le_add_left hconsumed chunk)
            (Nat.le_of_eq (Nat.add_sub_of_le hle))
        · change Tiled (bytes ++ pcm.take ((chunk + _) * bytesPerFrame)) sent _
          rw [Nat.add_mul, List.take_add, ← List.append_assoc]
          exact htiled

theorem Tiled.append (h : Tiled bytes sent queue) {frameCount : ℕ} (frameOffset : UInt64)
    (henough : frameCount * bytesPerFrame ≤ pcm.length) (hframes : frameCount < 2 ^ 64) :
    let result := queue.append pcm frameCount frameOffset
    result.1 ≠ .invariant ∧ result.2.1 ≤ frameCount ∧ queue.slots <+: result.2.2.slots ∧
      Tiled (bytes ++ pcm.take (result.2.1 * bytesPerFrame)) sent result.2.2 := by
  rw [PcmRing.append]
  split
  case isTrue => simpa using h
  case isFalse hopen =>
    split
    case isTrue => simpa using h
    case isFalse hoffset =>
      split
      case isTrue => simpa using h
      case isFalse hrange =>
        have hsum : queue.nextFrameOffset.toNat + frameCount < 2 ^ 64 := by
          have hle : UInt64.ofNat frameCount ≤ (-1 : UInt64) - frameOffset :=
            UInt64.not_lt.mp hrange
          rw [of_not_not hoffset, UInt64.le_iff_toNat_le, UInt64.toNat_ofNat_of_lt' hframes] at hle
          have hmax : ((-1 : UInt64) - queue.nextFrameOffset).toNat =
              2 ^ 64 - 1 - queue.nextFrameOffset.toNat := by
            rw [UInt64.toNat_sub_of_le]
            · rfl
            · rw [UInt64.le_iff_toNat_le]
              have hbound := queue.nextFrameOffset.toNat_lt
              change _ ≤ 2 ^ 64 - 1
              omega
          have hbound := queue.nextFrameOffset.toNat_lt
          omega
        exact h.appendRounds frameCount (Bool.not_eq_true _ ▸ hopen) henough hsum

theorem Tiled.finish (h : Tiled bytes sent queue) (finalFrame : UInt64) :
    let result := queue.finish finalFrame
    result.1 ≠ .invariant ∧ queue.slots <+: result.2.slots ∧ Tiled bytes sent result.2 := by
  rw [PcmRing.finish]
  split
  case isTrue => exact ⟨nofun, List.prefix_refl _, h⟩
  case isFalse hfinal =>
    have hopen : queue.finalized = false := Bool.not_eq_true _ ▸ hfinal
    have hviews := h.views
    rw [hopen] at hviews
    split
    case isTrue => exact ⟨nofun, List.prefix_refl _, h⟩
    split
    case isTrue hzero =>
      have hrest : rest bytes = [] := by
        rw [← List.length_eq_zero_iff, ← h.partialFrames hopen, hzero, Nat.zero_mul]
      refine ⟨nofun, List.prefix_refl _, ?_⟩
      constructor
      case views =>
        change sent ++ queue.slots = quanta bytes true
        rw [hviews, quanta_false, quanta, hrest]
        simp
      case frames => exact h.frames
      case room => exact h.room
      all_goals exact nofun
    case isFalse hpositive =>
      split
      case isTrue hover => exact absurd h.room (Nat.not_le_of_lt hover)
      split
      case isTrue => exact ⟨nofun, List.prefix_refl _, h⟩
      case isFalse hfull =>
        have hlength := h.partialFrames hopen
        have hrest : rest bytes ≠ [] := by
          intro hnil
          rw [hnil, List.length_nil] at hlength
          exact hpositive ((Nat.mul_eq_zero.mp hlength).resolve_right (by decide))
        refine ⟨nofun, List.prefix_append _ _, ?_⟩
        constructor
        case views =>
          change sent ++ (queue.slots ++ _) = quanta bytes true
          rw [← List.append_assoc, hviews, quanta_false, quanta, lastPartial, ← hlength,
            h.partialPcm hopen, h.partialOffset hopen hpositive, h.sequence hopen,
            Nat.mul_div_cancel _ (by decide)]
          simp [hrest]
        case frames => exact h.frames
        case room =>
          change (queue.slots ++ [_]).length ≤ ringCapacity
          rw [List.length_append]
          exact Nat.lt_of_le_of_ne h.room hfull
        all_goals exact nofun

/-- The view that is sent next, by its place in the stream. -/
theorem Tiled.next (h : Tiled bytes sent queue) {view : SinkView} {views : List SinkView}
    (hslots : queue.slots = view :: views) :
    view.sequence = UInt32.ofNat sent.length ∧
      view.frameOffset = UInt64.ofNat ((sent.map SinkView.validFrames).sum) ∧
      view.pcm.length = view.validFrames * bytesPerFrame ∧
      (view.validFrames = quantumFrames ∧ view.finalPartial = false ∨
        0 < view.validFrames ∧ view.validFrames < quantumFrames ∧ view.finalPartial = true) := by
  have hviews := h.views
  rw [hslots] at hviews
  obtain ⟨hsum, ⟨hlt, rfl⟩ | ⟨heq, rfl, hrest⟩⟩ := quanta_split hviews
  · rw [hsum]
    exact ⟨rfl, rfl, quantum_pcm_length hlt, .inl ⟨rfl, rfl⟩⟩
  · have hdivides : bytesPerFrame ∣ (rest bytes).length := by
      rw [rest_length]
      refine (Nat.dvd_mod_iff ⟨quantumFrames, by decide⟩).mpr ?_
      exact ⟨queue.nextFrameOffset.toNat, h.frames.trans (Nat.mul_comm _ _)⟩
    have hlength : (rest bytes).length / bytesPerFrame * bytesPerFrame = (rest bytes).length :=
      Nat.div_mul_cancel hdivides
    have hpositive : 0 < (rest bytes).length := List.length_pos_iff.mpr hrest
    have hlt := rest_length_lt bytes
    rw [hsum, heq]
    refine ⟨rfl, rfl, hlength.symm, .inr ⟨?_, ?_, rfl⟩⟩
    · exact Nat.div_pos (Nat.le_of_dvd hpositive hdivides) (by decide)
    · exact Nat.div_lt_of_lt_mul (by rwa [Nat.mul_comm])

theorem Tiled.send (h : Tiled bytes sent queue) {view : SinkView} {views : List SinkView}
    (hslots : queue.slots = view :: views) :
    Tiled bytes (sent ++ [view]) { queue with slots := views } where
  views := by
    rw [List.append_assoc, ← h.views, hslots]
    rfl
  frames := h.frames
  room := by
    have hroom := h.room
    rw [hslots, List.length_cons] at hroom
    exact Nat.le_of_succ_le hroom
  partialPcm := h.partialPcm
  partialFrames := h.partialFrames
  partialOffset := h.partialOffset
  sequence := h.sequence

end Queue

end EspNp2.PcmStream.Quanta
