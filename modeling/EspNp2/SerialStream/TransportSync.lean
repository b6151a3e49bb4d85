import EspNp2.SerialStream.Resynchronization

/-!
The four-NUL token puts every reachable stream into one state, whatever the parser was
doing when the token began, and from there on the stream reads what a fresh one reads.
-/

namespace EspNp2.SerialStream.TransportSync

open EspNp2.Library.Transducer
open EspNp2.SerialStream.Multiplexer
open EspNp2.SerialStream.Resynchronization

/-- The stream behind the token: only the detector differs from a fresh stream. -/
def synchronized : ControlStream :=
  { transportSync := { consecutiveZeros := kTransportSyncLength } }

/-- A detector that has seen the token belongs to a stream that was reset. -/
def TokenSeen (stream : ControlStream) : Prop :=
  stream.transportSync.consecutiveZeros < kTransportSyncLength ∨ stream = synchronized

theorem feedByte_transportSync (stream : ControlStream) (byte : UInt8) (nowMs : UInt32) :
    (feedByte stream byte nowMs).1.transportSync = stream.transportSync := by
  have htext : ∀ stream : ControlStream,
      (processTextByte stream byte).1.transportSync = stream.transportSync := by
    intro stream
    unfold processTextByte
    split <;> rfl
  unfold feedByte
  cases stream.state with
  | text => exact htext stream
  | startZero =>
      dsimp only
      split
      · rfl
      · exact htext _
  | binaryCollect =>
      dsimp only
      split
      · rfl
      · split <;> rfl
  | binaryDiscard =>
      dsimp only
      split <;> rfl

/-- A NUL brings every stream one step nearer to the token. -/
theorem tokenSeen_zero {stream : ControlStream} (h : TokenSeen stream) (nowMs : UInt32) :
    (feedTransportByte stream (0, nowMs)).1 = synchronized ∨
      (feedTransportByte stream (0, nowMs)).1.transportSync.consecutiveZeros =
        stream.transportSync.consecutiveZeros + 1 ∧
      stream.transportSync.consecutiveZeros + 1 < kTransportSyncLength := by
  rcases h with hzeros | rfl
  · rcases Nat.lt_or_ge (stream.transportSync.consecutiveZeros + 1) kTransportSyncLength with
      hshort | hlong
    · rw [feedTransportByte_zero stream nowMs hshort, feedByte_transportSync]
      exact .inr ⟨rfl, hshort⟩
    · rw [feedTransportByte_sync stream nowMs (by omega)]
      exact .inl rfl
  · rw [feedTransportByte_active synchronized nowMs (Nat.le_refl _)]
    exact .inl rfl

theorem tokenSeen_step {stream : ControlStream} (input : TimedByte) (h : TokenSeen stream) :
    TokenSeen (feedTransportByte stream input).1 := by
  obtain ⟨byte, nowMs⟩ := input
  by_cases hzero : byte = 0
  · subst hzero
    rcases tokenSeen_zero h nowMs with hsame | ⟨hzeros, hlt⟩
    · exact .inr hsame
    · exact .inl (by omega)
  · rw [feedTransportByte_of_ne_zero stream hzero]
    left
    rw [feedByte_transportSync]
    exact Nat.succ_pos 3

theorem tokenSeen_of_reachable {stream : ControlStream} (h : Reachable stream) :
    TokenSeen stream := by
  obtain ⟨chunks, rfl⟩ := h
  rw [feedAll_eq_run]
  exact run_invariant feedTransportByte (fun _ input => tokenSeen_step input)
    (.inl (Nat.succ_pos 3)) _

/-- NULs that complete the token, and any NULs behind it. -/
theorem run_token {stream : ControlStream} (h : TokenSeen stream) {inputs : List TimedByte}
    (hinputs : ∀ input ∈ inputs, input.1 = 0)
    (hcount : kTransportSyncLength ≤ stream.transportSync.consecutiveZeros + inputs.length) :
    (run feedTransportByte stream inputs).1 = synchronized := by
  induction inputs generalizing stream with
  | nil =>
      rcases h with hzeros | hsame
      · rw [List.length_nil] at hcount
        omega
      · exact hsame
  | cons input inputs ih =>
      obtain ⟨byte, nowMs⟩ := input
      obtain rfl : byte = 0 := hinputs (byte, nowMs) (List.mem_cons_self ..)
      rw [run_cons]
      refine ih (tokenSeen_step _ h)
        (fun input hmem => hinputs input (List.mem_cons_of_mem _ hmem)) ?_
      rw [List.length_cons] at hcount
      rcases tokenSeen_zero h nowMs with hsame | ⟨hzeros, -⟩
      · rw [hsame]
        exact Nat.le_add_right _ _
      · omega

/-- Behind the token a byte other than NUL is read as a fresh stream reads it. -/
theorem feedTransportByte_synchronized {input : TimedByte} (hinput : input.1 ≠ 0) :
    feedTransportByte synchronized input = feedTransportByte {} input := by
  rw [feedTransportByte_of_ne_zero _ hinput, feedTransportByte_of_ne_zero _ hinput]
  rfl

theorem run_synchronized {inputs : List TimedByte}
    (hfirst : ∀ byte, (inputs.map Prod.fst).head? = some byte → byte ≠ 0) :
    (run feedTransportByte synchronized inputs).2 = (run feedTransportByte {} inputs).2 := by
  cases inputs with
  | nil => rfl
  | cons input inputs =>
      rw [run_cons, run_cons, feedTransportByte_synchronized (hfirst input.1 rfl)]

theorem chunkBytes_zero_iff {chunks : List Chunk} :
    (∀ byte ∈ chunkBytes chunks, byte = 0) ↔
      ∀ input ∈ chunks.flatMap timedBytes, input.1 = 0 := by
  rw [← map_fst_timedBytes]
  exact List.forall_mem_map

/-- Four NULs or more, in any chunks, leave any reachable stream reset, and what follows is
read as by a fresh stream. -/
theorem token_synchronizes {stream : ControlStream} (hreachable : Reachable stream)
    {zeros : List Chunk} (hzeros : ∀ byte ∈ chunkBytes zeros, byte = 0)
    (hcount : 4 ≤ (chunkBytes zeros).length) :
    (feedAll stream zeros).1.state = .text ∧ (feedAll stream zeros).1.encoded = [] ∧
      (feedAll stream zeros).1.control = {} ∧
      ∀ later : List Chunk, (∀ byte, (chunkBytes later).head? = some byte → byte ≠ 0) →
        (feedAll (feedAll stream zeros).1 later).2 = (feedAll {} later).2 := by
  have hlength : (chunkBytes zeros).length = (zeros.flatMap timedBytes).length := by
    rw [← map_fst_timedBytes, List.length_map]
  have hsame : (feedAll stream zeros).1 = synchronized := by
    rw [feedAll_eq_run]
    refine run_token (tokenSeen_of_reachable hreachable) (chunkBytes_zero_iff.mp hzeros) ?_
    rw [kTransportSyncLength]
    omega
  rw [hsame]
  refine ⟨rfl, rfl, rfl, fun later hfirst => ?_⟩
  rw [feedAll_eq_run, feedAll_eq_run]
  refine run_synchronized ?_
  rwa [map_fst_timedBytes]

/-- A stream in the middle of a frame is reset by five NULs in two chunks. -/
theorem token_synchronizes_frame :
    (feedAll (feedAll {} [([0, 0, 7, 8], 1)]).1 [([0, 0], 2), ([0, 0, 0], 3)]).1.state = .text ∧
      (feedAll (feedAll {} [([0, 0, 7, 8], 1)]).1 [([0, 0], 2), ([0, 0, 0], 3)]).1.encoded = [] ∧
      (feedAll {} [([0, 0, 7, 8], 1)]).1.encoded = [7, 8] := by
  obtain ⟨hstate, hencoded, -, -⟩ := @token_synchronizes (feedAll {} [([0, 0, 7, 8], 1)]).1 ⟨_, rfl⟩
    [([0, 0], 2), ([0, 0, 0], 3)] (by decide +kernel) (by decide +kernel)
  exact ⟨hstate, hencoded, by decide⟩

end EspNp2.SerialStream.TransportSync
