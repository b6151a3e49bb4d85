import EspNp2.CodecLease.CodecClients

/-!
The life of a codec lease.  The ledger still points to the lease when its holder ends exactly
if the driver has failed to delete the device behind it: the holders clear their flag and go on
then, and no later call of theirs reaches the slot again.
-/

namespace EspNp2.CodecLease.LeaseLifetime

open Library.CallProgram
open Library.CallMonitor
open Library.LabelledRun
open SharedI2c
open CodecClients

section Lives

/-- What another client does with a lease of its own. -/
inductive ClientOp where
  | acquire (address : UInt8) (lease : LeaseId)
  | release (lease : LeaseId)
  | shutdown
deriving DecidableEq, Repr

def ClientOp.code : ClientOp → BoardCode LeaseResult
  | .acquire address lease => SharedI2c.acquire address lease
  | .release lease => SharedI2c.release lease
  | .shutdown => SharedI2c.shutdown

def ClientOp.Foreign (codec : LeaseId) : ClientOp → Prop
  | .acquire _ lease => lease ≠ codec
  | .release lease => lease ≠ codec
  | .shutdown => True

/-- What may happen in the life of a backend before its `release`. -/
inductive SinkOp where
  | prepare
  | preload (bytes : Nat)
  | enableStream
  | write (bytes : Nat)
  | mute
  | paLow
  | disable
  | unregisterCallbacks
  | other (op : ClientOp)
deriving DecidableEq, Repr

def SinkOp.code (codec : LeaseId) : SinkOp → SinkCode Unit
  | .prepare => do
      let _ ← CodecClients.prepare codec
      return
  | .preload bytes => CodecClients.preload bytes
  | .enableStream => do
      let _ ← CodecClients.enableStream codec
      return
  | .write bytes => CodecClients.write bytes
  | .mute => do
      let _ ← CodecClients.mute codec
      return
  | .paLow => do
      let _ ← CodecClients.paLow
      return
  | .disable => do
      let _ ← CodecClients.disable
      return
  | .unregisterCallbacks => do
      let _ ← CodecClients.unregisterCallbacks
      return
  | .other op => do
      let _ ← onBoard op.code
      return

def SinkOp.Foreign (codec : LeaseId) : SinkOp → Prop
  | .other op => op.Foreign codec
  | _ => True

def sinkOps (codec : LeaseId) : List SinkOp → SinkCode Unit
  | [] => return
  | op :: rest => do
      op.code codec
      sinkOps codec rest

def clientOps : List ClientOp → BoardCode Unit
  | [] => return
  | op :: rest => do
      let _ ← op.code
      clientOps rest

/-- A backend from its creation to its release, and what the other clients do behind it. -/
def sinkLife (codec : LeaseId) (ops : List SinkOp) (later : List ClientOp) : SinkCode Unit := do
  sinkOps codec ops
  releaseBackend codec
  onBoard (clientOps later)

/-- A run of the tone profile, and what the other clients do behind it. -/
def toneLife (codec : LeaseId) (identityOk : Bool) (descriptors blocks bytes : Nat)
    (later : List ClientOp) : BoardCode Unit := do
  runTone codec identityOk descriptors blocks bytes
  clientOps later

end Lives

section Leases

/-- A slot of the ledger points to the lease. -/
def Holds (ledger : Ledger) (codec : LeaseId) : Prop := ∃ slot, ledger.slots slot = some codec

/-- A lease object that was just made. -/
structure Fresh (ledger : Ledger) (codec : LeaseId) : Prop where
  object : ledger.leases codec = {}
  slots : ∀ slot, ledger.slots slot ≠ some codec

/-- The driver fails to delete the device of the lease. -/
def deleteFails (codec : LeaseId) : DriverLabel → Bool
  | ⟨.rmDevice lease _, deleted⟩ => lease = codec ∧ deleted = false
  | _ => false

/-- The monitor knows whether a deletion has failed. -/
def watchDeletes (codec : LeaseId) (failed : Bool) (label : DriverLabel) : Option Bool :=
  some (failed || deleteFails codec label)

theorem foldlM_watchDeletes (codec : LeaseId) (failed : Bool) (labels : List DriverLabel) :
    labels.foldlM (watchDeletes codec) failed = some
      (failed || labels.any (deleteFails codec)) := by
  induction labels generalizing failed with
  | nil => simp
  | cons label labels ih =>
      rw [List.foldlM_cons, watchDeletes, Option.bind_eq_bind, Option.bind_some, ih,
        List.any_cons, Bool.or_assoc]

/-- How the ledger and a lease object fit together. -/
structure LeaseSound (ledger : Ledger) (codec : LeaseId) : Prop where
  held : Holds ledger codec ↔ (ledger.leases codec).active = true
  owned : (ledger.leases codec).owned = (ledger.leases codec).active
  once : ∀ slot slot', ledger.slots slot = some codec → ledger.slots slot' = some codec →
    slot = slot'

/-- The lease and its place in the ledger are untouched. -/
structure SameLease (codec : LeaseId) (board board' : Board) : Prop where
  object : board'.ledger.leases codec = board.ledger.leases codec
  slots : ∀ slot, board'.ledger.slots slot = some codec ↔ board.ledger.slots slot = some codec

variable {codec : LeaseId}

instance : Std.Refl (SameLease codec) := ⟨fun _ => ⟨rfl, fun _ => Iff.rfl⟩⟩

instance : IsTrans Board (SameLease codec) :=
  ⟨fun _ _ _ h h' => ⟨h'.object.trans h.object, fun slot => (h'.slots slot).trans (h.slots slot)⟩⟩

theorem SameLease.sound {board board' : Board} (h : SameLease codec board board')
    (hsound : LeaseSound board.ledger codec) : LeaseSound board'.ledger codec := by
  refine ⟨?_, ?_, ?_⟩
  · rw [h.object, ← hsound.held]
    exact exists_congr h.slots
  · rw [h.object]
    exact hsound.owned
  · intro slot slot' hslot hslot'
    exact hsound.once slot slot' ((h.slots slot).mp hslot) ((h.slots slot').mp hslot')

theorem Fresh.sound {ledger : Ledger} (h : Fresh ledger codec) : LeaseSound ledger codec := by
  refine ⟨?_, ?_, fun slot _ hslot => absurd hslot (h.slots slot)⟩
  · rw [h.object]
    exact ⟨fun ⟨slot, hslot⟩ => absurd hslot (h.slots slot), nofun⟩
  · rw [h.object]

end Leases

section Quiet

variable {α : Type} {codec : LeaseId}

/-- Code that neither deletes the lease's device nor touches the lease. -/
def Quiet (codec : LeaseId) (code : BoardCode α) : Prop :=
  Within (fun label => deleteFails codec label = false) (SameLease codec) code

theorem quiet_pure (value : α) : Quiet codec (pure value) := within_pure value

theorem quiet_call {request : DriverCall}
    (h : ∀ reply, deleteFails codec ⟨request, reply⟩ = false) : Quiet codec (call request) :=
  fun board reply => ⟨h reply, Std.Refl.refl board⟩

theorem quiet_get_bind {rest : Board → BoardCode α} (h : ∀ board, Quiet codec (rest board)) :
    Quiet codec (get >>= rest) :=
  within_get.bind h

theorem quiet_modify {change : Board → Board} (h : ∀ board, SameLease codec board (change board)) :
    Quiet codec (modify change) :=
  within_modify h

theorem quiet_modifyPa (initialized enabled : Bool) :
    Quiet codec (modifyPa initialized enabled) :=
  quiet_modify fun _ => ⟨rfl, fun _ => Iff.rfl⟩

theorem quiet_bus (token : Token) (alive : Bool) : Quiet codec (modifyLedger fun ledger =>
    { ledger with busToken := token, busAlive := alive }) :=
  quiet_modify fun _ => ⟨rfl, fun _ => Iff.rfl⟩

theorem quiet_shutdown : Quiet codec shutdown := by
  refine quiet_get_bind fun board => within_ite (fun _ => quiet_pure _) fun _ => ?_
  refine within_ite (fun _ => quiet_pure _) fun _ => ?_
  refine Within.bind (quiet_call fun _ => rfl) fun deleted => ?_
  refine within_ite (fun _ => ?_) fun _ => quiet_pure _
  exact Within.bind (quiet_bus 0 false) fun _ => quiet_pure _

theorem quiet_transmit (lease : LeaseId) (data : List UInt8) : Quiet codec (transmit lease data) :=
  quiet_get_bind fun _ => within_ite (fun _ => quiet_call fun _ => rfl) fun _ => quiet_pure _

theorem quiet_transmitReceive (lease : LeaseId) (data : List UInt8) :
    Quiet codec (transmitReceive lease data) :=
  quiet_get_bind fun _ => within_ite (fun _ => quiet_call fun _ => rfl) fun _ => quiet_pure _

theorem quiet_paServiceInit : Quiet codec paServiceInit := by
  refine quiet_get_bind fun board => within_ite (fun _ => quiet_pure _) fun _ => ?_
  refine Within.bind (quiet_call fun _ => rfl) fun configured =>
    within_ite (fun _ => ?_) fun _ => ?_
  · exact Within.bind (quiet_modifyPa _ _) fun _ => quiet_pure _
  · refine Within.bind (quiet_call fun _ => rfl) fun low => ?_
    exact Within.bind (quiet_modifyPa _ _) fun _ => quiet_pure _

theorem quiet_paServiceSet (enabled : Bool) : Quiet codec (paServiceSet enabled) := by
  refine quiet_get_bind fun board => within_ite (fun _ => quiet_pure _) fun _ => ?_
  refine Within.bind (quiet_call fun _ => rfl) fun set => within_ite (fun _ => ?_)
    fun _ => quiet_pure _
  exact Within.bind (quiet_modifyPa _ _) fun _ => quiet_pure _

theorem quiet_paServiceShutdown : Quiet codec paServiceShutdown := by
  refine quiet_get_bind fun board => within_ite (fun _ => quiet_pure _) fun _ => ?_
  refine Within.bind (quiet_call fun _ => rfl) fun low => within_ite (fun _ => ?_)
    fun _ => quiet_pure _
  exact Within.bind (quiet_modifyPa _ _) fun _ => quiet_pure _

theorem firstSlot_spec {ledger : Ledger} {content : Option LeaseId} {slot : Fin 4}
    (h : ledger.firstSlot content = some slot) : ledger.slots slot = content := by
  have hfound := List.find?_some h
  exact of_decide_eq_true hfound

theorem findSlot_spec {ledger : Ledger} {lease : LeaseId} {slot : Fin 4}
    (h : ledger.findSlot lease = some slot) : ledger.slots slot = some lease := by
  rw [Ledger.findSlot] at h
  split at h
  · cases h
  · exact firstSlot_spec h

theorem sameLease_register {board : Board} {slot : Fin 4} {lease : LeaseId} {address : UInt8}
    {device : Token} (hlease : lease ≠ codec) (hslot : board.ledger.slots slot ≠ some codec) :
    SameLease codec board
      { board with ledger := board.ledger.register slot lease address device } := by
  refine ⟨?_, fun other => ?_⟩
  · simp [Ledger.register, hlease.symm]
  · by_cases hother : other = slot
    · subst hother
      simp [Ledger.register, hlease, hslot]
    · simp [Ledger.register, hother]

theorem sameLease_unregister {board : Board} {slot : Fin 4} {lease : LeaseId}
    (hlease : lease ≠ codec) (hslot : board.ledger.slots slot = some lease) :
    SameLease codec board { board with ledger := board.ledger.unregister slot lease } := by
  refine ⟨?_, fun other => ?_⟩
  · simp [Ledger.unregister, hlease.symm]
  · by_cases hother : other = slot
    · subst hother
      simp [Ledger.unregister, hslot, hlease]
    · simp [Ledger.unregister, hother]

end Quiet

section Acquire

variable {codec lease : LeaseId} {address : UInt8} {failed : Bool} {board board' : Board}

/-- The slots and the lease objects are untouched. -/
structure SameSlots (board board' : Board) : Prop where
  slots : board'.ledger.slots = board.ledger.slots
  leases : board'.ledger.leases = board.ledger.leases

instance : Std.Refl SameSlots := ⟨fun _ => ⟨rfl, rfl⟩⟩

instance : IsTrans Board SameSlots :=
  ⟨fun _ _ _ h h' => ⟨h'.slots.trans h.slots, h'.leases.trans h.leases⟩⟩

theorem SameSlots.sameLease (h : SameSlots board board') : SameLease codec board board' :=
  ⟨congrFun h.leases codec, fun slot => by rw [h.slots]⟩

theorem ensureBus_sameSlots :
    Within (fun label => deleteFails codec label = false) SameSlots ensureBus := by
  refine within_get.bind fun board => within_ite (fun _ => within_pure _) fun _ => ?_
  refine Within.bind (fun board reply => ⟨rfl, Std.Refl.refl board⟩) fun bus => ?_
  cases bus with
  | none => exact within_pure _
  | some token =>
      refine within_ite (fun _ => within_pure _) fun _ => ?_
      exact Within.bind (within_modify fun _ => ⟨rfl, rfl⟩) fun _ => within_pure _

/-- What `acquire` leaves: nothing of the lease has changed, or it is in a slot that was
free. -/
def Acquired (codec lease : LeaseId) (board : Board) (result : LeaseResult) (board' : Board) :
    Prop :=
  result ≠ .ok ∧ SameLease codec board board' ∨
    result = .ok ∧ (board.ledger.leases lease).active = false ∧
      ∃ slot address device, board.ledger.slots slot = none ∧
        SameSlots { board with ledger := board.ledger.register slot lease address device } board'

theorem watchDeletes_quiet (m : Bool) (label : DriverLabel) (h : deleteFails codec label = false) :
    watchDeletes codec m label = some m := by
  rw [watchDeletes, h, Bool.or_false]

theorem ensures_dropBus (failed : Bool) (board : Board) :
    Ensures (watchDeletes codec) (fun m s => m = failed ∧ SameLease codec board s) dropBus
      (fun m result s => m = failed ∧ result ≠ .ok ∧ SameLease codec board s) := by
  refine ensures_get_bind fun current => ?_
  refine Ensures.bind (Q := fun m _ s => m = failed ∧ SameLease codec board s)
    (fun m s hpre reply => ⟨_, watchDeletes_quiet m _ rfl, hpre.1⟩) fun deleted => ?_
  refine ensures_ite (fun _ => ?_) fun _ => ensures_pure ?_
  · refine Ensures.bind (Q := fun m _ s => m = failed ∧ SameLease codec board s)
      ((quiet_bus 0 false).ensures watchDeletes_quiet ?_) fun _ => ensures_pure ?_
    · rintro m s s' _ ⟨rfl, hsame⟩ hsame'
      exact ⟨rfl, IsTrans.trans _ _ _ hsame hsame'⟩
    · rintro m s ⟨rfl, hsame⟩
      exact ⟨rfl, nofun, hsame⟩
  · rintro m s ⟨rfl, hsame⟩
    exact ⟨rfl, nofun, hsame⟩

theorem ensures_acquire (address : UInt8) (lease : LeaseId) :
    Ensures (watchDeletes codec) (fun m s => m = failed ∧ s = board) (acquire address lease)
      (fun m result s => m = failed ∧ Acquired codec lease board result s) := by
  refine ensures_get_bind fun current => ?_
  have hrefl : SameLease codec board board := Std.Refl.refl board
  refine ensures_ite (fun _ => ensures_pure ?_) fun hinactive => ?_
  · rintro m s ⟨⟨rfl, rfl⟩, -⟩
    exact ⟨rfl, .inl ⟨nofun, hrefl⟩⟩
  refine ensures_ite (fun _ => ensures_pure ?_) fun _ => ?_
  · rintro m s ⟨⟨rfl, rfl⟩, -⟩
    exact ⟨rfl, .inl ⟨nofun, hrefl⟩⟩
  cases hslot : current.ledger.firstSlot none with
  | none =>
      refine ensures_pure ?_
      rintro m s ⟨⟨rfl, rfl⟩, -⟩
      exact ⟨rfl, .inl ⟨nofun, hrefl⟩⟩
  | some slot =>
      have hfree := firstSlot_spec hslot
      refine Ensures.bind (Q := fun m _ s => m = failed ∧ board = current ∧ SameSlots board s)
        (ensureBus_sameSlots.ensures watchDeletes_quiet ?_) fun created => ?_
      · rintro m s s' value ⟨⟨rfl, rfl⟩, rfl⟩ hsame
        exact ⟨rfl, rfl, hsame⟩
      cases created with
      | none =>
          refine ensures_pure ?_
          rintro m s ⟨rfl, -, hsame⟩
          exact ⟨rfl, .inl ⟨nofun, hsame.sameLease⟩⟩
      | some created =>
          refine ensures_get_bind fun middle => ?_
          refine Ensures.bind (Q := fun m _ s => m = failed ∧ board = current ∧ SameSlots board s)
            (fun m s hpre reply => ⟨_, watchDeletes_quiet m _ rfl, hpre.1⟩) fun device => ?_
          refine ensures_ite (fun _ => ensures_ite (fun _ => ?_) fun _ => ?_) fun _ => ?_
          · refine (ensures_before (ensures_dropBus failed board) ?_).mono ?_
            · rintro m s ⟨rfl, -, hsame⟩
              exact ⟨rfl, hsame.sameLease⟩
            · rintro m result s ⟨rfl, hresult, hsame⟩
              exact ⟨rfl, .inl ⟨hresult, hsame⟩⟩
          · refine ensures_pure ?_
            rintro m s ⟨rfl, -, hsame⟩
            exact ⟨rfl, .inl ⟨nofun, hsame.sameLease⟩⟩
          · refine Ensures.bind (Q := fun m _ s => m = failed ∧ Acquired codec lease board .ok s)
              (ensures_modify ?_) fun _ => ensures_pure fun m s h => h
            rintro m s ⟨rfl, rfl, hsame⟩
            refine ⟨rfl, .inr ⟨rfl, ?_, slot, address, device.getD 0, hfree, ?_⟩⟩
            · simpa using fun h => hinactive (.inl h)
            · refine ⟨?_, ?_⟩
              · simp only [Ledger.register, hsame.slots]
              · simp only [Ledger.register, hsame.leases]

theorem Acquired.foreign {result : LeaseResult} (h : Acquired codec lease board result board')
    (hlease : lease ≠ codec) : SameLease codec board board' := by
  rcases h with ⟨-, hsame⟩ | ⟨-, -, slot, address, device, hfree, hslots⟩
  · exact hsame
  · have hregister : SameLease codec board
        { board with ledger := board.ledger.register slot lease address device } :=
      sameLease_register hlease (by rw [hfree]; nofun)
    exact IsTrans.trans _ _ _ hregister hslots.sameLease

theorem Acquired.own {result : LeaseResult} (h : Acquired codec codec board result board')
    (hsound : LeaseSound board.ledger codec) : LeaseSound board'.ledger codec ∧
      (board'.ledger.leases codec).active =
        ((board.ledger.leases codec).active || decide (result = .ok)) ∧
      (result = .ok → (board.ledger.leases codec).active = false) := by
  rcases h with ⟨hresult, hsame⟩ | ⟨rfl, hinactive, slot, address, device, hfree, hslots⟩
  · refine ⟨hsame.sound hsound, ?_, fun h => absurd h hresult⟩
    rw [hsame.object]
    simp [hresult]
  · have hnone : ∀ other, board.ledger.slots other ≠ some codec := by
      intro other hother
      have := hsound.held.mp ⟨other, hother⟩
      simp [hinactive] at this
    have hobject : board'.ledger.leases codec =
        { owned := true, address := address, deviceToken := device, active := true } := by
      rw [hslots.leases]
      simp [Ledger.register]
    have hat : ∀ other, board'.ledger.slots other = some codec ↔ other = slot := by
      intro other
      rw [hslots.slots]
      by_cases hother : other = slot
      · subst hother
        simp [Ledger.register]
      · simp [Ledger.register, hother, hnone other]
    refine ⟨⟨?_, ?_, ?_⟩, ?_, fun _ => hinactive⟩
    · rw [hobject]
      exact ⟨fun _ => rfl, fun _ => ⟨slot, (hat slot).mpr rfl⟩⟩
    · rw [hobject]
    · intro first second hfirst hsecond
      rw [(hat first).mp hfirst, (hat second).mp hsecond]
    · simp [hobject]

end Acquire

section Release

variable {codec lease : LeaseId} {failed : Bool} {board board' : Board}

theorem quiet_release (hlease : lease ≠ codec) : Quiet codec (release lease) := by
  refine within_get_bind fun board => ?_
  cases hslot : board.ledger.findSlot lease with
  | none => exact Std.Refl.refl board
  | some slot =>
      intro deleted
      refine ⟨by simp [deleteFails, hlease], ?_⟩
      cases deleted with
      | false => exact Std.Refl.refl board
      | true => exact sameLease_unregister hlease (findSlot_spec hslot)

theorem findSlot_none {ledger : Ledger} (hsound : LeaseSound ledger codec)
    (h : ledger.findSlot codec = none) : (ledger.leases codec).active = false := by
  rw [Bool.eq_false_iff]
  intro hactive
  obtain ⟨slot, hslot⟩ := hsound.held.mpr hactive
  rw [Ledger.findSlot, if_neg (by simp [hsound.owned, hactive]), Ledger.firstSlot,
    List.find?_eq_none] at h
  exact h slot (List.mem_finRange slot) (by simpa using hslot)

theorem findSlot_active {ledger : Ledger} {slot : Fin 4} (h : ledger.findSlot codec = some slot) :
    (ledger.leases codec).active = true := by
  rw [Ledger.findSlot] at h
  split at h
  · cases h
  · rename_i hactive
    simp only [not_or, not_not] at hactive
    exact hactive.2

theorem leaseSound_unregister {ledger : Ledger} {slot : Fin 4} (hsound : LeaseSound ledger codec)
    (hslot : ledger.slots slot = some codec) : LeaseSound (ledger.unregister slot codec) codec := by
  have hnone : ∀ other, (ledger.unregister slot codec).slots other ≠ some codec := by
    intro other
    by_cases hother : other = slot
    · subst hother
      simp [Ledger.unregister]
    · simp only [Ledger.unregister, ne_eq, hother, not_false_eq_true, Function.update_of_ne]
      exact fun h => hother (hsound.once _ _ h hslot)
  exact Fresh.sound ⟨by simp [Ledger.unregister], hnone⟩

/-- The lease is given up, or the deletion has failed and the ledger keeps it. -/
theorem ensures_release (hsound : LeaseSound board.ledger codec) :
    Ensures (watchDeletes codec) (fun m s => m = failed ∧ s = board) (release codec)
      (fun m _ s => LeaseSound s.ledger codec ∧ ∃ kept,
        (s.ledger.leases codec).active = ((board.ledger.leases codec).active && kept) ∧
        m = (failed || (board.ledger.leases codec).active && kept)) := by
  refine ensures_get_bind fun current => ?_
  cases hslot : current.ledger.findSlot codec with
  | none =>
      refine ensures_pure ?_
      rintro m s ⟨⟨rfl, rfl⟩, rfl⟩
      have hinactive := findSlot_none hsound hslot
      exact ⟨hsound, false, by simp [hinactive]⟩
  | some slot =>
      rintro m s ⟨⟨rfl, rfl⟩, rfl⟩ deleted
      have hactive := findSlot_active hslot
      refine ⟨_, rfl, ?_⟩
      cases deleted with
      | false => exact ⟨hsound, true, by simp [hactive, deleteFails]⟩
      | true =>
          refine ⟨leaseSound_unregister hsound (findSlot_spec hslot), false, ?_⟩
          simp [deleteFails, Ledger.unregister]

end Release

section Codec

variable {codec : LeaseId}

theorem quiet_codecWrites (lease : LeaseId) (writes : List (UInt8 × UInt8)) :
    Quiet codec (codecWrites lease writes) := by
  induction writes with
  | nil => exact quiet_pure _
  | cons item rest ih =>
      exact Within.bind (quiet_transmit _ _) fun _ =>
        within_ite (fun _ => ih) fun _ => quiet_pure _

theorem quiet_codecChange (lease : LeaseId) (register : UInt8) (change : UInt8 → UInt8) :
    Quiet codec (codecChange lease register change) := by
  refine Within.bind (quiet_transmitReceive _ _) fun value => ?_
  cases value with
  | none => exact quiet_pure _
  | some value => exact quiet_transmit _ _

theorem quiet_sinkMute (lease : LeaseId) (mute : Bool) : Quiet codec (sinkMute lease mute) := by
  refine Within.bind (quiet_codecChange _ _ _) fun changed => ?_
  refine within_ite (fun _ => quiet_pure _) fun _ => ?_
  refine Within.bind (quiet_transmitReceive _ _) fun value => ?_
  cases value with
  | none => exact quiet_pure _
  | some value => exact quiet_pure _

theorem quiet_sinkConfigure (lease : LeaseId) : Quiet codec (sinkConfigure lease) := by
  refine Within.bind (quiet_codecWrites _ _) fun _ => within_ite (fun _ => quiet_pure _) fun _ => ?_
  refine Within.bind (quiet_codecChange _ _ _) fun _ =>
    within_ite (fun _ => quiet_pure _) fun _ => ?_
  refine Within.bind (quiet_codecChange _ _ _) fun _ =>
    within_ite (fun _ => quiet_pure _) fun _ => ?_
  refine Within.bind (quiet_codecWrites _ _) fun _ => within_ite (fun _ => quiet_pure _) fun _ => ?_
  refine Within.bind (quiet_sinkMute _ _) fun _ => within_ite (fun _ => quiet_pure _) fun _ => ?_
  exact Within.bind (quiet_transmitReceive _ _) fun _ => quiet_pure _

end Codec

section Sink

variable {α β : Type} {codec : LeaseId}

/-- The lease is active exactly while the backend says so, or once its deletion has failed,
and the backend does not say so any more then. -/
structure SinkSound (codec : LeaseId) (failed : Bool) (world : SinkWorld) : Prop where
  lease : LeaseSound world.board.ledger codec
  active : (world.board.ledger.leases codec).active = (world.backend.codecAcquired || failed)
  apart : world.backend.codecAcquired = true → failed = false

/-- Code that keeps this. -/
def Keeps (codec : LeaseId) (code : SinkCode α) : Prop :=
  Ensures (watchDeletes codec) (SinkSound codec) code fun m _ world => SinkSound codec m world

theorem SinkSound.sameLease {failed : Bool} {world : SinkWorld} {board : Board}
    (h : SinkSound codec failed world) (hsame : SameLease codec world.board board) :
    SinkSound codec failed { world with board := board } :=
  ⟨hsame.sound h.lease, by rw [← h.active, ← hsame.object], h.apart⟩

theorem ensures_onBoard {code : BoardCode α} {pre : Bool → SinkWorld → Prop}
    {post : Bool → α → SinkWorld → Prop} (h : ∀ world : SinkWorld, Ensures (watchDeletes codec)
      (fun m board => pre m { world with board := board }) code
      fun m value board => post m value { world with board := board }) :
    Ensures (watchDeletes codec) pre (onBoard code) post := by
  intro m world hpre
  refine Watched.bind ((h world m world.board hpre).mono ?_)
  exact fun m' result hpost => hpost

theorem keeps_onBoard {code : BoardCode α} (h : Quiet codec code) : Keeps codec (onBoard code) :=
  ensures_onBoard fun _ => h.ensures watchDeletes_quiet
    fun _ _ _ _ hsound hsame => hsound.sameLease hsame

theorem keeps_call {request : DriverCall}
    (h : ∀ reply, deleteFails codec ⟨request, reply⟩ = false) :
    Keeps codec (onBoard (call request)) :=
  keeps_onBoard (quiet_call h)

theorem keeps_pure (value : α) : Keeps codec (pure value) := ensures_pure fun _ _ h => h

theorem Keeps.bind {first : SinkCode α} {rest : α → SinkCode β} (h : Keeps codec first)
    (hrest : ∀ value, Keeps codec (rest value)) : Keeps codec (first >>= rest) :=
  Ensures.bind h hrest

theorem keeps_get_bind {rest : SinkWorld → SinkCode α} (h : ∀ world, Keeps codec (rest world)) :
    Keeps codec (get >>= rest) :=
  ensures_get_bind fun world => ensures_before (h world) fun _ _ hpre => hpre.1

theorem keeps_modifyBackend {change : IdfBackend → IdfBackend}
    (h : ∀ backend, (change backend).codecAcquired = backend.codecAcquired) :
    Keeps codec (modifyBackend change) := by
  refine ensures_modify fun m world hsound => ⟨hsound.lease, ?_, ?_⟩
  · rw [h]
    exact hsound.active
  · rw [h]
    exact hsound.apart

theorem keeps_ite {c : Prop} [Decidable c] {first second : SinkCode α} (hfirst : Keeps codec first)
    (hsecond : Keeps codec second) : Keeps codec (if c then first else second) :=
  ensures_ite (fun _ => hfirst) fun _ => hsecond

/-- Behind it the backend holds no lease, and the ledger has the lease only if its deletion
has failed. -/
theorem ensures_dropCodec : Ensures (watchDeletes codec) (SinkSound codec) (dropCodec codec)
    fun m _ world => SinkSound codec m world ∧ world.backend.codecAcquired = false := by
  refine ensures_get_bind fun current => ensures_ite (fun hacquired => ?_) fun hacquired => ?_
  · let released (m : Bool) (world : SinkWorld) : Prop :=
      LeaseSound world.board.ledger codec ∧ (world.board.ledger.leases codec).active = m
    refine Ensures.bind (Q := fun m _ world => released m world)
      (ensures_onBoard fun world m board hpre => ?_) fun _ => ?_
    · obtain ⟨hsound, rfl⟩ := hpre
      have hfailed : m = false := hsound.apart hacquired
      refine (ensures_release hsound.lease m board ⟨rfl, rfl⟩).mono ?_
      rintro m' ⟨result, board'⟩ ⟨hlease, kept, hactive, hm'⟩
      refine ⟨hlease, ?_⟩
      rw [hactive, hm', hfailed, Bool.false_or]
    · refine Ensures.bind (Q := fun m _ world => released m world ∧
          world.backend.codecAcquired = false) (ensures_modify fun m world h =>
            ⟨h, rfl⟩) fun _ => ?_
      refine Ensures.bind (ensures_onBoard fun world =>
        quiet_shutdown.ensures watchDeletes_quiet ?_)
        fun _ => ensures_pure fun m world h => h
      rintro m board board' _ ⟨⟨hlease, hactive⟩, hfalse⟩ hsame
      refine ⟨⟨hsame.sound hlease, ?_, ?_⟩, hfalse⟩
      · rw [hfalse, Bool.false_or, ← hactive, ← hsame.object]
      · rw [hfalse]
        nofun
  · refine ensures_pure ?_
    rintro m world ⟨hsound, rfl⟩
    exact ⟨hsound, by simpa using hacquired⟩

theorem keeps_dropCodec : Keeps codec (dropCodec codec) :=
  ensures_dropCodec.mono fun _ _ _ h => h.1

theorem keeps_dropPa : Keeps codec dropPa := by
  refine keeps_get_bind fun _ => keeps_ite ?_ (keeps_pure _)
  exact (keeps_onBoard quiet_paServiceShutdown).bind fun _ => keeps_modifyBackend fun _ => rfl

theorem keeps_disableChannel : Keeps codec disableChannel := by
  refine Keeps.bind (keeps_call fun _ => rfl) fun _ => keeps_ite ?_ (keeps_pure _)
  exact Keeps.bind (keeps_modifyBackend fun _ => rfl) fun _ => keeps_pure _

theorem keeps_rollbackPrepare : Keeps codec (rollbackPrepare codec) := by
  refine Keeps.bind ?_ fun _ => ?_
  · exact keeps_get_bind fun _ =>
      keeps_ite ((keeps_onBoard (quiet_sinkMute _ _)).bind fun _ => keeps_pure _) (keeps_pure _)
  refine Keeps.bind ?_ fun _ => ?_
  · exact keeps_get_bind fun _ =>
      keeps_ite ((keeps_onBoard (quiet_paServiceSet _)).bind fun _ => keeps_pure _) (keeps_pure _)
  refine Keeps.bind ?_ fun _ => ?_
  · exact keeps_get_bind fun _ =>
      keeps_ite (keeps_disableChannel.bind fun _ => keeps_pure _) (keeps_pure _)
  refine Keeps.bind ?_ fun _ => keeps_dropCodec.bind fun _ => keeps_dropPa
  refine keeps_get_bind fun _ => keeps_ite ?_ (keeps_pure _)
  exact Keeps.bind (keeps_call fun _ => rfl) fun _ =>
    keeps_ite (keeps_modifyBackend fun _ => rfl) (keeps_pure _)

theorem keeps_failPrepare : Keeps codec (failPrepare codec) :=
  keeps_rollbackPrepare.bind fun _ => keeps_pure _

theorem keeps_createI2s : Keeps codec createI2s := by
  refine Keeps.bind (keeps_call fun _ => rfl) fun _ => keeps_ite (keeps_pure _) ?_
  exact Keeps.bind (keeps_modifyBackend fun _ => rfl) fun _ => keeps_call fun _ => rfl

theorem keeps_prepareStream : Keeps codec (prepareStream codec) := by
  refine (keeps_onBoard (quiet_sinkConfigure _)).bind fun _ => keeps_ite keeps_failPrepare ?_
  refine keeps_createI2s.bind fun _ => keeps_ite keeps_failPrepare ?_
  refine Keeps.bind (keeps_call fun _ => rfl) fun _ => keeps_ite keeps_failPrepare ?_
  refine Keeps.bind (keeps_modifyBackend fun _ => rfl) fun _ => ?_
  refine (keeps_onBoard (quiet_paServiceSet _)).bind fun _ => keeps_ite keeps_failPrepare ?_
  refine keeps_disableChannel.bind fun _ => keeps_ite keeps_failPrepare ?_
  refine Keeps.bind (keeps_modifyBackend fun _ => rfl) fun _ => ?_
  refine Keeps.bind (keeps_call fun _ => rfl) fun _ => keeps_ite keeps_failPrepare ?_
  exact Keeps.bind (keeps_modifyBackend fun _ => rfl) fun _ => keeps_pure _

/-- The flag follows the lease: `acquire` succeeds only for a lease that is not active. -/
theorem keeps_prepare : Keeps codec (prepare codec) := by
  refine (keeps_onBoard quiet_paServiceInit).bind fun _ => keeps_ite keeps_failPrepare ?_
  refine Keeps.bind (keeps_modifyBackend fun _ => rfl) fun _ => ?_
  refine (keeps_onBoard (quiet_paServiceSet _)).bind fun _ => keeps_ite keeps_failPrepare ?_
  let taken (m : Bool) (result : LeaseResult) (world : SinkWorld) : Prop :=
    if result = .ok then LeaseSound world.board.ledger codec ∧
      (world.board.ledger.leases codec).active = true ∧ m = false
    else SinkSound codec m world
  refine Ensures.bind (Q := taken) (ensures_onBoard fun world m board hsound => ?_) fun result => ?_
  · refine (ensures_acquire kCodecAddress codec m board ⟨rfl, rfl⟩).mono ?_
    rintro m' ⟨result, board'⟩ ⟨rfl, hacquired⟩
    obtain ⟨hlease, hactive, hbefore⟩ := hacquired.own hsound.lease
    simp only [taken]
    split
    · rename_i hok
      have hinactive := hbefore hok
      rw [hsound.active] at hinactive
      refine ⟨hlease, ?_, ?_⟩
      · rw [hactive, hok]
        simp
      · exact (Bool.or_eq_false_iff.mp hinactive).2
    · rename_i hnot
      refine ⟨hlease, ?_, hsound.apart⟩
      rw [hactive, hsound.active]
      simp [hnot]
  · refine ensures_ite (fun hnot => ?_) fun hok => ?_
    · exact ensures_before keeps_failPrepare fun m world h => by
        simpa only [taken, if_neg hnot] using h
    · obtain rfl : result = .ok := not_not.mp hok
      refine Ensures.bind (ensures_modify fun m world h => ?_) fun _ => keeps_prepareStream
      obtain ⟨hlease, hactive, hm⟩ := h
      exact ⟨hlease, by rw [hactive]; rfl, fun _ => hm⟩

theorem keeps_enableStream : Keeps codec (enableStream codec) := by
  refine Keeps.bind (keeps_call fun _ => rfl) fun _ => keeps_ite (keeps_pure _) ?_
  refine Keeps.bind (keeps_modifyBackend fun _ => rfl) fun _ => ?_
  refine (keeps_onBoard (quiet_sinkMute _ _)).bind fun _ => keeps_ite (keeps_pure _) ?_
  refine Keeps.bind (keeps_call fun _ => rfl) fun _ => ?_
  exact Keeps.bind (keeps_modifyBackend fun _ => rfl) fun _ => keeps_pure _

theorem keeps_unregisterCallbacks : Keeps codec unregisterCallbacks := by
  refine keeps_get_bind fun _ => keeps_ite (keeps_ite (keeps_pure _) ?_) ?_
  · refine Keeps.bind (keeps_call fun _ => rfl) fun _ => keeps_ite (keeps_pure _) ?_
    exact Keeps.bind (keeps_modifyBackend fun _ => rfl) fun _ => keeps_pure _
  · exact Keeps.bind (keeps_modifyBackend fun _ => rfl) fun _ => keeps_pure _

end Sink

section Foreign

variable {codec : LeaseId} {J : Bool → Board → Prop}

/-- What depends on the lease and its place only. -/
def Stable (codec : LeaseId) (J : Bool → Board → Prop) : Prop :=
  ∀ m board board', J m board → SameLease codec board board' → J m board'

theorem Quiet.keeps {α : Type} {code : BoardCode α} (h : Quiet codec code)
    (hstable : Stable codec J) : Ensures (watchDeletes codec) J code fun m _ board => J m board :=
  Within.ensures h watchDeletes_quiet fun m board board' _ => hstable m board board'

theorem keeps_client (hstable : Stable codec J) {op : ClientOp} (hforeign : op.Foreign codec) :
    Ensures (watchDeletes codec) J op.code fun m _ board => J m board := by
  cases op with
  | acquire address lease =>
      intro m board hJ
      refine (ensures_acquire address lease m board ⟨rfl, rfl⟩).mono ?_
      rintro m' ⟨result, board'⟩ ⟨rfl, hacquired⟩
      exact hstable _ board board' hJ (hacquired.foreign hforeign)
  | release lease => exact (quiet_release hforeign).keeps hstable
  | shutdown => exact quiet_shutdown.keeps hstable

theorem keeps_clientOps (hstable : Stable codec J) {ops : List ClientOp}
    (hforeign : ∀ op ∈ ops, op.Foreign codec) :
    Ensures (watchDeletes codec) J (clientOps ops) fun m _ board => J m board := by
  induction ops with
  | nil => exact ensures_pure fun _ _ h => h
  | cons op rest ih =>
      refine Ensures.bind (keeps_client hstable (hforeign op (by simp))) fun _ => ?_
      exact ih fun other hother => hforeign other (by simp [hother])

/-- The ledger has the lease exactly if a deletion has failed. -/
def Settled (codec : LeaseId) (failed : Bool) (board : Board) : Prop :=
  LeaseSound board.ledger codec ∧ (board.ledger.leases codec).active = failed

theorem stable_settled : Stable codec (Settled codec) := by
  rintro m board board' ⟨hlease, hactive⟩ hsame
  exact ⟨hsame.sound hlease, by rw [hsame.object, hactive]⟩

end Foreign

section SinkLife

variable {codec : LeaseId}

theorem keeps_sinkOp {op : SinkOp} (hforeign : op.Foreign codec) : Keeps codec (op.code codec) := by
  cases op with
  | prepare => exact keeps_prepare.bind fun _ => keeps_pure _
  | preload bytes => exact Keeps.bind (keeps_call fun _ => rfl) fun _ => keeps_pure _
  | enableStream => exact keeps_enableStream.bind fun _ => keeps_pure _
  | write bytes => exact Keeps.bind (keeps_call fun _ => rfl) fun _ => keeps_pure _
  | mute =>
      refine Keeps.bind (keeps_get_bind fun _ => ?_) fun _ => keeps_pure _
      exact keeps_ite (keeps_onBoard (quiet_sinkMute _ _)) (keeps_pure _)
  | paLow =>
      refine Keeps.bind (keeps_get_bind fun _ => ?_) fun _ => keeps_pure _
      exact keeps_ite (keeps_onBoard (quiet_paServiceSet _)) (keeps_pure _)
  | disable =>
      refine Keeps.bind (keeps_get_bind fun _ => ?_) fun _ => keeps_pure _
      exact keeps_ite keeps_disableChannel (keeps_pure _)
  | unregisterCallbacks => exact keeps_unregisterCallbacks.bind fun _ => keeps_pure _
  | other op =>
      refine Keeps.bind (ensures_onBoard fun world => ?_) fun _ => keeps_pure _
      refine keeps_client (J := fun m board => SinkSound codec m { world with board := board })
        (fun m board board' hsound hsame => hsound.sameLease hsame) hforeign

theorem keeps_sinkOps {ops : List SinkOp} (hforeign : ∀ op ∈ ops, op.Foreign codec) :
    Keeps codec (sinkOps codec ops) := by
  induction ops with
  | nil => exact keeps_pure _
  | cons op rest ih =>
      refine Keeps.bind (keeps_sinkOp (hforeign op (by simp))) fun _ => ?_
      exact ih fun other hother => hforeign other (by simp [hother])

theorem ensures_releaseBackend :
    Ensures (watchDeletes codec) (SinkSound codec) (releaseBackend codec)
      fun m _ world => Settled codec m world.board := by
  have hdisable : Keeps codec releaseDisable := by
    refine keeps_get_bind fun _ => keeps_ite ?_ (keeps_pure _)
    exact Keeps.bind (keeps_call fun _ => rfl) fun _ => keeps_modifyBackend fun _ => rfl
  have hdelete : Keeps codec releaseDelete := by
    refine keeps_get_bind fun _ => keeps_ite ?_ (keeps_pure _)
    exact Keeps.bind (keeps_call fun _ => rfl) fun _ => keeps_modifyBackend fun _ => rfl
  have hcodec : Ensures (watchDeletes codec) (SinkSound codec) (dropCodec codec)
      fun m _ world => Settled codec m world.board := by
    refine ensures_dropCodec.mono ?_
    rintro m _ world ⟨hsound, hfalse⟩
    refine ⟨hsound.lease, ?_⟩
    rw [hsound.active, hfalse, Bool.false_or]
  refine Ensures.bind hdisable fun _ => Ensures.bind hdelete fun _ =>
    Ensures.bind hcodec fun _ => ?_
  have hpa : Ensures (watchDeletes codec) (fun m world => Settled codec m world.board)
      (do
        let _ ← onBoard paServiceShutdown
        modifyBackend fun backend => { backend with paInitialized := false })
      fun m _ world => Settled codec m world.board := by
    refine Ensures.bind (Q := fun m _ world => Settled codec m world.board)
      (ensures_onBoard fun world => quiet_paServiceShutdown.keeps stable_settled) fun _ => ?_
    exact ensures_modify fun _ _ h => h
  refine ensures_get_bind fun _ => ensures_ite (fun _ => ?_) fun _ => ensures_pure fun _ _ h => h.1
  exact ensures_before hpa fun _ _ h => h.1

theorem ensures_sinkLife {ops : List SinkOp} {later : List ClientOp}
    (hops : ∀ op ∈ ops, op.Foreign codec) (hlater : ∀ op ∈ later, op.Foreign codec) :
    Ensures (watchDeletes codec) (SinkSound codec) (sinkLife codec ops later)
      fun m _ world => Settled codec m world.board := by
  refine Ensures.bind (keeps_sinkOps hops) fun _ => Ensures.bind ensures_releaseBackend fun _ => ?_
  exact ensures_onBoard fun world => keeps_clientOps stable_settled hlater

end SinkLife

section ToneLife

variable {codec : LeaseId}

/-- No deletion has failed so far. -/
def Unfailed (codec : LeaseId) (failed : Bool) (board : Board) : Prop :=
  failed = false ∧ LeaseSound board.ledger codec

theorem stable_unfailed : Stable codec (Unfailed codec) := by
  rintro m board board' ⟨hm, hlease⟩ hsame
  exact ⟨hm, hsame.sound hlease⟩

/-- A step of the tone profile without a deletion. -/
def Steps {α : Type} (codec : LeaseId) (code : BoardCode α) : Prop :=
  Ensures (watchDeletes codec) (Unfailed codec) code fun m _ board => Unfailed codec m board

theorem steps_quiet {α : Type} {code : BoardCode α} (h : Quiet codec code) : Steps codec code :=
  h.keeps stable_unfailed

theorem steps_whenOk {code : BoardCode Bool} (h : Steps codec code) (result : Bool) :
    Steps codec (whenOk result code) :=
  ensures_ite (fun _ => h) fun _ => ensures_pure fun _ _ h => h

theorem quiet_toneConfigure (lease : LeaseId) : Quiet codec (toneConfigure lease) := by
  refine Within.bind (quiet_codecWrites _ _) fun _ => within_ite (fun _ => quiet_pure _) fun _ => ?_
  refine Within.bind (quiet_codecChange _ _ _) fun _ =>
    within_ite (fun _ => quiet_pure _) fun _ => ?_
  refine Within.bind (quiet_codecChange _ _ _) fun _ =>
    within_ite (fun _ => quiet_pure _) fun _ => ?_
  refine Within.bind (quiet_codecChange _ _ _) fun _ =>
    within_ite (fun _ => quiet_pure _) fun _ => ?_
  refine Within.bind (quiet_codecWrites _ _) fun _ => within_ite (fun _ => quiet_pure _) fun _ => ?_
  exact quiet_codecChange _ _ _

theorem quiet_codecReadbackOk (lease : LeaseId) (expected : List (UInt8 × UInt8 × UInt8)) :
    Quiet codec (codecReadbackOk lease expected) := by
  induction expected with
  | nil => exact quiet_pure _
  | cons item rest ih =>
      refine Within.bind (quiet_transmitReceive _ _) fun actual => ?_
      cases actual with
      | none => exact quiet_pure _
      | some actual => exact within_ite (fun _ => ih) fun _ => quiet_pure _

theorem quiet_preloadSilence (bytes count : Nat) : Quiet codec (preloadSilence bytes count) := by
  induction count with
  | zero => exact quiet_pure _
  | succ count ih =>
      exact Within.bind (quiet_call fun _ => rfl) fun _ =>
        within_ite (fun _ => ih) fun _ => quiet_pure _

theorem quiet_writeBlocks (bytes count : Nat) : Quiet codec (writeBlocks bytes count) := by
  induction count with
  | zero => exact quiet_pure _
  | succ count ih =>
      exact Within.bind (quiet_call fun _ => rfl) fun _ =>
        within_ite (fun _ => ih) fun _ => quiet_pure _

theorem quiet_unmute (lease : LeaseId) : Quiet codec (unmute lease) := by
  refine Within.bind (quiet_codecChange _ _ _) fun _ =>
    within_ite (fun _ => quiet_pure _) fun _ => ?_
  refine Within.bind (quiet_transmitReceive _ _) fun value => ?_
  cases value with
  | none => exact quiet_pure _
  | some value => exact quiet_pure _

theorem quiet_configureI2s : Quiet codec configureI2s := by
  refine Within.bind (quiet_call fun _ => rfl) fun _ =>
    within_ite (fun _ => quiet_pure _) fun _ => ?_
  exact Within.bind (quiet_call fun _ => rfl) fun _ => quiet_pure _

theorem steps_acquire : Steps codec (acquire kCodecAddress codec) := by
  rintro m board ⟨hm, hlease⟩
  refine (ensures_acquire kCodecAddress codec m board ⟨rfl, rfl⟩).mono ?_
  rintro m' ⟨result, board'⟩ ⟨rfl, hacquired⟩
  exact ⟨hm, (hacquired.own hlease).1⟩

theorem steps_runSteps (identityOk : Bool) (descriptors blocks bytes : Nat) :
    Steps codec (runSteps codec identityOk descriptors blocks bytes) := by
  have hdone : ∀ value : Bool × ToneLocals, Steps codec (pure value) := fun _ =>
    ensures_pure fun _ _ h => h
  refine Ensures.bind (steps_quiet quiet_paServiceInit) fun _ =>
    ensures_ite (fun _ => hdone _) fun _ => ?_
  refine Ensures.bind steps_acquire fun _ => ensures_ite (fun _ => hdone _) fun _ => ?_
  refine Ensures.bind (steps_quiet quiet_configureI2s) fun _ => ?_
  refine Ensures.bind (steps_whenOk (steps_quiet (quiet_toneConfigure _)) _) fun _ => ?_
  refine Ensures.bind (steps_whenOk (steps_quiet (quiet_codecReadbackOk _ _)) _) fun _ => ?_
  refine Ensures.bind (steps_whenOk (steps_quiet (quiet_preloadSilence _ _)) _) fun _ => ?_
  refine Ensures.bind (steps_whenOk (steps_quiet (quiet_call fun _ => rfl)) _) fun _ => ?_
  refine Ensures.bind (steps_whenOk (steps_quiet (quiet_paServiceSet _)) _) fun _ => ?_
  refine Ensures.bind (steps_whenOk (steps_quiet (quiet_unmute _)) _) fun _ => ?_
  exact Ensures.bind (steps_whenOk (steps_quiet (quiet_writeBlocks _ _)) _) fun _ => hdone _

theorem quiet_ifReady {code : BoardCode Bool} (h : Quiet codec code) (ready : Bool) :
    Quiet codec (ifReady ready code) :=
  within_ite (fun _ => h.bind fun _ => quiet_pure _) fun _ => quiet_pure _

theorem ensures_runShutdown (locals : ToneLocals) :
    Ensures (watchDeletes codec) (Unfailed codec) (runShutdown codec locals)
      fun m _ board => Settled codec m board := by
  refine Ensures.bind (steps_quiet (quiet_ifReady (quiet_paServiceSet _) _)) fun _ => ?_
  refine Ensures.bind (steps_quiet ?_) fun _ => ?_
  · refine quiet_get_bind fun _ => within_ite (fun _ => ?_) fun _ => quiet_pure _
    exact Within.bind (quiet_codecChange _ _ _) fun _ => quiet_pure _
  refine Ensures.bind (steps_quiet (quiet_ifReady (quiet_call fun _ => rfl) _)) fun _ => ?_
  refine Ensures.bind (steps_quiet (quiet_ifReady (quiet_call fun _ => rfl) _)) fun _ => ?_
  refine Ensures.bind (Q := fun m _ board => Settled codec m board) ?_ fun _ =>
    Quiet.keeps (quiet_ifReady quiet_paServiceShutdown _) stable_settled
  refine ensures_get_bind fun current => ensures_ite (fun hactive => ?_) fun hinactive => ?_
  · refine Ensures.bind (Q := fun m _ board => Settled codec m board) ?_ fun _ =>
      ensures_pure fun _ _ h => h
    rintro m board ⟨⟨rfl, hlease⟩, rfl⟩
    refine (ensures_release hlease false board ⟨rfl, rfl⟩).mono ?_
    rintro m' ⟨result, board'⟩ ⟨hlease', kept, hactive', hm'⟩
    exact ⟨hlease', by rw [hactive', hm', Bool.false_or]⟩
  · refine ensures_pure ?_
    rintro m board ⟨⟨rfl, hlease⟩, rfl⟩
    exact ⟨hlease, by simpa using hinactive⟩

theorem ensures_toneLife {identityOk : Bool} {descriptors blocks bytes : Nat}
    {later : List ClientOp} (hlater : ∀ op ∈ later, op.Foreign codec) :
    Ensures (watchDeletes codec) (Unfailed codec)
      (toneLife codec identityOk descriptors blocks bytes later)
      fun m _ board => Settled codec m board := by
  refine Ensures.bind ?_ fun _ => keeps_clientOps stable_settled hlater
  exact Ensures.bind (steps_runSteps identityOk descriptors blocks bytes) fun _ =>
    ensures_runShutdown _

end ToneLife

section Lifetime

variable {codec : LeaseId}

/-- No slot points to the lease exactly if no deletion of its device has failed. -/
def EndsCleanly (codec : LeaseId) (labels : List DriverLabel) (ledger : Ledger) : Prop :=
  (∀ slot, ledger.slots slot ≠ some codec) ↔ ∀ label ∈ labels, deleteFails codec label = false

theorem endsCleanly_of_settled {labels : List DriverLabel} {board : Board}
    (h : Settled codec (labels.any (deleteFails codec)) board) :
    EndsCleanly codec labels board.ledger := by
  obtain ⟨hlease, hactive⟩ := h
  have hheld : (∀ slot, board.ledger.slots slot ≠ some codec) ↔
      (board.ledger.leases codec).active = false := by
    rw [Bool.eq_false_iff, Ne, ← hlease.held, Holds, not_exists]
  rw [EndsCleanly, hheld, hactive, List.any_eq_false]
  simp only [Bool.not_eq_true]

theorem settled_of_run {S : Type} {code : StateT S Driver Unit} {pre : Bool → S → Prop}
    {post : Bool → Unit → S → Prop} {start last : S} {labels : List DriverLabel}
    (h : Ensures (watchDeletes codec) pre code post) (hpre : pre false start)
    (hrun : Run (Step anyReply) (code start, ()) labels (.done ((), last), ())) :
    post (labels.any (deleteFails codec)) () last := by
  obtain ⟨m, hm, hpost⟩ := (h false start hpre).run hrun
  rw [foldlM_watchDeletes, Bool.false_or] at hm
  obtain rfl := Option.some.inj hm
  exact hpost

/-- The holder of a codec lease ends, and the other clients go on: in every life of a sink's
backend and in every run of the tone profile the ledger is rid of the lease exactly if the
driver has not failed to delete its device. -/
theorem lease_released_iff_deleted (codec : LeaseId) (later : List ClientOp)
    (hlater : ∀ op ∈ later, op.Foreign codec) :
    (∀ ops world labels last, (∀ op ∈ ops, op.Foreign codec) → Fresh world.board.ledger codec →
      world.backend = {} →
      Run (Step anyReply) (sinkLife codec ops later world, ()) labels (.done ((), last), ()) →
      EndsCleanly codec labels last.board.ledger) ∧
    ∀ identityOk descriptors blocks bytes board labels last, Fresh board.ledger codec →
      Run (Step anyReply) (toneLife codec identityOk descriptors blocks bytes later board, ())
        labels (.done ((), last), ()) →
      EndsCleanly codec labels last.ledger := by
  constructor
  · intro ops world labels last hops hfresh hbackend hrun
    have hsound : SinkSound codec false world := by
      refine ⟨hfresh.sound, ?_, fun _ => rfl⟩
      rw [hfresh.object, hbackend]
      rfl
    exact endsCleanly_of_settled (settled_of_run (ensures_sinkLife hops hlater) hsound hrun)
  · intro identityOk descriptors blocks bytes board labels last hfresh hrun
    exact endsCleanly_of_settled
      (settled_of_run (ensures_toneLife hlater) ⟨rfl, hfresh.sound⟩ hrun)

/-- A driver whose transfers fail, and which deletes devices or does not. -/
def serveTransfersFail (deletes : Bool) (_ : Unit) : (request : DriverCall) →
    DriverReply request × Unit
  | .newMasterBus => (some 1, ())
  | .addDevice _ _ _ => (some 1, ())
  | .transmitReceive _ _ => (none, ())
  | .i2sPreload _ => ((true, 0), ())
  | .i2sWrite _ => ((true, 0), ())
  | .transmit _ _ => (false, ())
  | .rmDevice _ _ => (deletes, ())
  | .delMasterBus _ => (true, ())
  | .gpioConfig => (true, ())
  | .gpioSetLevel _ => (true, ())
  | .i2sNewChannel => (true, ())
  | .i2sInitStdMode => (true, ())
  | .i2sEnable => (true, ())
  | .i2sDisable => (true, ())
  | .i2sDelChannel => (true, ())
  | .i2sRegisterCallbacks => (true, ())

/-- The life of a backend whose `prepare` fails at the codec's first register. -/
def failedPrepare (deletes : Bool) : List DriverLabel × Driver (Unit × SinkWorld) × Unit :=
  execute (serveTransfersFail deletes) 40 (sinkLife 7 [.prepare] [] {}, ())

theorem failedPrepare_slot (deletes : Bool) :
    (failedPrepare deletes).2.1.value?.map (fun result => result.2.board.ledger.slots 0) =
      some (if deletes then none else some 7) := by
  cases deletes <;> rfl

/-- The life is a run in which the driver answers as it may. -/
theorem failedPrepare_run (deletes : Bool) : ∃ last : SinkWorld,
    last.board.ledger.slots 0 = (if deletes then none else some 7) ∧
      Run (Step anyReply) (sinkLife 7 [.prepare] [] {}, ()) (failedPrepare deletes).1
        (.done ((), last), ()) := by
  obtain ⟨⟨_, last⟩, hvalue, hslot⟩ := Option.map_eq_some_iff.mp (failedPrepare_slot deletes)
  refine ⟨last, hslot, ?_⟩
  rw [failedPrepare] at hvalue ⊢
  have hrun := execute_result anyReply (serveTransfersFail deletes) (fun _ _ => trivial) hvalue
  generalize execute (serveTransfersFail deletes) 40 (sinkLife 7 [.prepare] [] {}, ()) = result
    at hrun ⊢
  exact hrun

theorem fresh_empty : Fresh ({} : SinkWorld).board.ledger 7 :=
  ⟨rfl, nofun⟩

theorem lease_released_iff_deleted_rollback :
    (∀ label ∈ (failedPrepare true).1, deleteFails 7 label = false) ∧
      ∃ last : SinkWorld, Run (Step anyReply) (sinkLife 7 [.prepare] [] {}, ())
        (failedPrepare true).1 (.done ((), last), ()) ∧
      ∀ slot, last.board.ledger.slots slot ≠ some 7 := by
  have hdeleted : ∀ label ∈ (failedPrepare true).1, deleteFails 7 label = false := by
    have hall : (failedPrepare true).1.all (fun label => !deleteFails 7 label) = true := rfl
    simpa using hall
  obtain ⟨last, -, hrun⟩ := failedPrepare_run true
  have hends := (lease_released_iff_deleted 7 [] nofun).1 [.prepare] {} _ last
    (by simp [SinkOp.Foreign]) fresh_empty rfl hrun
  exact ⟨hdeleted, last, hrun, hends.mpr hdeleted⟩

/-- The backend is freed, and the ledger still points to its lease. -/
theorem failedPrepare_leaks_lease : ¬ ∀ (codec : LeaseId) ops world labels last,
    (∀ op ∈ ops, SinkOp.Foreign codec op) → Fresh world.board.ledger codec → world.backend = {} →
    Run (Step anyReply) (sinkLife codec ops [] world, ()) labels (.done ((), last), ()) →
    ∀ slot, last.board.ledger.slots slot ≠ some codec := by
  intro hclaim
  obtain ⟨last, hslot, hrun⟩ := failedPrepare_run false
  exact hclaim 7 [.prepare] {} _ last (by simp [SinkOp.Foreign]) fresh_empty rfl hrun 0 hslot

end Lifetime

end EspNp2.CodecLease.LeaseLifetime
