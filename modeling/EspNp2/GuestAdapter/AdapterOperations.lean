import EspNp2.GuestAdapter.AdapterState

/-!
The operations of the guest adapter. Whatever the guest does is authorised by a checked
call of the sink first; the commits that follow cannot fail.
-/

namespace EspNp2.GuestAdapter.AdapterOperations

open EspNp2.GuestAdapter.AdapterState

def traceRegister : UInt32 := 1
def traceCsm : UInt32 := 2
def tracePcmControl : UInt32 := 3
def traceResetBarrier : UInt32 := 0x80000000
def traceTimerA : UInt8 := 1
def traceTimerB : UInt8 := 2
def tracePcm : UInt8 := 3

def maxDataRun : Nat := 32768

section Transactions

/-- A full trace refuses an event before the sink is asked. -/
def eventTraceFull (s : Adapter) : Bool :=
  match s.trace with
  | some trace => !trace.boundedWindows && trace.eventCount ≥ trace.eventCapacity
  | none => false

def pcmTraceFull (s : Adapter) (bytes : Nat) : Bool :=
  match s.trace with
  | some trace => !trace.boundedWindows && trace.pcmCount + bytes > trace.pcmCapacity
  | none => false

def dataRunTraceFull (s : Adapter) : Bool :=
  match s.trace with
  | some trace => !trace.boundedWindows && trace.dataRunCount ≥ trace.dataRunCapacity
  | none => false

/-- A trace that refuses without a sink is a failure. -/
def refuseTrace (reason : String) : Guest (Check × Token) := do
  let s ← get
  onlyIf s.sink.isNone (fail reason)
  return (.retry, s.runTransaction)

/-- The end of `transaction_begin`; the token counts only with an `ok`. -/
def reserveChecked (kind : Kind) (bytes : Nat) : Guest (Check × Token) := do
  let s ← get
  if s.sink.isSome then callOut (.reserveChecked kind bytes)
  else return (.ok, Vector.replicate 4 0)

def transactionBegin (kind : Kind) (initialBytes : Nat) : Guest (Check × Token) := do
  let s ← get
  if s.failed then return (.retry, s.runTransaction)
  else
    match kind with
    | .event | .reset =>
        if eventTraceFull s then refuseTrace "event trace capacity"
        else reserveChecked kind initialBytes
    | .dataRun =>
        if initialBytes = 0 then
          fail "PCM DATA_RUN length"
          return (.contract, s.runTransaction)
        else if pcmTraceFull s 1 then refuseTrace "PCM byte trace capacity"
        else if dataRunTraceFull s then refuseTrace "PCM DATA_RUN trace capacity"
        else reserveChecked kind initialBytes

/-- `transaction_extend` on the token of the pending run. -/
def transactionExtend (additionalBytes : Nat) : Guest Check := do
  let s ← get
  if additionalBytes = 0 ∨ s.failed then return .contract
  else if pcmTraceFull s additionalBytes then
    let (check, _) ← refuseTrace "PCM byte trace capacity"
    return check
  else if s.sink.isSome then
    let (check, token) ← callOut (.extendChecked s.runTransaction additionalBytes)
    modify fun s => { s with runTransaction := token }
    return check
  else return .ok

def pendingRun (s : Adapter) : DataRun where
  frameTimestamp := s.runTimestamp
  sequence := s.runSequence
  byteOffset := UInt64.ofNat s.runOffset
  count := UInt32.ofNat s.runCount

def closeRun (s : Adapter) : Adapter :=
  { s with runPending := false, runCount := 0, runTransactionActive := false }

def countDataRun (s : Adapter) : Adapter :=
  { s with trace := s.trace.map fun trace => { trace with dataRunCount := trace.dataRunCount + 1 } }

/-- Whether the pending run, if any, is now committed. -/
def flushPendingRun : Guest Bool := do
  let s ← get
  if s.runPending = false then return true
  else if s.trace.isNone ∧ s.sink.isNone then
    set { s with runPending := false, runCount := 0 }
    return true
  else if s.runCount = 0 ∨ s.runCount > maxDataRun then
    fail "PCM DATA_RUN length"
    return false
  else if dataRunTraceFull s then
    fail "reserved PCM DATA_RUN trace capacity lost"
    return false
  else
    modify countDataRun
    onlyIf (s.sink.isSome ∧ s.runTransactionActive) do
      let token ← callOut (.commitDataRun s.runTransaction (pendingRun s))
      let token ← callOut (.commitHorizon token s.runTimestamp)
      modify fun s => { s with runTransaction := token }
    modify closeRun
    return true

def prepareEventTransaction (kind : Kind) : Guest (Check × Token) := do
  if (← flushPendingRun) = false then
    let s ← get
    onlyIf (s.guest.sequence = (-1 : UInt64)) (fail "event sequence overflow")
    return (.retry, s.runTransaction)
  else
    let s ← get
    if s.guest.sequence = (-1 : UInt64) then
      fail "event sequence overflow"
      return (.retry, s.runTransaction)
    else transactionBegin kind 0

def countEvent (s : Adapter) : Adapter :=
  { s with trace := s.trace.map fun trace => { trace with eventCount := trace.eventCount + 1 } }

def commitEvent (transaction : Token) (opcode payload : UInt32) : Guest Unit := do
  let s ← get
  modify countEvent
  onlyIf s.sink.isSome do
    let token ← callOut (.commitEvent transaction
      ⟨s.guest.frameTimestamp, s.guest.sequence, opcode, payload⟩)
    discard (callOut (.commitHorizon token s.guest.frameTimestamp))
  modifyGuest fun g => { g with sequence := g.sequence + 1 }

/-- The part of `prepare_byte_transaction` that opens a new run. -/
def beginRun : Guest (Check × Bool) := do
  if (← flushPendingRun) = false then return (.retry, false)
  else
    let s ← get
    if s.guest.sequence = (-1 : UInt64) then
      fail "sequence overflow"
      return (.retry, false)
    else
      let (check, token) ← transactionBegin .dataRun 1
      if check ≠ .ok then return (check, false)
      else
        modify fun s => { s with runTransaction := token, runTransactionActive := s.sink.isSome }
        return (.ok, true)

/-- The check of a data byte, and whether it starts a run. -/
def prepareByteTransaction : Guest (Check × Bool) := do
  let s ← get
  if s.failed then return (.retry, false)
  else if s.runPending = false ∨ s.runTimestamp ≠ s.guest.frameTimestamp ∨
      s.runCount ≥ maxDataRun then beginRun
  else
    let check ← transactionExtend 1
    return (check, false)

def startRun (s : Adapter) : Adapter :=
  { s with
    runPending := true
    runTimestamp := s.guest.frameTimestamp
    runSequence := s.guest.sequence
    guest := { s.guest with sequence := s.guest.sequence + 1 }
    runOffset := match s.trace with
      | some trace => trace.pcmOffsetBase + trace.pcmCount
      | none => 0
    runCount := 0 }

def countPcmByte (s : Adapter) : Adapter :=
  { s with trace := s.trace.map fun trace => { trace with pcmCount := trace.pcmCount + 1 } }

def commitPcmByte (starting : Bool) (value : UInt8) : Guest Unit := do
  onlyIf starting (modify startRun)
  modify countPcmByte
  let s ← get
  onlyIf (s.sink.isSome ∧ s.runTransactionActive) do
    let token ← callOut (.commitPcmByte s.runTransaction s.runTimestamp s.runSequence value)
    modify fun s => { s with runTransaction := token }
  modify fun s => { s with runCount := s.runCount + 1 }

end Transactions

section Hooks

def countTimer (s : Adapter) : Adapter :=
  { s with trace := s.trace.map fun trace => { trace with timerCount := trace.timerCount + 1 } }

/-- The record of a timer; only its place in the trace counts. -/
def timerTrace : Guest Unit := do
  let s ← get
  match s.trace with
  | none => return ()
  | some trace =>
      if s.failed then return ()
      else if trace.boundedWindows = false ∧ trace.timerCount ≥ trace.timerCapacity then
        fail "timer trace capacity"
      else modify countTimer

def timerPeriod (s : Adapter) (timer : UInt8) : UInt64 :=
  let ticks : UInt32 :=
    if timer = traceTimerA then
      (18 : UInt32) *
        ((1024 : UInt32) - ((s.guest.regs[0x24].toUInt32 <<< 2) |||
          (s.guest.regs[0x25] &&& 3).toUInt32))
    else (288 : UInt32) * ((256 : UInt32) - s.guest.regs[0x26].toUInt32)
  let clocks : UInt32 :=
    if s.cpumode &&& 0x20 ≠ 0 then ticks * 1248 / 625 else ticks * 1536 / 625
  clocks.toUInt64 * (if s.multiple ≠ 0 then s.multiple else 1).toUInt64

def timerIsWork (timer : UInt8) : Guest Bool := do
  let s ← get
  if s.hooks.isWork then callOut (.isWork timer)
  else
    return if timer = 1 then s.guest.timerARunning
      else if timer = 2 then s.guest.timerBRunning else false

def scheduleEvent (timer : UInt8) (period : UInt64) (absolute : Bool) : Guest Unit := do
  let s ← get
  if s.hooks.schedule then
    if period > 0xffffffff then fail "event clock overflow"
    else callOut (.schedule timer period absolute)

def cancelEvent (timer : UInt8) : Guest Unit := do
  let s ← get
  if s.hooks.cancel then callOut (.cancel timer)

/-- The two sources of an interrupt. -/
inductive Source where
  | opna
  | pcm
deriving DecidableEq, Repr

def GuestState.picSource (g : GuestState) : Source → Bool
  | .opna => g.opnaPicSource
  | .pcm => g.pcmPicSource

def GuestState.setPicSource (g : GuestState) (source : Source) (value : Bool) : GuestState :=
  match source with
  | .opna => { g with opnaPicSource := value }
  | .pcm => { g with pcmPicSource := value }

/-- Whether the line has been raised. -/
def picSetLine (source : Source) (other : Option Source) (line : UInt32) : Guest Bool := do
  let s ← get
  if line = 0xff then return false
  else
    let wasAsserted := GuestState.picSource s.guest source ||
      (other.map (GuestState.picSource s.guest)).getD false
    onlyIf (!wasAsserted && s.hooks.irq) (callOut (.irq line true))
    modifyGuest fun g => GuestState.setPicSource g source true
    return !wasAsserted

def picSetCause (cause : UInt8) (source : Source) (other : Option Source) (line : UInt32) :
    Guest Bool :=
  if cause ≠ 0 then picSetLine source other line else pure false

def picSet (cause : UInt8) : Guest Bool := do
  let s ← get
  let shared := s.guest.opnaIrq = s.guest.pcmIrqLine
  let opna ← picSetCause (cause &&& 3) .opna (if shared then some .pcm else none) s.guest.opnaIrq
  let pcm ← picSetCause (cause &&& 4) .pcm (if shared then some .opna else none) s.guest.pcmIrqLine
  return opna || pcm

/-- `pic_reset_if_idle`; the callers do not use what it returns. -/
def picResetIfIdle (source : Source) : Guest Unit := do
  let s ← get
  if source = .opna ∧ s.guest.timerStatus ≠ 0 then return ()
  else
    let hadSource := GuestState.picSource s.guest source
    let shared := s.guest.pcmIrqLine = s.guest.opnaIrq
    let line := if source = .pcm then s.guest.pcmIrqLine else s.guest.opnaIrq
    let otherSource := GuestState.picSource s.guest (if source = .pcm then .opna else .pcm)
    modifyGuest fun g => GuestState.setPicSource g source false
    if source = .pcm ∧ s.guest.timerStatus ≠ 0 ∧ shared then return ()
    else if shared ∧ otherSource then return ()
    else
      onlyIf (line ≠ 0xff ∧ s.hooks.irq ∧ hadSource) (callOut (.irq line false))
      timerTrace

end Hooks

section Clock

/-- The fields that `pcm_recalc_position` and `sync_plan_recalc_pcm` change. -/
structure PcmClock where
  lastclock : UInt64
  clockValid : Bool
  stepRemainder : UInt32
  virtualBuffer : UInt32

def pastCycle : UInt64 := (0xffffffff : UInt64) <<< 6

/-- The cycles that have passed since the last clock, and that clock. -/
def passedCycles (g : GuestState) (cur lastclock : UInt64) : UInt64 × UInt64 :=
  let past := (cur + pastCycle - lastclock) % pastCycle
  if past > pastCycle / 2 then
    if past < pastCycle - g.pcmStepclock * 4 then (1, cur - 1) else (0, lastclock)
  else (past, lastclock)

def recalcPcm (g : GuestState) (cpuPosition : UInt32) (clock : PcmClock) : PcmClock :=
  if g.pcmRateval = 0 then clock
  else
    let cur := cpuPosition.toUInt64 <<< 6
    if clock.clockValid = false then
      { clock with lastclock := cur, clockValid := true, stepRemainder := 0 }
    else
      let (past, lastclock) := passedCycles g cur clock.lastclock
      if past ≥ g.pcmStepclock then
        let count := past / g.pcmStepclock
        let consumed := count <<< g.pcmStepbit.toUInt64
        { lastclock := (lastclock + count * g.pcmStepclock) % pastCycle
          clockValid := true
          stepRemainder := (past % g.pcmStepclock).toUInt32
          virtualBuffer :=
            if g.pcmFifo &&& 0x80 = 0 then clock.virtualBuffer
            else if consumed < clock.virtualBuffer.toUInt64 then
              clock.virtualBuffer - consumed.toUInt32
            else clock.virtualBuffer &&& g.pcmStepmask.toUInt32 }
      else { clock with lastclock := lastclock, stepRemainder := past.toUInt32 }

def GuestState.pcmClock (g : GuestState) : PcmClock :=
  ⟨g.pcmLastclock, g.pcmClockValid, g.pcmStepRemainder, g.pcmVirtualBuffer⟩

def GuestState.setPcmClock (g : GuestState) (clock : PcmClock) : GuestState :=
  { g with
    pcmLastclock := clock.lastclock
    pcmClockValid := clock.clockValid
    pcmStepRemainder := clock.stepRemainder
    pcmVirtualBuffer := clock.virtualBuffer }

def pcmRecalcPosition : Guest Unit := do
  let s ← get
  if s.guest.pcmRateval = 0 then return ()
  else
    let position ← currentCpuPosition
    modifyGuest fun g => GuestState.setPcmClock g (recalcPcm g position (GuestState.pcmClock g))

structure SyncPlan where
  cpuPosition : UInt32
  lastCpuPosition : UInt32
  pcm : PcmClock
  frameRemainder : UInt32
  guestCycles : UInt64
  frameTimestamp : UInt64
  cpuPositionValid : Bool

inductive SyncError where
  | guestCycles
  | frameTimestamp
deriving DecidableEq, Repr

/-- The common end of `sync_plan_compute` and `sync_plan_compute_following`. -/
def SyncPlan.advance (g : GuestState) (plan : SyncPlan) (position : UInt32) :
    Except SyncError SyncPlan :=
  let delta := position - plan.lastCpuPosition
  if plan.guestCycles > (-1 : UInt64) - delta.toUInt64 then .error .guestCycles
  else
    let total := plan.frameRemainder.toUInt64 + delta.toUInt64
    if plan.frameTimestamp > (-1 : UInt64) - total / 1024 then .error .frameTimestamp
    else .ok
      { plan with
        cpuPosition := position
        lastCpuPosition := position
        pcm := recalcPcm g position plan.pcm
        guestCycles := plan.guestCycles + delta.toUInt64
        frameTimestamp := plan.frameTimestamp + total / 1024
        frameRemainder := (total % 1024).toUInt32 }

def SyncPlan.current (g : GuestState) (position : UInt32) : SyncPlan where
  cpuPosition := position
  lastCpuPosition := g.lastCpuPosition
  pcm := GuestState.pcmClock g
  frameRemainder := g.frameRemainder
  guestCycles := g.guestCycles
  frameTimestamp := g.frameTimestamp
  cpuPositionValid := g.cpuPositionValid

def syncPlanCompute : Guest (Except SyncError SyncPlan) := do
  let position ← currentCpuPosition
  let s ← get
  let plan := SyncPlan.current s.guest position
  if s.guest.cpuPositionValid = false then
    return .ok
      { plan with
        lastCpuPosition := position
        cpuPositionValid := true
        pcm := { plan.pcm with lastclock := position.toUInt64 <<< 6, clockValid := true } }
  else return plan.advance s.guest position

def syncPlanComputeFollowing (plan : SyncPlan) : Guest (Except SyncError SyncPlan) := do
  let position ← currentCpuPosition
  let s ← get
  return plan.advance s.guest position

def syncPlanApply (plan : SyncPlan) : Guest Unit :=
  modifyGuest fun g =>
    { GuestState.setPcmClock g plan.pcm with
      lastCpuPosition := plan.lastCpuPosition
      frameRemainder := plan.frameRemainder
      guestCycles := plan.guestCycles
      frameTimestamp := plan.frameTimestamp
      cpuPositionValid := plan.cpuPositionValid }

def failSyncPlan : SyncError → Guest Unit
  | .guestCycles => fail "guest cycle overflow"
  | .frameTimestamp => fail "frame timestamp overflow"

def audioSync : Guest Unit := do
  match ← syncPlanCompute with
  | .error status => failSyncPlan status
  | .ok plan => syncPlanApply plan

end Clock

section Pcm

def pcmClk25 : Vector UInt32 8 :=
  #v[0x00001bde, 0x00002527, 0x000037bb, 0x00004a4e, 0x00006f75, 0x0000949c, 0x0000df5f,
    0x00012938]

def pcmClk20 : Vector UInt32 8 :=
  #v[0x000016a4, 0x00001e30, 0x00002d48, 0x00003c60, 0x00005a8f, 0x000078bf, 0x0000b57d,
    0x0000f17d]

def pcmRates : Vector UInt32 8 :=
  #v[352800, 264600, 176400, 132300, 88200, 66150, 44010, 33075]

def pcmRescues : Vector UInt32 8 :=
  #v[20 * 32, 20 * 24, 20 * 16, 20 * 12, 20 * 8, 20 * 6, 20 * 4, 20 * 3]

def GuestState.setRate (g : GuestState) (baseclock multiple : UInt32) (rateIndex : UInt8) :
    GuestState :=
  let rate := pcmRates.getD (rateIndex &&& 7).toNat 0
  { g with
    pcmRateval := rate
    pcmStepclock := (baseclock.toUInt64 <<< 6) / rate.toUInt64 * (multiple.toUInt64 <<< 3)
    pcmRescue := pcmRescues.getD (rateIndex &&& 7).toNat 0 <<< g.pcmStepbit.toUInt32 }

def pcmSetRate (rateIndex : UInt8) : Guest Unit := do
  let s ← get
  modifyGuest fun g => GuestState.setRate g s.baseclock s.multiple rateIndex

def pcmgenIntrq : Guest Bool := do
  let now ← currentCpuPosition
  let s ← get
  if s.guest.pcmFifo &&& 0x20 = 0 ∨
      now.toUInt64 - s.guest.pcmLastclockforwait < ((20000 : UInt32) * s.multiple).toUInt64 then
    return false
  else if s.guest.pcmIrq then return true
  else if ← timerIsWork tracePcm then return false
  else
    pcmRecalcPosition
    let s ← get
    if s.guest.pcmVirtualBuffer ≤ s.guest.pcmFifoSize.toUInt32 ∨
        s.guest.pcmRealBuffer > s.guest.pcmStepmask.toUInt32 ∧
          s.guest.pcmRealBuffer ≤ s.guest.pcmFifoSize.toUInt32 then
      modifyGuest fun g => { g with pcmIrq := true }
      return true
    else return false

/-- Both branches of `pcm_select_next_count` choose the virtual count. -/
def pcmSetNextInterrupt : Guest Unit := do
  let s ← get
  if s.guest.pcmFifo &&& 0x80 = 0 then return ()
  else if s.guest.pcmVirtualBuffer > s.guest.pcmFifoSize.toUInt32 then
    let count := ((s.guest.pcmVirtualBuffer.toUInt64 - s.guest.pcmFifoSize.toUInt64) +
      s.guest.pcmStepmask.toUInt64) >>> s.guest.pcmStepbit.toUInt64
    let table := if s.cpumode &&& 0x20 ≠ 0 then pcmClk20 else pcmClk25
    let clocks := ((table.getD (s.guest.pcmFifo &&& 7).toNat 0).toUInt64 * count) >>> 7 *
      s.multiple.toUInt64
    scheduleEvent tracePcm (if clocks ≠ 0 then clocks else 1) true
  else if s.guest.pcmReqirq then scheduleEvent tracePcm 1 true
  else
    modifyGuest fun g => { g with pcmReqirq := true }
    scheduleEvent tracePcm ((100 : UInt32) * s.multiple).toUInt64 true

def pcmExpire : Guest Unit := do
  if (← get).guest.pcmReqirq then
    audioSync
    let g := (← get).guest
    let adjust := (g.pcmVirtualBuffer.toUInt64 * 4 + g.pcmRealBuffer.toUInt64) / 5
    if g.pcmVirtualBuffer ≤ g.pcmFifoSize.toUInt32 ∨
        g.pcmRealBuffer > g.pcmStepmask.toUInt32 ∧ adjust ≤ g.pcmFifoSize.toUInt64 then
      modifyGuest fun g => { g with pcmReqirq := false, pcmIrq := true }
      onlyIf (g.pcmIrqLine ≠ 0xff) do
        discard (picSet 4)
        timerTrace
    else pcmSetNextInterrupt
  else pcmSetNextInterrupt

end Pcm

section Timers

def timerBit (timer : UInt8) : UInt8 := if timer = traceTimerA then 1 else 2

def timerEnabled (g : GuestState) (timer : UInt8) : Bool :=
  if timer = traceTimerA then g.timerControl >>> 2 &&& 1 ≠ 0 else g.timerControl >>> 3 &&& 1 ≠ 0

def isCsm (g : GuestState) (timer : UInt8) : Bool :=
  timer = traceTimerA && g.timerControl &&& 0xc0 = 0x80

/-- The cause that a PCM interrupt on the shared line adds. -/
def sharedPcmCause (timer : UInt8) : Guest UInt8 := do
  let s ← get
  if s.guest.pcmIrqLine = s.guest.opnaIrq then
    let pending ← pcmgenIntrq
    let s ← get
    return if pending ∨ s.guest.timerStatus &&& timerBit timer = 0 ∧ s.guest.pcmIrq then 4 else 0
  else return 0

/-- The part of `timer_expire` that follows the authorisation. -/
def timerEffects (timer : UInt8) : Guest Unit := do
  let enable := timerEnabled (← get).guest timer
  let shared ← sharedPcmCause timer
  let s ← get
  let raises := enable && s.guest.timerStatus &&& timerBit timer = 0
  onlyIf raises
    (modifyGuest fun g => { g with timerStatus := g.timerStatus ||| timerBit timer })
  let cause := if raises then shared ||| timerBit timer else shared
  onlyIf (cause &&& 4 ≠ 0 ∧ s.guest.pcmIrqLine ≠ 0xff ∨ cause &&& 3 ≠ 0 ∧ s.guest.opnaIrq ≠ 0xff)
    (discard (picSet cause))
  timerTrace
  scheduleEvent timer (timerPeriod (← get) timer) false

def timerExpire (timer : UInt8) : Guest Unit := do
  if isCsm (← get).guest timer then
    if ← flushPendingRun then
      match ← syncPlanCompute with
      | .error status => failSyncPlan status
      | .ok plan =>
          if (← get).guest.sequence = (-1 : UInt64) then fail "event sequence overflow"
          else
            let (check, token) ← transactionBegin .event 0
            if check = .ok then
              syncPlanApply plan
              timerEffects timer
              commitEvent token traceCsm 0
  else
    audioSync
    if (← get).failed = false then timerEffects timer

/-- A semantic call, between `semantic_enter` and `semantic_leave`. -/
def semanticCall {α : Type} (refused : α) (body : Guest α) : Guest α := do
  if ← semanticEnter then
    let result ← body
    semanticLeave
    return result
  else return refused

def timerDispatch (timer : UInt8) : Guest Unit :=
  semanticCall () do
    if timer = tracePcm then
      audioSync
      if (← get).failed = false then pcmExpire
    else if timer = traceTimerA ∨ timer = traceTimerB then timerExpire timer

def publishProgress (frameTimestamp : UInt64) : Guest Check := do
  match (← get).sink with
  | some sink =>
      if sink.publishesProgress then callOut (.publishProgressChecked frameTimestamp)
      else return .ok
  | none => return .ok

/-- The end of `progress_checkpoint`. -/
def publishPlan (plan : SyncPlan) : Guest Check := do
  let check ← publishProgress plan.frameTimestamp
  if check = .ok then
    syncPlanApply plan
    return .ok
  else if check = .retry ∨ check = .terminated then return check
  else
    fail "progress horizon contract"
    return .contract

def progressCheckpoint : Guest Check :=
  semanticCall .contract do
    if ← flushPendingRun then
      match ← syncPlanCompute with
      | .error status =>
          failSyncPlan status
          return .contract
      | .ok plan => publishPlan plan
    else return .contract

end Timers

section Opna

def opnaWriteAddressLow (value : UInt8) : Guest Unit :=
  modifyGuest fun g => { g with addressLow := value, data := value }

def opnaWriteAddressExtended (value : UInt8) : Guest Unit :=
  modifyGuest fun g =>
    if g.extension then { g with addressExtended := value, data := value } else g

/-- A timer is started or stopped when its bit in the control register changes. -/
def switchTimer (timer value old : UInt8) : Guest Unit := do
  let bit := timerBit timer
  if value &&& bit ≠ 0 ∧ old &&& bit = 0 then
    if (← timerIsWork timer) = false then
      scheduleEvent timer (timerPeriod (← get) timer) true
  else if value &&& bit = 0 ∧ old &&& bit ≠ 0 then cancelEvent timer

/-- A write to the timer control register 0x27. -/
def writeTimerControl (value : UInt8) : Guest Unit := do
  let old := (← get).guest.timerControl
  let persistent := value &&& ~~~0x30
  modifyGuest fun g =>
    { g with
      timerStatus := g.timerStatus &&& (if value &&& 0x10 ≠ 0 then ~~~1 else 0xff) &&&
        (if value &&& 0x20 ≠ 0 then ~~~2 else 0xff)
      timerControl := persistent
      regs := g.regs.setIfInBounds 0x27 persistent
      timerARunning := value &&& 1 ≠ 0
      timerBRunning := value >>> 1 &&& 1 ≠ 0 }
  switchTimer traceTimerA value old
  switchTimer traceTimerB value old
  if value &&& 3 = 0 ∨ value &&& 0x30 ≠ 0 then picResetIfIdle .opna

/-- What a register write does to the guest once it is authorised. -/
def writeRegister (address : UInt16) (value : UInt8) : Guest Unit := do
  modifyGuest fun g =>
    { g with data := value, regs := g.regs.setIfInBounds (address &&& 0x1ff).toNat value }
  if address = 0x24 then
    modifyGuest fun g => { g with
      timerAValue := (g.regs[0x24].toUInt16 <<< 2) ||| (g.regs[0x25] &&& 3).toUInt16 }
  else if address = 0x25 then
    modifyGuest fun g => { g with
      timerAValue := (g.regs[0x24].toUInt16 <<< 2) ||| (value &&& 3).toUInt16 }
  else if address = 0x26 then modifyGuest fun g => { g with timerBValue := value }
  else if address = 0x27 then writeTimerControl value

def opnaWriteRegister (address : UInt16) (value : UInt8) : Guest Unit := do
  let (check, token) ← prepareEventTransaction .event
  if check = .ok then
    writeRegister address value
    commitEvent token traceRegister ((address.toUInt32 <<< 8) ||| value.toUInt32)

def opnaWriteDataLow (value : UInt8) : Guest Unit :=
  semanticCall () do opnaWriteRegister (← get).guest.addressLow.toUInt16 value

def opnaWriteDataExtended (value : UInt8) : Guest Unit := do
  if (← get).guest.extension then
    semanticCall () do
      opnaWriteRegister (0x100 ||| (← get).guest.addressExtended.toUInt16) value

def opnaReadStatus : Guest UInt8 := do
  let _ ← flushPendingRun
  return (← get).guest.timerStatus

def opnaReadData : Guest UInt8 := do
  let _ ← flushPendingRun
  let g := (← get).guest
  return if g.addressLow = 0x0e then g.joy
    else if g.addressLow < 0x10 then g.regs.getD g.addressLow.toNat 0
    else if g.addressLow = 0xff then 1
    else g.data

def opnaReadExtendedStatus : Guest UInt8 := do
  let _ ← flushPendingRun
  let g := (← get).guest
  return if g.extension then g.timerStatus else 0xff

def opnaReadExtendedData : Guest UInt8 := do
  let _ ← flushPendingRun
  let g := (← get).guest
  return if g.extension = false then 0xff
    else if g.addressExtended = 0x08 ∨ g.addressExtended = 0x0f then
      g.regs.getD (0x100 ||| g.addressExtended.toUInt16).toNat 0
    else g.data

def opnaReadJoy : Guest UInt8 := do
  let _ ← flushPendingRun
  return (← get).guest.joy

def opnaSetExtension (enabled : Bool) : Guest Unit := do
  modifyGuest fun g => { g with extension := enabled }
  if (← get).hooks.extension then callOut (.extension enabled)

def opnaIrqLines : Vector UInt32 4 := #v[0x03, 0x0d, 0x0a, 0x0c]

/-- The guest state after `opna_reset`. -/
def resetGuest (s : Adapter) (old : GuestState) (capabilities : UInt8) (irq : UInt32)
    (timerAEvent timerBEvent : UInt8) : GuestState :=
  let fresh : GuestState :=
    { frameTimestamp := old.frameTimestamp
      guestCycles := old.guestCycles
      sequence := old.sequence
      frameRemainder := old.frameRemainder
      capabilities := capabilities
      opnaIrq := if irq &&& 0x10 ≠ 0 then opnaIrqLines.getD (irq >>> 6 &&& 3).toNat 0 else 0xff
      pcmIrqLine := 0xff
      timerAEvent := timerAEvent
      timerBEvent := timerBEvent
      pcmFifoSize := 0x80
      pcmDactrl := 0x32
      pcmStepbit := 2
      pcmStepmask := 3
      bound := old.bound }
  GuestState.setRate fresh s.baseclock s.multiple 0

/-- The effects of a reset, which also clears the failure and the pending run. -/
def resetEffects (old : GuestState) (capabilities : UInt8) (irq : UInt32)
    (timerAEvent timerBEvent : UInt8) : Guest Unit := do
  cancelEvent traceTimerA
  cancelEvent traceTimerB
  cancelEvent tracePcm
  modify fun s =>
    { s with
      guest := resetGuest s old capabilities irq timerAEvent timerBEvent
      failure := none
      runPending := false
      runCount := 0
      runTransactionActive := false
      terminationPending := false }

def opnaReset (capabilities : UInt8) (irq : UInt32) (timerAEvent timerBEvent : UInt8) :
    Guest Unit := do
  let old := (← get).guest
  if old.bound then
    semanticCall () do
      let (check, token) ← prepareEventTransaction .reset
      if check = .ok then
        resetEffects old capabilities irq timerAEvent timerBEvent
        commitEvent token traceResetBarrier 0
  else resetEffects old capabilities irq timerAEvent timerBEvent

end Opna

section Pcm86

/-- The write that the DAC refuses: it only advances the clock. -/
def isInvalidDac (g : GuestState) (registerIndex value : UInt8) : Bool :=
  registerIndex = 0x0a && g.pcmFifo &&& 0x20 = 0 && value &&& 15 = 15

/-- Register 0x08, the FIFO control. -/
def writeFifo (value : UInt8) (cpuPosition : UInt32) : Guest Unit := do
  let old := (← get).guest.pcmFifo
  let cur := cpuPosition.toUInt64
  onlyIf (value &&& 8 ≠ 0 ∧ old &&& 8 = 0) <|
    modifyGuest fun g =>
      { g with
        pcmWritePosition := 0
        pcmReadPosition := 0
        pcmRealBuffer := 0
        pcmVirtualBuffer := 0
        pcmLastclock := cur <<< 6
        pcmLastclockforwait := cur
        pcmClockValid := true }
  onlyIf (value &&& 0x10 = 0) <|
    modifyGuest fun g =>
      { g with
        pcmIrq := false
        pcmLastclockforwait := if g.pcmVirtualBuffer = 0 then cur else g.pcmLastclockforwait }
  modifyGuest fun g =>
    { g with pcmIrq := g.pcmIrq || g.pcmVirtualBuffer ≤ g.pcmFifoSize.toUInt32 }
  onlyIf ((old ^^^ value) &&& 7 ≠ 0) (pcmSetRate value)
  modifyGuest fun g => { g with pcmFifo := value }
  onlyIf ((old ^^^ value) &&& 0x80 ≠ 0 ∧ value &&& 0x80 ≠ 0) <|
    modifyGuest fun g => { g with pcmLastclock := cur <<< 6, pcmClockValid := true }
  onlyIf (← get).guest.pcmReqirq pcmSetNextInterrupt
  onlyIf (value &&& 0x10 = 0) (picResetIfIdle .pcm)

def dacStepbits : Vector UInt8 8 := #v[1, 1, 1, 2, 0, 0, 0, 1]

/-- The FIFO size of register 0x0a. -/
def writeFifoSize (value : UInt8) : Guest Unit :=
  modifyGuest fun g => { g with
    pcmFifoSize := if value = 0xff then 0x7ffc else (value.toUInt16 + 1) <<< 7 }

/-- The DAC format of register 0x0a. -/
def writeDacFormat (value : UInt8) : Guest Unit := do
  let stepbit := dacStepbits.getD (value >>> 4 &&& 7).toNat 0
  modifyGuest fun g => { g with
    pcmDactrl := value
    pcmStepbit := stepbit
    pcmStepmask := ((1 : UInt16) <<< stepbit.toUInt16) - 1 }
  pcmSetRate (← get).guest.pcmFifo

def writeDac (value : UInt8) : Guest Unit := do
  let s ← get
  onlyIf (s.guest.pcmFifo &&& 0x20 ≠ 0) (writeFifoSize value)
  onlyIf (s.guest.pcmFifo &&& 0x20 = 0 ∧ value &&& 15 ≠ 15) (writeDacFormat value)
  onlyIf (← get).guest.pcmReqirq pcmSetNextInterrupt

/-- What a PCM register write does to the guest once it is authorised. -/
def writePcmRegister (registerIndex value : UInt8) (cpuPosition : UInt32) : Guest Unit := do
  if registerIndex = 0x00 then
    modifyGuest fun g =>
      { g with pcmSoundflags := (g.pcmSoundflags &&& 0xfe) ||| (value &&& 1) }
    opnaSetExtension (value &&& 1 ≠ 0)
  else if registerIndex = 0x06 then
    if value &&& 0xe0 = 0xa0 then modifyGuest fun g => { g with pcmVolume := ~~~value &&& 15 }
  else if registerIndex = 0x08 then writeFifo value cpuPosition
  else if registerIndex = 0x0a then writeDac value

/-- The prospective clock of a PCM register write; three of the registers sample it
twice. -/
def pcmSyncPlan (registerIndex : UInt8) : Guest (Except SyncError SyncPlan) := do
  match ← syncPlanCompute with
  | .error status => return .error status
  | .ok plan =>
      if registerIndex = 0x06 ∨ registerIndex = 0x08 ∨ registerIndex = 0x0a then
        syncPlanComputeFollowing plan
      else return .ok plan

/-- Whether the write was handled. -/
def pcm86Write (registerIndex value : UInt8) : Guest Bool :=
  semanticCall false do
    if isInvalidDac (← get).guest registerIndex value then
      audioSync
      return !(← get).failed
    else if ← flushPendingRun then
      match ← pcmSyncPlan registerIndex with
      | .error status =>
          failSyncPlan status
          return false
      | .ok plan =>
          let (check, token) ← prepareEventTransaction .event
          if check = .ok then
            syncPlanApply plan
            writePcmRegister registerIndex value plan.cpuPosition
            commitEvent token tracePcmControl ((registerIndex.toUInt32 <<< 8) ||| value.toUInt32)
            return true
          else return false
    else return false

/-- The counters of the guest after a data byte. -/
def GuestState.putByte (g : GuestState) (cur wait : UInt64) : GuestState :=
  let virtualBuffer :=
    if g.pcmVirtualBuffer < 0x8000 then g.pcmVirtualBuffer + 1 else g.pcmVirtualBuffer
  let overrun := g.pcmRealBuffer + 1 ≥ 0x8000 + g.pcmRescue
  let addClock :=
    if virtualBuffer > g.pcmFifoSize.toUInt32 * 2 ∨ virtualBuffer ≥ 0x8000 then wait
    else if g.pcmFifoSize < 8192 then wait - wait * g.pcmFifoSize.toUInt64 / 8192
    else 0
  { g with
    pcmVirtualBuffer := virtualBuffer
    pcmRealBuffer := if overrun then g.pcmRealBuffer + 1 - 4 else g.pcmRealBuffer + 1
    pcmReadPosition := if overrun then (g.pcmReadPosition + 4) &&& 0xffff else g.pcmReadPosition
    pcmWritePosition := (g.pcmWritePosition + 1) &&& 0xffff
    pcmReqirq := true
    pcmLastclockforwait := cur + addClock }

/-- The effect and the commit of an authorised byte. -/
def acceptByte (cur : UInt32) (starting : Bool) (value : UInt8) : Guest Unit := do
  let s ← get
  modifyGuest fun g => GuestState.putByte g cur.toUInt64 (20000 * s.multiple.toUInt64)
  commitPcmByte starting value

/-- A stop does not discard the bytes of a run that is already authorised. -/
def flushTerminated : Guest Unit := do
  if ← flushPendingRun then modify fun s => { s with terminationPending := true }

/-- Whether the byte was accepted. -/
def writeByte (cur : UInt32) (value : UInt8) : Guest Bool := do
  let (check, starting) ← prepareByteTransaction
  if check = .ok then
    acceptByte cur starting value
    return true
  else
    let s ← get
    onlyIf (check = .terminated ∧ s.runPending) flushTerminated
    return false

def pcm86WriteData (value : UInt8) : Guest Bool := do
  let cur ← currentCpuPosition
  semanticCall false (writeByte cur value)

def pcm86Read (registerIndex : UInt8) : Guest UInt8 := do
  let _ ← flushPendingRun
  audioSync
  if registerIndex = 0x00 then return (← get).guest.pcmSoundflags
  else if registerIndex = 0x06 then
    let position ← currentCpuPosition
    let g := (← get).guest
    let past := ((position.toUInt64 <<< 6) + pastCycle - g.pcmLastclock) % pastCycle
    let clock : UInt8 := if past <<< 1 ≥ g.pcmStepclock then 1 else 0
    return clock ||| (if g.pcmVirtualBuffer ≥ 0x8000 then 0x80
      else if g.pcmVirtualBuffer ≤ g.pcmStepmask.toUInt32 then 0x40 else 0)
  else if registerIndex = 0x08 then
    let fifo := (← get).guest.pcmFifo
    let pending ← pcmgenIntrq
    return if pending then (fifo &&& ~~~0x10) ||| 0x10 else fifo &&& ~~~0x10
  else if registerIndex = 0x0a then return (← get).guest.pcmDactrl
  else return 0

end Pcm86

/-- The operations of a guest. -/
inductive Operation where
  | opnaWriteAddressLow (value : UInt8)
  | opnaWriteDataLow (value : UInt8)
  | opnaWriteAddressExtended (value : UInt8)
  | opnaWriteDataExtended (value : UInt8)
  | opnaReadStatus
  | opnaReadData
  | opnaReadExtendedStatus
  | opnaReadExtendedData
  | opnaReadJoy
  | opnaSetExtension (enabled : Bool)
  | opnaReset (capabilities : UInt8) (irq : UInt32) (timerAEvent timerBEvent : UInt8)
  | pcm86Write (registerIndex value : UInt8)
  | pcm86WriteData (value : UInt8)
  | pcm86Read (registerIndex : UInt8)
  | timerDispatch (timer : UInt8)
  | progressCheckpoint
  | audioSync
  | flushDataRun
deriving DecidableEq, Repr

def Operation.code : Operation → Guest Unit
  | .opnaWriteAddressLow value => AdapterOperations.opnaWriteAddressLow value
  | .opnaWriteDataLow value => AdapterOperations.opnaWriteDataLow value
  | .opnaWriteAddressExtended value => AdapterOperations.opnaWriteAddressExtended value
  | .opnaWriteDataExtended value => AdapterOperations.opnaWriteDataExtended value
  | .opnaReadStatus => discard AdapterOperations.opnaReadStatus
  | .opnaReadData => discard AdapterOperations.opnaReadData
  | .opnaReadExtendedStatus => discard AdapterOperations.opnaReadExtendedStatus
  | .opnaReadExtendedData => discard AdapterOperations.opnaReadExtendedData
  | .opnaReadJoy => discard AdapterOperations.opnaReadJoy
  | .opnaSetExtension enabled => AdapterOperations.opnaSetExtension enabled
  | .opnaReset capabilities irq timerAEvent timerBEvent =>
      AdapterOperations.opnaReset capabilities irq timerAEvent timerBEvent
  | .pcm86Write registerIndex value => discard (AdapterOperations.pcm86Write registerIndex value)
  | .pcm86WriteData value => discard (AdapterOperations.pcm86WriteData value)
  | .pcm86Read registerIndex => discard (AdapterOperations.pcm86Read registerIndex)
  | .timerDispatch timer => AdapterOperations.timerDispatch timer
  | .progressCheckpoint => discard AdapterOperations.progressCheckpoint
  | .audioSync => AdapterOperations.audioSync
  | .flushDataRun => discard flushPendingRun

end EspNp2.GuestAdapter.AdapterOperations
