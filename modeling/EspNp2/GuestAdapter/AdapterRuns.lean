import EspNp2.GuestAdapter.AdapterFrame

/-!
The adapter in use: what its host configures, and the states that operations and
configuration reach from the start.
-/

namespace EspNp2.GuestAdapter.AdapterRuns

open EspNp2.GuestAdapter.AdapterFrame
open EspNp2.GuestAdapter.AdapterOperations
open EspNp2.GuestAdapter.AdapterState
open EspNp2.Library.CallMonitor
open EspNp2.Library.CallProgram
open EspNp2.Library.LabelledRun

def pcmIrqLines : Vector UInt32 8 := #v[0xff, 0xff, 0xff, 0xff, 0x03, 0x0a, 0x0d, 0x0c]

def pcm86SetOptions (g : GuestState) (dipSwitch : UInt8) : GuestState :=
  { g with
    pcmSoundflags := ~~~dipSwitch >>> 1 &&& 0x70
    pcmIrqLine := pcmIrqLines.getD (dipSwitch >>> 2 &&& 7).toNat 0 }

/-- What the host sets besides the operations of the guest. -/
inductive Configuration where
  | sinkBind (sink : Sink)
  | sinkBindIncomplete
  | sinkUnbind
  | traceAttach (trace : Option HostTrace)
  | setCpuPositionFn (present : Bool)
  | setCpuPosition (position : UInt32)
  | setClock (baseclock multiple : UInt32)
  | setCpumode (cpumode : UInt32)
  | setTimerHooks (schedule cancel iswork irq : Bool)
  | registerExtension (present : Bool)
  | opnaSetConfig (channels : UInt8)
  | opnaSetBase (base : UInt16)
  | bind (bound : Bool)
  | soundromLoad
  | setMixerVolume (value : UInt8)
  | setOptions (dipSwitch : UInt8)
  | testSeed (frameTimestamp sequence : UInt64)
deriving DecidableEq, Repr

/-- A clock that is not supported, or that would change under a bound guest, is a failure. -/
def setClock (baseclock multiple : UInt32) (s : Adapter) : Adapter :=
  if baseclock.toUInt64 * multiple.toUInt64 ≠ 49152000 then failing s "unsupported guest clock"
  else if s.guest.bound ∧ (baseclock ≠ s.baseclock ∨ multiple ≠ s.multiple) then
    failing s "dynamic clock change unsupported"
  else
    { s with
      baseclock := baseclock
      multiple := multiple
      guest :=
        if s.guest.pcmRateval ≠ 0 then GuestState.setRate s.guest baseclock multiple s.guest.pcmFifo
        else s.guest }

/-- An attached trace starts with no records. -/
def emptyTrace (trace : HostTrace) : HostTrace :=
  { trace with eventCount := 0, dataRunCount := 0, pcmCount := 0, timerCount := 0 }

def configure (s : Adapter) : Configuration → Adapter
  | .sinkBind sink => { s with sink := some sink }
  | .sinkBindIncomplete => failing { s with sink := none } "transaction sink contract"
  | .sinkUnbind => { s with sink := none }
  | .traceAttach trace => { s with trace := trace.map emptyTrace }
  | .setCpuPositionFn present => { s with hooks.cpuPosition := present }
  | .setCpuPosition position => { s with manualCpuPosition := position }
  | .setClock baseclock multiple => setClock baseclock multiple s
  | .setCpumode cpumode => { s with cpumode := cpumode }
  | .setTimerHooks schedule cancel iswork irq =>
      { s with hooks := { s.hooks with
          schedule := schedule, cancel := cancel, isWork := iswork, irq := irq } }
  | .registerExtension present => { s with hooks.extension := present }
  | .opnaSetConfig channels => { s with guest.channels := channels }
  | .opnaSetBase base => { s with guest.base := base.toUInt32 }
  | .bind bound => { s with guest.bound := bound }
  | .soundromLoad => { s with guest.soundromRejected := true }
  | .setMixerVolume value => { s with guest.pcmVolume := value &&& 15 }
  | .setOptions dipSwitch => { s with guest := pcm86SetOptions s.guest dipSwitch }
  | .testSeed frameTimestamp sequence =>
      { s with
        guest := { s.guest with
          frameTimestamp := frameTimestamp
          sequence := sequence
          guestCycles := 0
          frameRemainder := 0
          cpuPositionValid := false
          pcmClockValid := false }
        failure := none
        semanticCallActive := false
        contractViolation := false
        terminationPending := false }

/-- The states of an adapter in use. A detached trace, an unbound stream and a seed flush
the pending run before, which is an operation of its own. -/
inductive Reachable : Adapter → Prop
  | start : Reachable {}
  | operation {s s' : Adapter} (operation : Operation) {trace : List CallLabel} (h : Reachable s)
      (hrun : Run (Step anyReply) (operation.code s, ()) trace (.done ((), s'), ())) : Reachable s'
  | configuration {s : Adapter} (configuration : Configuration) (h : Reachable s) :
      Reachable (configure s configuration)

end EspNp2.GuestAdapter.AdapterRuns
