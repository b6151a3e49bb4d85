import EspNp2.KeyboardInput.Ownership

/-!
The producers' side of the keyboard bridge.  A producer passes the gate, sends its command to
the queue and latches an overflow.  `created` tells whether the bridge has its queue; it has it
for good once it is initialised.
-/

namespace EspNp2.KeyboardInput.KeyboardBridge

open Ownership

inductive Command where
  | event (event : Event)
  | sourceDisconnect (source : SourceId)
deriving DecidableEq, Repr

inductive EnqueueResult where
  | enqueued
  | invalid
  | full
  | quarantined
  | notInitialized
deriving DecidableEq, Repr

/-- The flags of the bridge that producers and the owner share. -/
inductive BridgeWord where
  | overflowLatched
  | quarantine
  | producerClosed
deriving DecidableEq, Repr

/-- How a producer's code reaches the bridge. -/
structure BridgeAccess (m : Type → Type 1) where
  load : BridgeWord → m Bool
  store : BridgeWord → Bool → m Unit
  send : Command → m Bool

variable {m : Type → Type 1} [Monad m] (bridge : BridgeAccess m) (created : Bool)

def canEnqueue : m Bool := do
  if created = false then return false
  else if ← bridge.load .producerClosed then return false
  else if ← bridge.load .overflowLatched then return false
  else if ← bridge.load .quarantine then return false
  else return true

def enqueueCommand (valid : Bool) (command : Command) : m EnqueueResult := do
  if valid = false then return .invalid
  else if ← canEnqueue bridge created then
    if ← bridge.send command then return .enqueued
    else
      bridge.store .overflowLatched true
      return .full
  else return if created then .quarantined else .notInitialized

def enqueue (event : Event) : m EnqueueResult :=
  enqueueCommand bridge created (isValidEvent event) (.event event)

def disconnectSource (source : SourceId) : m EnqueueResult :=
  enqueueCommand bridge created source.valid (.sourceDisconnect source)

end EspNp2.KeyboardInput.KeyboardBridge
