import CallbackBridge.Engine.Interface
import CallbackBridge.Helper.Process

/-! # The bridge

    The bridge puts the registry, the dispatcher and an engine together.  A
    callback object that the application passes in is registered, and its
    handle goes to the engine, which owns it from then on.

    The one handle that the bridge releases by itself is a listener that
    another one has replaced, and that only after the engine has switched. -/

namespace CallbackBridge

/-- What a bridge is created with. -/
structure BridgeOptions where
  /-- Detach the threads that the bridge attached. -/
  detachAfterCallback : Bool
  /-- Most handles that may be registered; 0 means any number. -/
  maxHandles : UInt32
  deriving DecidableEq, Repr

/-- The options where none are given. -/
def BridgeOptions.standard : BridgeOptions := ⟨false, 4096⟩

namespace Bridge

/-- Creates a bridge over an engine. -/
def create (engine : Engine) (options : BridgeOptions) : Operation Unit := do
  let policy := DetachPolicy.ofFlag options.detachAfterCallback
  let capacity := options.maxHandles.toUInt64
  Operation.modify fun s =>
    { s with registry := .new policy capacity, counters := .zero, listener := .empty, engine }
  engine.installCallbacks
  Log.breadcrumb .boundary
    s!"bridge initialized (policy={policy.name}, max_handles={options.maxHandles.toNat})"

/-- Starts the tunnel with a callback object. -/
def startTunnel (callback : HostObject) (settings : TunnelSettings) :
    Operation (Except HandleError HandleId) := do
  match ← Registry.register callback .tunnel with
  | .error e => pure (.error e)
  | .ok handle =>
    let id := handle.id
    let fd := Text.Decimal.ofInt settings.fd.toInt
    let stack := settings.stack.lossy
    let address := settings.address.lossy
    Log.info s!"start_tun fd={fd} stack={stack} address={address} handle={id.text}"
    let s ← Operation.state
    s.engine.startTunnel id settings
    pure (.ok id)

/-- Stops the tunnel.  Handles of the session stay registered until the engine
    gives them back. -/
def stopTunnel : Operation Unit := do
  Log.info "stop_tun"
  let s ← Operation.state
  s.engine.stopTunnel

/-- Changes the name servers. -/
def updateDns (dns : CString) : Operation Unit := do
  Log.breadcrumb .engine s!"update_dns {dns.lossy}"
  let s ← Operation.state
  s.engine.updateDns dns

/-- Asks the engine to collect garbage. -/
def forceGc : Operation Unit := do
  let s ← Operation.state
  s.engine.forceGc

/-- Starts an action whose one result goes to a callback object. -/
def invokeAction (data : CString) (callback : HostObject) :
    Operation (Except HandleError HandleId) := do
  match ← Registry.register callback .invoke with
  | .error e => pure (.error e)
  | .ok handle =>
    let id := handle.id
    Log.breadcrumb .engine s!"invoke_action -> {id.text}"
    let s ← Operation.state
    s.engine.invokeAction id data
    pure (.ok id)

/-- How the content of the listener slot is written in messages. -/
def slotText : Option HandleId → String
  | none => "None"
  | some id => s!"Some({id.debugText})"

/-- Locks the listener slot, or unlocks it as it is. -/
def lockSlot (locked : Bool) : Operation Unit :=
  Operation.modify fun s => { s with listener.locked := locked }

/-- Puts a listener into the slot and unlocks it.  Yields the one before. -/
def switchSlot (next : HandleId) : Operation (Option HandleId) :=
  Operation.modifyGet fun s =>
    (s.listener.current,
      { s with listener := ⟨if next.isNull then none else some next, false⟩ })

/-- Tells the engine about a listener, puts it into the slot, and releases the
    one that was there before.  The engine may have released that one on its
    own. -/
def replaceListener (next : HandleId) : Operation Unit := do
  let s ← Operation.state
  s.engine.setEventListener next
  let previous ← switchSlot next
  match previous with
  | none => pure ()
  | some id =>
    let _ ← Registry.releaseIfPresent id
    pure ()
  Log.breadcrumb .handle s!"event listener {slotText previous} -> {next.text}"

/-- Sets the event listener, or clears it.  The slot is locked until the engine
    has switched, so that each replacement releases its own predecessor; while
    it is locked nobody may set a listener. -/
def setEventListener (callback : Option HostObject) :
    Operation (Except HandleError HandleId) := do
  lockSlot true
  match callback with
  | none =>
    replaceListener .null
    pure (.ok .null)
  | some object =>
    match ← Registry.register object .listener with
    | .error e =>
      lockSlot false
      pure (.error e)
    | .ok handle =>
      replaceListener handle.id
      pure (.ok handle.id)

/-- Traffic of the current session. -/
def traffic (onlyProxies : Bool) : Operation String := do
  let s ← Operation.state
  s.engine.traffic onlyProxies

/-- Traffic since the start. -/
def totalTraffic (onlyProxies : Bool) : Operation String := do
  let s ← Operation.state
  s.engine.totalTraffic onlyProxies

/-- Suspends the engine or wakes it up. -/
def suspend (suspended : Bool) : Operation Unit := do
  Log.info s!"suspend({suspended})"
  let s ← Operation.state
  s.engine.suspend suspended

/-- Launches a helper and counts it. -/
def startHelper (config : HelperConfig) : Operation (Except LaunchError HelperProcess) := do
  match ← Helper.launch config with
  | .error e => pure (.error e)
  | .ok helper =>
    bump .helpersLaunched
    pure (.ok helper)

end Bridge

end CallbackBridge
