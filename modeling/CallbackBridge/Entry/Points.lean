import CallbackBridge.Entry.Status

/-! # Entry points

    Key ideas:

    1. The process has one bridge.  The first call with a method table decides
       for good whether there is one; a failure is remembered and reported
       again.
    2. Before that, the other entry points log a warning and answer that the
       bridge is not initialised.  Those for logging and for helpers work at
       any time.
    3. Null arguments are found before anything else happens. -/

namespace CallbackBridge.Entry

/-! ### Initialisation -/

/-- Creates the process-wide bridge, or repeats how that ended before. -/
def initOnce (methods : HostMethods) (options : BridgeOptions) :
    Operation (Except InitError Unit) := do
  let s ← Operation.state
  match s.startup with
  | some (.ok ()) => pure (.error .alreadyInitialized)
  | some (.error e) => pure (.error e)
  | none =>
    match methods.check with
    | .error e =>
      Operation.modify fun s => { s with startup := some (.error e) }
      pure (.error e)
    | .ok () =>
      Log.warn "built without libclash; engine calls are ignored"
      Bridge.create .absent options
      Operation.modify fun s => { s with startup := some (.ok ()) }
      pure (.ok ())

/-- Initialises the bridge with the host's method table. -/
def init (methods : Option HostMethods) (options : Option BridgeOptions) :
    Operation Int32 := do
  match methods with
  | none =>
    Log.error s!"{Point.init.name}: host vtable is null"
    pure InitError.nullMethods.status
  | some methods =>
    match ← initOnce methods (options.getD .standard) with
    | .ok () => pure Status.ok.code
    | .error e =>
      Log.error s!"{Point.init.name} failed: {e.message}"
      pure e.status

/-- The bridge is initialised. -/
def isReady (s : State) : Bool :=
  match s.startup with
  | some (.ok ()) => true
  | _ => false

/-- Runs `body` if the bridge is initialised, and answers `otherwise` if not. -/
def whenReady {α : Type} (point : Point) (otherwise : α) (body : Operation α) :
    Operation α := do
  let s ← Operation.state
  if isReady s then
    body
  else
    Log.warn s!"{point.name} called before BridgeInit"
    pure otherwise

/-! ### Arguments -/

/-- A string that has to be there; a null pointer is logged. -/
def required (point : Point) (name : String) (value : Option CString) :
    Operation (Option CString) := do
  if value.isNone then
    Log.warn s!"{point.name}: `{name}` is null"
  pure value

/-- A callback object that has to be there; a null pointer is logged. -/
def requiredCallback (point : Point) (callback : Option HostObject) :
    Operation (Option HostObject) := do
  if callback.isNone then
    Log.warn s!"{point.name}: callback is null"
  pure callback

/-- The status of a call that registers a callback object. -/
def registered (point : Point) (result : Except HandleError HandleId) :
    Operation Status := do
  match result with
  | .ok _ => pure .ok
  | .error e =>
    Log.error s!"{point.name}: {e.message}"
    pure .handleFailure

/-! ### The tunnel -/

/-- Starts the tunnel. -/
def startTunnel (fd : Int32) (callback : Option HostObject)
    (stack address dns : Option CString) : Operation Status :=
  whenReady .startTunnel .uninitialized do
    match ← requiredCallback .startTunnel callback with
    | none => pure .invalidArgument
    | some callback =>
      let stack ← required .startTunnel "stack" stack
      let address ← required .startTunnel "address" address
      let dns ← required .startTunnel "dns" dns
      match stack, address, dns with
      | some stack, some address, some dns =>
        let result ← Bridge.startTunnel callback ⟨fd, stack, address, dns⟩
        registered .startTunnel result
      | _, _, _ => pure .invalidArgument

/-- Stops the tunnel. -/
def stopTunnel : Operation Unit :=
  whenReady .stopTunnel () Bridge.stopTunnel

/-- Changes the name servers. -/
def updateDns (dns : Option CString) : Operation Unit :=
  whenReady .updateDns () do
    match ← required .updateDns "dns" dns with
    | none => pure ()
    | some dns => Bridge.updateDns dns

/-- Asks the engine to collect garbage. -/
def forceGc : Operation Unit :=
  whenReady .forceGc () Bridge.forceGc

/-- Starts an action.  Its one result arrives at the callback object. -/
def invokeAction (data : Option CString) (callback : Option HostObject) :
    Operation Status :=
  whenReady .invokeAction .uninitialized do
    match ← requiredCallback .invokeAction callback with
    | none => pure .invalidArgument
    | some callback =>
      match ← required .invokeAction "data" data with
      | none => pure .invalidArgument
      | some data =>
        let result ← Bridge.invokeAction data callback
        registered .invokeAction result

/-- Sets the event listener; a null pointer clears it. -/
def setEventListener (listener : Option HostObject) : Operation Status :=
  whenReady .setEventListener .uninitialized do
    let result ← Bridge.setEventListener listener
    registered .setEventListener result

/-- Traffic of the current session, as a string of the caller's own. -/
def traffic (onlyProxies : Bool) : Operation CString := do
  let text ← whenReady .traffic "" (Bridge.traffic onlyProxies)
  pure (.ofTextCut text)

/-- Traffic since the start, as a string of the caller's own. -/
def totalTraffic (onlyProxies : Bool) : Operation CString := do
  let text ← whenReady .totalTraffic "" (Bridge.totalTraffic onlyProxies)
  pure (.ofTextCut text)

/-- Suspends the engine or wakes it up. -/
def suspend (suspended : Bool) : Operation Unit :=
  whenReady .suspend () (Bridge.suspend suspended)

/-! ### Helpers -/

/-- Launches a helper.  Answers its process number, or `launchFailedPid`.  A
    program that cannot be executed shows only in the helper's exit. -/
def startHelper (config : Option RawHelperConfig) : Operation Int32 := do
  match config with
  | none =>
    Log.warn s!"{Point.startHelper.name}: config is null"
    pure launchFailedPid
  | some raw =>
    match raw.texts? with
    | none =>
      Log.warn s!"{Point.startHelper.name}: a required string is null or not UTF-8"
      pure launchFailedPid
    | some config =>
      let s ← Operation.state
      let launched ←
        if isReady s then Bridge.startHelper config else Helper.launch config
      match launched with
      | .ok helper => pure helper.pid.number
      | .error e =>
        Log.error s!"{Point.startHelper.name}: {e.message}"
        pure launchFailedPid

/-- Asks a helper to exit, or kills it. -/
def terminateHelper (pid : Int32) (force : Bool) : Operation Status := do
  match ← if force then Helper.forceKill pid else Helper.terminate pid with
  | .ok () => pure .ok
  | .error e =>
    let pid := Text.Decimal.ofInt pid.toInt
    Log.warn s!"{Point.terminateHelper.name}(pid={pid}): {e.message}"
    pure .invalidArgument

/-- Checks, without waiting, whether a helper has ended, and reaps it if so. -/
def pollHelper (pid : Int32) : Operation PollStatus := do
  match ← Helper.poll pid with
  | .ok none => pure .running
  | .ok (some (.exited code)) => pure (.exited code)
  | .ok (some (.signaled signal)) => pure (.signaled signal)
  | .error e =>
    let pid := Text.Decimal.ofInt pid.toInt
    Log.warn s!"{Point.pollHelper.name}(pid={pid}): {e.message}"
    pure .invalidArgument

/-! ### Counters and logging -/

/-- The counters, once the bridge is initialised. -/
def counters : Operation (Option Counters) := do
  let s ← Operation.state
  pure (if isReady s then some s.counters else none)

/-- Installs or removes the log sink.  A level that is null or not UTF-8 is no
    level. -/
def setLogSink (request : Option Log.SinkRequest) (level : Option CString) :
    Operation Bool := do
  match ← Log.install request (level.bind CString.text?) with
  | .ok () => pure true
  | .error _ => pure false

/-- Changes the mask of the sink. -/
def setBreadcrumbMask (mask : UInt32) : Operation Unit := do
  Log.setMask mask
  Log.breadcrumb .boundary s!"breadcrumb mask set to {Text.Decimal.hex mask.toNat}"

end CallbackBridge.Entry
