import CallbackBridge.Engine.Absent
import CallbackBridge.Engine.Linked

/-! # The engine as the bridge sees it

    The engine owns each handle that it is given, until it gives it back
    through its callback table. -/

namespace CallbackBridge.Engine

/-- Hands the engine its callback table, before any other call. -/
def installCallbacks : Engine → Operation Unit
  | .external => Operation.call (.engine .installCallbacks)
  | .absent => pure ()
  | .linked => LinkedEngine.install .ofDispatcher

/-- Starts the tunnel; protect and owner queries go to `callback`. -/
def startTunnel (e : Engine) (callback : HandleId) (settings : TunnelSettings) :
    Operation Unit :=
  match e with
  | .external => Operation.call (.engine (.startTunnel callback settings))
  | .absent => AbsentEngine.startTunnel callback
  | .linked => LinkedEngine.startTunnel callback settings

/-- Stops the tunnel. -/
def stopTunnel : Engine → Operation Unit
  | .external => Operation.call (.engine .stopTunnel)
  | .absent => pure ()
  | .linked => Operation.call (.library .stopTunnel)

/-- Changes the name servers. -/
def updateDns (e : Engine) (dns : CString) : Operation Unit :=
  match e with
  | .external => Operation.call (.engine (.updateDns dns))
  | .absent => pure ()
  | .linked => Operation.call (.library (.updateDns dns))

/-- Asks the engine to collect garbage. -/
def forceGc : Engine → Operation Unit
  | .external => Operation.call (.engine .forceGc)
  | .absent => pure ()
  | .linked => Operation.call (.library .forceGc)

/-- Starts an action, which delivers one result to `callback`. -/
def invokeAction (e : Engine) (callback : HandleId) (data : CString) : Operation Unit :=
  match e with
  | .external => Operation.call (.engine (.invokeAction callback data))
  | .absent => AbsentEngine.invokeAction callback
  | .linked => Operation.call (.library (.invokeAction (LinkedEngine.pointer callback) data))

/-- Switches to a listener, or to none with the null handle. -/
def setEventListener (e : Engine) (listener : HandleId) : Operation Unit :=
  match e with
  | .external => Operation.call (.engine (.setEventListener listener))
  | .absent => pure ()
  | .linked => Operation.call (.library (.setEventListener (LinkedEngine.pointer listener)))

/-- Traffic of the current session. -/
def traffic (e : Engine) (onlyProxies : Bool) : Operation String :=
  match e with
  | .external => Operation.call (.engine (.traffic onlyProxies))
  | .absent => pure ""
  | .linked => LinkedEngine.traffic onlyProxies

/-- Traffic since the start. -/
def totalTraffic (e : Engine) (onlyProxies : Bool) : Operation String :=
  match e with
  | .external => Operation.call (.engine (.totalTraffic onlyProxies))
  | .absent => pure ""
  | .linked => LinkedEngine.totalTraffic onlyProxies

/-- Suspends the engine or wakes it up. -/
def suspend (e : Engine) (suspended : Bool) : Operation Unit :=
  match e with
  | .external => Operation.call (.engine (.suspend suspended))
  | .absent => pure ()
  | .linked => Operation.call (.library (.suspend (LinkedEngine.byte suspended)))

end CallbackBridge.Engine
