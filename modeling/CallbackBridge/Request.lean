import CallbackBridge.Entry.Points

/-! # Requests

    All that can be asked of the bridge, as data: by the application, by the
    host from inside a call, or by an engine.  Each request has a type of
    results and runs as one operation. -/

namespace CallbackBridge

/-! ### Registry and dispatcher -/

/-- A request to the registry. -/
inductive RegistryRequest where
  | register (object : HostObject) (kind : HandleKind)
  /-- Look an id up and keep a loan of it. -/
  | look (id : HandleId)
  /-- Give a loan back. -/
  | giveBack (id : HandleId)
  | release (handle : Handle)
  | releaseRaw (id : HandleId)
  | releaseIfPresent (id : HandleId)
  /-- Drop the table. -/
  | close
  deriving DecidableEq

/-- What a request to the registry results in. -/
abbrev RegistryRequest.Result : RegistryRequest → Type
  | .register .. => Except HandleError Handle
  | .look _ => Except HandleError Registration
  | .giveBack _ | .release _ | .close => Unit
  | .releaseRaw _ | .releaseIfPresent _ => Bool

/-- Runs a request to the registry. -/
def RegistryRequest.operation : (q : RegistryRequest) → Operation q.Result
  | .register object kind => Registry.register object kind
  | .look id => Registry.look id
  | .giveBack id => Registry.giveBack id
  | .release handle => Registry.release handle
  | .releaseRaw id => Registry.releaseRaw id
  | .releaseIfPresent id => Registry.releaseIfPresent id
  | .close => Registry.close

/-- A request to the dispatcher. -/
inductive DispatchRequest where
  | protect (id : HandleId) (fd : Int32)
  | notify (id : HandleId) (payload : CString)
  | resolveOwner (id : HandleId) (query : OwnerQuery)
  | deliverResult (id : HandleId) (data : CString)
  deriving DecidableEq

/-- What a request to the dispatcher results in. -/
abbrev DispatchRequest.Result : DispatchRequest → Type
  | .resolveOwner .. => String
  | .protect .. | .notify .. | .deliverResult .. => Except DispatchError Unit

/-- Runs a request to the dispatcher. -/
def DispatchRequest.operation : (q : DispatchRequest) → Operation q.Result
  | .protect id fd => Dispatch.protect id fd
  | .notify id payload => Dispatch.notify id payload
  | .resolveOwner id query => Dispatch.resolveOwner id query
  | .deliverResult id data => Dispatch.deliverResult id data

/-! ### Bridge and entry points -/

/-- A request to the bridge. -/
inductive BridgeRequest where
  | startTunnel (callback : HostObject) (settings : TunnelSettings)
  | stopTunnel
  | updateDns (dns : CString)
  | forceGc
  | invokeAction (data : CString) (callback : HostObject)
  | setEventListener (callback : Option HostObject)
  | traffic (onlyProxies : Bool)
  | totalTraffic (onlyProxies : Bool)
  | suspend (suspended : Bool)
  | startHelper (config : HelperConfig)
  deriving DecidableEq

/-- What a request to the bridge results in. -/
abbrev BridgeRequest.Result : BridgeRequest → Type
  | .startTunnel .. | .invokeAction .. | .setEventListener _ => Except HandleError HandleId
  | .traffic _ | .totalTraffic _ => String
  | .startHelper _ => Except LaunchError HelperProcess
  | .stopTunnel | .updateDns _ | .forceGc | .suspend _ => Unit

/-- Runs a request to the bridge. -/
def BridgeRequest.operation : (q : BridgeRequest) → Operation q.Result
  | .startTunnel callback settings => Bridge.startTunnel callback settings
  | .stopTunnel => Bridge.stopTunnel
  | .updateDns dns => Bridge.updateDns dns
  | .forceGc => Bridge.forceGc
  | .invokeAction data callback => Bridge.invokeAction data callback
  | .setEventListener callback => Bridge.setEventListener callback
  | .traffic onlyProxies => Bridge.traffic onlyProxies
  | .totalTraffic onlyProxies => Bridge.totalTraffic onlyProxies
  | .suspend suspended => Bridge.suspend suspended
  | .startHelper config => Bridge.startHelper config

/-- A call of an entry point. -/
inductive EntryRequest where
  | init (methods : Option HostMethods) (options : Option BridgeOptions)
  | startTunnel (fd : Int32) (callback : Option HostObject) (stack address dns : Option CString)
  | stopTunnel
  | updateDns (dns : Option CString)
  | forceGc
  | invokeAction (data : Option CString) (callback : Option HostObject)
  | setEventListener (listener : Option HostObject)
  | traffic (onlyProxies : Bool)
  | totalTraffic (onlyProxies : Bool)
  | suspend (suspended : Bool)
  | startHelper (config : Option RawHelperConfig)
  | terminateHelper (pid : Int32) (force : Bool)
  | pollHelper (pid : Int32)
  | counters
  | setLogSink (request : Option Log.SinkRequest) (level : Option CString)
  | setBreadcrumbMask (mask : UInt32)
  deriving DecidableEq

/-- What an entry point answers. -/
abbrev EntryRequest.Result : EntryRequest → Type
  | .init .. | .startHelper _ => Int32
  | .startTunnel .. | .invokeAction .. | .setEventListener _ | .terminateHelper .. => Entry.Status
  | .traffic _ | .totalTraffic _ => CString
  | .pollHelper _ => Entry.PollStatus
  | .counters => Option Counters
  | .setLogSink .. => Bool
  | .stopTunnel | .updateDns _ | .forceGc | .suspend _ | .setBreadcrumbMask _ => Unit

/-- Runs a call of an entry point. -/
def EntryRequest.operation : (q : EntryRequest) → Operation q.Result
  | .init methods options => Entry.init methods options
  | .startTunnel fd callback stack address dns =>
    Entry.startTunnel fd callback stack address dns
  | .stopTunnel => Entry.stopTunnel
  | .updateDns dns => Entry.updateDns dns
  | .forceGc => Entry.forceGc
  | .invokeAction data callback => Entry.invokeAction data callback
  | .setEventListener listener => Entry.setEventListener listener
  | .traffic onlyProxies => Entry.traffic onlyProxies
  | .totalTraffic onlyProxies => Entry.totalTraffic onlyProxies
  | .suspend suspended => Entry.suspend suspended
  | .startHelper config => Entry.startHelper config
  | .terminateHelper pid force => Entry.terminateHelper pid force
  | .pollHelper pid => Entry.pollHelper pid
  | .counters => Entry.counters
  | .setLogSink request level => Entry.setLogSink request level
  | .setBreadcrumbMask mask => Entry.setBreadcrumbMask mask

/-! ### Logging -/

/-- A request to the log. -/
inductive LogRequest where
  | install (request : Option Log.SinkRequest) (level : Option String)
  | setMask (mask : UInt32)
  | error (message : String)
  | warn (message : String)
  | info (message : String)
  | detail (breadcrumbs : Log.Breadcrumbs) (message : String)
  | limitedError (category : Log.Category) (text : String)
  deriving DecidableEq

/-- What a request to the log results in. -/
abbrev LogRequest.Result : LogRequest → Type
  | .install .. => Except Log.SinkError Unit
  | .limitedError .. => Bool
  | .setMask _ | .error _ | .warn _ | .info _ | .detail .. => Unit

/-- Runs a request to the log. -/
def LogRequest.operation : (q : LogRequest) → Operation q.Result
  | .install request level => Log.install request level
  | .setMask mask => Log.setMask mask
  | .error message => Log.error message
  | .warn message => Log.warn message
  | .info message => Log.info message
  | .detail breadcrumbs message => Log.detail breadcrumbs message
  | .limitedError category text => Log.limitedError category text

/-! ### All requests -/

/-- A request of any sort. -/
inductive Request where
  | registry (request : RegistryRequest)
  | dispatch (request : DispatchRequest)
  /-- A request of an engine, through a callback table. -/
  | callback (table : CallbackTable) (request : EngineRequest)
  /-- A request of the library, through its own functions. -/
  | library (request : EngineRequest)
  | bridge (request : BridgeRequest)
  | entry (request : EntryRequest)
  | log (request : LogRequest)
  deriving DecidableEq

namespace Request

/-- What a request results in. -/
abbrev Result : Request → Type
  | .registry q => q.Result
  | .dispatch q => q.Result
  | .callback _ q => q.Answer
  | .library q => q.Answer
  | .bridge q => q.Result
  | .entry q => q.Result
  | .log q => q.Result

/-- Runs a request. -/
def operation : (q : Request) → Operation q.Result
  | .registry q => q.operation
  | .dispatch q => q.operation
  | .callback table q => table.serve q
  | .library q => LinkedEngine.serve q
  | .bridge q => q.operation
  | .entry q => q.operation
  | .log q => q.operation

end Request

end CallbackBridge
