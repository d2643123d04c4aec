import CallbackBridge.Handle
import CallbackBridge.Text.CString
import CallbackBridge.Log.Logger

/-! # Calls to foreign code

    The bridge talks to code that it does not know: the host runtime, the
    engine or the library that stands for it, the log sink, and the operating
    system.  Each call is a value, and its reply has a type of its own.

    A host or engine may use the bridge again before it replies; see
    `Foreign.Progress`.  The log sink and the operating system are taken not to:
    no operation starts while a line is with the sink, on that thread or on
    another one. -/

namespace CallbackBridge

/-! ### Objects and threads -/

/-- A reference to a host object; never the null pointer. -/
structure HostObject where
  /-- The pointer as a word. -/
  address : UInt64
  /-- The null pointer refers to nothing. -/
  ne_zero : address ≠ 0
  deriving DecidableEq

/-- The object behind a pointer, if the pointer is not null. -/
def HostObject.ofAddress? (address : UInt64) : Option HostObject :=
  if h : address = 0 then none else some ⟨address, h⟩

/-- A string in the memory of the host, known by where it stands; never the null
    pointer.  What stands there is learnt by reading it. -/
structure HostString where
  /-- The pointer as a word. -/
  address : UInt64
  /-- The null pointer leads to no string. -/
  ne_zero : address ≠ 0
  deriving DecidableEq

/-- The string behind a pointer, if the pointer is not null. -/
def HostString.ofAddress? (address : UInt64) : Option HostString :=
  if h : address = 0 then none else some ⟨address, h⟩

/-- A thread, known to the host by its name. -/
structure Thread where
  /-- The name. -/
  name : String
  deriving DecidableEq, Repr

/-- How a thread is written in messages. -/
def Thread.text (t : Thread) : String := s!"ThreadId({t.name})"

/-! ### Arguments -/

/-- A question for the owner of a connection. -/
structure OwnerQuery where
  protocol : Int32
  source : CString
  target : CString
  uid : Int32
  deriving DecidableEq

/-- What a tunnel is started with. -/
structure TunnelSettings where
  fd : Int32
  stack : CString
  address : CString
  dns : CString
  deriving DecidableEq

/-- How a child process ended. -/
inductive HelperExit where
  | exited (code : Int32)
  | signaled (signal : Int32)
  deriving DecidableEq, Repr

/-- Why the operating system refused a request about a process. -/
inductive SystemError where
  /-- No process has the number. -/
  | noSuchProcess
  /-- The process is not a child that can still be waited for. -/
  | noChild
  deriving DecidableEq, Repr

/-- The number of a child process, which is above zero. -/
structure Pid where
  number : Int32
  pos : 0 < number
  deriving DecidableEq

/-- Where a line is printed. -/
inductive Stream where
  | output
  | errors
  deriving DecidableEq, Repr

/-! ### Calls -/

/-- Calls to the host runtime, and looks into its memory. -/
inductive HostCall where
  /-- Attach the current thread. -/
  | attach
  /-- Detach the current thread. -/
  | detach
  /-- Make a reference that stays valid on every thread. -/
  | pin (object : HostObject)
  /-- Give such a reference back. -/
  | unpin (object : HostObject)
  /-- Exclude a descriptor from the tunnel. -/
  | protect (target : HostObject) (fd : Int32)
  /-- Name the owner of a connection. -/
  | resolve (target : HostObject) (query : OwnerQuery)
  /-- Take a result or an event. -/
  | onResult (target : HostObject) (data : CString)
  /-- Copy a string that `resolve` answered from where it stands.  No code of the
      host runs for that, but its other threads do not wait for it. -/
  | readString (text : HostString)
  /-- Take back a string that `resolve` answered. -/
  | freeString (text : HostString)
  deriving DecidableEq

/-- What the host replies. -/
abbrev HostCall.Reply : HostCall → Type
  | .attach => Int32
  | .pin _ => Option HostObject
  | .resolve .. => Option HostString
  | .readString _ => CString
  | .detach | .unpin _ | .protect .. | .onResult .. | .freeString _ => Unit

/-- Calls to an engine. -/
inductive EngineCall where
  | installCallbacks
  | startTunnel (callback : HandleId) (settings : TunnelSettings)
  | stopTunnel
  | updateDns (dns : CString)
  | forceGc
  | invokeAction (callback : HandleId) (data : CString)
  /-- The null handle clears the listener. -/
  | setEventListener (listener : HandleId)
  | traffic (onlyProxies : Bool)
  | totalTraffic (onlyProxies : Bool)
  | suspend (suspended : Bool)
  deriving DecidableEq

/-- What an engine replies. -/
abbrev EngineCall.Reply : EngineCall → Type
  | .traffic _ | .totalTraffic _ => String
  | .installCallbacks | .startTunnel .. | .stopTunnel | .updateDns _ | .forceGc
  | .invokeAction .. | .setEventListener _ | .suspend _ => Unit

/-- Calls to the engine's library.  Handles are pointers there, 0 being the
    null pointer, and truth values are bytes. -/
inductive LibraryCall where
  | startTunnel (callback : UInt64) (settings : TunnelSettings)
  | stopTunnel
  | updateDns (dns : CString)
  | forceGc
  | invokeAction (callback : UInt64) (data : CString)
  | setEventListener (listener : UInt64)
  | traffic (onlyProxies : UInt8)
  | totalTraffic (onlyProxies : UInt8)
  | suspend (suspended : UInt8)
  deriving DecidableEq

/-- What the library replies. -/
abbrev LibraryCall.Reply : LibraryCall → Type
  | .startTunnel .. => UInt8
  | .traffic _ | .totalTraffic _ => Option CString
  | .stopTunnel | .updateDns _ | .forceGc | .invokeAction .. | .setEventListener _
  | .suspend _ => Unit

/-- Requests to the operating system. -/
inductive SystemCall where
  /-- Milliseconds on a clock that may jump. -/
  | clock
  /-- Start a program.  The pointers to its arguments, the program first, end at
      a null pointer. -/
  | spawn (program : Option CString) (arguments : List (Option CString))
  /-- Send a signal. -/
  | signal (pid : Int32) (signal : Int32)
  /-- Reap a child if it has ended. -/
  | wait (pid : Int32)
  /-- Print a line. -/
  | print (stream : Stream) (line : String)
  deriving DecidableEq

/-- What the operating system replies. -/
abbrev SystemCall.Reply : SystemCall → Type
  | .clock => UInt64
  | .spawn .. => Pid
  | .signal .. => Except SystemError Unit
  | .wait _ => Except SystemError (Option HelperExit)
  | .print .. => Unit

/-- A call to any foreign code. -/
inductive Call where
  | host (call : HostCall)
  | engine (call : EngineCall)
  | library (call : LibraryCall)
  /-- Hand a line to the log sink. -/
  | log (line : Log.Line)
  | system (call : SystemCall)
  deriving DecidableEq

/-- The reply to a call. -/
abbrev Call.Reply : Call → Type
  | .host call => call.Reply
  | .engine call => call.Reply
  | .library call => call.Reply
  | .log _ => Unit
  | .system call => call.Reply

/-- The calls during which other operations may start: those nested in the call
    itself, and those of other threads.  That there are none during a call of
    the log sink or of the operating system is an assumption about both: a sink
    that uses the bridge while it is handed a line is not covered. -/
def Call.mayReenter : Call → Bool
  | .host _ | .engine _ | .library _ => true
  | .log _ | .system _ => false

end CallbackBridge
