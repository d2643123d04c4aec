import CallbackBridge.Bridge
import CallbackBridge.Helper.Monitor

/-! # Entry points: names and statuses

    The application reaches the bridge through entry points.  Each has a name,
    which its log lines begin with, and most answer with a status word. -/

namespace CallbackBridge.Entry

/-- An entry point. -/
inductive Point where
  | init
  | startTunnel
  | stopTunnel
  | updateDns
  | forceGc
  | invokeAction
  | setEventListener
  | traffic
  | totalTraffic
  | suspend
  | startHelper
  | terminateHelper
  | pollHelper
  deriving DecidableEq, Repr

/-- The name of an entry point. -/
def Point.name : Point → String
  | .init => "BridgeInit"
  | .startTunnel => "BridgeStartTun"
  | .stopTunnel => "BridgeStopTun"
  | .updateDns => "BridgeUpdateDns"
  | .forceGc => "BridgeForceGc"
  | .invokeAction => "BridgeInvokeAction"
  | .setEventListener => "BridgeSetEventListener"
  | .traffic => "BridgeGetTraffic"
  | .totalTraffic => "BridgeGetTotalTraffic"
  | .suspend => "BridgeSuspend"
  | .startHelper => "BridgeStartHelperProcess"
  | .terminateHelper => "BridgeHelperTerminate"
  | .pollHelper => "BridgeHelperPoll"

/-- How a call of an entry point went. -/
inductive Status where
  | ok
  /-- The bridge is not initialised. -/
  | uninitialized
  /-- An argument is missing or not valid. -/
  | invalidArgument
  /-- The callback object could not be registered. -/
  | handleFailure
  deriving DecidableEq, Repr

/-- The status word. -/
def Status.code : Status → Int32
  | .ok => 0
  | .uninitialized => -1
  | .invalidArgument => -2
  | .handleFailure => -3

/-- What a poll of a helper found. -/
inductive PollStatus where
  | running
  | exited (code : Int32)
  | signaled (signal : Int32)
  | invalidArgument
  deriving DecidableEq, Repr

namespace PollStatus

/-- The status word. -/
def code : PollStatus → Int32
  | .running => 0
  | .exited _ => 1
  | .signaled _ => 2
  | .invalidArgument => Status.invalidArgument.code

/-- What is written to the caller's variable, if anything. -/
def value? : PollStatus → Option Int32
  | .running => some 0
  | .exited code => some code
  | .signaled signal => some signal
  | .invalidArgument => none

end PollStatus

/-- The process number that stands for a launch that failed. -/
def launchFailedPid : Int32 := -1

end CallbackBridge.Entry
