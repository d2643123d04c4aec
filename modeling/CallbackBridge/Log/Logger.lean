import CallbackBridge.Log.Level
import CallbackBridge.Log.Breadcrumb

/-! # The logger

    Key ideas:

    1. The host may install one sink, replace it and remove it again.
    2. Plain lines pass by their level, lines with breadcrumbs by the sink's
       mask alone.
    3. A line is the prefix of the process, the label of its first known area
       in brackets, and the message.  A line with a NUL inside would reach the
       host cut short, so it is dropped. -/

namespace CallbackBridge.Log

/-! ### State -/

/-- An installed sink. -/
structure Sink where
  /-- Areas whose breadcrumbs the sink takes. -/
  mask : Breadcrumbs
  /-- Least important level of the plain lines that the sink takes. -/
  level : Level
  deriving DecidableEq, Repr

/-- The state of logging. -/
structure Logger where
  /-- The number of this process, part of every line. -/
  processId : Nat
  /-- The installed sink, if any. -/
  sink : Option Sink
  deriving DecidableEq, Repr

/-- A line as the sink receives it. -/
structure Line where
  /-- The level it was logged at. -/
  level : Level
  /-- Prefix, label and message. -/
  text : String
  /-- The breadcrumbs it was logged with, unknown bits included. -/
  breadcrumbs : Breadcrumbs
  deriving DecidableEq, Repr

/-- What a host asks to install. -/
structure SinkRequest where
  /-- Areas whose breadcrumbs are wanted; unknown bits are ignored. -/
  mask : UInt32
  /-- Whether the request names a function to receive the lines. -/
  hasCallback : Bool
  deriving DecidableEq, Repr

/-- Why a sink was not installed. -/
inductive SinkError where
  | missingCallback
  deriving DecidableEq, Repr

/-- The text of the error. -/
def SinkError.message : SinkError → String
  | .missingCallback => "log sink has no callback"

/-! ### Filtering -/

/-- A sink takes plain lines by level and breadcrumbs by mask. -/
def Sink.accepts (s : Sink) (level : Level) (b : Breadcrumbs) : Bool :=
  if b.isEmpty then level.within s.level else s.mask.meets b

namespace Logger

/-- Logging at the start of a process. -/
def initial (processId : Nat) : Logger := ⟨processId, none⟩

/-- What every line of the process begins with. -/
def mark (l : Logger) : String := s!"[tb-p{l.processId}]"

/-- Installs the sink asked for, or removes the sink.  A request without a
    callback changes nothing. -/
def install (l : Logger) (request : Option SinkRequest) (level : Option String) :
    Except SinkError Logger :=
  match request with
  | none => .ok { l with sink := none }
  | some r =>
    if r.hasCallback then
      let mask : Breadcrumbs := ⟨r.mask⟩
      .ok { l with sink := some ⟨mask.known, (level.map Level.ofName).getD .info⟩ }
    else .error .missingCallback

/-- Changes the mask of the installed sink. -/
def setMask (l : Logger) (mask : UInt32) : Logger :=
  { l with sink := l.sink.map fun s => { s with mask := (⟨mask⟩ : Breadcrumbs).known } }

/-- The text of a line. -/
def text (l : Logger) (b : Breadcrumbs) (message : String) : String :=
  match b.area? with
  | some a => s!"{l.mark} [{a.label}] {message}"
  | none => s!"{l.mark} {message}"

/-- The line that reaches the sink, if one does. -/
def line? (l : Logger) (level : Level) (b : Breadcrumbs) (message : String) : Option Line :=
  if message.isEmpty then none
  else match l.sink with
    | none => none
    | some s =>
      if s.accepts level b then
        let text := l.text b message
        if text.contains '\x00' then none else some ⟨level, text, b⟩
      else none

end Logger

end CallbackBridge.Log
