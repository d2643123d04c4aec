import CallbackBridge.Log.Logger

/-! # Histories of a logger

    What reaches a sink depends on all that was installed, removed and masked
    before.  A history is a list of such steps together with the lines that
    were logged between them. -/

namespace CallbackBridge.Log

/-- A step in the life of a logger. -/
inductive LoggerStep where
  /-- Install the sink asked for, or remove the sink. -/
  | install (request : Option SinkRequest) (level : Option String)
  /-- Change the mask of the installed sink. -/
  | setMask (mask : UInt32)
  /-- Log a message. -/
  | log (level : Level) (breadcrumbs : Breadcrumbs) (message : String)
  deriving DecidableEq, Repr

namespace Logger

/-- What a step leads to: the line that reached the sink, if one did, or the
    error of an installation that failed. -/
def step (l : Logger) : LoggerStep → Except SinkError (Option Line) × Logger
  | .install request level =>
    match l.install request level with
    | .ok l => (.ok none, l)
    | .error e => (.error e, l)
  | .setMask mask => (.ok none, l.setMask mask)
  | .log level b message => (.ok (l.line? level b message), l)

/-- What each step of a history leads to. -/
def play (l : Logger) : List LoggerStep → List (Except SinkError (Option Line))
  | [] => []
  | first :: rest => (l.step first).1 :: (l.step first).2.play rest

/-- The logger after a history. -/
def after (l : Logger) (steps : List LoggerStep) : Logger :=
  steps.foldl (fun l step => (l.step step).2) l

end Logger

end CallbackBridge.Log
