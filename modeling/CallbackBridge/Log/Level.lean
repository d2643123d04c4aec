/-! # Log levels

    Four levels, from the one that is always wanted to the most talkative. -/

namespace CallbackBridge.Log

/-- How much a line matters. -/
inductive Level where
  | error
  | warn
  | info
  | debug
  deriving DecidableEq, Repr, Inhabited

namespace Level

/-- Distance from the most important level. -/
def rank : Level → Nat
  | .error => 0
  | .warn => 1
  | .info => 2
  | .debug => 3

/-- The name a sink is given with each line. -/
def name : Level → String
  | .error => "error"
  | .warn => "warn"
  | .info => "info"
  | .debug => "debug"

/-- The level a host asks for by name.  Case does not matter among ASCII
    letters, and a name that is not known asks for `info`. -/
def ofName (name : String) : Level :=
  match name.toLower with
  | "error" | "err" => .error
  | "warn" | "warning" => .warn
  | "debug" | "dbg" | "trace" => .debug
  | _ => .info

/-- A sink at level `limit` takes plain lines of `level`. -/
def within (level limit : Level) : Bool :=
  level.rank ≤ limit.rank

end Level

end CallbackBridge.Log
