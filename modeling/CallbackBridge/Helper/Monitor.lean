import CallbackBridge.Helper.Process
import CallbackBridge.Text.Duration

/-! # Watching helpers

    A monitor polls a list of helpers at each tick of its interval, in the
    order of the list.  It reports the first one that does not poll as
    running, and then it is done: the helpers after that one are not polled in
    that tick, so they stay as they are for whoever owns them.

    The functions here are those of a monitor that nothing interferes with.  A
    monitor works on a thread of its own, though, and may be stopped at any time;
    `Helper.Watch` says what becomes of a tick then. -/

namespace CallbackBridge

/-- The death that a monitor reports. -/
structure HelperDeath where
  /-- The process number from the list. -/
  pid : Int32
  /-- How it ended; nothing where it could not be waited for. -/
  exit : Option HelperExit
  deriving DecidableEq, Repr

/-- A monitor. -/
structure Monitor where
  /-- The process numbers that it watches. -/
  pids : List Int32
  /-- Milliseconds between two ticks. -/
  interval : Nat
  /-- It has neither reported nor been stopped. -/
  running : Bool
  deriving DecidableEq, Repr

namespace Monitor

/-- Milliseconds between two ticks where nothing else is asked for. -/
def defaultInterval : Nat := 2000

/-- A list of process numbers in messages. -/
def listText (pids : List Int32) : String :=
  "[" ++ String.intercalate ", " (pids.map fun pid => Text.Decimal.ofInt pid.toInt) ++ "]"

/-- The first process of the list that does not poll as running. -/
def firstDeath : List Int32 → Operation (Option HelperDeath)
  | [] => pure none
  | pid :: rest => do
    match ← Helper.poll pid with
    | .ok (some exit) => pure (some ⟨pid, some exit⟩)
    | .ok none => firstDeath rest
    | .error _ => pure (some ⟨pid, none⟩)

/-- Starts a monitor.  The runtime that it works in is taken to be there. -/
def spawn (pids : List Int32) (interval : Nat) : Operation Monitor := do
  Log.breadcrumb .process
    s!"monitoring helpers {listText pids} every {Text.Duration.ofMillis interval}"
  pure ⟨pids, interval, true⟩

/-- What is done in a tick: the list is searched, and a death is logged. -/
def search (m : Monitor) : Operation (Option HelperDeath) := do
  match ← firstDeath m.pids with
  | none => pure none
  | some death =>
    let pid := Text.Decimal.ofInt death.pid.toInt
    Log.error s!"helper pid={pid} died unexpectedly: {HelperExit.optionText death.exit}"
    pure (some death)

/-- What becomes of a monitor by what a tick reports. -/
def settle (m : Monitor) (report : Option HelperDeath) : Monitor :=
  { m with running := m.running && report.isNone }

/-- One tick of a monitor: what it reports, and what becomes of it. -/
def tick (m : Monitor) : Operation (Option HelperDeath × Monitor) := do
  if m.running then
    let report ← m.search
    pure (report, m.settle report)
  else
    pure (none, m)

/-- Stops a monitor.  This waits for nothing. -/
def stop (m : Monitor) : Monitor :=
  { m with running := false }

/-- Stops a monitor for good.  Answers what is left of it. -/
def drop (m : Monitor) : Operation Monitor := do
  let stopped := m.stop
  Log.breadcrumb .process "helper monitor stopped"
  pure stopped

end Monitor

end CallbackBridge
