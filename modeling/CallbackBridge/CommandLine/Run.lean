import CallbackBridge.CommandLine.Settings
import CallbackBridge.Entry.Points

/-! # A run of the command line

    The program launches one helper, watches it, and reports how it ended.
    Lines of the log go to the output as well. -/

namespace CallbackBridge.CommandLine

/-- Why a run failed. -/
inductive RunError where
  | settings (error : SettingsError)
  | nulInside (error : NulError)
  | launchFailed
  /-- The program of the helper could not be executed. -/
  | execFailed (pid : Int32) (binaryPath : String)
  deriving DecidableEq, Repr

/-- The text of an error. -/
def RunError.message : RunError → String
  | .settings e => e.message
  | .nulInside e => e.message
  | .launchFailed => "BridgeStartHelperProcess failed"
  | .execFailed pid path =>
    s!"helper pid {Text.Decimal.ofInt pid.toInt} could not exec {path}"

/-- A line of the log, as the program prints it. -/
def logLine (line : Log.Line) : String :=
  s!"[bridge][{line.level.name}] {line.text}"

/-- Prints a line to the output. -/
def say (line : String) : Operation Unit :=
  Operation.call (.system (.print .output line))

/-- Prints a line to the error output. -/
def complain (line : String) : Operation Unit :=
  Operation.call (.system (.print .errors line))

/-- The mask of every breadcrumb. -/
def everyBreadcrumb : UInt32 := 0xFFFFFFFF

/-- Sends all lines of the log to the output. -/
def openLog : Operation Unit := do
  let _ ← Log.install (some ⟨everyBreadcrumb, true⟩) (some Log.Level.debug.name)
  Entry.setBreadcrumbMask everyBreadcrumb

/-- Launches the helper.  Answers its process number, or why there is none. -/
def launch (s : Settings) : Operation (Except RunError Int32) := do
  complain s!"[standalone] launching helper: {s.helper.commandLine}"
  match s.helper.toRaw with
  | .error e => pure (.error (.nulInside e))
  | .ok raw =>
    let pid ← Entry.startHelper (some raw)
    if pid < 0 then
      pure (.error .launchFailed)
    else
      let number := Text.Decimal.ofInt pid.toInt
      say s!"[standalone] helper running as pid {number}. Press Ctrl+C to terminate."
      pure (.ok pid)

/-- Ticks a monitor until it reports, at most `ticks` times. -/
def awaitDeath : (ticks : Nat) → Monitor → Operation (Option HelperDeath)
  | 0, _ => pure none
  | ticks + 1, m => do
    match ← m.tick with
    | (some death, _) => pure (some death)
    | (none, m) => awaitDeath ticks m

/-- Reports how the helper ended. -/
def conclude (s : Settings) (pid : Int32) (exit : Option HelperExit) :
    Operation (Except RunError Unit) := do
  let number := Text.Decimal.ofInt pid.toInt
  match exit with
  | none =>
    say s!"[standalone] helper pid {number} is no longer waitable"
    pure (.ok ())
  | some exit =>
    if exit.isExecFailure then
      pure (.error (.execFailed pid s.helper.binaryPath))
    else
      say s!"[standalone] helper pid {number} exited: {exit.text}"
      pure (.ok ())

/-- Launches the helper and watches it for at most `ticks` polls.  Nothing is
    answered while the helper lives. -/
def supervise (ticks : Nat) (s : Settings) : Operation (Option (Except RunError Unit)) := do
  openLog
  match ← launch s with
  | .error e => pure (some (.error e))
  | .ok pid =>
    let monitor ← Monitor.spawn [pid] s.pollMillis
    match ← awaitDeath ticks monitor with
    | none => pure none
    | some death =>
      let result ← conclude s pid death.exit
      let _ ← monitor.drop
      pure (some result)

/-- Runs the program.  Answers the exit code once the helper has ended. -/
def run (ticks : Nat) (arguments : List String) : Operation (Option UInt8) := do
  let result ←
    match Settings.read arguments with
    | .error e => pure (some (.error (.settings e)))
    | .ok s => supervise ticks s
  match result with
  | none => pure none
  | some (.ok ()) => pure (some 0)
  | some (.error e) =>
    complain s!"Error: {e.message}"
    pure (some 1)

end CallbackBridge.CommandLine
