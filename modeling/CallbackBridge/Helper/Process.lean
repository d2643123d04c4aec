import CallbackBridge.Helper.Config
import CallbackBridge.Log.Emit

/-! # Helper processes

    A helper is started as a child and then left alone: whoever launched it
    owns its process number, signals it and reaps it. -/

namespace CallbackBridge

/-! ### Exits -/

namespace HelperExit

/-- The exit status of a child whose program could not be executed. -/
def execFailedStatus : Int32 := 127

/-- The program could not be executed. -/
def isExecFailure : HelperExit → Bool
  | .exited code => code = execFailedStatus
  | .signaled _ => false

/-- How an exit is written in messages. -/
def text : HelperExit → String
  | .exited code => s!"Exited({Text.Decimal.ofInt code.toInt})"
  | .signaled signal => s!"Signaled({Text.Decimal.ofInt signal.toInt})"

/-- How a possible exit is written in messages. -/
def optionText : Option HelperExit → String
  | none => "None"
  | some exit => s!"Some({exit.text})"

end HelperExit

/-! ### Errors -/

/-- The text of a refusal by the operating system. -/
def SystemError.message : SystemError → String
  | .noSuchProcess => "No such process (os error 3)"
  | .noChild => "No child processes (os error 10)"

/-- Why a request about a process failed. -/
inductive ProcessError where
  /-- The process number is not above zero. -/
  | invalidInput
  | system (error : SystemError)
  deriving DecidableEq, Repr

/-- The text of an error. -/
def ProcessError.message : ProcessError → String
  | .invalidInput => "invalid input parameter"
  | .system e => e.message

/-! ### Launching -/

/-- A helper that was launched. -/
structure HelperProcess where
  /-- Its process number. -/
  pid : Pid
  /-- The program and the arguments that it was started with. -/
  argv : List String
  deriving DecidableEq

namespace Helper

/-- The argument vector as foreign strings. -/
def foreignArgv : List String → Except LaunchError (List CString)
  | [] => .ok []
  | argument :: rest =>
    match CString.ofText? argument with
    | none => .error (.interiorNul .argument)
    | some s => (foreignArgv rest).map (s :: ·)

/-- Starts a helper. -/
def launch (config : HelperConfig) : Operation (Except LaunchError HelperProcess) := do
  match config.fault? with
  | some e => pure (.error e)
  | none =>
    match foreignArgv config.argv with
    | .error e => pure (.error e)
    | .ok argv =>
      let pointers := CString.pointers argv
      let pid ← Operation.call (.system (.spawn (pointers.headD none) pointers))
      let number := Text.Decimal.ofInt pid.number.toInt
      Log.info s!"launched helper pid={number}: {config.commandLine}"
      pure (.ok ⟨pid, config.argv⟩)

/-! ### Signals and exits -/

/-- Asks a process to end. -/
def terminateSignal : Int32 := 15

/-- Ends a process. -/
def killSignal : Int32 := 9

/-- Sends a signal to a helper. -/
def send (pid signal : Int32) : Operation (Except ProcessError Unit) := do
  if pid ≤ 0 then
    pure (.error .invalidInput)
  else
    match ← Operation.call (.system (.signal pid signal)) with
    | .error e => pure (.error (.system e))
    | .ok () =>
      let signal := Text.Decimal.ofInt signal.toInt
      let pid := Text.Decimal.ofInt pid.toInt
      Log.breadcrumb .process s!"sent signal {signal} to helper pid={pid}"
      pure (.ok ())

/-- Asks a helper to exit. -/
def terminate (pid : Int32) : Operation (Except ProcessError Unit) :=
  send pid terminateSignal

/-- Kills a helper. -/
def forceKill (pid : Int32) : Operation (Except ProcessError Unit) :=
  send pid killSignal

/-- Checks, without waiting, whether a helper has ended, and reaps it if so. -/
def poll (pid : Int32) : Operation (Except ProcessError (Option HelperExit)) := do
  if pid ≤ 0 then
    pure (.error .invalidInput)
  else
    match ← Operation.call (.system (.wait pid)) with
    | .error e => pure (.error (.system e))
    | .ok none => pure (.ok none)
    | .ok (some exit) =>
      let pid := Text.Decimal.ofInt pid.toInt
      Log.breadcrumb .process s!"helper pid={pid} exited: {exit.text}"
      pure (.ok (some exit))

end Helper

end CallbackBridge
