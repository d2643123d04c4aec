import CallbackBridge.Foreign.Call
import CallbackBridge.Scenario.Signals
import CallbackBridge.Text.Decimal

/-! # Scripted sessions: child processes

    A small operating system for helpers.  A child's program and arguments
    decide at once how it ends, or that it sleeps or is suspended until a
    signal ends it.  A child that has ended can be waited for once. -/

namespace CallbackBridge.Scenario

/-- What a child does from its start on. -/
inductive Fate where
  /-- It ends on its own. -/
  | ends (exit : HelperExit)
  /-- It lives until a signal ends it. -/
  | sleeps
  /-- It is suspended and lives until the kill signal ends it. -/
  | suspended
  deriving DecidableEq, Repr

/-- The state of a child. -/
inductive ChildState where
  | running
  | suspended
  /-- It has ended and nobody has waited for it. -/
  | ended (exit : HelperExit)
  /-- It has been waited for. -/
  | reaped
  deriving DecidableEq, Repr

/-- A child process. -/
structure Child where
  pid : Pid
  argv : List CString
  state : ChildState
  deriving DecidableEq

/-- The child processes. -/
structure Children where
  /-- The children, newest first. -/
  list : List Child
  /-- Numbers of other processes, which no child gets. -/
  foreign : List Int32
  deriving DecidableEq

namespace Children

/-- No children yet, beside some other processes. -/
def beside (foreign : List Int32) : Children := ⟨[], foreign⟩

/-! ### Programs -/

/-- The program that stands in for a helper. -/
def standIn : String := "@helper"

/-- What follows a word such as `exit:`. -/
def after? (word : String) (text : String) : Option (List Char) :=
  if text.startsWith word then some (text.toList.drop word.length) else none

/-- The exit for an order to exit with a status.  A status that is no number,
    or too large for one, is an error of its own. -/
def exitOrdered (status : List Char) : HelperExit :=
  match Text.Decimal.natural? status with
  | some n => if n < 0x80000000 then .exited (Int32.ofNat (n % 256)) else .exited 2
  | none => .exited 2

/-- What becomes of a child that sends itself a signal and then sleeps. -/
def signalOrdered (n : Nat) : Fate :=
  match Signals.effect n with
  | .ends => .ends (.signaled (Int32.ofNat n))
  | .suspends => .suspended
  | .passes => .sleeps

/-- What the stand-in does, which its fourth argument tells. -/
def standInFate (order : String) : Fate :=
  match after? "exit:" order with
  | some status => .ends (exitOrdered status)
  | none =>
    match (after? "kill:" order).bind Signals.number? with
    | some n => signalOrdered n
    | none => if order = "dump" then .ends (.exited 0) else .sleeps

/-- Programs that can be executed, each with the status in which it ends when
    it is given the flags of a helper. -/
def programs : List (String × Int32) :=
  [("true", 0), ("echo", 0), ("false", 1), ("cat", 1), ("sleep", 1), ("ls", 2), ("sh", 2)]

/-- The size of the longest argument that a program can be given, in bytes. -/
def longestArgument : Nat := 131071

/-- The exit of a child whose program cannot be executed. -/
def notExecuted : Fate := .ends (.exited 127)

/-- The program and its arguments are not too long to be handed over. -/
def fits (argv : List CString) : Bool :=
  argv.all (·.bytes.size ≤ longestArgument)

/-- What a child with a program and arguments does. -/
def fate (argv : List CString) : Fate :=
  if fits argv then
    match argv.map CString.lossy with
    | [] => notExecuted
    | program :: arguments =>
      if program = standIn then standInFate (arguments.getD 3 "")
      else
        let named := programs.find? fun (name, _) =>
          program = s!"/bin/{name}" ∨ program = s!"/usr/bin/{name}"
        (named.map fun (_, status) => Fate.ends (.exited status)).getD notExecuted
  else notExecuted

/-! ### Requests -/

/-- The number that is `n` above the first one that a child may get. -/
def numberAt? (n : Nat) : Option Pid :=
  let number := Int32.ofNat (5001 + n)
  if h : 0 < number then some ⟨number, h⟩ else none

/-- The number of the next child: the first one that is not taken.  Among one
    more than are taken there is one. -/
def nextPid (c : Children) : Pid :=
  let taken := c.foreign ++ c.list.map (·.pid.number)
  let candidates := (List.range (taken.length + 1)).filterMap numberAt?
  (candidates.find? (·.number ∉ taken)).getD ⟨1, by decide⟩

/-- Starts a child. -/
def spawn (c : Children) (argv : List CString) : Pid × Children :=
  let pid := c.nextPid
  let state := match fate argv with
    | .ends exit => ChildState.ended exit
    | .sleeps => .running
    | .suspended => .suspended
  (pid, { c with list := ⟨pid, argv, state⟩ :: c.list })

/-- The child with a number. -/
def find? (c : Children) (pid : Int32) : Option Child :=
  c.list.find? (·.pid.number = pid)

/-- Functional update of the state of a child. -/
def setState (c : Children) (pid : Int32) (state : ChildState) : Children :=
  { c with
    list := c.list.map fun child =>
      if child.pid.number = pid then { child with state } else child }

/-- Sends a signal.  A child that has ended takes no notice of it, and one that
    is suspended notices only the kill signal. -/
def signal (c : Children) (pid signal : Int32) : Except SystemError Unit × Children :=
  match c.find? pid with
  | none => (.error .noSuchProcess, c)
  | some child =>
    match child.state with
    | .running => (.ok (), c.setState pid (.ended (.signaled signal)))
    | .suspended =>
      if signal = Signals.kill then (.ok (), c.setState pid (.ended (.signaled signal)))
      else (.ok (), c)
    | .ended _ => (.ok (), c)
    | .reaped => (.error .noSuchProcess, c)

/-- Waits, without blocking, for a child. -/
def wait (c : Children) (pid : Int32) : Except SystemError (Option HelperExit) × Children :=
  match c.find? pid with
  | none => (.error .noChild, c)
  | some child =>
    match child.state with
    | .running | .suspended => (.ok none, c)
    | .ended exit => (.ok (some exit), c.setState pid .reaped)
    | .reaped => (.error .noChild, c)

/-- What a child that was told to recorded: its arguments. -/
def recorded? (c : Children) (pid : Int32) : Option (List CString) :=
  match c.find? pid with
  | none => none
  | some child =>
    match child.argv with
    | [] => none
    | program :: arguments =>
      if fits child.argv ∧ program.lossy = standIn
          ∧ (arguments.map CString.lossy)[3]? = some "dump" then
        some arguments
      else none

end Children

end CallbackBridge.Scenario
