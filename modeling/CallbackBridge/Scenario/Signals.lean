import CallbackBridge.Text.Decimal

/-! # Scripted sessions: signals

    The signals of the small operating system that children live in: their
    numbers, their names, and what one does to a process that has not asked
    for it. -/

namespace CallbackBridge.Scenario.Signals

/-- What a signal does to a process. -/
inductive Effect where
  /-- It ends the process. -/
  | ends
  /-- It suspends the process, which only the kill signal can end then. -/
  | suspends
  /-- The process takes no notice of it. -/
  | passes
  deriving DecidableEq, Repr

/-- The signal that ends every process. -/
def kill : Int32 := 9

/-- The largest number of a signal. -/
def last : Nat := 64

/-- The names of the standard signals, which are numbered from one on. -/
def names : List String :=
  ["HUP", "INT", "QUIT", "ILL", "TRAP", "ABRT", "BUS", "FPE", "KILL", "USR1", "SEGV", "USR2",
   "PIPE", "ALRM", "TERM", "STKFLT", "CHLD", "CONT", "STOP", "TSTP", "TTIN", "TTOU", "URG",
   "XCPU", "XFSZ", "VTALRM", "PROF", "WINCH", "IO", "PWR", "SYS"]

/-- The signals that go unnoticed: news of a child, a resumption, urgent data
    and a new window size, because that is what they do by default, and a
    broken pipe, because children are started with that signal ignored. -/
def unnoticed : List Nat := [13, 17, 18, 23, 28]

/-- The signals that suspend a process. -/
def suspending : List Nat := [19, 20, 21, 22]

/-- What the signal with a number does.  Zero only asks whether the process is
    there, and numbers beyond the last one are refused. -/
def effect (n : Nat) : Effect :=
  if n = 0 ∨ last < n ∨ n ∈ unnoticed then .passes
  else if n ∈ suspending then .suspends
  else .ends

/-- The number of the signal that a text stands for: a decimal number, or a
    name in letters of either case. -/
def number? (text : List Char) : Option Nat :=
  match Text.Decimal.natural? text with
  | some n => some n
  | none =>
    let name := String.ofList (text.map Char.toUpper)
    (names.findIdx? (· = name)).map (· + 1)

end CallbackBridge.Scenario.Signals
