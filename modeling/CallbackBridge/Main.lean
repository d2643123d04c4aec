import CallbackBridge.Scenario.Session

/-! # The program

    Runs the command line against the scripted operating system and prints
    what that run leaves behind. -/

open CallbackBridge

def main (arguments : List String) : IO UInt32 := do
  let console := Scenario.runCommandLine arguments
  for (stream, line) in console.printed do
    match stream with
    | .output => IO.println line
    | .errors => IO.eprintln line
  pure ((console.code.map (·.toUInt32)).getD 0)
