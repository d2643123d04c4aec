import CallbackBridge.Scenario.Play
import CallbackBridge.CommandLine.Run

/-! # Scripted sessions: whole sessions

    A session answers for its set-up, for each step, and for its end, when
    everything that is still held is given back. -/

namespace CallbackBridge.Scenario

/-- What a session reports after its set-up and after a step. -/
structure Report where
  /-- What the step answered; nothing for the set-up. -/
  answer : Option Answer
  /-- What happened since the report before, oldest first. -/
  events : List Event
  /-- How many handles are registered, where there is a registry. -/
  size : Option Nat
  /-- The counters, where there is a registry. -/
  counters : Option Counters

/-- What a session reports of its end. -/
structure Ending where
  /-- The objects that were unpinned. -/
  unpinned : List UInt64
  /-- The objects that are still pinned. -/
  leaked : List UInt64
  counters : Option Counters

/-- The process number of the scripted process. -/
def processId : Nat := 5000

/-- The thread of set-up and ending, and of steps that name none. -/
def mainThread : Thread := ⟨"main"⟩

namespace Session

open Move

/-- Enough levels for the steps of a session. -/
def levels (s : Session) : Nat := depthOfAll s.steps

/-- The machine before the set-up.  Processes that steps name by their number
    are no children of the session. -/
def start (s : Session) : Machine :=
  ⟨.initial processId, .initial s.engineConfig s.answer (namedInAll s.steps)⟩

/-- Sets a session up. -/
def setUp (s : Session) : Operation Unit := do
  match s.sink with
  | none => pure ()
  | some (mask, level) =>
    let _ ← Log.install (some ⟨mask, true⟩) (some level)
  match s.layer with
  | .core => Operation.modify fun st =>
      { st with registry := .new (.ofFlag s.detach) (s.capacity.getD 0) }
  | .bridge engine =>
    let maxHandles := (s.capacity.map (·.toUInt32)).getD BridgeOptions.standard.maxHandles
    Bridge.create engine ⟨s.detach, maxHandles⟩
  | .entry => pure ()
  match s.layer, s.startId with
  | .entry, _ | _, none => pure ()
  | _, some id => Operation.modify fun st => { st with registry.nextId := id }

/-- Reports, and forgets the events that are reported. -/
def report (s : Session) (answer : Option Answer) : Move Report := do
  let m ← get
  onWorld fun w => { w with events := [] }
  let st := m.state
  let counted := hasRegistry s.layer st
  pure {
    answer
    events := m.world.events.reverse
    size := if counted then some st.registry.size else none
    counters := if counted then some st.counters else none }

/-- Gives back the loans that steps hold, newest first. -/
def dropLoans : List HandleId → Operation Unit
  | [] => pure ()
  | id :: rest => do
    Registry.giveBack id
    dropLoans rest

/-- Drops guards, newest first. -/
def dropGuards : List AttachGuard → Operation Unit
  | [] => pure ()
  | guard :: rest => do
    guard.drop
    dropGuards rest

/-- Ends a session. -/
def tearDown (w : World) : Operation Unit := do
  let _ ← Log.install none none
  dropGuards w.guards
  dropLoans w.held
  Registry.close

/-- The objects of the unpins among some events. -/
def unpinnedIn : List Event → List UInt64
  | [] => []
  | .unpin (some object) :: rest => object.address :: unpinnedIn rest
  | _ :: rest => unpinnedIn rest

/-- Sorts words. -/
def sorted (l : List UInt64) : List UInt64 :=
  l.mergeSort (· ≤ ·)

/-- Ends a session and reports that. -/
def finish (s : Session) (play : Player) : Move Ending := do
  onWorld fun w => { w with host.hooks := [], events := [] }
  let counted := hasRegistry s.layer (← get).state
  operate (respond play) mainThread (tearDown (← get).world)
  onBridgeOf .process (operate (respond play) mainThread Registry.close)
  let m ← get
  let pinned := m.world.host.pins.map (·.2.address)
  pure {
    unpinned := sorted (unpinnedIn m.world.events)
    leaked := sorted pinned.eraseDups
    counters := if counted then some m.state.counters else none }

/-- Plays the steps, with a report for each. -/
def playAll (s : Session) (play : Player) : List Step → Move (List Report)
  | [] => pure []
  | step :: rest => do
    let answer ← play step.thread step
    let first ← s.report (some answer)
    let others ← s.playAll play rest
    pure (first :: others)

/-- Plays a whole session. -/
def playSession (s : Session) : List Report × Ending :=
  let play := player s.layer s.levels
  let moves : Move (List Report × Ending) := do
    operate (respond play) mainThread s.setUp
    let first ← s.report none
    let others ← s.playAll play s.steps
    let ending ← s.finish play
    pure (first :: others, ending)
  (moves s.start).1

end Session

/-! ### The command line -/

/-- What a run of the command line leaves behind. -/
structure Console where
  /-- The exit code; nothing while the helper lives. -/
  code : Option UInt8
  /-- Printed lines, oldest first. -/
  printed : List (Stream × String)

/-- Runs the command line against the scripted operating system. -/
def runCommandLine (arguments : List String) : Console :=
  let world := World.initial .quiet .echo []
  let machine : Machine :=
    ⟨.initial processId, { world with printsLog := some CommandLine.logLine }⟩
  let play : Player := fun _ _ => pure .ok
  let (code, m) :=
    Move.operate (respond play) mainThread (CommandLine.run 1 arguments) machine
  ⟨code, m.world.printed.reverse⟩

end CallbackBridge.Scenario
