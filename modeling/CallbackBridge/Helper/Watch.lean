import CallbackBridge.Helper.Monitor

/-! # Monitors at work

    A monitor works on a thread of its own, and nobody waits for it.  While it
    polls, children end, requests use the bridge, and the monitor itself may be
    stopped.

    Key ideas:

    1. A tick is taken apart into its calls.  Between any two of them, before the
       first one and after the last one, something else may happen.
    2. Where the monitor waits for its next tick is the only point at which it
       can be given up.  So a stop that comes while it waits takes effect at
       once; one that comes later takes effect when the monitor waits again.
       Until then it goes on as if nothing had happened.
    3. Ticks that were missed are made up for, so the next one may be due before
       the monitor waits again.
    4. What happens is a list of turns, and the turns decide what comes of it.  A
       turn that cannot be taken changes nothing. -/

namespace CallbackBridge.Monitor

/-! ### Polls -/

/-- A poll. -/
structure Poll where
  /-- The number that was waited for. -/
  pid : Int32
  reply : Except SystemError (Option HelperExit)

/-- The poll that a call makes, if it makes one. -/
def Poll.ofCall? : (call : Call) → call.Reply → Option Poll
  | .system (.wait pid), reply => some ⟨pid, reply⟩
  | _, _ => none

/-! ### Ticks -/

/-- A tick in progress. -/
structure Search (ε : Type) where
  /-- The surroundings in which it began. -/
  before : ε
  /-- The polls so far, first one first. -/
  polls : List Poll
  /-- The surroundings by now. -/
  around : ε
  /-- What is left to do. -/
  rest : Progress (Option HelperDeath)

/-- A tick that is over. -/
structure Tick (ε : Type) where
  /-- The surroundings in which it began. -/
  before : ε
  /-- The polls, first one first. -/
  polls : List Poll
  report : Option HelperDeath
  /-- The surroundings that it left. -/
  after : ε

/-- What a monitor is doing. -/
inductive Phase (ε : Type) where
  /-- It waits for a tick, if any is still to come. -/
  | waits
  /-- It is in the midst of a tick. -/
  | searches (search : Search ε)
  /-- A tick is over, and it has not waited since. -/
  | looks

/-- A monitor and what it has done. -/
structure Watch (ε : Type) where
  monitor : Monitor
  phase : Phase ε
  /-- The ticks that are over, first one first. -/
  past : List (Tick ε)

/-- What happens to a monitor. -/
inductive Turn (ε : Type) where
  /-- A tick is due, in a state and in surroundings that the time since the last
      one has brought. -/
  | tick (thread : Thread) (s : State) (e : ε)
  /-- The tick in progress goes on. -/
  | goOn
  /-- No tick is due. -/
  | wait
  /-- The monitor is stopped. -/
  | stop

namespace Watch

variable {ε : Type}

/-- A monitor that has not done anything. -/
def fresh (m : Monitor) : Watch ε := ⟨m, .waits, []⟩

/-- A tick begins. -/
def begin (w : Watch ε) (thread : Thread) (s : State) (e : ε) : Watch ε :=
  { w with phase := .searches ⟨e, [], e, w.monitor.search thread s⟩ }

/-- A tick is over.  A monitor that has reported is done. -/
def close (w : Watch ε) (t : Tick ε) : Watch ε where
  monitor := w.monitor.settle t.report
  phase := if t.report.isNone then .looks else .waits
  past := w.past ++ [t]

/-- Goes on with the tick in progress, to its next call or to its end. -/
def proceed (w : Watch ε) (behaviour : (call : Call) → State → ε → call.Reply × State × ε)
    (t : Search ε) : Watch ε :=
  match t.rest with
  | .finished report _ => w.close ⟨t.before, t.polls, report, t.around⟩
  | .calling call s resume =>
    let (reply, s', around) := behaviour call s t.around
    let polls := t.polls ++ (Poll.ofCall? call reply).toList
    { w with phase := .searches ⟨t.before, polls, around, resume reply s'⟩ }

/-- What becomes of a monitor in a turn. -/
def turn (w : Watch ε) (behaviour : (call : Call) → State → ε → call.Reply × State × ε) :
    Turn ε → Watch ε
  | .tick thread s e =>
    match w.phase with
    | .waits => if w.monitor.running then w.begin thread s e else w
    | .searches _ => w
    | .looks => w.begin thread s e
  | .goOn =>
    match w.phase with
    | .searches t => w.proceed behaviour t
    | .waits | .looks => w
  | .wait =>
    match w.phase with
    | .looks => { w with phase := .waits }
    | .waits | .searches _ => w
  | .stop => { w with monitor := w.monitor.stop }

/-- What becomes of a monitor in some turns, first one first. -/
def live (w : Watch ε) (behaviour : (call : Call) → State → ε → call.Reply × State × ε) :
    List (Turn ε) → Watch ε
  | [] => w
  | turn :: rest => (w.turn behaviour turn).live behaviour rest

/-- Every death that it has reported, first one first. -/
def reports (w : Watch ε) : List HelperDeath :=
  w.past.filterMap (·.report)

/-- The polls of the tick in progress, if there is one. -/
def polling (w : Watch ε) : List Poll :=
  match w.phase with
  | .searches t => t.polls
  | .waits | .looks => []

/-- Every poll that it has made, first one first. -/
def polls (w : Watch ε) : List Poll :=
  w.past.flatMap (·.polls) ++ w.polling

/-- It has reported, or was stopped, and has waited since. -/
def Over (w : Watch ε) : Prop :=
  w.monitor.running = false ∧ w.phase = .waits

end Watch

end CallbackBridge.Monitor
