import CallbackBridge.Foreign.Call
import CallbackBridge.Foreign.Methods
import CallbackBridge.Counters
import CallbackBridge.Log.Limiter
import CallbackBridge.Registry.Table

/-! # Operations that call foreign code

    An operation of the bridge is a finite tree.  Each node is a call to
    foreign code and carries the state at that moment; each branch continues
    with the reply and with the state as the foreign code leaves it, since a
    host or an engine may run further operations before it replies.

    Key ideas:

    1. `Progress` is the tree, `Operation` adds the calling thread, and both
       are written with `do`.
    2. `Progress.run` gives the foreign code a behaviour: a function from the
       call, the state and the surroundings to the reply and what both become.
       The tree is finite, so a run ends whatever the foreign code does.
    3. No lock is held over a call: all that a call can change is the state
       that it is handed, and all of it can change. -/

namespace CallbackBridge

/-! ### State -/

/-- The engine that a bridge was built over. -/
inductive Engine where
  /-- Foreign code behind the engine interface. -/
  | external
  /-- Stands in where no engine is linked. -/
  | absent
  /-- The library, reached through its own interface. -/
  | linked
  deriving DecidableEq, Repr

/-- The functions that an engine calls back through. -/
structure CallbackTable where
  /-- The table's context leads to the dispatcher; it is null otherwise. -/
  connected : Bool
  deriving DecidableEq, Repr

/-- The slot of the event listener. -/
structure ListenerSlot where
  /-- The listener that the engine holds, released when another one follows. -/
  current : Option HandleId
  /-- A listener is being set, and the slot has not been switched yet. -/
  locked : Bool
  deriving DecidableEq, Repr

/-- No listener has been set. -/
def ListenerSlot.empty : ListenerSlot := ⟨none, false⟩

/-- All that a process keeps between operations. -/
structure State where
  /-- The log sink. -/
  logger : Log.Logger
  /-- The limiter of error lines. -/
  limiter : Log.Limiter
  /-- The table of registrations. -/
  registry : Registry
  /-- What was counted. -/
  counters : Counters
  /-- The engine of the bridge. -/
  engine : Engine
  /-- The slot of the event listener. -/
  listener : ListenerSlot
  /-- The table that the library calls back through; the first one stays. -/
  libraryTable : Option CallbackTable
  /-- How the first initialisation of the process-wide bridge ended. -/
  startup : Option (Except InitError Unit)

/-- The state of a fresh process. -/
def State.initial (processId : Nat) : State where
  logger := .initial processId
  limiter := .perSecond
  registry := .new .keepAttached 0
  counters := .zero
  engine := .absent
  listener := .empty
  libraryTable := none
  startup := none

/-! ### Progress -/

/-- How far an operation has come: finished, or in a call to foreign code. -/
inductive Progress (α : Type) where
  /-- The result and the state in which the operation leaves the process. -/
  | finished (result : α) (state : State)
  /-- A call, the state at its start, and how to go on. -/
  | calling (call : Call) (state : State) (resume : call.Reply → State → Progress α)

namespace Progress

variable {α β : Type}

/-- Goes on with `next` where `p` finishes. -/
def bind : Progress α → (α → State → Progress β) → Progress β
  | .finished a s, next => next a s
  | .calling c s resume, next => .calling c s fun reply s' => (resume reply s').bind next

/-- Runs to the end.  The behaviour of the foreign code answers each call,
    and may change the state and its own surroundings before it does. -/
def run {ε : Type} (behaviour : (c : Call) → State → ε → c.Reply × State × ε) :
    Progress α → ε → α × State × ε
  | .finished a s, e => (a, s, e)
  | .calling c s resume, e =>
    let (reply, s', e') := behaviour c s e
    (resume reply s').run behaviour e'

@[simp] theorem bind_finished (p : Progress α) : p.bind .finished = p := by
  induction p with
  | finished => rfl
  | calling c s resume ih => simp [bind, ih]

theorem bind_assoc {γ : Type} (p : Progress α) (f : α → State → Progress β)
    (g : β → State → Progress γ) :
    (p.bind f).bind g = p.bind fun a s => (f a s).bind g := by
  induction p with
  | finished => rfl
  | calling c s resume ih => simp [bind, ih]

/-- A run of a sequence is the run of its parts. -/
theorem run_bind {ε : Type} (behaviour : (c : Call) → State → ε → c.Reply × State × ε)
    (p : Progress α) (next : α → State → Progress β) (e : ε) :
    (p.bind next).run behaviour e =
      let (a, s, e') := p.run behaviour e
      (next a s).run behaviour e' := by
  induction p generalizing e with
  | finished => rfl
  | calling c s resume ih => simp [bind, run, ih]

end Progress

/-! ### Operations -/

/-- An operation of the bridge, started on a thread in a state. -/
def Operation (α : Type) : Type :=
  Thread → State → Progress α

namespace Operation

variable {α β : Type}

instance : Monad Operation where
  pure a := fun _ s => .finished a s
  bind m f := fun t s => (m t s).bind fun a s' => f a t s'

/-- Calls foreign code. -/
def call (c : Call) : Operation c.Reply :=
  fun _ s => .calling c s .finished

/-- The state. -/
def state : Operation State :=
  fun _ s => .finished s s

/-- Changes the state. -/
def modify (f : State → State) : Operation Unit :=
  fun _ s => .finished () (f s)

/-- Changes the state and yields a value. -/
def modifyGet (f : State → α × State) : Operation α :=
  fun _ s => .finished (f s).1 (f s).2

/-- The thread that runs the operation. -/
def thread : Operation Thread :=
  fun t s => .finished t s

/-! ### Laws -/

@[simp] theorem pure_apply (a : α) (t : Thread) (s : State) :
    (pure a : Operation α) t s = .finished a s := rfl

@[simp] theorem bind_apply (m : Operation α) (f : α → Operation β) (t : Thread) (s : State) :
    (m >>= f) t s = (m t s).bind fun a s' => f a t s' := rfl

@[simp] theorem map_apply (f : α → β) (m : Operation α) (t : Thread) (s : State) :
    (f <$> m) t s = (m t s).bind fun a s' => .finished (f a) s' := rfl

@[simp] theorem call_apply (c : Call) (t : Thread) (s : State) :
    call c t s = .calling c s .finished := rfl

@[simp] theorem state_apply (t : Thread) (s : State) : state t s = .finished s s := rfl

@[simp] theorem modify_apply (f : State → State) (t : Thread) (s : State) :
    modify f t s = .finished () (f s) := rfl

@[simp] theorem modifyGet_apply (f : State → α × State) (t : Thread) (s : State) :
    modifyGet f t s = .finished (f s).1 (f s).2 := rfl

@[simp] theorem thread_apply (t : Thread) (s : State) : thread t s = .finished t s := rfl

instance : LawfulMonad Operation :=
  LawfulMonad.mk' Operation
    (fun _ => by funext t s; exact Progress.bind_finished _)
    (fun _ _ => rfl)
    (fun _ _ _ => by funext t s; exact Progress.bind_assoc ..)

end Operation

end CallbackBridge
