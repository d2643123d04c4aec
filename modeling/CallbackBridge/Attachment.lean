import CallbackBridge.Log.Emit

/-! # Attachment of threads

    A thread has to be attached to the host while it calls it.  A guard keeps
    the current thread attached for its lifetime; when it is dropped it
    detaches the thread only if it did the attaching and the policy asks for
    that, so an inner guard never detaches the thread of an outer one. -/

namespace CallbackBridge

/-- Why a thread was not attached. -/
inductive AttachError where
  | refused (status : Int32)
  deriving DecidableEq, Repr

/-- The text of the error. -/
def AttachError.message : AttachError → String
  | .refused status =>
    s!"host runtime refused to attach the current thread (status {Text.Decimal.ofInt status.toInt})"

/-- How the host answered a request to attach. -/
inductive AttachState where
  /-- The thread was attached before. -/
  | attached
  /-- The request attached the thread. -/
  | newlyAttached
  deriving DecidableEq, Repr

/-- Reads the host's status: 0 was attached, 1 is attached now, anything else
    is a refusal. -/
def AttachState.ofStatus (status : Int32) : Except AttachError AttachState :=
  if status = 0 then .ok .attached
  else if status = 1 then .ok .newlyAttached
  else .error (.refused status)

/-- Keeps the current thread attached until it is dropped. -/
structure AttachGuard where
  /-- Dropping the guard detaches the thread. -/
  detachOnDrop : Bool
  deriving DecidableEq, Repr

namespace AttachGuard

/-- Attaches the current thread. -/
def acquire (policy : DetachPolicy) : Operation (Except AttachError AttachGuard) := do
  let status ← Operation.call (.host .attach)
  match AttachState.ofStatus status with
  | .error e => pure (.error e)
  | .ok .attached => pure (.ok ⟨false⟩)
  | .ok .newlyAttached =>
    let detachOnDrop : Bool := policy = .detachOnExit
    let thread ← Operation.thread
    Log.breadcrumb .attachment
      s!"attached thread {thread.text} (detach_on_drop={detachOnDrop})"
    pure (.ok ⟨detachOnDrop⟩)

/-- Ends the lifetime of a guard. -/
def drop (g : AttachGuard) : Operation Unit := do
  if g.detachOnDrop then
    Operation.call (.host .detach)
    let thread ← Operation.thread
    Log.breadcrumb .attachment s!"detached thread {thread.text}"

end AttachGuard

/-- Runs `body` while the current thread is attached to the host.  Where the
    host refuses to attach it, `body` does not run. -/
def onHostThread {α : Type} (policy : DetachPolicy) (body : Operation α) :
    Operation (Except AttachError α) := do
  match ← AttachGuard.acquire policy with
  | .error e => pure (.error e)
  | .ok guard =>
    let result ← body
    guard.drop
    pure (.ok result)

end CallbackBridge
