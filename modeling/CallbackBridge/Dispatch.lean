import CallbackBridge.Registry.Operations

/-! # Calls from the engine to host objects

    Four shapes of call reach a host object through its handle:

    1. `protect` and `notify` tell the object something and expect no answer.
    2. `resolveOwner` asks; whatever fails, the answer is the empty text, as
       the engine has no other way to learn of a failure.
    3. `deliverResult` hands over the one result of an invoke handle, or an
       event to a listener.

    Each call looks the handle up, checks its kind, attaches the thread, calls
    the host, gives the looked-up reference back, and only then counts and
    logs how it went. -/

namespace CallbackBridge

/-- Why a call did not reach its host object. -/
inductive DispatchError where
  | handle (error : HandleError)
  | attach (error : AttachError)
  | alreadyDelivered (id : HandleId)
  deriving DecidableEq, Repr

namespace DispatchError

/-- The text of an error. -/
def message : DispatchError → String
  | .handle e => e.message
  | .attach e => e.message
  | .alreadyDelivered id => s!"result already delivered for handle {id.text}"

/-- The category of the error line about a dropped call. -/
def category : DispatchError → Log.Category
  | .attach _ => .attachFailure
  | .alreadyDelivered _ => .duplicateResult
  | .handle _ => .staleHandle

end DispatchError

/-- The shape of a call, which names it in log lines. -/
inductive CallShape where
  | protect
  | event
  | query
  | result
  deriving DecidableEq, Repr

namespace CallShape

/-- The name of a shape in log lines. -/
def name : CallShape → String
  | .protect => "protect"
  | .event => "event"
  | .query => "resolve_process"
  | .result => "result"

/-- The kinds of handle that a shape takes. -/
def accepts : CallShape → HandleKind → Bool
  | .protect, .tunnel => true
  | .query, .tunnel => true
  | .event, .listener => true
  | .result, .invoke => true
  | .result, .listener => true
  | _, _ => false

end CallShape

namespace Dispatch

/-! ### Parts of a call -/

/-- Calls the host on an attached thread, and counts a refusal. -/
def attached {α : Type} (body : Operation α) : Operation (Except DispatchError α) := do
  let s ← Operation.state
  match ← onHostThread s.registry.policy body with
  | .ok a => pure (.ok a)
  | .error e =>
    bump .attachFailures
    pure (.error (.attach e))

/-- Runs `body` with the registration of `id`, which stays pinned until `body`
    is over. -/
def withTarget {α : Type} (shape : CallShape) (id : HandleId)
    (body : Registration → Operation (Except DispatchError α)) :
    Operation (Except DispatchError α) := do
  match ← Registry.look id with
  | .error e => pure (.error (.handle e))
  | .ok target =>
    if shape.accepts target.kind then
      let result ← body target
      Registry.giveBack id
      pure result
    else
      Registry.giveBack id
      pure (.error (.handle (.wrongKind id target.kind)))

/-- Counts and logs a call that did not reach its object. -/
def reportDrop (shape : CallShape) (id : HandleId) (e : DispatchError) : Operation Unit := do
  bump .callbacksDropped
  let _ ← Log.limitedError e.category s!"dropped {shape.name} for {id.text}: {e.message}"
  pure ()

/-- Counts and logs how a call went. -/
def settle (shape : CallShape) (id : HandleId) (result : Except DispatchError Unit) :
    Operation (Except DispatchError Unit) := do
  match result with
  | .ok () =>
    bump .callbacksDispatched
    Log.breadcrumb .dispatch s!"{shape.name} -> {id.text}"
  | .error e => reportDrop shape id e
  pure result

/-- Asks the host for an owner.  A string it answers is copied, and given back
    once that is done; one that is not valid UTF-8 is no answer. -/
def askOwner (target : HostObject) (query : OwnerQuery) : Operation (Option String) := do
  match ← Operation.call (.host (.resolve target query)) with
  | none => pure none
  | some text =>
    let copy ← Operation.call (.host (.readString text))
    Operation.call (.host (.freeString text))
    pure copy.text?

/-- Claims the one result of an invoke handle.  Other kinds take any number. -/
def claimResult (target : Registration) : Operation (Except DispatchError Unit) := do
  if target.kind = .invoke then
    if ← Registry.claim target.id then
      pure (.ok ())
    else
      bump .resultsRejected
      let _ ← Log.limitedError .duplicateResult
        s!"dropping second result for handle {target.id.text}"
      pure (.error (.alreadyDelivered target.id))
  else
    pure (.ok ())

/-! ### The calls -/

/-- Asks the host to exclude a descriptor from the tunnel.  The null handle is
    ignored. -/
def protect (id : HandleId) (fd : Int32) : Operation (Except DispatchError Unit) := do
  if id.isNull then
    pure (.ok ())
  else
    let result ← withTarget .protect id fun target =>
      attached (Operation.call (.host (.protect target.object fd)))
    settle .protect id result

/-- Hands an event to a listener.  The null handle swallows it. -/
def notify (id : HandleId) (payload : CString) : Operation (Except DispatchError Unit) := do
  if id.isNull then
    pure (.ok ())
  else
    let result ← withTarget .event id fun target =>
      attached (Operation.call (.host (.onResult target.object payload)))
    settle .event id result

/-- Names the owner of a connection; empty where that fails. -/
def resolveOwner (id : HandleId) (query : OwnerQuery) : Operation String := do
  let result ← withTarget .query id fun target =>
    attached (askOwner target.object query)
  match result with
  | .ok (some owner) =>
    bump .callbacksDispatched
    pure owner
  | .ok none =>
    bump .callbacksDispatched
    let uid := Text.Decimal.ofInt query.uid.toInt
    let _ ← Log.limitedError .queryFailure
      s!"resolve_process on {id.text}: host had no owner for uid {uid}"
    pure ""
  | .error e =>
    reportDrop .query id e
    pure ""

/-- Hands data to the callback behind `id`.  An invoke handle takes one result;
    the claim is made before the thread is attached.  The handle stays
    registered.  The null handle is ignored. -/
def deliverResult (id : HandleId) (data : CString) :
    Operation (Except DispatchError Unit) := do
  if id.isNull then
    pure (.ok ())
  else
    let result ← withTarget .result id fun target => do
      match ← claimResult target with
      | .error e => pure (.error e)
      | .ok () => attached (Operation.call (.host (.onResult target.object data)))
    settle .result id result

end Dispatch

end CallbackBridge
