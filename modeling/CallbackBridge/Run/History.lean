import CallbackBridge.Request

/-! # Histories

    A history is what happened between the bridge and everything around it.
    Operations begin and end, and while one runs it calls foreign code, which
    replies.  Whatever happens between a call and its reply is nested in it.

    Key ideas:

    1. Operations are numbered in the order in which they begin, and each event
       carries the number of its operation, so calls are told apart however
       deep they are nested.
    2. Each moment keeps the state, so that a law may speak about the table at
       the time of a call.
    3. What the host has pinned and which threads are attached is read off the
       history; the bridge keeps no record of it. -/

namespace CallbackBridge.Run

/-! ### Moments -/

/-- What happens at a moment. -/
inductive Event where
  /-- An operation begins. -/
  | begins (op : Nat) (thread : Thread) (request : Request)
  /-- An operation calls foreign code. -/
  | calls (op : Nat) (thread : Thread) (call : Call)
  /-- Foreign code replies.  `lost` is the reference that stays pinned for good
      because of the reply. -/
  | replies (op : Nat) (thread : Thread) (call : Call) (reply : call.Reply)
      (lost : Option HostObject)
  /-- An operation ends. -/
  | ends (op : Nat) (thread : Thread) (request : Request) (result : request.Result)

/-- An event, and the state at that time. -/
structure Moment where
  event : Event
  state : State

/-- Moments, newest first. -/
abbrev History := List Moment

/-- An operation begins. -/
def Event.isBegin : Event → Bool
  | .begins .. => true
  | .calls .. | .replies .. | .ends .. => false

namespace History

/-- The number of operations that have begun, which is the number of the next
    one. -/
def begun (h : History) : Nat :=
  h.countP (·.event.isBegin)

/-- `p` holds of each moment together with what happened before it. -/
def Always (p : Moment → History → Prop) : History → Prop
  | [] => True
  | m :: before => p m before ∧ Always p before

instance Always.decidable {p : Moment → History → Prop} [∀ m before, Decidable (p m before)] :
    (h : History) → Decidable (Always p h)
  | [] => .isTrue trivial
  | m :: before =>
    have := Always.decidable (p := p) before
    inferInstanceAs (Decidable (p m before ∧ Always p before))

/-! ### The host -/

/-- The reference that the host hands out at an event. -/
def handedOut? : Event → Option HostObject
  | .replies _ _ (.host (.pin _)) reference _ => reference
  | _ => none

/-- The reference that a call asks the host to take back. -/
def unpinned? : Call → Option HostObject
  | .host (.unpin reference) => some reference
  | _ => none

/-- The reference that the host is asked to take back at an event. -/
def takenBack? : Event → Option HostObject
  | .calls _ _ call => unpinned? call
  | _ => none

/-- The reference that an event leaves pinned for good. -/
def lost? : Event → Option HostObject
  | .replies _ _ _ _ lost => lost
  | _ => none

/-- Every reference that the host has handed out, newest first. -/
def handedOut (h : History) : List HostObject :=
  h.filterMap (handedOut? ·.event)

/-- Every reference that the host was asked to take back, newest first. -/
def takenBack (h : History) : List HostObject :=
  h.filterMap (takenBack? ·.event)

/-- Every reference whose last use ended on a thread that the host refused to
    attach, newest first.  Such a reference stays pinned for good. -/
def lost (h : History) : List HostObject :=
  h.filterMap (lost? ·.event)

/-- The references that are pinned, newest first. -/
def pinned : History → List HostObject
  | [] => []
  | m :: before =>
    match handedOut? m.event, takenBack? m.event with
    | some reference, _ => reference :: pinned before
    | none, some reference => (pinned before).erase reference
    | none, none => pinned before

/-- The threads that are attached, where the host tells the truth and only the
    bridge detaches.  `first` lists those that were attached to begin with. -/
def attached (first : List Thread) : History → List Thread
  | [] => first
  | m :: before =>
    match m.event with
    | .replies _ thread (.host .attach) status _ =>
      match AttachState.ofStatus status with
      | .ok .newlyAttached => thread :: attached first before
      | .ok .attached | .error _ => attached first before
    | .calls _ thread (.host .detach) => (attached first before).filter (· ≠ thread)
    | _ => attached first before

/-- The host refuses to attach a thread. -/
def isRefusal : Event → Bool
  | .replies _ _ (.host .attach) status _ =>
    match AttachState.ofStatus status with
    | .ok _ => false
    | .error _ => true
  | _ => false

/-- How often the host has refused to attach a thread. -/
def refusals (h : History) : Nat :=
  h.countP (isRefusal ·.event)

/-- The pinned reference that a call is made on. -/
def target? : Call → Option HostObject
  | .host (.protect target _) | .host (.resolve target _) | .host (.onResult target _) =>
    some target
  | _ => none

/-! ### Callers -/

/-- The id of the loan that an event hands to a caller. -/
def lent? : Event → Option HandleId
  | .ends _ _ (.registry (.look id)) (.ok _) => some id
  | _ => none

/-- The id of the loan that a caller gives back at an event. -/
def returned? : Event → Option HandleId
  | .begins _ _ (.registry (.giveBack id)) => some id
  | _ => none

/-- The loans that callers hold, newest first. -/
def held : History → List HandleId
  | [] => []
  | m :: before =>
    match lent? m.event, returned? m.event with
    | some id, _ => id :: held before
    | none, some id => (held before).erase id
    | none, none => held before

/-- The handle that an event hands to a caller. -/
def owned? : Event → Option Handle
  | .ends _ _ (.registry (.register ..)) (.ok handle) => some handle
  | _ => none

/-- Every handle that callers got, newest first. -/
def owned (h : History) : List Handle :=
  h.filterMap (owned? ·.event)

end History

end CallbackBridge.Run
