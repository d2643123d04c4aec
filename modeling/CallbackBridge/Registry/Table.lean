import CallbackBridge.Foreign.Call

/-! # The table of registrations

    A registration ties an id to a pinned host object.  Its references are
    the table itself, while the id is listed, and the loans: looked-up
    references that are still in use.  The object has to be unpinned when the
    last reference goes, so a registration stays here, delisted, for as long
    as a loan is out.

    Key ideas:

    1. `listed?` is what the outside world sees; `find?` also sees delisted
       registrations that are on loan.
    2. Ids come from a counter that only rises and stops below its limit.
    3. `returnLoan` hands out the object to unpin with the last reference. -/

namespace CallbackBridge

/-- Whether threads that the bridge attached are detached again. -/
inductive DetachPolicy where
  /-- Threads stay attached; the engine's workers live long. -/
  | keepAttached
  /-- A thread is detached by whoever attached it. -/
  | detachOnExit
  deriving DecidableEq, Repr

namespace DetachPolicy

/-- The policy that an option asks for. -/
def ofFlag (detachAfterCallback : Bool) : DetachPolicy :=
  if detachAfterCallback then .detachOnExit else .keepAttached

/-- The name of a policy in messages. -/
def name : DetachPolicy → String
  | .keepAttached => "KeepAttached"
  | .detachOnExit => "DetachOnExit"

end DetachPolicy

/-! ### State -/

/-- A pinned host object and the references to it. -/
structure Registration where
  /-- The id it was registered under. -/
  id : HandleId
  /-- The pinned reference. -/
  object : HostObject
  /-- What it may be used for. -/
  kind : HandleKind
  /-- Its one result has been claimed. -/
  delivered : Bool
  /-- The table still lists the id. -/
  listed : Bool
  /-- Looked-up references that are still in use. -/
  loans : Nat
  deriving DecidableEq

/-- A fresh registration: listed, not on loan, nothing delivered. -/
def Registration.fresh (id : HandleId) (object : HostObject) (kind : HandleKind) : Registration :=
  ⟨id, object, kind, false, true, 0⟩

/-- The state of the registry. -/
structure Registry where
  /-- What happens to threads that the bridge attaches. -/
  policy : DetachPolicy
  /-- Most ids that may be listed; 0 means any number. -/
  capacity : UInt64
  /-- The next id to issue. -/
  nextId : UInt64
  /-- Listed registrations, and delisted ones that are on loan. -/
  entries : List Registration
  deriving DecidableEq

namespace Registry

/-- An empty registry, which issues 1 first. -/
def new (policy : DetachPolicy) (capacity : UInt64) : Registry :=
  ⟨policy, capacity, 1, []⟩

/-! ### Views -/

/-- The registration of `id`, listed or on loan. -/
def find? (r : Registry) (id : HandleId) : Option Registration :=
  r.entries.find? (·.id = id)

/-- The registration that the table lists under `id`. -/
def listed? (r : Registry) (id : HandleId) : Option Registration :=
  r.entries.find? fun e => e.id = id && e.listed

/-- The table lists `id`. -/
def contains (r : Registry) (id : HandleId) : Bool :=
  (r.listed? id).isSome

/-- The registrations that the table lists. -/
def table (r : Registry) : List Registration :=
  r.entries.filter (·.listed)

/-- How many ids the table lists. -/
def size (r : Registry) : Nat :=
  r.table.length

/-- The table has no room for another id. -/
def atCapacity (r : Registry) : Bool :=
  r.capacity ≠ 0 && r.capacity.toNat ≤ r.size

/-! ### Updates -/

/-- Functional update of the registration of `id`. -/
def update (r : Registry) (id : HandleId) (f : Registration → Registration) : Registry :=
  { r with entries := r.entries.map fun e => if e.id = id then f e else e }

/-- Issues the next id, unless it would reach the limit. -/
def issue? (r : Registry) : Option (HandleId × Registry) :=
  if r.nextId < HandleId.limit then some (⟨r.nextId⟩, { r with nextId := r.nextId + 1 })
  else none

/-- Lists a new registration. -/
def insert (r : Registry) (e : Registration) : Registry :=
  { r with entries := e :: r.entries }

/-- Lists a pinned object under the next id, if there is room and an id. -/
def enlist (r : Registry) (object : HostObject) (kind : HandleKind) :
    Except HandleError HandleId × Registry :=
  if r.atCapacity then (.error (.capacityExceeded r.capacity), r)
  else match r.issue? with
    | none => (.error .idSpaceExhausted, r)
    | some (id, r) => (.ok id, r.insert (.fresh id object kind))

/-- Takes one more loan of `id`. -/
def lend (r : Registry) (id : HandleId) : Registry :=
  r.update id fun e => { e with loans := e.loans + 1 }

/-- Delists `id`.  The table's reference becomes a loan of whoever delists. -/
def delist (r : Registry) (id : HandleId) : Registry :=
  r.update id fun e => { e with listed := false, loans := e.loans + 1 }

/-- Marks the one result of `id` as claimed. -/
def markDelivered (r : Registry) (id : HandleId) : Registry :=
  r.update id fun e => { e with delivered := true }

/-- Gives back one loan of `id`.  With the last reference the registration
    goes, and its object is handed out to be unpinned. -/
def returnLoan (r : Registry) (id : HandleId) : Option HostObject × Registry :=
  match r.find? id with
  | none => (none, r)
  | some e =>
    if e.listed || 1 < e.loans then
      (none, r.update id fun e => { e with loans := e.loans - 1 })
    else
      (some e.object, { r with entries := r.entries.filter (·.id ≠ id) })

/-- Drops the table's own references.  Objects that are not on loan are handed
    out to be unpinned. -/
def clear (r : Registry) : List HostObject × Registry :=
  let (onLoan, free) := r.entries.partition (0 < ·.loans)
  (free.map (·.object), { r with entries := onLoan.map fun e => { e with listed := false } })

end Registry

end CallbackBridge
