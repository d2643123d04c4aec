import CallbackBridge.Attachment

/-! # Operations on the registry

    Key ideas:

    1. `register` pins an object and lists it under a fresh id.  Room is
       checked twice, since the host may register further objects while it
       pins this one.
    2. `look` and `giveBack` bracket the use of a registration: a loan keeps
       the object pinned even if its id is released meanwhile.
    3. Each object is unpinned when its last reference goes, and only then.
    4. Releasing an id twice is a counted no-op. -/

namespace CallbackBridge

/-- Adds one to a counter. -/
def bump (c : Counter) : Operation Unit :=
  Operation.modify fun s => { s with counters := s.counters.bump c }

namespace Registry

/-! ### References -/

/-- Unpins an object whose last reference is gone.  Where the host refuses to
    attach the thread, the object stays pinned for good. -/
def unpin (object : HostObject) : Operation Unit := do
  let s ← Operation.state
  match ← onHostThread s.registry.policy (Operation.call (.host (.unpin object))) with
  | .ok () => pure ()
  | .error e =>
    bump .attachFailures
    let _ ← Log.limitedError .attachFailure
      s!"leaking host reference {Text.Decimal.hex object.address.toNat}: {e.message}"
    pure ()

/-- Gives back a loan of `id`. -/
def giveBack (id : HandleId) : Operation Unit := do
  let last ← Operation.modifyGet fun s =>
    let (last, registry) := s.registry.returnLoan id
    (last, { s with registry })
  match last with
  | none => pure ()
  | some object => unpin object

/-- Looks up a listed id and takes a loan of it. -/
def look (id : HandleId) : Operation (Except HandleError Registration) := do
  if id.isNull then
    pure (.error .null)
  else
    let found ← Operation.modifyGet fun s =>
      match s.registry.listed? id with
      | none => (none, s)
      | some e => (some e, { s with registry := s.registry.lend id })
    match found with
    | some e => pure (.ok e)
    | none =>
      bump .staleLookups
      pure (.error (.released id))

/-- Claims the one result of `id`.  True exactly once for each registration. -/
def claim (id : HandleId) : Operation Bool :=
  Operation.modifyGet fun s =>
    match s.registry.find? id with
    | none => (false, s)
    | some e => (!e.delivered, { s with registry := s.registry.markDelivered id })

/-! ### Registering -/

/-- Pins an object for a new registration. -/
def pin (object : HostObject) : Operation (Except HandleError HostObject) := do
  let s ← Operation.state
  match ← onHostThread s.registry.policy (Operation.call (.host (.pin object))) with
  | .ok (some pinned) => pure (.ok pinned)
  | .ok none => pure (.error .pinFailed)
  | .error e =>
    bump .attachFailures
    Log.warn s!"register: {e.message}"
    pure (.error .pinFailed)

/-- Registers an object. -/
def register (object : HostObject) (kind : HandleKind) :
    Operation (Except HandleError Handle) := do
  let s ← Operation.state
  if s.registry.atCapacity then
    pure (.error (.capacityExceeded s.registry.capacity))
  else
    match ← pin object with
    | .error e => pure (.error e)
    | .ok pinned =>
      let listed ← Operation.modifyGet fun s =>
        let (listed, registry) := s.registry.enlist pinned kind
        (listed, { s with registry })
      match listed with
      | .error e =>
        unpin pinned
        pure (.error e)
      | .ok id =>
        bump .handlesRegistered
        Log.breadcrumb .handle s!"registered {kind.name} handle {id.text}"
        pure (.ok ⟨id, kind⟩)

/-! ### Releasing -/

/-- Takes `id` out of the table.  False where the table does not list it. -/
def take (id : HandleId) : Operation Bool := do
  let found ← Operation.modifyGet fun s =>
    match s.registry.listed? id with
    | none => (none, s)
    | some e => (some e, { s with registry := s.registry.delist id })
  match found with
  | none => pure false
  | some e =>
    bump .handlesReleased
    Log.breadcrumb .handle s!"released {e.kind.name} handle {id.text}"
    giveBack id
    pure true

/-- Takes `id` out of the table, and counts it where that fails. -/
def remove (id : HandleId) : Operation Bool := do
  if ← take id then
    pure true
  else
    bump .duplicateReleases
    let _ ← Log.limitedError .duplicateRelease
      s!"ignoring release of unknown handle {id.text}"
    pure false

/-- Releases a registration for its owner. -/
def release (handle : Handle) : Operation Unit := do
  if ← remove handle.id then
    pure ()
  else
    Log.warn s!"release: handle {handle.id.text} was already released raw"

/-- Releases an id that came back from outside.  The null handle is ignored. -/
def releaseRaw (id : HandleId) : Operation Bool :=
  if id.isNull then pure false else remove id

/-- Releases an id that the engine may have released on its own, as it does
    for a listener that was replaced.  A miss is expected and not counted. -/
def releaseIfPresent (id : HandleId) : Operation Bool := do
  if id.isNull then
    pure false
  else if ← take id then
    pure true
  else
    Log.breadcrumb .handle s!"handle {id.text} was already released by the engine"
    pure false

/-! ### The end of a registry -/

/-- Unpins the objects of a list, first one first. -/
def unpinAll : List HostObject → Operation Unit
  | [] => pure ()
  | object :: rest => do
    unpin object
    unpinAll rest

/-- Drops the table.  Objects on loan stay pinned until they are given back. -/
def close : Operation Unit := do
  let free ← Operation.modifyGet fun s =>
    let (free, registry) := s.registry.clear
    (free, { s with registry })
  unpinAll free

end Registry

end CallbackBridge
