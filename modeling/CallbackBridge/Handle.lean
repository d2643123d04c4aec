import CallbackBridge.Text.Decimal

/-! # Handles

    A handle stands for a host object that the bridge keeps pinned.  Outside
    the bridge a handle is a 64-bit word, its id; 0 is the null handle.  Ids
    are issued in rising order and never come back, so an id that has been
    released can always be told from one that is in use. -/

namespace CallbackBridge

/-! ### Ids -/

/-- The word that names a handle outside the bridge. -/
structure HandleId where
  /-- The raw word. -/
  raw : UInt64
  deriving DecidableEq, Repr, Inhabited

namespace HandleId

/-- The null handle. -/
def null : HandleId := ⟨0⟩

/-- The id is the null handle. -/
def isNull (id : HandleId) : Bool := id.raw = 0

/-- How an id is written in messages. -/
def text (id : HandleId) : String := s!"#{id.raw.toNat}"

/-- How an id is written where its type is shown too. -/
def debugText (id : HandleId) : String := s!"HandleId({id.raw.toNat})"

/-- Ids compare as their words do. -/
instance : Ord HandleId := ⟨fun a b => compare a.raw b.raw⟩

/-- Ids stay below this word, so that each fits a pointer. -/
def limit : UInt64 := 0xFFFFFFFFFFFFFFFF

theorem isNull_iff (id : HandleId) : id.isNull = true ↔ id = null := by
  cases id; simp [isNull, null]

end HandleId

/-! ### Kinds -/

/-- What a handle may be used for. -/
inductive HandleKind where
  /-- A tunnel interface: protects descriptors and names owners. -/
  | tunnel
  /-- The callback of one action: takes exactly one result. -/
  | invoke
  /-- An event listener: takes any number of events. -/
  | listener
  deriving DecidableEq, Repr, Inhabited

/-- The name of a kind in messages. -/
def HandleKind.name : HandleKind → String
  | .tunnel => "Tun"
  | .invoke => "Invoke"
  | .listener => "Listener"

/-! ### Owned handles -/

/-- A registration that has an owner inside the bridge. -/
structure Handle where
  /-- Its id. -/
  id : HandleId
  /-- What it may be used for. -/
  kind : HandleKind
  deriving DecidableEq, Repr

/-! ### Errors -/

/-- Why an operation on a handle failed. -/
inductive HandleError where
  /-- The null handle names nothing. -/
  | null
  /-- The id is not in the table. -/
  | released (id : HandleId)
  /-- The host did not pin the object. -/
  | pinFailed
  /-- The table holds as many handles as it may. -/
  | capacityExceeded (capacity : UInt64)
  /-- The handle has a kind that the operation does not take. -/
  | wrongKind (id : HandleId) (kind : HandleKind)
  /-- No id below the limit is left. -/
  | idSpaceExhausted
  deriving DecidableEq, Repr

/-- The text of an error. -/
def HandleError.message : HandleError → String
  | .null => "null handle"
  | .released id => s!"handle {id.text} was released or never registered"
  | .pinFailed => "host refused to pin the callback object"
  | .capacityExceeded capacity => s!"handle capacity of {capacity.toNat} reached"
  | .wrongKind id kind => s!"handle {id.text} is a {kind.name} handle"
  | .idSpaceExhausted => "handle ids no longer fit a pointer"

end CallbackBridge
