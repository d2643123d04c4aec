/-! # Breadcrumbs

    Detailed lines carry breadcrumbs: a set of areas of the bridge, kept as a
    32-bit word.  A word from outside may hold bits that name no area. -/

namespace CallbackBridge.Log

/-- An area of the bridge that leaves breadcrumbs. -/
inductive Area where
  | handle
  | attachment
  | dispatch
  | process
  | engine
  | boundary
  deriving DecidableEq, Repr

namespace Area

/-- Every area, lowest bit first. -/
def all : List Area :=
  [.handle, .attachment, .dispatch, .process, .engine, .boundary]

/-- The bit of an area. -/
def bit : Area → UInt32
  | .handle => 1
  | .attachment => 2
  | .dispatch => 4
  | .process => 8
  | .engine => 16
  | .boundary => 32

/-- The label of an area in a log line. -/
def label : Area → String
  | .handle => "HANDLE"
  | .attachment => "ATTACH"
  | .dispatch => "DISPATCH"
  | .process => "PROCESS"
  | .engine => "ENGINE"
  | .boundary => "FFI"

theorem mem_all (a : Area) : a ∈ all := by
  cases a <;> simp [all]

end Area

/-- A word of breadcrumb bits, known and unknown. -/
structure Breadcrumbs where
  /-- The raw word. -/
  bits : UInt32
  deriving DecidableEq, Repr

namespace Breadcrumbs

/-- No breadcrumbs: a plain line. -/
def plain : Breadcrumbs := ⟨0⟩

/-- The breadcrumbs of one area. -/
def of (a : Area) : Breadcrumbs := ⟨a.bit⟩

/-- The bits that name an area. -/
def knownBits : UInt32 := 63

/-- Only the bits that name an area. -/
def known (b : Breadcrumbs) : Breadcrumbs := ⟨b.bits &&& knownBits⟩

/-- No bit at all, not even an unknown one. -/
def isEmpty (b : Breadcrumbs) : Bool := b.bits = 0

/-- The two words share a bit. -/
def meets (b c : Breadcrumbs) : Bool := b.bits &&& c.bits ≠ 0

/-- The area `a` is in the word. -/
def has (b : Breadcrumbs) (a : Area) : Bool := b.bits &&& a.bit ≠ 0

/-- The first area of the word. -/
def area? (b : Breadcrumbs) : Option Area := Area.all.find? b.has

end Breadcrumbs

end CallbackBridge.Log
