/-! # Limiting repeated error lines

    Worker threads of the engine can fail the same way thousands of times a
    second.  Each category of failure is limited on its own, so one noisy
    failure cannot hide another.

    Key ideas:

    1. A line is admitted when its category never had one, or when the clock
       reads at least one interval above the last admitted line.
    2. The admitted line reports how many lines of its category were held back
       since the one before.
    3. The clock is an argument; it may stand still or go back. -/

namespace CallbackBridge.Log

/-- A category of failures. -/
inductive Category where
  /-- A thread could not be attached to the host. -/
  | attachFailure
  /-- A callback named a handle that is not registered or does not fit. -/
  | staleHandle
  /-- A second result for a one-shot handle. -/
  | duplicateResult
  /-- A release of an id that is not registered. -/
  | duplicateRelease
  /-- The host gave a query no usable answer. -/
  | queryFailure
  deriving DecidableEq, Repr

namespace Category

/-- Every category. -/
def all : List Category :=
  [.attachFailure, .staleHandle, .duplicateResult, .duplicateRelease, .queryFailure]

/-- The name of a category in a line. -/
def label : Category → String
  | .attachFailure => "ATTACH_FAILURE"
  | .staleHandle => "STALE_HANDLE"
  | .duplicateResult => "DUPLICATE_RESULT"
  | .duplicateRelease => "DUPLICATE_RELEASE"
  | .queryFailure => "QUERY_FAILURE"

/-- The category of a name. -/
def ofLabel? (name : String) : Option Category :=
  all.find? (·.label = name)

/-- The message of an admitted line, after `suppressed` lines held back. -/
def message (c : Category) (text : String) (suppressed : UInt64) : String :=
  if suppressed = 0 then s!"[{c.label}] {text}"
  else s!"[{c.label}] {text} ({suppressed.toNat} suppressed)"

theorem mem_all (c : Category) : c ∈ all := by
  cases c <;> simp [all]

end Category

/-! ### State -/

/-- The word that stands for "no line admitted yet". -/
def never : UInt64 := 0xFFFFFFFFFFFFFFFF

/-- What is remembered of one category. -/
structure Slot where
  /-- The clock's reading at the last admitted line, or `never`. -/
  last : UInt64
  /-- Lines held back since then. -/
  suppressed : UInt64
  deriving DecidableEq, Repr

/-- The slot of a category that had no line. -/
def Slot.fresh : Slot := ⟨never, 0⟩

/-- A line is due at `now`. -/
def Slot.due (s : Slot) (interval now : UInt64) : Bool :=
  s.last = never || (if s.last ≤ now then now - s.last else 0) ≥ interval

/-- The limiter: an interval in milliseconds and a slot for each category. -/
structure Limiter where
  /-- Least distance between two admitted lines of a category. -/
  interval : UInt64
  /-- What is remembered of each category. -/
  slot : Category → Slot

namespace Limiter

/-- A limiter that has seen nothing. -/
def new (interval : UInt64) : Limiter := ⟨interval, fun _ => .fresh⟩

/-- The limiter of error lines: one line a second in each category. -/
def perSecond : Limiter := new 1000

/-- Functional update of one slot. -/
def setSlot (l : Limiter) (c : Category) (s : Slot) : Limiter :=
  { l with slot := fun d => if d = c then s else l.slot d }

@[simp] theorem setSlot_self (l : Limiter) (c : Category) (s : Slot) :
    (l.setSlot c s).slot c = s := by
  simp [setSlot]

@[simp] theorem setSlot_ne (l : Limiter) (c d : Category) (s : Slot) (h : d ≠ c) :
    (l.setSlot c s).slot d = l.slot d := by
  simp [setSlot, h]

@[simp] theorem interval_setSlot (l : Limiter) (c : Category) (s : Slot) :
    (l.setSlot c s).interval = l.interval := rfl

/-- Offers a line of category `c` at the reading `now`.  Yields the number of
    lines held back since the last admitted one, or `none` where this line is
    held back too. -/
def offer (l : Limiter) (now : UInt64) (c : Category) : Option UInt64 × Limiter :=
  let s := l.slot c
  if s.due l.interval now then
    (some s.suppressed, l.setSlot c ⟨now, 0⟩)
  else
    (none, l.setSlot c { s with suppressed := s.suppressed + 1 })

/-- The answers to a list of offers, first one first. -/
def offers (l : Limiter) : List (UInt64 × Category) → List (Option UInt64)
  | [] => []
  | (now, c) :: rest => (l.offer now c).1 :: offers (l.offer now c).2 rest

end Limiter

end CallbackBridge.Log
