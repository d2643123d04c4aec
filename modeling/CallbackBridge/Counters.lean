/-! # Counters

    Nine tallies of what the bridge did.  Each is a 64-bit word that wraps. -/

namespace CallbackBridge

/-- What is counted. -/
inductive Counter where
  | handlesRegistered
  | handlesReleased
  /-- Releases of ids that were not registered. -/
  | duplicateReleases
  /-- Look-ups of ids that were not registered. -/
  | staleLookups
  | callbacksDispatched
  | callbacksDropped
  | attachFailures
  /-- Second results for a one-shot handle. -/
  | resultsRejected
  | helpersLaunched
  deriving DecidableEq, Repr

/-- Every counter, in the order in which a snapshot lists them. -/
def Counter.all : List Counter :=
  [.handlesRegistered, .handlesReleased, .duplicateReleases, .staleLookups,
   .callbacksDispatched, .callbacksDropped, .attachFailures, .resultsRejected,
   .helpersLaunched]

/-- The value of each counter. -/
structure Counters where
  handlesRegistered : UInt64
  handlesReleased : UInt64
  duplicateReleases : UInt64
  staleLookups : UInt64
  callbacksDispatched : UInt64
  callbacksDropped : UInt64
  attachFailures : UInt64
  resultsRejected : UInt64
  helpersLaunched : UInt64
  deriving DecidableEq, Repr

namespace Counters

/-- Nothing has been counted. -/
def zero : Counters := ⟨0, 0, 0, 0, 0, 0, 0, 0, 0⟩

/-- The value of one counter. -/
def get (c : Counters) : Counter → UInt64
  | .handlesRegistered => c.handlesRegistered
  | .handlesReleased => c.handlesReleased
  | .duplicateReleases => c.duplicateReleases
  | .staleLookups => c.staleLookups
  | .callbacksDispatched => c.callbacksDispatched
  | .callbacksDropped => c.callbacksDropped
  | .attachFailures => c.attachFailures
  | .resultsRejected => c.resultsRejected
  | .helpersLaunched => c.helpersLaunched

/-- Adds one to one counter. -/
def bump (c : Counters) : Counter → Counters
  | .handlesRegistered => { c with handlesRegistered := c.handlesRegistered + 1 }
  | .handlesReleased => { c with handlesReleased := c.handlesReleased + 1 }
  | .duplicateReleases => { c with duplicateReleases := c.duplicateReleases + 1 }
  | .staleLookups => { c with staleLookups := c.staleLookups + 1 }
  | .callbacksDispatched => { c with callbacksDispatched := c.callbacksDispatched + 1 }
  | .callbacksDropped => { c with callbacksDropped := c.callbacksDropped + 1 }
  | .attachFailures => { c with attachFailures := c.attachFailures + 1 }
  | .resultsRejected => { c with resultsRejected := c.resultsRejected + 1 }
  | .helpersLaunched => { c with helpersLaunched := c.helpersLaunched + 1 }

/-- All values, in the order of `Counter.all`. -/
def toList (c : Counters) : List UInt64 :=
  Counter.all.map c.get

@[simp] theorem get_bump_self (c : Counters) (k : Counter) :
    (c.bump k).get k = c.get k + 1 := by
  cases k <;> rfl

@[simp] theorem get_bump_ne (c : Counters) (k l : Counter) (h : l ≠ k) :
    (c.bump k).get l = c.get l := by
  cases k <;> cases l <;> first | rfl | exact absurd rfl h

end Counters

end CallbackBridge
