import CallbackBridge.Proofs.Run.Plans
import Mathlib.Data.Finset.Dedup
import Mathlib.Data.Finset.Erase
import Mathlib.Data.Finset.Insert
import Mathlib.Data.Multiset.AddSub

/-! # Steady hosts

    A steady host refuses the same threads each time, gives the same answer to
    the same call, and does not use the bridge while it is called.  All that it
    keeps is which threads are attached and what is pinned.

    Key ideas:

    1. Under a steady host an operation runs to its end in one go.
    2. That is one of the runs of the bridge, and what the host keeps is what
       can be read off the history. -/

namespace CallbackBridge

open Run

/-- A status that refuses a thread. -/
structure Refusal where
  status : Int32
  not_attached : status ≠ 0
  not_new : status ≠ 1

theorem Refusal.ofStatus_eq (r : Refusal) :
    AttachState.ofStatus r.status = .error (.refused r.status) := by
  simp [AttachState.ofStatus, r.not_attached, r.not_new]

/-- A host, and what is around it, that answers by fixed rules. -/
structure SteadyHost where
  /-- How it refuses a thread, if it does. -/
  refusal : Thread → Option Refusal
  /-- What any other call is answered with. -/
  answer : (c : Call) → c.Reply
  /-- What the clock reads, after so many readings. -/
  clock : Nat → UInt64

/-- What a steady host keeps. -/
structure Surroundings where
  /-- The attached threads. -/
  attached : Finset Thread
  /-- The pinned references. -/
  pinned : Multiset HostObject
  /-- How often the clock was read. -/
  readings : Nat

/-- What an operation comes to. -/
structure Outcome (α : Type) where
  result : α
  state : State
  around : Surroundings
  /-- The calls that it has made, newest first.  The log and the operating system
      do not count. -/
  calls : List Call

namespace SteadyHost

variable {α β : Type}

/-- What a call on a thread is replied to with. -/
def reply (host : SteadyHost) (thread : Thread) (w : Surroundings) : (c : Call) → c.Reply
  | .host .attach =>
    match host.refusal thread with
    | some refusal => refusal.status
    | none => if thread ∈ w.attached then (0 : Int32) else (1 : Int32)
  | .system .clock => host.clock w.readings
  | c => host.answer c

/-- What becomes of the surroundings with it. -/
def after (host : SteadyHost) (thread : Thread) (w : Surroundings) : Call → Surroundings
  | .host .attach =>
    match host.refusal thread with
    | some _ => w
    | none => { w with attached := insert thread w.attached }
  | .host .detach => { w with attached := w.attached.erase thread }
  | .host (.pin object) =>
    match host.answer (.host (.pin object)) with
    | some reference => { w with pinned := reference ::ₘ w.pinned }
    | none => w
  | .host (.unpin reference) => { w with pinned := w.pinned.erase reference }
  | .system .clock => { w with readings := w.readings + 1 }
  | _ => w

/-- The reply to a call, with the surroundings and the calls so far. -/
def answering (host : SteadyHost) (thread : Thread) (c : Call) (_ : State)
    (e : Surroundings × List Call) : c.Reply × Surroundings × List Call :=
  (host.reply thread e.1 c, host.after thread e.1 c, History.addCall c e.2)

/-- Runs on to the end of an operation. -/
def run (host : SteadyHost) (thread : Thread) (p : Progress α)
    (e : Surroundings × List Call) : α × State × Surroundings × List Call :=
  p.run (fun c s e => let (r, e') := host.answering thread c s e; (r, s, e')) e

/-- Performs an operation on a thread. -/
def perform (host : SteadyHost) (thread : Thread) (m : Operation α) (s : State)
    (w : Surroundings) : Outcome α :=
  let (result, state, around, calls) := host.run thread (m thread s) (w, [])
  ⟨result, state, around, calls⟩

variable {host : SteadyHost} {thread : Thread} {s s' : State}
  {e e' : Surroundings × List Call}

theorem run_call {c : Call} : host.run thread (Operation.call c thread s) e =
    (host.reply thread e.1 c, s, host.after thread e.1 c, History.addCall c e.2) :=
  rfl

/-- A sequence runs its first part, and then the other one. -/
theorem run_bind {m : Operation α} {f : α → Operation β} {a : α}
    (ran : host.run thread (m thread s) e = (a, s', e')) :
    host.run thread ((m >>= f) thread s) e = host.run thread (f a thread s') e' := by
  have sequence := Progress.run_bind
    (fun c s e => let (r, e') := host.answering thread c s e; (r, s, e'))
    (m thread s) (fun a s' => f a thread s') e
  simp only [run] at ran
  rw [ran] at sequence
  exact sequence

end SteadyHost

/-! ### Runs under a steady host -/

/-- What is around the bridge is what a history tells, where the threads of
    `first` were attached to begin with. -/
structure Surroundings.Told (w : Surroundings) (first : List Thread) (h : History) : Prop where
  attached : (h.attached first).toFinset = w.attached
  pinned : (h.pinned : Multiset HostObject) = w.pinned

namespace Surroundings.Told

variable {host : SteadyHost} {w : Surroundings} {first : List Thread} {h : History} {op : Nat}
  {thread : Thread} {s : State}

theorem attached_replied (ht : (h.attached first).toFinset = w.attached) (call : Call)
    (lost : Option HostObject) :
    (History.attached first (⟨.replies op thread call (host.reply thread w call) lost, s⟩ ::
      ⟨.calls op thread call, s⟩ :: h)).toFinset = (host.after thread w call).attached := by
  cases call with
  | engine | library | log => exact ht
  | system c => cases c <;> exact ht
  | host c =>
    cases c with
    | protect | resolve | onResult | readString | freeString | unpin => exact ht
    | detach =>
      ext t
      simp [History.attached, SteadyHost.after, ← ht, and_comm]
    | pin object =>
      cases answered : host.answer (.host (.pin object)) <;>
        simp [History.attached, SteadyHost.after, answered, ht]
    | attach =>
      cases refused : host.refusal thread with
      | some refusal =>
        simp [History.attached, SteadyHost.reply, SteadyHost.after, refused,
          refusal.ofStatus_eq, ht]
      | none =>
        by_cases before : thread ∈ w.attached <;>
          simp [History.attached, SteadyHost.reply, SteadyHost.after, refused, before,
            AttachState.ofStatus, ht]

theorem pinned_replied (ht : (h.pinned : Multiset HostObject) = w.pinned) (call : Call)
    (lost : Option HostObject) :
    (History.pinned (⟨.replies op thread call (host.reply thread w call) lost, s⟩ ::
      ⟨.calls op thread call, s⟩ :: h) : Multiset HostObject) =
        (host.after thread w call).pinned := by
  cases call with
  | engine | library | log => exact ht
  | system c => cases c <;> exact ht
  | host c =>
    cases c with
    | protect | resolve | onResult | readString | freeString | detach => exact ht
    | attach =>
      cases refused : host.refusal thread <;>
        simpa [History.pinned, History.handedOut?, History.takenBack?, History.unpinned?,
          SteadyHost.after, refused] using ht
    | pin object =>
      cases answered : host.answer (.host (.pin object)) <;>
        simp [History.pinned, History.handedOut?, History.takenBack?, History.unpinned?,
          SteadyHost.reply, SteadyHost.after, answered, ← ht]
    | unpin reference =>
      simp [History.pinned, History.handedOut?, History.takenBack?, History.unpinned?,
        SteadyHost.after, ← ht]

/-- What becomes of the surroundings with a call is told by it and its reply. -/
theorem replied (ht : w.Told first h) (call : Call) (lost : Option HostObject) :
    (host.after thread w call).Told first
      (⟨.replies op thread call (host.reply thread w call) lost, s⟩ ::
        ⟨.calls op thread call, s⟩ :: h) :=
  ⟨attached_replied ht.attached call lost, pinned_replied ht.pinned call lost⟩

end Surroundings.Told

/-- Performing an operation is one of the runs of the bridge. -/
theorem SteadyHost.reaches_perform (host : SteadyHost) {c : Situation} (ha : c.Admits)
    (thread : Thread) (q : Request) {w : Surroundings} {first : List Thread}
    (told : w.Told first c.history) :
    let outcome := host.perform thread q.operation c.state w
    ∃ d, Reaches c d ∧ d.state = outcome.state ∧ d.stack = c.stack ∧
      d.history.head? = some ⟨.ends c.history.begun thread q outcome.result, outcome.state⟩ ∧
      outcome.around.Told first d.history ∧
      d.history.made c.history.begun = outcome.calls ++ c.history.made c.history.begun := by
  let op := c.history.begun
  let I : Surroundings × List Call → History → Prop := fun e h =>
    e.1.Told first h ∧ h.made op = e.2 ++ c.history.made op
  have replies : ∀ call s e h lost, I e h → I (host.answering thread call s e).2
      (⟨.replies op thread call (host.answering thread call s e).1 lost, s⟩ ::
        ⟨.calls op thread call, s⟩ :: h) := by
    rintro call s e h lost ⟨told, made⟩
    refine ⟨told.replied call lost, ?_⟩
    cases hc : call.mayReenter <;>
      simp [History.made, History.addCall, SteadyHost.answering, hc, made]
  obtain ⟨d, path, state, stack, last, kept⟩ := reaches_of_run (host.answering thread) I op thread q
    (q.operation thread c.state) (c.note (.begins op thread q)) (w, []) replies
    (fun _ _ _ _ hI => ⟨⟨hI.1.attached, hI.1.pinned⟩, hI.2⟩)
    ⟨⟨told.attached, told.pinned⟩, rfl⟩
  have began : Step c (.start thread q) (c.start thread q) := .start ha
  exact ⟨d, ((Reaches.refl c).tail began).trans path, state, stack, last, kept⟩

end CallbackBridge
