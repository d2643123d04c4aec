import CallbackBridge.Proofs.Run.Keeping
import CallbackBridge.Proofs.Registry.Sound
import Mathlib.Algebra.Order.Group.Multiset

/-! # The books of a registry

    The bridge keeps no record of who refers to what.  The books do: they
    follow a run and write down, for each step, which references changed
    hands.

    Key ideas:

    1. A `Token` is a right that an operation has in hand between two steps:
       a loan to give back, a pinned reference that is not in the table, an id
       that was issued and not reported yet, a refusal that was not counted.
    2. `Booked` lists the steps there are.  Each spends tokens and gains
       others, so what is in hand never comes from nowhere.
    3. A release, a delivery and the end of the table change the registry in
       the moment in which they begin; `Opening` says how. -/

namespace CallbackBridge

/-! ### Requests -/

namespace Request

/-- The id that a request takes out of the table, where it is listed. -/
def released? : Request → Option HandleId
  | .registry (.release handle) => some handle.id
  | .registry (.releaseRaw id) | .registry (.releaseIfPresent id) =>
    if id.isNull then none else some id
  | .callback table (.release handle) =>
    if table.connected && !(HandleId.mk handle).isNull then some ⟨handle⟩ else none
  | _ => none

/-- The id that a request delivers to. -/
def delivered? : Request → Option HandleId
  | .dispatch (.deliverResult id _) => if id.isNull then none else some id
  | .callback table (.onResult handle _) =>
    if table.connected && !(HandleId.mk handle).isNull then some ⟨handle⟩ else none
  | _ => none

theorem delivered?_eq_none_of_released? {q : Request} {id : HandleId}
    (h : q.released? = some id) : q.delivered? = none := by
  unfold released? at h
  split at h <;> first | rfl | cases h

end Request

namespace Run

open History (held handedOut? takenBack? lost? isRefusal lent? owned?)

/-! ### Tokens -/

/-- What an operation has in hand between two of its steps. -/
inductive Token where
  /-- A loan of `id`, which is registered for `object`. -/
  | loan (id : HandleId) (object : HostObject)
  /-- A reference that the host has just pinned. -/
  | fresh (object : HostObject)
  /-- A reference that nothing else uses any more. -/
  | last (object : HostObject)
  /-- An id that operation `op` registered and has not told its caller yet. -/
  | issued (op : Nat) (id : HandleId)
  /-- A refused attachment that has not been counted yet. -/
  | refusal
  deriving DecidableEq

/-- The token for a reference that may be there. -/
def lastOf : Option HostObject → Multiset Token
  | none => 0
  | some object => {.last object}

/-! ### Steps -/

/-- What a request does to the registry as it begins, and what it then has in
    hand. -/
inductive Opening (h : History) (r : Registry) : Request → Registry → Multiset Token → Prop
  | releases {q : Request} {id : HandleId} {e : Registration} :
    q.released? = some id → r.listed? id = some e →
    Opening h r q (r.delist id) {.loan id e.object}
  | claims {q : Request} {id : HandleId} {e : Registration} :
    q.delivered? = some id → r.listed? id = some e → e.kind = .invoke →
    Opening h r q (r.markDelivered id) 0
  | closes {free : List HostObject} {r' : Registry} :
    r.clear = (free, r') →
    Opening h r (.registry .close) r' (Multiset.ofList (free.map .last))
  | returns {id : HandleId} {e : Registration} :
    id ∈ held h → r.find? id = some e →
    Opening h r (.registry (.giveBack id)) r {.loan id e.object}
  | rest {q : Request} :
    (∀ id, q.released? = some id → r.contains id = false) →
    (∀ id e, q.delivered? = some id → r.listed? id = some e → e.kind ≠ .invoke) →
    (∀ id, q ≠ .registry (.giveBack id)) → q ≠ .registry .close →
    Opening h r q r 0

/-- What other events spend and what they gain. -/
inductive Note : Event → Multiset Token → Multiset Token → Prop
  | lends {op : Nat} {thread : Thread} {id : HandleId} {target : Registration} :
    Note (.ends op thread (.registry (.look id)) (.ok target))
      {.loan id target.object} 0
  | issues {op : Nat} {thread : Thread} {object : HostObject} {kind : HandleKind}
      {handle : Handle} :
    Note (.ends op thread (.registry (.register object kind)) (.ok handle))
      {.issued op handle.id} 0
  | unpins {op : Nat} {thread : Thread} {object : HostObject} :
    Note (.calls op thread (.host (.unpin object))) {.last object} 0
  | pins {op : Nat} {thread : Thread} {object reference : HostObject} :
    Note (.replies op thread (.host (.pin object)) (some reference) none) 0 {.fresh reference}
  | refuses {op : Nat} {thread : Thread} {status : Int32} {lost : Option HostObject}
      {e : AttachError} :
    AttachState.ofStatus status = .error e →
    Note (.replies op thread (.host .attach) status lost) (lastOf lost) {.refusal}
  | rest {e : Event} :
    e.isBegin = false → handedOut? e = none → takenBack? e = none → lost? e = none →
    isRefusal e = false → lent? e = none → owned? e = none → Note e 0 0

/-- An event is none of the others if its parts say so. -/
theorem Note.silent {e : Event}
    (he : (e.isBegin, handedOut? e, takenBack? e, lost? e, isRefusal e, lent? e, owned? e) =
      (false, none, none, none, false, none, none)) : Note e 0 0 := by
  simp only [Prod.mk.injEq] at he
  obtain ⟨hb, hh, ht, hlost, hr, hlent, ho⟩ := he
  exact .rest hb hh ht hlost hr hlent ho

/-- What operations do to the registry later on. -/
inductive Change (h : History) (r : Registry) : Multiset Token → Registry → Multiset Token → Prop
  | lend {id : HandleId} {e : Registration} :
    r.listed? id = some e → Change h r 0 (r.lend id) {.loan id e.object}
  | giveBack {id : HandleId} {object : HostObject} {last : Option HostObject} {r' : Registry} :
    r.returnLoan id = (last, r') → Change h r {.loan id object} r' (lastOf last)
  | enlist {m : Moment} {op : Nat} {thread : Thread} {object reference : HostObject}
      {kind : HandleKind} {id : HandleId} {r' : Registry} :
    m ∈ h → m.event = .begins op thread (.registry (.register object kind)) →
    r.enlist reference kind = (.ok id, r') →
    Change h r {.fresh reference} r' {.issued op id}
  | discard {reference : HostObject} : Change h r {.fresh reference} r {.last reference}

/-- From `s₀` on, where the table was empty, the history `h` has led to the
    state `s` with `tokens` in hand. -/
inductive Booked (s₀ : State) : State → History → Multiset Token → Prop
  | opens : s₀.registry.entries = [] → Booked s₀ s₀ [] 0
  | begins {s : State} {h : History} {op : Nat} {thread : Thread} {q : Request} {r : Registry}
      {tokens gained : Multiset Token} :
    Booked s₀ s h tokens → Opening h s.registry q r gained →
    Booked s₀ { s with registry := r } (⟨.begins op thread q, s⟩ :: h) (tokens + gained)
  | notes {s : State} {h : History} {e : Event} {tokens spent gained : Multiset Token} :
    Booked s₀ s h (tokens + spent) → Note e spent gained →
    Booked s₀ s (⟨e, s⟩ :: h) (tokens + gained)
  | changes {s : State} {h : History} {r : Registry} {tokens spent gained : Multiset Token} :
    Booked s₀ s h (tokens + spent) → Change h s.registry spent r gained →
    Booked s₀ { s with registry := r } h (tokens + gained)
  | counts {s : State} {h : History} {tokens : Multiset Token} :
    Booked s₀ s h (tokens + {.refusal}) →
    Booked s₀ { s with counters := s.counters.bump .attachFailures } h tokens
  | tallies {s : State} {h : History} {counter : Counter} {tokens : Multiset Token} :
    counter ≠ .attachFailures → Booked s₀ s h tokens →
    Booked s₀ { s with counters := s.counters.bump counter } h tokens
  | limits {s : State} {h : History} {limiter : Log.Limiter} {tokens : Multiset Token} :
    Booked s₀ s h tokens → Booked s₀ { s with limiter } h tokens

/-! ### The registry -/

section

variable {s₀ s : State} {h : History} {r r' : Registry} {q : Request}
  {tokens spent gained : Multiset Token}

theorem Opening.sound (ho : Opening h r q r' gained) (hr : r.Sound) : r'.Sound := by
  cases ho with
  | releases => exact hr.delist
  | claims => exact hr.markDelivered
  | closes hc => exact hr.clear hc
  | returns => exact hr
  | rest => exact hr

theorem Opening.rises (ho : Opening h r q r' gained) : r.Rises r' := by
  cases ho with
  | releases => exact .delist
  | claims => exact .markDelivered
  | closes hc => exact .clear hc
  | returns => exact .refl _
  | rest => exact .refl _

theorem Change.sound (hc : Change h r spent r' gained) (hr : r.Sound) : r'.Sound := by
  cases hc with
  | lend => exact hr.lend
  | giveBack hb => exact hr.returnLoan hb
  | enlist _ _ he => exact hr.enlist he
  | discard => exact hr

theorem Change.rises (hc : Change h r spent r' gained) : r.Rises r' := by
  cases hc with
  | lend => exact .lend
  | giveBack hb => exact .returnLoan hb
  | enlist _ _ he => exact .enlist he
  | discard => exact .refl _

namespace Booked

theorem sound (hb : Booked s₀ s h tokens) : s.registry.Sound := by
  induction hb with
  | opens he => exact .of_entries_nil he
  | begins _ ho ih => exact ho.sound ih
  | notes _ _ ih => exact ih
  | changes _ hc ih => exact hc.sound ih
  | counts _ ih => exact ih
  | tallies _ _ ih => exact ih
  | limits _ ih => exact ih

theorem lend {id : HandleId} {e : Registration} (hb : Booked s₀ s h tokens)
    (hf : s.registry.listed? id = some e) :
    Booked s₀ { s with registry := s.registry.lend id } h (tokens + {.loan id e.object}) := by
  rw [← add_zero tokens] at hb
  exact hb.changes (.lend hf)

theorem initially_empty (hb : Booked s₀ s h tokens) : s₀.registry.entries = [] := by
  induction hb with
  | opens he => exact he
  | begins _ _ ih | notes _ _ ih | changes _ _ ih | counts _ ih | tallies _ _ ih | limits _ ih =>
    exact ih

/-- The registry is a later state of what it was at first. -/
theorem rises_from (hb : Booked s₀ s h tokens) : s₀.registry.Rises s.registry := by
  induction hb with
  | opens he => exact .refl _
  | begins _ ho ih => exact ih.trans ho.rises
  | notes _ _ ih => exact ih
  | changes _ hc ih => exact ih.trans hc.rises
  | counts _ ih => exact ih
  | tallies _ _ ih => exact ih
  | limits _ ih => exact ih

/-- The registry is a later state of what it was at any moment. -/
theorem rises (hb : Booked s₀ s h tokens) {m : Moment} (hm : m ∈ h) :
    m.state.registry.Rises s.registry := by
  induction hb with
  | opens he => simp at hm
  | begins _ ho ih =>
    rcases List.mem_cons.mp hm with rfl | hm
    · exact ho.rises
    · exact (ih hm).trans ho.rises
  | notes _ _ ih =>
    rcases List.mem_cons.mp hm with rfl | hm
    · exact .refl _
    · exact ih hm
  | changes _ hc ih => exact (ih hm).trans hc.rises
  | counts _ ih => exact ih hm
  | tallies _ _ ih => exact ih hm
  | limits _ ih => exact ih hm

/-- Every moment was booked as it came. -/
theorem always (hb : Booked s₀ s h tokens) :
    h.Always fun m before => ∃ tokens, Booked s₀ m.state before tokens := by
  induction hb with
  | opens he => trivial
  | begins hb _ ih => exact ⟨⟨_, hb⟩, ih⟩
  | notes hb _ ih => exact ⟨⟨_, hb⟩, ih⟩
  | changes _ _ ih => exact ih
  | counts _ ih => exact ih
  | tallies _ _ ih => exact ih
  | limits _ ih => exact ih

end Booked

end

end Run

end CallbackBridge
