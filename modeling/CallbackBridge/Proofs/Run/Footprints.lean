import CallbackBridge.Proofs.Run.Beginnings
import CallbackBridge.Proofs.Run.Parts
import CallbackBridge.Proofs.Run.Steady
import Mathlib.Algebra.Group.Pi.Basic
import Mathlib.Algebra.Order.Group.Multiset
import Mathlib.Data.UInt

/-! # Footprints

    Under a steady host an operation on a handle looks at the registration of
    that handle and at nothing else of the table.  It changes that registration,
    adds to counters, takes pins away and leaves threads attached.

    Key ideas:

    1. A `Footprint` says what an operation leaves behind.  Those of different
       handles commute, as each amends its own registrations.
    2. An operation is `Local` to a handle if its result, its calls and its
       change are the same before and after any change of other handles.
    3. What is local is closed under sequences, so it is checked part by part.
       The log may be told different things, since nobody listens to it here. -/

namespace CallbackBridge

open Run

/-! ### Requests on one handle -/

/-- The id that a request to the dispatcher is about. -/
def DispatchRequest.id : DispatchRequest → HandleId
  | .protect id _ | .notify id _ | .resolveOwner id _ | .deliverResult id _ => id

/-- The id that a request to the registry is about, if it is about one. -/
def RegistryRequest.id? : RegistryRequest → Option HandleId
  | .look id | .giveBack id | .releaseRaw id | .releaseIfPresent id => some id
  | .release handle => some handle.id
  | .register .. | .close => none

/-- The id that a request of an engine is about. -/
def EngineRequest.id : EngineRequest → HandleId
  | .protect handle _ | .resolveOwner handle .. | .onResult handle _ | .release handle => ⟨handle⟩

/-- The id that a request to the registry, to the dispatcher or through a
    callback table is about, if it is about one. -/
def Request.handle? : Request → Option HandleId
  | .registry q => q.id?
  | .dispatch d => some d.id
  | .callback _ q => some q.id
  | .library _ | .bridge _ | .entry _ | .log _ => none

/-! ### What is shared -/

/-- What operations on different handles have to do with in common. -/
structure Shared where
  registry : Registry
  counted : Counter → UInt64
  attached : Finset Thread
  pinned : Multiset HostObject

/-- What is shared in a state with surroundings. -/
def Shared.of (s : State) (w : Surroundings) : Shared :=
  ⟨s.registry, s.counters.get, w.attached, w.pinned⟩

/-- Changes registrations in their places, and strikes some out. -/
def Registry.revise (r : Registry) (f : Registration → Option Registration) : Registry :=
  { r with entries := r.entries.filterMap f }

/-- The registrations of one id are changed, or struck out. -/
def Registry.reviseAt (r : Registry) (id : HandleId) (f : Registration → Option Registration) :
    Registry :=
  r.revise fun e => if e.id = id then f e else some e

namespace Registry

variable {r : Registry} {id : HandleId}

theorem reviseAt_some : r.reviseAt id some = r := by
  simp [reviseAt, revise]

theorem update_eq {f : Registration → Registration} :
    r.update id f = r.reviseAt id fun e => some (f e) := by
  have same : (fun e => if e.id = id then some (f e) else some e) =
      some ∘ fun e => if e.id = id then f e else e := by
    funext e
    by_cases he : e.id = id <;> simp [he]
  rw [update, reviseAt, revise, same, List.filterMap_eq_map]

theorem reviseAt_none :
    (r.reviseAt id fun _ => none) = { r with entries := r.entries.filter (·.id ≠ id) } := by
  have same : (fun e : Registration => if e.id = id then none else some e) =
      Option.guard (·.id ≠ id) := by
    funext e
    by_cases he : e.id = id <;> simp [he, Option.guard]
  rw [reviseAt, revise, same, List.filterMap_eq_filter]

/-- A search is not concerned with changes of what it passes over. -/
theorem find?_filterMap {l : List Registration} {p : Registration → Bool}
    {f : Registration → Option Registration} (hp : ∀ e, p e = true → f e = some e)
    (hn : ∀ e e', p e = false → f e = some e' → p e' = false) :
    (l.filterMap f).find? p = l.find? p := by
  induction l with
  | nil => rfl
  | cons e rest ih =>
    cases he : p e with
    | true => simp [hp e he, he]
    | false =>
      cases amended : f e with
      | none => simp [amended, he, ih]
      | some e' => simp [amended, he, hn e e' he amended, ih]

end Registry

/-- What an operation leaves behind. -/
structure Footprint where
  /-- What becomes of a registration. -/
  amend : Registration → Option Registration
  id_eq : ∀ {e e'}, amend e = some e' → e'.id = e.id
  /-- What is added to each counter. -/
  counts : Counter → UInt64
  /-- The references that are unpinned. -/
  unpins : Multiset HostObject
  /-- The threads that are left attached. -/
  attaches : Finset Thread

namespace Footprint

variable {d d' : Footprint} {x : Shared} {a b : HandleId} {p : DetachPolicy}

/-- Makes a change. -/
def apply (d : Footprint) (x : Shared) : Shared :=
  ⟨x.registry.revise d.amend, x.counted + d.counts, x.attached ∪ d.attaches, x.pinned - d.unpins⟩

/-- Nothing is changed. -/
def none : Footprint := ⟨some, fun h => congrArg _ (Option.some.inj h.symm), 0, 0, ∅⟩

/-- One change after another. -/
def followed (d d' : Footprint) : Footprint where
  amend e := (d.amend e).bind d'.amend
  id_eq h := by
    obtain ⟨e, he, he'⟩ := Option.bind_eq_some_iff.mp h
    exact (d'.id_eq he').trans (d.id_eq he)
  counts := d.counts + d'.counts
  unpins := d.unpins + d'.unpins
  attaches := d.attaches ∪ d'.attaches

/-- A change of the registrations of one id. -/
def amending (id : HandleId) (f : Registration → Option Registration)
    (hf : ∀ {e e'}, f e = some e' → e'.id = e.id) : Footprint where
  amend e := if e.id = id then f e else some e
  id_eq {e e'} h := by
    by_cases he : e.id = id
    · exact hf (by simpa [he] using h)
    · simp only [if_neg he, Option.some.injEq] at h
      rw [h]
  counts := 0
  unpins := 0
  attaches := ∅

/-- Something is counted. -/
def counting (k : Counter) : Footprint :=
  { none with counts := fun l => if l = k then 1 else 0 }

/-- A visit to the host. -/
def visiting (unpins : Multiset HostObject) (attaches : Finset Thread) : Footprint :=
  { none with unpins, attaches }

@[simp] theorem apply_none : none.apply x = x := by
  simp [apply, none, Registry.revise]

theorem apply_followed : (d.followed d').apply x = d'.apply (d.apply x) := by
  simp only [apply, followed, Registry.revise, List.filterMap_filterMap, add_assoc,
    Finset.union_assoc, tsub_tsub]

/-- A change touches no registrations but those of `id`.  Where threads are
    detached again, it leaves none attached. -/
structure Confined (d : Footprint) (id : HandleId) (p : DetachPolicy) : Prop where
  others : ∀ e, e.id ≠ id → d.amend e = some e
  detaches : p = .detachOnExit → d.attaches = ∅

/-- A change does not touch the registrations of `id`. -/
structure Spares (d : Footprint) (id : HandleId) (p : DetachPolicy) : Prop where
  own : ∀ e, e.id = id → d.amend e = some e
  detaches : p = .detachOnExit → d.attaches = ∅

theorem Confined.spares (hd : d.Confined a p) (hab : a ≠ b) : d.Spares b p :=
  ⟨fun e he => hd.others e (he ▸ hab.symm), hd.detaches⟩

theorem spares_none : none.Spares a p := ⟨fun _ _ => rfl, fun _ => rfl⟩

theorem confined_none : none.Confined a p := ⟨fun _ _ => rfl, fun _ => rfl⟩

theorem confined_counting {k : Counter} : (counting k).Confined a p :=
  ⟨fun _ _ => rfl, fun _ => rfl⟩

theorem confined_amending {f : Registration → Option Registration}
    {hf : ∀ {e e'}, f e = some e' → e'.id = e.id} : (amending a f hf).Confined a p :=
  ⟨fun _ he => if_neg he, fun _ => rfl⟩

theorem of_bump {k : Counter} {s : State} {w : Surroundings} :
    Shared.of { s with counters := s.counters.bump k } w = (counting k).apply (Shared.of s w) := by
  have counted : (s.counters.bump k).get = s.counters.get + (counting k).counts := by
    funext l
    by_cases hl : l = k
    · simp [hl, counting]
    · simp [hl, counting]
  simp [Shared.of, apply, counted, counting, none, Registry.revise]

theorem of_reviseAt {f : Registration → Option Registration}
    {hf : ∀ {e e'}, f e = some e' → e'.id = e.id} {s : State} {w : Surroundings} :
    Shared.of { s with registry := s.registry.reviseAt a f } w =
      (amending a f hf).apply (Shared.of s w) := by
  simp [Shared.of, apply, amending, Registry.reviseAt]

theorem Spares.find?_revise {r : Registry} (hd : d.Spares a p) :
    (r.revise d.amend).find? a = r.find? a := by
  refine Registry.find?_filterMap (fun e he => hd.own e (by simpa using he)) ?_
  intro e e' he amended
  simpa [d.id_eq amended] using he

theorem Spares.listed?_revise {r : Registry} (hd : d.Spares a p) :
    (r.revise d.amend).listed? a = r.listed? a := by
  refine Registry.find?_filterMap (fun e he => hd.own e (by simp_all)) ?_
  intro e e' he amended
  by_cases hid : e.id = a
  · rw [hd.own e hid] at amended
    obtain rfl := Option.some.inj amended
    exact he
  · simp [d.id_eq amended, hid]

theorem Confined.followed (hd : d.Confined a p) (hd' : d'.Confined a p) :
    (d.followed d').Confined a p where
  others e he := by simp [Footprint.followed, hd.others e he, hd'.others e he]
  detaches hp := by simp [Footprint.followed, hd.detaches hp, hd'.detaches hp]

/-- What different handles leave behind commutes. -/
theorem Confined.comm (hd : d.Confined a p) (hd' : d'.Spares a p) :
    d.apply (d'.apply x) = d'.apply (d.apply x) := by
  have entries : ∀ e, (d'.amend e).bind d.amend = (d.amend e).bind d'.amend := by
    intro e
    by_cases he : e.id = a
    · rw [hd'.own e he]
      cases amended : d.amend e with
      | none => simp [amended]
      | some e' => simp [amended, hd'.own e' ((d.id_eq amended).trans he)]
    · rw [hd.others e he]
      cases amended : d'.amend e with
      | none => simp [amended]
      | some e' =>
        have other : e'.id ≠ a := fun heq => he ((d'.id_eq amended).symm.trans heq)
        simp [amended, hd.others e' other]
  simp only [apply, Registry.revise, List.filterMap_filterMap, Shared.mk.injEq]
  refine ⟨by simp only [entries], add_right_comm _ _ _, Finset.union_right_comm _ _ _,
    tsub_right_comm⟩

end Footprint

/-! ### Local operations -/

/-- Under a steady host, an operation results in `a`, makes `calls` and leaves
    the footprint `d` where `x` is shared, and so it does after whatever spares
    the registrations of `id`. -/
structure Leaves {α : Type} (host : SteadyHost) (thread : Thread) (id : HandleId)
    (m : Operation α) (x : Shared) (a : α) (calls : List Call) (d : Footprint) : Prop where
  confined : d.Confined id x.registry.policy
  runs : ∀ {d' : Footprint} {s : State} {w : Surroundings}, d'.Spares id x.registry.policy →
    Shared.of s w = d'.apply x → ∀ before, ∃ s' w',
      host.run thread (m thread s) (w, before) = (a, s', w', calls ++ before) ∧
      Shared.of s' w' = d'.apply (d.apply x)

/-- An operation looks at the registrations of `id` only, and leaves the others
    alone. -/
def Local {α : Type} (host : SteadyHost) (thread : Thread) (id : HandleId) (m : Operation α) :
    Prop :=
  ∀ x, ∃ a calls d, Leaves host thread id m x a calls d

/-- An operation changes nothing that is shared, and makes no calls that count. -/
def Unheard {α : Type} (host : SteadyHost) (thread : Thread) (m : Operation α) : Prop :=
  ∀ s w before, ∃ a s' w', host.run thread (m thread s) (w, before) = (a, s', w', before) ∧
    Shared.of s' w' = Shared.of s w

variable {α β : Type} {host : SteadyHost} {thread : Thread} {id : HandleId} {m : Operation α}
  {f : α → Operation β} {x : Shared}

theorem Leaves.bind {a : α} {b : β} {calls calls' : List Call} {d d' : Footprint}
    (hm : Leaves host thread id m x a calls d)
    (hf : Leaves host thread id (f a) (d.apply x) b calls' d') :
    Leaves host thread id (m >>= f) x b (calls' ++ calls) (d.followed d') where
  confined := hm.confined.followed hf.confined
  runs := by
    intro d'' s w spares same before
    obtain ⟨s₁, w₁, run₁, same₁⟩ := hm.runs spares same before
    obtain ⟨s₂, w₂, run₂, same₂⟩ := hf.runs spares same₁ (calls ++ before)
    refine ⟨s₂, w₂, ?_, by rw [same₂, Footprint.apply_followed]⟩
    rw [SteadyHost.run_bind run₁, run₂, List.append_assoc]

/-- What an operation comes to that leaves a footprint. -/
theorem Leaves.perform {a : α} {calls : List Call} {d d' : Footprint}
    (hm : Leaves host thread id m x a calls d) (spares : d'.Spares id x.registry.policy)
    {s : State} {w : Surroundings} (same : Shared.of s w = d'.apply x) :
    let o := host.perform thread m s w
    o.result = a ∧ o.calls = calls ∧ Shared.of o.state o.around = d'.apply (d.apply x) := by
  obtain ⟨s', w', ran, same'⟩ := hm.runs spares same []
  rw [List.append_nil] at ran
  simp only [SteadyHost.perform, ran]
  exact ⟨trivial, trivial, same'⟩

namespace Unheard

theorem pure (a : α) : Unheard host thread (Pure.pure a : Operation α) :=
  fun s w _ => ⟨a, s, w, rfl, rfl⟩

theorem bind (hm : Unheard host thread m) (hf : ∀ a, Unheard host thread (f a)) :
    Unheard host thread (m >>= f) := by
  intro s w before
  obtain ⟨a, s₁, w₁, run₁, same₁⟩ := hm s w before
  obtain ⟨b, s₂, w₂, run₂, same₂⟩ := hf a s₁ w₁ before
  exact ⟨b, s₂, w₂, (SteadyHost.run_bind run₁).trans run₂, same₂.trans same₁⟩

theorem emit {level : Log.Level} {b : Log.Breadcrumbs} {message : String} :
    Unheard host thread (Log.emit level b message) := by
  intro s w before
  simp only [Log.emit, Operation.bind_apply, Operation.state_apply, Progress.bind]
  cases s.logger.line? level b message with
  | none => exact ⟨(), s, w, rfl, rfl⟩
  | some line => exact ⟨host.answer (.log line), s, w, rfl, rfl⟩

theorem breadcrumb {area : Log.Area} {message : String} :
    Unheard host thread (Log.breadcrumb area message) := by
  unfold Log.breadcrumb Log.detail
  split
  · exact .pure ()
  · exact .emit

/-- The clock goes on and the limiter may answer differently, but that is not
    shared. -/
theorem limitedError {c : Log.Category} {text : String} :
    Unheard host thread (Log.limitedError c text) := by
  have clock : Unheard host thread (Operation.call (.system .clock)) :=
    fun s w _ => ⟨_, s, _, rfl, rfl⟩
  refine clock.bind fun now => Unheard.bind (fun s w _ => ⟨_, _, w, rfl, rfl⟩) fun admitted => ?_
  cases admitted with
  | none => exact .pure false
  | some suppressed => exact emit.bind fun _ => .pure true

end Unheard

namespace Local

theorem pure (a : α) : Local host thread id (Pure.pure a : Operation α) := by
  intro x
  refine ⟨a, [], .none, Footprint.confined_none, ?_⟩
  intro d' s w _ same _
  exact ⟨s, w, rfl, by rw [same, Footprint.apply_none]⟩

theorem bind (hm : Local host thread id m) (hf : ∀ a, Local host thread id (f a)) :
    Local host thread id (m >>= f) := by
  intro x
  obtain ⟨a, calls, d, first⟩ := hm x
  obtain ⟨b, calls', d', second⟩ := hf a (d.apply x)
  exact ⟨b, calls' ++ calls, d.followed d', first.bind second⟩

/-- What goes unheard may come first. -/
theorem unheard {k : Operation β} (hm : Unheard host thread m) (hk : Local host thread id k) :
    Local host thread id (m >>= fun _ => k) := by
  intro x
  obtain ⟨b, calls, d, leaves⟩ := hk x
  refine ⟨b, calls, d, leaves.confined, ?_⟩
  intro d' s w spares same before
  obtain ⟨a, s₁, w₁, run₁, same₁⟩ := hm s w before
  obtain ⟨s₂, w₂, run₂, same₂⟩ := leaves.runs spares (same₁.trans same) before
  exact ⟨s₂, w₂, (SteadyHost.run_bind run₁).trans run₂, same₂⟩

/-- A change of the state that looks at the registrations of `id`. -/
theorem change {f : State → α × State}
    (hf : ∀ x : Shared, ∃ a d, Footprint.Confined d id x.registry.policy ∧
      ∀ s, s.registry.find? id = x.registry.find? id →
        s.registry.listed? id = x.registry.listed? id →
        (f s).1 = a ∧ ∀ w, Shared.of (f s).2 w = d.apply (Shared.of s w)) :
    Local host thread id (Operation.modifyGet f) := by
  intro x
  obtain ⟨a, d, confined, alike⟩ := hf x
  refine ⟨a, [], d, confined, ?_⟩
  intro d' s w spares same before
  have registry : s.registry = x.registry.revise d'.amend := congrArg Shared.registry same
  obtain ⟨result, leaves⟩ := alike s (by rw [registry, spares.find?_revise])
    (by rw [registry, spares.listed?_revise])
  refine ⟨(f s).2, w, ?_, by rw [leaves, same, confined.comm spares]⟩
  rw [← result]
  rfl

theorem bump {k : Counter} : Local host thread id (CallbackBridge.bump k) := by
  have counted : Local host thread id
      (Operation.modifyGet fun s => ((), { s with counters := s.counters.bump k })) :=
    change fun x => ⟨(), .counting k, Footprint.confined_counting, fun s _ _ =>
      ⟨rfl, fun w => Footprint.of_bump⟩⟩
  exact counted

/-- Registrations of `id` change in a way that depends on them only. -/
theorem update {f : State → α × State}
    (hf : ∀ x : Shared, ∃ a g, (∀ {e e'}, g e = some e' → e'.id = e.id) ∧
      ∀ s, s.registry.find? id = x.registry.find? id →
        s.registry.listed? id = x.registry.listed? id →
        f s = (a, { s with registry := s.registry.reviseAt id g })) :
    Local host thread id (Operation.modifyGet f) := by
  refine change fun x => ?_
  obtain ⟨a, g, id_eq, alike⟩ := hf x
  refine ⟨a, .amending id g id_eq, Footprint.confined_amending, fun s found listed => ?_⟩
  rw [alike s found listed]
  exact ⟨rfl, fun w => Footprint.of_reviseAt⟩

/-- What is listed under `id` is looked at and changed. -/
theorem listed {g : Registration → Registration} (hg : ∀ e, (g e).id = e.id) :
    Local host thread id (Operation.modifyGet fun s =>
      match s.registry.listed? id with
      | none => (none, s)
      | some e => (some e, { s with registry := s.registry.update id g })) := by
  refine update fun x => ?_
  cases hx : x.registry.listed? id with
  | none =>
    refine ⟨none, some, by simp_all, fun s _ listed => ?_⟩
    simp [listed, Registry.reviseAt_some]
  | some e =>
    refine ⟨some e, fun e => some (g e), fun h => Option.some.inj h ▸ hg _, fun s _ listed => ?_⟩
    simp [listed, Registry.update_eq]

theorem lend : Local host thread id (Operation.modifyGet fun s =>
    match s.registry.listed? id with
    | none => (none, s)
    | some e => (some e, { s with registry := s.registry.lend id })) :=
  listed (g := fun e => { e with loans := e.loans + 1 }) fun _ => rfl

theorem delist : Local host thread id (Operation.modifyGet fun s =>
    match s.registry.listed? id with
    | none => (none, s)
    | some e => (some e, { s with registry := s.registry.delist id })) :=
  listed (g := fun e => { e with listed := false, loans := e.loans + 1 }) fun _ => rfl

theorem claim : Local host thread id (Registry.claim id) := by
  refine update fun x => ?_
  cases hx : x.registry.find? id with
  | none =>
    refine ⟨false, some, by simp_all, fun s found _ => ?_⟩
    simp [found, Registry.reviseAt_some]
  | some e =>
    refine ⟨!e.delivered, fun e => some { e with delivered := true }, by simp_all,
      fun s found _ => ?_⟩
    simp [found, Registry.markDelivered, Registry.update_eq]

theorem returnLoan : Local host thread id (Operation.modifyGet fun s =>
    ((s.registry.returnLoan id).1, { s with registry := (s.registry.returnLoan id).2 })) := by
  refine update fun x => ?_
  cases hx : x.registry.find? id with
  | none =>
    refine ⟨none, some, by simp_all, fun s found _ => ?_⟩
    simp [Registry.returnLoan, found, Registry.reviseAt_some]
  | some e =>
    by_cases kept : (e.listed || 1 < e.loans) = true
    · refine ⟨none, fun e => some { e with loans := e.loans - 1 }, by simp_all, fun s found _ => ?_⟩
      simp [Registry.returnLoan, found, kept, Registry.update_eq]
    · refine ⟨some e.object, fun _ => none, by simp, fun s found _ => ?_⟩
      rw [Registry.reviseAt_none]
      simp [Registry.returnLoan, found, kept]

end Local

/-! ### Visits -/

/-- Calls of the host that an attached thread makes.  They leave the state
    alone, and unpin what they unpin. -/
def Serves {α : Type} (host : SteadyHost) (thread : Thread) (body : Operation α) (a : α)
    (calls : List Call) (unpins : Multiset HostObject) : Prop :=
  ∀ s w before, host.run thread (body thread s) (w, before) =
    (a, s, { w with pinned := w.pinned - unpins }, calls ++ before)

namespace Serves

theorem pure (a : α) : Serves host thread (Pure.pure a : Operation α) a [] 0 := by
  intro s w before
  rw [tsub_zero]
  rfl

theorem bind {a : α} {b : β} {calls calls' : List Call} {unpins unpins' : Multiset HostObject}
    (hm : Serves host thread m a calls unpins) (hf : Serves host thread (f a) b calls' unpins') :
    Serves host thread (m >>= f) b (calls' ++ calls) (unpins + unpins') := by
  intro s w before
  rw [SteadyHost.run_bind (hm s w before), hf, List.append_assoc, tsub_tsub]

theorem exists_bind {a : α} {calls : List Call} {unpins : Multiset HostObject}
    (hm : Serves host thread m a calls unpins)
    (hf : ∃ b calls' unpins', Serves host thread (f a) b calls' unpins') :
    ∃ b calls' unpins', Serves host thread (m >>= f) b calls' unpins' := by
  obtain ⟨b, calls', unpins', hf⟩ := hf
  exact ⟨b, _, _, hm.bind hf⟩

/-- A call that is answered in a fixed way and unpins nothing. -/
theorem call {c : HostCall} {a : c.Reply} (hr : ∀ w, host.reply thread w (.host c) = a)
    (hw : ∀ w, host.after thread w (.host c) = w) :
    Serves host thread (Operation.call (.host c)) a [.host c] 0 := by
  intro s w before
  rw [SteadyHost.run_call, hr, hw, tsub_zero]
  rfl

theorem unpin {o : HostObject} : Serves host thread (Operation.call (.host (.unpin o)))
    (host.answer (.host (.unpin o))) [.host (.unpin o)] {o} := by
  intro s w before
  rw [SteadyHost.run_call, Multiset.sub_singleton]
  rfl

/-- An owner is asked for, and the string that is answered is read and given
    back. -/
theorem askOwner (target : HostObject) (query : OwnerQuery) : ∃ owner calls unpins,
    Serves host thread (Dispatch.askOwner target query) owner calls unpins := by
  have asked : Serves host thread (Operation.call (.host (.resolve target query)))
      (host.answer (.host (.resolve target query))) [.host (.resolve target query)] 0 :=
    call (fun _ => rfl) fun _ => rfl
  refine asked.exists_bind ?_
  cases host.answer (.host (.resolve target query)) with
  | none => exact ⟨_, _, _, pure none⟩
  | some text =>
    have copied : Serves host thread (Operation.call (.host (.readString text)))
        (host.answer (.host (.readString text))) [.host (.readString text)] 0 :=
      call (fun _ => rfl) fun _ => rfl
    have freed : Serves host thread (Operation.call (.host (.freeString text)))
        (host.answer (.host (.freeString text))) [.host (.freeString text)] 0 :=
      call (fun _ => rfl) fun _ => rfl
    exact copied.exists_bind (freed.exists_bind ⟨_, _, _, pure (CString.text? _)⟩)

end Serves

namespace SteadyHost

theorem run_acquire_refused {refusal : Refusal} (hr : host.refusal thread = some refusal)
    (p : DetachPolicy) (s : State) (w : Surroundings) (before : List Call) :
    host.run thread (AttachGuard.acquire p thread s) (w, before) =
      (.error (.refused refusal.status), s, w, .host .attach :: before) := by
  have asks : host.run thread (Operation.call (.host .attach) thread s) (w, before) =
      (refusal.status, s, w, .host .attach :: before) := by
    have replied : host.reply thread w (.host .attach) = refusal.status := by simp [reply, hr]
    have around : host.after thread w (.host .attach) = w := by simp [after, hr]
    rw [run_call, replied, around]
    rfl
  rw [AttachGuard.acquire, run_bind asks, refusal.ofStatus_eq]
  rfl

/-- The guard detaches the thread if it was not attached before and the policy
    asks for that. -/
theorem run_acquire (hr : host.refusal thread = none) (p : DetachPolicy) (s : State)
    (w : Surroundings) (before : List Call) : ∃ s' w',
    host.run thread (AttachGuard.acquire p thread s) (w, before) =
      (.ok ⟨thread ∉ w.attached ∧ p = .detachOnExit⟩, s', w', .host .attach :: before) ∧
    Shared.of s' w' = Shared.of s { w with attached := insert thread w.attached } := by
  let joined : Surroundings := { w with attached := insert thread w.attached }
  have asks : host.run thread (Operation.call (.host .attach) thread s) (w, before) =
      (if thread ∈ w.attached then (0 : Int32) else (1 : Int32), s, joined,
        .host .attach :: before) := by
    have replied : host.reply thread w (.host .attach) =
        if thread ∈ w.attached then (0 : Int32) else (1 : Int32) := by simp [reply, hr]
    have around : host.after thread w (.host .attach) = joined := by simp [after, hr, joined]
    rw [run_call, replied, around]
    rfl
  rw [AttachGuard.acquire, run_bind asks]
  by_cases attached : thread ∈ w.attached
  · have already : AttachState.ofStatus 0 = .ok .attached := rfl
    refine ⟨s, joined, ?_, rfl⟩
    simp only [attached, if_true, already]
    rfl
  · have just_now : AttachState.ofStatus 1 = .ok .newlyAttached := rfl
    have unheard : Unheard host thread (Log.breadcrumb .attachment
      s!"attached thread {thread.text} (detach_on_drop={(p = .detachOnExit : Bool)})") :=
      .breadcrumb
    obtain ⟨_, s', w', told, same⟩ := unheard s joined (.host .attach :: before)
    refine ⟨s', w', ?_, same⟩
    simp only [attached, if_false, just_now, not_false_eq_true, true_and]
    have names : host.run thread (Operation.thread thread s) (joined, .host .attach :: before) =
      (thread, s, joined, .host .attach :: before) := rfl
    exact (run_bind names).trans (run_bind told)

theorem run_drop (host : SteadyHost) (thread : Thread) (detaches : Bool) (s : State)
    (w : Surroundings) (before : List Call) : ∃ s' w',
    host.run thread (AttachGuard.drop ⟨detaches⟩ thread s) (w, before) =
      ((), s', w', if detaches then .host .detach :: before else before) ∧
    Shared.of s' w' = Shared.of s
      { w with attached := if detaches then w.attached.erase thread else w.attached } := by
  cases detaches with
  | false => exact ⟨s, w, rfl, rfl⟩
  | true =>
    let left : Surroundings := { w with attached := w.attached.erase thread }
    have detach : host.run thread (Operation.call (.host .detach) thread s) (w, before) =
      (host.answer (.host .detach), s, left, .host .detach :: before) := rfl
    have names : host.run thread (Operation.thread thread s) (left, .host .detach :: before) =
      (thread, s, left, .host .detach :: before) := rfl
    have unheard : Unheard host thread (Log.breadcrumb .attachment
      s!"detached thread {thread.text}") := .breadcrumb
    obtain ⟨_, s', w', told, same⟩ := unheard s left (.host .detach :: before)
    exact ⟨s', w', (run_bind detach).trans ((run_bind names).trans told), same⟩

/-- A visit that the host refuses. -/
theorem run_visit_refused {refusal : Refusal} (hr : host.refusal thread = some refusal)
    (body : Operation α) (s : State) (w : Surroundings) (before : List Call) :
    host.run thread (visit body thread s) (w, before) =
      (.error (.refused refusal.status), s, w, .host .attach :: before) := by
  show host.run thread (onHostThread s.registry.policy body thread s) (w, before) = _
  rw [onHostThread, run_bind (run_acquire_refused hr ..)]
  rfl

/-- The thread is detached again, or not. -/
theorem run_visit (hr : host.refusal thread = none) {body : Operation α} {a : α}
    {calls : List Call} {unpins : Multiset HostObject}
    (hb : Serves host thread body a calls unpins) (s : State) (w : Surroundings)
    (before : List Call) :
    let detaches : Bool := thread ∉ w.attached ∧ s.registry.policy = .detachOnExit
    let joined := insert thread w.attached
    ∃ s' w', host.run thread (visit body thread s) (w, before) =
        (.ok a, s', w',
          (if detaches then [.host .detach] else []) ++ calls ++ [.host .attach] ++ before) ∧
      Shared.of s' w' = ⟨s.registry, s.counters.get,
        if detaches then joined.erase thread else joined, w.pinned - unpins⟩ := by
  intro detaches joined
  obtain ⟨s₁, w₁, acquires, same₁⟩ := run_acquire hr s.registry.policy s w before
  obtain ⟨s₂, w₂, drops, same₂⟩ := host.run_drop thread detaches s₁
    { w₁ with pinned := w₁.pinned - unpins } (calls ++ .host .attach :: before)
  refine ⟨s₂, w₂, ?_, ?_⟩
  · show host.run thread (onHostThread s.registry.policy body thread s) (w, before) = _
    rw [onHostThread, run_bind acquires]
    refine (run_bind (hb s₁ w₁ _)).trans ((run_bind drops).trans ?_)
    cases detaches <;> simp <;> rfl
  · simp only [Shared.of, Shared.mk.injEq] at same₁
    obtain ⟨registry, counted, attached, pinned⟩ := same₁
    rw [same₂]
    simp only [Shared.of, registry, counted, attached, pinned, joined]

end SteadyHost

/-- Which threads are attached after a visit, and after what others have left
    attached. -/
theorem attached_after {p : DetachPolicy} {others : Finset Thread} (thread : Thread)
    (attached : Finset Thread) (ho : p = .detachOnExit → others = ∅) :
    (if thread ∉ attached ∪ others ∧ p = .detachOnExit then
      (insert thread (attached ∪ others)).erase thread else insert thread (attached ∪ others)) =
    attached ∪ (if p = .detachOnExit then ∅ else {thread}) ∪ others := by
  cases p with
  | keepAttached =>
    ext t
    simp
  | detachOnExit =>
    by_cases before : thread ∈ attached <;> simp [ho rfl, before]

theorem Local.visit {body : Operation α} {a : α} {calls : List Call} {unpins : Multiset HostObject}
    (hb : Serves host thread body a calls unpins) :
    Local host thread id (CallbackBridge.visit body) := by
  intro x
  cases hr : host.refusal thread with
  | some refusal =>
    refine ⟨.error (.refused refusal.status), [.host .attach], .none, Footprint.confined_none, ?_⟩
    intro d' s w _ same before
    exact ⟨s, w, SteadyHost.run_visit_refused hr .., by rw [same, Footprint.apply_none]⟩
  | none =>
    let p := x.registry.policy
    let detaches : Bool := thread ∉ x.attached ∧ p = .detachOnExit
    refine ⟨.ok a, (if detaches then [.host .detach] else []) ++ calls ++ [.host .attach],
      .visiting unpins (if p = .detachOnExit then ∅ else {thread}),
      ⟨fun _ _ => rfl, fun hp => if_pos hp⟩, ?_⟩
    intro d' s w spares same before
    simp only [Shared.of, Footprint.apply, Shared.mk.injEq] at same
    obtain ⟨registry, counted, attached, pinned⟩ := same
    have policy : s.registry.policy = p := by rw [registry]; rfl
    obtain ⟨s', w', ran, same⟩ := SteadyHost.run_visit hr hb s w before
    simp only [policy, attached] at ran same
    -- where threads are detached again, others have left none attached
    have guard : decide (thread ∉ x.attached ∪ d'.attaches ∧ p = .detachOnExit) = detaches := by
      simp only [detaches, decide_eq_decide, and_congr_left_iff]
      intro hp
      simp [spares.detaches hp]
    refine ⟨s', w', by rw [ran, guard], ?_⟩
    rw [same, registry, counted, pinned]
    simp only [decide_eq_true_eq, attached_after thread x.attached spares.detaches, p,
      Footprint.apply, Footprint.visiting, Footprint.none, Registry.revise, List.filterMap_some,
      add_zero]
    rw [tsub_right_comm]

/-! ### The registry -/

/-- What is looked up has the id that it was looked up by. -/
theorem Registry.look_eq (id : HandleId) :
    look id = look id >>= fun found => pure (found.map fun e => { e with id }) := by
  funext thread s
  rw [Operation.bind_apply]
  cases hn : id.isNull with
  | true =>
    rw [look_null hn]
    rfl
  | false =>
    cases hf : s.registry.listed? id with
    | none =>
      rw [look_released hn hf]
      rfl
    | some e =>
      obtain ⟨-, rfl, -⟩ := mem_of_listed? hf
      rw [look_listed hn hf]
      rfl

namespace Local

/-- What follows on a visit. -/
theorem after {body : Operation α} {a : α} {calls : List Call} {unpins : Multiset HostObject}
    {next : Except AttachError α → Operation β} (hb : Serves host thread body a calls unpins)
    (hn : ∀ r, Local host thread id (next r)) :
    Local host thread id (do
      let s ← Operation.state
      let r ← onHostThread s.registry.policy body
      next r) := by
  rw [← visit_bind]
  exact (visit hb).bind hn

theorem unpin {o : HostObject} : Local host thread id (Registry.unpin o) := by
  refine after Serves.unpin fun result => ?_
  cases result with
  | ok _ => exact .pure ()
  | error e => exact bump.bind fun _ => .unheard .limitedError (.pure ())

theorem giveBack : Local host thread id (Registry.giveBack id) := by
  refine returnLoan.bind fun last => ?_
  cases last with
  | none => exact .pure ()
  | some o => exact unpin

theorem look : Local host thread id (Registry.look id) := by
  unfold Registry.look
  split
  · exact .pure _
  · refine lend.bind fun found => ?_
    cases found with
    | some e => exact .pure _
    | none => exact bump.bind fun _ => .pure _

theorem take : Local host thread id (Registry.take id) := by
  refine delist.bind fun found => ?_
  cases found with
  | none => exact .pure false
  | some e =>
    exact bump.bind fun _ => .unheard .breadcrumb (giveBack.bind fun _ => .pure true)

theorem remove : Local host thread id (Registry.remove id) := by
  refine take.bind fun found => ?_
  cases found with
  | true => exact .pure true
  | false => exact bump.bind fun _ => .unheard .limitedError (.pure false)

theorem release {handle : Handle} : Local host thread handle.id (Registry.release handle) := by
  refine remove.bind fun found => ?_
  cases found with
  | true => exact .pure ()
  | false =>
    have warns : Local host thread handle.id (Log.warn
        s!"release: handle {handle.id.text} was already released raw" >>= fun _ => Pure.pure ()) :=
      .unheard .emit (.pure ())
    rwa [bind_pure_unit] at warns

theorem releaseRaw : Local host thread id (Registry.releaseRaw id) := by
  unfold Registry.releaseRaw
  split
  · exact .pure false
  · exact remove

theorem releaseIfPresent : Local host thread id (Registry.releaseIfPresent id) := by
  unfold Registry.releaseIfPresent
  split
  · exact .pure false
  · refine take.bind fun found => ?_
    cases found with
    | true => exact .pure true
    | false => exact .unheard .breadcrumb (.pure false)

/-! ### The dispatcher -/

theorem attached {body : Operation α} {a : α} {calls : List Call} {unpins : Multiset HostObject}
    (hb : Serves host thread body a calls unpins) :
    Local host thread id (Dispatch.attached body) := by
  refine after hb fun result => ?_
  cases result with
  | ok a => exact .pure _
  | error e => exact bump.bind fun _ => .pure _

theorem withTarget {shape : CallShape} {body : Registration → Operation (Except DispatchError α)}
    (hb : ∀ e, e.id = id → Local host thread id (body e)) :
    Local host thread id (Dispatch.withTarget shape id body) := by
  unfold Dispatch.withTarget
  rw [Registry.look_eq, bind_assoc]
  refine look.bind fun found => ?_
  rw [pure_bind]
  cases found with
  | error e => exact .pure _
  | ok e =>
    simp only [Except.map]
    split
    · exact (hb _ rfl).bind fun result => giveBack.bind fun _ => .pure result
    · exact giveBack.bind fun _ => .pure _

theorem reportDrop {shape : CallShape} {e : DispatchError} :
    Local host thread id (Dispatch.reportDrop shape id e) :=
  bump.bind fun _ => .unheard .limitedError (.pure ())

theorem settle {shape : CallShape} {result : Except DispatchError Unit} :
    Local host thread id (Dispatch.settle shape id result) := by
  cases result with
  | ok _ => exact bump.bind fun _ => .unheard .breadcrumb (.pure _)
  | error e => exact reportDrop.bind fun _ => .pure _

theorem claimResult {e : Registration} (he : e.id = id) :
    Local host thread id (Dispatch.claimResult e) := by
  unfold Dispatch.claimResult
  rw [he]
  split
  · refine claim.bind fun claimed => ?_
    cases claimed with
    | true => exact .pure _
    | false => exact bump.bind fun _ => .unheard .limitedError (.pure _)
  · exact .pure _

/-- Every request to the dispatcher. -/
theorem dispatch (d : DispatchRequest) : Local host thread d.id d.operation := by
  cases d with
  | protect id fd =>
    show Local host thread id (Dispatch.protect id fd)
    unfold Dispatch.protect
    split
    · exact .pure _
    · refine (withTarget fun target _ => ?_).bind fun _ => settle
      exact attached (.call (fun _ => rfl) fun _ => rfl)
  | notify id payload =>
    show Local host thread id (Dispatch.notify id payload)
    unfold Dispatch.notify
    split
    · exact .pure _
    · refine (withTarget fun target _ => ?_).bind fun _ => settle
      exact attached (.call (fun _ => rfl) fun _ => rfl)
  | resolveOwner id query =>
    show Local host thread id (Dispatch.resolveOwner id query)
    have asks : ∀ target : Registration, Local host thread id
        (Dispatch.attached (Dispatch.askOwner target.object query)) := by
      intro target
      obtain ⟨_, _, _, serves⟩ := Serves.askOwner target.object query
      exact attached serves
    refine (withTarget fun target _ => asks target).bind fun result => ?_
    rcases result with e | (_ | owner)
    · exact reportDrop.bind fun _ => .pure _
    · exact bump.bind fun _ => .unheard .limitedError (.pure _)
    · exact bump.bind fun _ => .pure _
  | deliverResult id data =>
    show Local host thread id (Dispatch.deliverResult id data)
    unfold Dispatch.deliverResult
    split
    · exact .pure _
    · refine (withTarget fun target named => (claimResult named).bind fun claimed => ?_).bind
        fun _ => settle
      cases claimed with
      | error e => exact .pure _
      | ok _ => exact attached (.call (fun _ => rfl) fun _ => rfl)

/-- Every request of an engine. -/
theorem serve (table : CallbackTable) (q : EngineRequest) :
    Local host thread q.id (table.serve q) := by
  unfold CallbackTable.serve
  split
  · cases q with
    | protect handle fd => exact (dispatch (.protect ⟨handle⟩ fd)).bind fun _ => .pure ()
    | resolveOwner handle protocol source target uid =>
      exact (dispatch (.resolveOwner ⟨handle⟩
        ⟨protocol, source.getD .empty, target.getD .empty, uid⟩)).bind fun _ => .pure _
    | onResult handle data =>
      exact (dispatch (.deliverResult ⟨handle⟩ (data.getD .empty))).bind fun _ => .pure ()
    | release handle => exact releaseRaw.bind fun _ => .pure ()
  · exact .pure _

/-- Every request on one handle. -/
theorem request (host : SteadyHost) (thread : Thread) {q : Request} (hq : q.handle? = some id) :
    Local host thread id q.operation := by
  cases q with
  | dispatch d =>
    obtain rfl := Option.some.inj hq
    exact dispatch d
  | callback table q =>
    obtain rfl := Option.some.inj hq
    exact serve table q
  | registry q =>
    cases q with
    | register | close => cases hq
    | look =>
      obtain rfl := Option.some.inj hq
      exact look
    | giveBack =>
      obtain rfl := Option.some.inj hq
      exact giveBack
    | release =>
      obtain rfl := Option.some.inj hq
      exact release
    | releaseRaw =>
      obtain rfl := Option.some.inj hq
      exact releaseRaw
    | releaseIfPresent =>
      obtain rfl := Option.some.inj hq
      exact releaseIfPresent
  | library | bridge | entry | log => cases hq

end Local

end CallbackBridge
