import CallbackBridge.Proofs.Handover
import CallbackBridge.Proofs.Run.Spending
import CallbackBridge.Proofs.Run.Entries

/-! # Failures

    A call that fails leaves the bridge as it was.

    Key ideas:

    1. A call is declined where the bridge is not initialised or an argument is
       missing.  Then only the log is called.
    2. A registration fails in one of four ways.  What the operation was told
       shows which, and that a pinned object is unpinned again.
    3. Host objects may use the bridge meanwhile.  So the changes that the
       operation makes by itself are told apart from those that are nested in
       its calls. -/

namespace CallbackBridge

open Run Run.History

/-! ### Failures -/

namespace Request

/-- The object that a request registers, and what for. -/
def registers? : Request → Option (HostObject × HandleKind)
  | .bridge (.startTunnel o _) => some (o, .tunnel)
  | .bridge (.invokeAction _ o) => some (o, .invoke)
  | .bridge (.setEventListener o) => o.map fun o => (o, .listener)
  | .entry (.startTunnel _ o _ _ _) => o.map fun o => (o, .tunnel)
  | .entry (.invokeAction _ o) => o.map fun o => (o, .invoke)
  | .entry (.setEventListener o) => o.map fun o => (o, .listener)
  | _ => none

/-- The bridge is not initialised, or an argument is missing. -/
def Declines : (q : Request) → q.Result → Prop
  | .entry (.startTunnel ..), status | .entry (.invokeAction ..), status
  | .entry (.setEventListener _), status =>
    status = .uninitialized ∨ status = .invalidArgument
  | _, _ => False

/-- The object could not be registered.  An entry point does not tell why. -/
def Fails : (q : Request) → q.Result → HandleError → Prop
  | .bridge (.startTunnel ..), result, err | .bridge (.invokeAction ..), result, err
  | .bridge (.setEventListener _), result, err => result = .error err
  | .entry (.startTunnel ..), status, _ | .entry (.invokeAction ..), status, _
  | .entry (.setEventListener _), status, _ => status = .handleFailure
  | _, _, _ => False

end Request

/-- Told on the attempt to give back a reference: the thread was refused, or
    the host has unpinned it. -/
def Returned (reference : HostObject) (policy : DetachPolicy) (told : List Exchange) : Prop :=
  (∃ err s, Refused err s told) ∨ ∃ s, Visited policy (.host (.unpin reference)) () s told

/-- What was told, newest first, where the registration of an object failed. -/
inductive Undone (o : HostObject) (k : HandleKind) (r : Registry) :
    HandleError → List Exchange → Prop
  /-- There was no room in the beginning. -/
  | full : r.atCapacity = true → Undone o k r (.capacityExceeded r.capacity) []
  /-- The host has refused to attach the thread, or to pin the object. -/
  | unpinnable {told : List Exchange} : Unpinnable o r.policy told → Undone o k r .pinFailed told
  /-- Once the object was pinned there was no room any more, or no id left. -/
  | unlisted {reference : HostObject} {s : State} {err : HandleError} {told later : List Exchange} :
    Visited r.policy (.host (.pin o)) (some reference) s told →
    (s.registry.enlist reference k).1 = .error err → Returned reference s.registry.policy later →
    Undone o k r err (later ++ told)

/-- A change that counts refusals, if anything.  The slot may be locked and
    unlocked by whoever sets a listener. -/
structure Untouched (sets : Bool) (s s' : State) : Prop where
  registry_eq : s'.registry = s.registry
  counters : ∀ k, k ≠ .attachFailures → s'.counters.get k = s.counters.get k
  current_eq : s'.listener.current = s.listener.current
  slot : sets = false → s'.listener = s.listener

namespace Run

/-- How operation `op` leaves the bridge when its registration has failed. -/
structure RollsBack (op : Nat) (thread : Thread) (q : Request) (result : q.Result) (s : State)
    (before : History) : Prop where
  /-- By itself the operation changes nothing but the count of refusals. -/
  own : History.Own op (fun s s' _ => Untouched q.setsListener s s')
    (⟨.ends op thread q result, s⟩ :: before)
  /-- It counts each refusal that it was told. -/
  failures : History.added op .attachFailures (⟨.ends op thread q result, s⟩ :: before) =
    .ofNat (before.countBy op isRefusal)
  /-- The slot is unlocked again. -/
  unlocked : q.setsListener = true → s.listener.locked = false

/-- So does one that began in `s₀`, and what it was told shows why. -/
structure Undoes (op : Nat) (thread : Thread) (q : Request) (result : q.Result) (s₀ s : State)
    (before : History) : Prop extends RollsBack op thread q result s before where
  /-- The engine is not called. -/
  engine : before.engineCalls op = []
  /-- There was no room, or the host has refused, or there was no id left. -/
  reason : ∃ o k err, q.registers? = some (o, k) ∧ q.Fails result err ∧
    Undone o k s₀.registry err (exchanges op before)
  /-- No reference stays pinned, unless the host has refused the thread that
      was to give it back. -/
  unpinned : ∀ o reference, (o, reference) ∈ (exchanges op before).filterMap Exchange.pinned? →
    (∃ s, ⟨.host (.unpin reference), (), s⟩ ∈ exchanges op before) ∨
      ∃ err s told, Refused err s told ∧ told <+: exchanges op before

/-- What each moment of a run keeps to. -/
structure Moment.Harmless (m : Moment) (before : History) : Prop where
  /-- A call that is declined calls nobody but the log and changes nothing. -/
  declined : ∀ op thread q result, m.event = .ends op thread q result → q.Declines result →
    ∃ s₀, ⟨.begins op thread q, s₀⟩ ∈ before ∧ made op before = [] ∧ m.state = s₀
  /-- Nor does one stay that could not register its object. -/
  failed : ∀ op thread q result err, m.event = .ends op thread q result → q.Fails result err →
    ∃ s₀, ⟨.begins op thread q, s₀⟩ ∈ before ∧ Undoes op thread q result s₀ m.state before

end Run

/-! ### What a registration is told that fails -/

section

open Operation

variable {α β : Type} {thread : Thread} {s : State} {o reference : HostObject} {k : HandleKind}
  {told later : List Exchange} {r : Registry} {err : HandleError} {callback : Option HostObject}

theorem Registry.unpin_follows :
    (Registry.unpin reference thread s).Follows
      ⟨fun _ _ _ => True, fun told _ _ => Returned reference s.registry.policy told⟩ [] := by
  simp only [Registry.unpin, Operation.bind_apply, Operation.state_apply, Progress.bind]
  refine Progress.Follows.bind ((onHostThread_follows rfl).mono (fun _ _ _ _ => trivial) ?_)
  intro told result s₁ h
  cases result with
  | ok _ => exact .inr ⟨s₁, h⟩
  | error e =>
    -- nothing more is told while the refusal is counted and logged
    have counts : (do
        bump .attachFailures
        let _ ← Log.limitedError .attachFailure
          s!"leaking host reference {Text.Decimal.hex reference.address.toNat}: {e.message}"
        pure () : Operation Unit).Quiet thread s₁ fun _ _ => True :=
      .bind .bump fun _ s₂ _ => .bind .limitedError fun _ s₃ _ => .of_eq rfl trivial
    refine (counts told).mono (fun _ _ _ _ => trivial) ?_
    intro told' _ _ hq
    obtain ⟨rfl, -⟩ := hq
    exact .inl ⟨e, s₁, h⟩

/-- The plan of whatever registers an object: a failure is as `Undone` says. -/
def Plan.registering (α : Type) (callback : Option HostObject) (k : HandleKind) (r : Registry) :
    Plan (Except HandleError α) where
  calls _ _ _ := True
  ends told result _ :=
    ∀ err, result = .error err → ∃ o, callback = some o ∧ Undone o k r err told

namespace Registry

theorem register_undone :
    (register o k thread s).Follows (.registering Handle (some o) k s.registry) [] := by
  rw [register_eq]
  simp only [Operation.bind_apply, Operation.state_apply, Progress.bind]
  split
  · next full =>
    intro err he
    cases he
    exact ⟨o, rfl, .full full⟩
  refine Progress.Follows.bind (pin_follows.mono (fun _ _ _ _ => trivial) ?_)
  intro told pinned s₁ h
  cases pinned with
  | error e =>
    obtain ⟨rfl, unpinnable⟩ := h
    intro err he
    cases he
    exact ⟨o, rfl, .unpinnable unpinnable⟩
  | ok reference =>
    simp only [enter, entering, Operation.bind_apply, Operation.modifyGet_apply, Progress.bind]
    rcases he : s₁.registry.enlist reference k with ⟨e | id, r⟩
    · -- the reference is given back
      refine Progress.Follows.bind ?_
      show Progress.Follows _ ([] ++ told) _
      refine Progress.Follows.shift (unpin_follows.mono (fun _ _ _ _ => trivial) ?_)
      intro later _ s₂ returned err heq
      cases heq
      exact ⟨o, rfl, .unlisted h (by rw [he]) returned⟩
    · refine Progress.Follows.bind ((Quiet.breadcrumb told).mono (fun _ _ _ _ => trivial) ?_)
      intro _ _ s₂ _ err heq
      cases heq

/-- A failure is passed on, and once there is a handle nothing fails. -/
theorem register_registering {fails : HandleError → Operation (Except HandleError β)}
    {next : Handle → Operation (Except HandleError β)}
    (hf : ∀ err s, (fails err).Quiet thread s fun result _ => result = .error err)
    (hn : ∀ handle, (next handle).Makes (fun _ => True) fun result => ∃ b, result = .ok b) :
    ((do match ← register o k with
        | .error e => fails e
        | .ok handle => next handle : Operation (Except HandleError β)) thread s).Follows
      (.registering β (some o) k s.registry) [] := by
  refine Progress.Follows.bind (register_undone.mono (fun _ _ _ h => h) ?_)
  intro told result s' undone
  cases result with
  | error err =>
    refine (hf err s' told).mono (fun _ _ _ _ => trivial) ?_
    intro told' _ _ hq err' heq
    obtain ⟨rfl, rfl⟩ := hq
    cases heq
    exact undone err rfl
  | ok handle =>
    refine (hn handle thread s' told).mono (fun _ _ _ _ => trivial) ?_
    intro told' _ _ hm err heq
    obtain ⟨-, b, rfl⟩ := hm
    cases heq

end Registry

namespace Bridge

/-- Once there is a handle, the bridge passes it to the engine and reports it. -/
theorem succeeds {m : Operation Unit} {f : State → Operation Unit} {id : HandleId} :
    (do m; let s ← Operation.state; f s; pure (.ok id) :
      Operation (Except HandleError HandleId)).Makes (fun _ => True) fun result =>
        ∃ id, result = .ok id :=
  .bind (.anything _) fun _ _ => .bind .state fun _ _ => .bind (.anything _) fun _ _ =>
    .pure ⟨id, rfl⟩

/-- So it does with a listener, and with the null handle. -/
theorem replaceListener_succeeds {id : HandleId} :
    (do replaceListener id; pure (.ok id) : Operation (Except HandleError HandleId)).Makes
      (fun _ => True) fun result => ∃ id, result = .ok id :=
  .bind (.anything _) fun _ _ => .pure ⟨id, rfl⟩

theorem startTunnel_registering {settings : TunnelSettings} :
    (startTunnel o settings thread s).Follows
      (.registering HandleId (some o) .tunnel s.registry) [] := by
  exact Registry.register_registering (fun _ _ => .of_eq rfl rfl) fun _ => succeeds

theorem invokeAction_registering {data : CString} :
    (invokeAction data o thread s).Follows
      (.registering HandleId (some o) .invoke s.registry) [] := by
  exact Registry.register_registering (fun _ _ => .of_eq rfl rfl) fun _ => succeeds

theorem setEventListener_registering :
    (setEventListener callback thread s).Follows
      (.registering HandleId callback .listener s.registry) [] := by
  cases callback with
  | none =>
    refine (replaceListener_succeeds thread _ []).mono (fun _ _ _ _ => trivial) ?_
    intro told' _ _ hm err heq
    obtain ⟨-, id, rfl⟩ := hm
    cases heq
  | some o =>
    -- the slot is locked before, and unlocked where that fails
    have fails : ∀ err s, (do lockSlot false; pure (.error err) :
        Operation (Except HandleError HandleId)).Quiet thread s fun result _ =>
          result = .error err :=
      fun err s => .of_eq rfl rfl
    exact Registry.register_registering (s := { s with listener.locked := true }) fails
      fun _ => replaceListener_succeeds

end Bridge

/-- The plan of an entry point that registers a callback object. -/
def Plan.entering (callback : Option HostObject) (k : HandleKind) (s : State) :
    Plan Entry.Status where
  calls _ _ _ := True
  ends told status s' :=
    (status = .uninitialized ∨ status = .invalidArgument → told = [] ∧ s' = s) ∧
    (status = .handleFailure → ∃ o err, callback = some o ∧ Undone o k s.registry err told)

namespace Entry

/-- What is logged before makes no difference. -/
theorem follows_of_quiet {m : Operation α} {v : α} {f : α → Operation Status}
    (hm : m.Quiet thread s fun a s' => a = v ∧ s' = s)
    (hf : (f v thread s).Follows (.entering callback k s) []) :
    ((m >>= f) thread s).Follows (.entering callback k s) [] := by
  refine Progress.Follows.bind ((hm []).mono (fun _ _ _ _ => trivial) ?_)
  intro told a s' hq
  obtain ⟨rfl, rfl, rfl⟩ := hq
  exact hf

/-- A call is declined before anything has happened. -/
theorem follows_of_declined {status : Status} (hs : status ≠ .handleFailure) :
    ((pure status : Operation Status) thread s).Follows (.entering callback k s) [] :=
  ⟨fun _ => ⟨rfl, rfl⟩, fun hf => absurd hf hs⟩

theorem whenReady_follows {point : Point} {body : Operation Status}
    (hb : (body thread s).Follows (.entering callback k s) []) :
    (whenReady point .uninitialized body thread s).Follows (.entering callback k s) [] := by
  simp only [whenReady, Operation.bind_apply, Operation.state_apply, Progress.bind]
  split
  · exact hb
  · exact follows_of_quiet (v := ()) (Quiet.emit.mono fun _ _ h => ⟨rfl, h⟩)
      (follows_of_declined (by decide))

theorem required_quiet {point : Point} {name : String} {value : Option CString} :
    (required point name value).Quiet thread s fun a s' => a = value ∧ s' = s := by
  unfold required
  split
  · refine .bind .emit fun _ s₁ hs => ?_
    subst hs
    exact .of_eq rfl ⟨rfl, rfl⟩
  · exact .of_eq rfl ⟨rfl, rfl⟩

theorem requiredCallback_quiet {point : Point} :
    (requiredCallback point callback).Quiet thread s fun a s' => a = callback ∧ s' = s := by
  unfold requiredCallback
  split
  · refine .bind .emit fun _ s₁ hs => ?_
    subst hs
    exact .of_eq rfl ⟨rfl, rfl⟩
  · exact .of_eq rfl ⟨rfl, rfl⟩

theorem registered_follows {point : Point} {m : Operation (Except HandleError HandleId)}
    (hm : (m thread s).Follows (.registering HandleId callback k s.registry) []) :
    ((m >>= registered point) thread s).Follows (.entering callback k s) [] := by
  refine Progress.Follows.bind (hm.mono (fun _ _ _ h => h) ?_)
  intro told result s' undone
  cases result with
  | ok id =>
    have neither : ¬ (Status.ok = .uninitialized ∨ Status.ok = .invalidArgument) := by decide
    exact ⟨fun h => absurd h neither, nofun⟩
  | error err =>
    have neither : ¬ (Status.handleFailure = .uninitialized ∨
        Status.handleFailure = .invalidArgument) := by decide
    have fails : (registered point (.error err)).Quiet thread s' fun status _ =>
        status = .handleFailure :=
      .bind .emit fun _ s₁ _ => .of_eq rfl rfl
    refine (fails told).mono (fun _ _ _ _ => trivial) ?_
    intro told' _ _ hq
    obtain ⟨rfl, rfl⟩ := hq
    obtain ⟨o, rfl, hu⟩ := undone err rfl
    exact ⟨fun h => absurd h neither, fun _ => ⟨o, err, rfl, hu⟩⟩

theorem startTunnel_follows {fd : Int32} {stack address dns : Option CString} :
    (startTunnel fd callback stack address dns thread s).Follows
      (.entering callback .tunnel s) [] := by
  refine whenReady_follows (follows_of_quiet requiredCallback_quiet ?_)
  cases callback with
  | none => exact follows_of_declined (by decide)
  | some o =>
    refine follows_of_quiet required_quiet (follows_of_quiet required_quiet
      (follows_of_quiet required_quiet ?_))
    -- each of the three strings has to be there
    cases stack with
    | none => exact follows_of_declined (by decide)
    | some stack =>
      cases address with
      | none => exact follows_of_declined (by decide)
      | some address =>
        cases dns with
        | none => exact follows_of_declined (by decide)
        | some dns => exact registered_follows Bridge.startTunnel_registering

theorem invokeAction_follows {data : Option CString} :
    (invokeAction data callback thread s).Follows (.entering callback .invoke s) [] := by
  refine whenReady_follows (follows_of_quiet requiredCallback_quiet ?_)
  cases callback with
  | none => exact follows_of_declined (by decide)
  | some o =>
    refine follows_of_quiet required_quiet ?_
    cases data with
    | none => exact follows_of_declined (by decide)
    | some data => exact registered_follows Bridge.invokeAction_registering

theorem setEventListener_follows :
    (setEventListener callback thread s).Follows (.entering callback .listener s) [] :=
  whenReady_follows (registered_follows Bridge.setEventListener_registering)

end Entry

/-- The plan of every request. -/
def Plan.undoing (q : Request) (s : State) : Plan q.Result where
  calls _ _ _ := True
  ends told result s' :=
    (q.Declines result → told = [] ∧ s' = s) ∧
    ∀ err, q.Fails result err → ∃ o k err, q.registers? = some (o, k) ∧ q.Fails result err ∧
      Undone o k s.registry err told

/-- However a request ends, what it was told shows why. -/
theorem Request.undoing (q : Request) : (q.operation thread s).Follows (.undoing q s) [] := by
  -- what registers nothing is not declined and does not fail
  have harmless : (∀ result, ¬ q.Declines result) → (∀ result err, ¬ q.Fails result err) →
      (q.operation thread s).Follows (.undoing q s) [] := by
    intro hd hf
    refine (Progress.Follows.anything _ []).mono (fun _ _ _ h => h) fun told result s' _ => ?_
    exact ⟨fun h => absurd h (hd result), fun err h => absurd h (hf result err)⟩
  match q with
  | .bridge q =>
    cases q with
    | startTunnel o settings =>
      refine Bridge.startTunnel_registering.mono (fun _ _ _ h => h) fun told result s' h => ?_
      refine ⟨fun hd => False.elim hd, fun err hf => ?_⟩
      obtain ⟨o', heq, undone⟩ := h err hf
      cases heq
      exact ⟨_, _, err, rfl, hf, undone⟩
    | invokeAction data o =>
      refine Bridge.invokeAction_registering.mono (fun _ _ _ h => h) fun told result s' h => ?_
      refine ⟨fun hd => False.elim hd, fun err hf => ?_⟩
      obtain ⟨o', heq, undone⟩ := h err hf
      cases heq
      exact ⟨_, _, err, rfl, hf, undone⟩
    | setEventListener callback =>
      refine Bridge.setEventListener_registering.mono (fun _ _ _ h => h) fun told result s' h => ?_
      refine ⟨fun hd => False.elim hd, fun err hf => ?_⟩
      obtain ⟨o', rfl, undone⟩ := h err hf
      exact ⟨_, _, err, rfl, hf, undone⟩
    | _ => exact harmless (fun _ h => h) fun _ _ h => h
  | .entry q =>
    cases q with
    | startTunnel fd callback stack address dns =>
      refine Entry.startTunnel_follows.mono (fun _ _ _ h => h) fun told status s' h => ?_
      refine ⟨h.1, fun err hf => ?_⟩
      obtain ⟨o, err', rfl, undone⟩ := h.2 hf
      exact ⟨o, _, err', rfl, hf, undone⟩
    | invokeAction data callback =>
      refine Entry.invokeAction_follows.mono (fun _ _ _ h => h) fun told status s' h => ?_
      refine ⟨h.1, fun err hf => ?_⟩
      obtain ⟨o, err', rfl, undone⟩ := h.2 hf
      exact ⟨o, _, err', rfl, hf, undone⟩
    | setEventListener callback =>
      refine Entry.setEventListener_follows.mono (fun _ _ _ h => h) fun told status s' h => ?_
      refine ⟨h.1, fun err hf => ?_⟩
      obtain ⟨o, err', rfl, undone⟩ := h.2 hf
      exact ⟨o, _, err', rfl, hf, undone⟩
    | _ => exact harmless (fun _ h => h) fun _ _ h => h
  | .registry _ | .dispatch _ | .callback .. | .library _ | .log _ =>
    exact harmless (fun _ h => h) fun _ _ h => h

/-! ### What that leaves pinned -/

theorem Refused.hosts {e : AttachError} (h : Refused e s told) :
    ∀ x ∈ told, x.call.toEngine = false := by
  obtain ⟨status, rfl, -⟩ := h
  intro x hx
  obtain rfl := List.mem_singleton.mp hx
  rfl

theorem Refused.pinned {e : AttachError} (h : Refused e s told) :
    told.filterMap Exchange.pinned? = [] := by
  obtain ⟨status, rfl, -⟩ := h
  rfl

theorem Visited.hosts {policy : DetachPolicy} {c : HostCall} {reply : c.Reply}
    (h : Visited policy (.host c) reply s told) : ∀ x ∈ told, x.call.toEngine = false := by
  cases h <;> simp [Call.toEngine]

/-- On such a visit nothing is pinned. -/
theorem Visited.unpinned {policy : DetachPolicy}
    (h : Visited policy (.host (.unpin reference)) () s told) :
    told.filterMap Exchange.pinned? = [] := by
  cases h <;> rfl

theorem Visited.pin_refused {policy : DetachPolicy}
    (h : Visited policy (.host (.pin o)) none s told) :
    told.filterMap Exchange.pinned? = [] := by
  cases h <;> rfl

theorem Returned.hosts {policy : DetachPolicy} (h : Returned reference policy told) :
    ∀ x ∈ told, x.call.toEngine = false := by
  rcases h with ⟨e, s, refused⟩ | ⟨s, visited⟩
  · exact refused.hosts
  · exact visited.hosts

theorem Returned.pinned {policy : DetachPolicy} (h : Returned reference policy told) :
    told.filterMap Exchange.pinned? = [] := by
  rcases h with ⟨e, s, refused⟩ | ⟨s, visited⟩
  · exact refused.pinned
  · exact visited.unpinned

namespace Undone

/-- Only the host is called. -/
theorem hosts (hu : Undone o k r err told) : ∀ x ∈ told, x.call.toEngine = false := by
  cases hu with
  | full => exact fun x hx => by cases hx
  | unpinnable h =>
    rcases h with ⟨e, s, refused⟩ | ⟨s, visited⟩
    · exact refused.hosts
    · exact visited.hosts
  | unlisted visited _ returned =>
    intro x hx
    rcases List.mem_append.mp hx with hx | hx
    · exact returned.hosts x hx
    · exact visited.hosts x hx

/-- What was pinned is unpinned, unless the thread was refused. -/
theorem unpinned (hu : Undone o k r err told) :
    ∀ o' reference, (o', reference) ∈ told.filterMap Exchange.pinned? →
      (∃ s, ⟨.host (.unpin reference), (), s⟩ ∈ told) ∨
        ∃ e s told', Refused e s told' ∧ told' <+: told := by
  intro o' reference' hm
  cases hu with
  | full => cases hm
  | unpinnable h =>
    have none : told.filterMap Exchange.pinned? = [] := by
      rcases h with ⟨e, s, refused⟩ | ⟨s, visited⟩
      · exact refused.pinned
      · exact visited.pin_refused
    rw [none] at hm
    cases hm
  | @unlisted reference s _ told later visited _ returned =>
    rw [List.filterMap_append, returned.pinned, visited.pinned] at hm
    cases List.mem_singleton.mp hm
    rcases returned with ⟨e, s, refused⟩ | ⟨s, visited⟩
    · exact .inr ⟨e, s, later, refused, List.prefix_append ..⟩
    · obtain ⟨s', hx⟩ := visited.exists_reply
      exact .inl ⟨s', List.mem_append_left _ hx⟩

end Undone

end

/-! ### What changes meanwhile -/

namespace Untouched

variable {sets : Bool} {s s' s₁ : State}

theorem refl (s : State) : Untouched sets s s :=
  ⟨rfl, fun _ _ => rfl, rfl, fun _ => rfl⟩

theorem trans (h : Untouched sets s s') (h' : Untouched sets s' s₁) : Untouched sets s s₁ where
  registry_eq := h'.registry_eq.trans h.registry_eq
  counters k hk := (h'.counters k hk).trans (h.counters k hk)
  current_eq := h'.current_eq.trans h.current_eq
  slot hn := (h'.slot hn).trans (h.slot hn)

theorem counted : Untouched sets s { s with counters := s.counters.bump .attachFailures } :=
  ⟨rfl, fun _ hk => Counters.get_bump_ne _ _ _ hk, rfl, fun _ => rfl⟩

theorem limited (limiter : Log.Limiter) : Untouched sets s { s with limiter } :=
  ⟨rfl, fun _ _ => rfl, rfl, fun _ => rfl⟩

/-- Whoever sets a listener locks the slot, and unlocks it. -/
theorem locked (locked : Bool) : Untouched true s { s with listener.locked := locked } :=
  ⟨rfl, fun _ _ => rfl, rfl, nofun⟩

end Untouched

namespace Run

variable {α β : Type} {sets : Bool} {op : Nat} {thread : Thread} {s s' : State} {h : History}
  {q : Request} {m : Operation α} {o : HostObject} {k : HandleKind}

/-- Operation `op` has changed nothing but the count of refusals, so far. -/
structure Idle (sets : Bool) (op : Nat) (s : State) (h : History) : Prop where
  own : History.Own op (fun s s' _ => Untouched sets s s') h
  since : ∀ m ∈ h.head?, Untouched sets m.state s

/-- And it has counted each refusal. -/
structure Bare (sets : Bool) (op : Nat) (s : State) (h : History) : Prop
    extends Idle sets op s h where
  tally : Tally (fun _ => True) [] 0 0 op s h

/-- Where an operation fails, it has left the bridge as it was. -/
def undoing : Nesting :=
  .closing (fun _ => True) (fun _ _ => True) fun op thread q result s before =>
    (∃ err, q.Fails result err) → RollsBack op thread q result s before

namespace Idle

theorem change (hi : Idle sets op s h) (hs : Untouched sets s s') : Idle sets op s' h :=
  ⟨hi.own, fun m hm => (hi.since m hm).trans hs⟩

/-- What is nested in a call is not the operation's own. -/
theorem carries_call (c : Call) :
    undoing.Carries (fun op _ s h => Idle sets op s h) (Operation.call c) := by
  intro op thread s h hi
  refine ⟨fun _ _ _ _ he => (by cases he), fun _ => trivial, fun r s' h' lost ho _ => ?_⟩
  refine ⟨fun _ _ _ _ he => (by cases he), ?_⟩
  have called : History.Own op (fun s s' _ => Untouched sets s s')
      (⟨.calls op thread c, s⟩ :: h) := hi.own.arrive hi.since
  refine ⟨called.reply ho.since, fun m hm => ?_⟩
  obtain rfl := Option.some.inj hm
  exact .refl _

theorem basics : Basics (fun m => undoing.Carries (fun op _ s h => Idle sets op s h) m) :=
  Nesting.Carries.basics_of_calls fun {c} _ => carries_call c

theorem carries_count : undoing.Carries (fun op _ s h => Idle sets op s h)
    (CallbackBridge.bump .attachFailures) :=
  fun _ _ _ _ hi => hi.change .counted

theorem visit (c : HostCall) : undoing.Carries (fun op _ s h => Idle sets op s h)
    (CallbackBridge.visit (Operation.call (.host c))) :=
  basics.visit (carries_call _) (carries_call _) (carries_call _)

theorem pin : undoing.Carries (fun op _ s h => Idle sets op s h) (Registry.pin o) :=
  basics.pin (visit _) carries_count

theorem unpin : undoing.Carries (fun op _ s h => Idle sets op s h) (Registry.unpin o) := by
  refine basics.unpin (visit _) carries_count fun hf => .modifyGet fun op thread s h hi => ?_
  obtain ⟨limiter, hl⟩ := hf s
  rw [hl]
  exact hi.change (.limited limiter)

end Idle

namespace Bare

theorem carries (hi : undoing.Carries (fun op _ s h => Idle sets op s h) m)
    (ht : undoing.Carries (fun op _ s h => Tally (fun _ => True) [] 0 0 op s h) m) :
    undoing.Carries (fun op _ s h => Bare sets op s h) m :=
  fun op thread s h hb => ((hi op thread s h hb.toIdle).and (ht op thread s h hb.tally)).mono
    fun _ _ _ hx => ⟨hx.1, hx.2⟩

theorem basics : Basics (fun m => undoing.Carries (fun op _ s h => Bare sets op s h) m) :=
  Nesting.Carries.basics_of_calls fun {_} hc =>
    carries (Idle.basics.tell hc) (Tally.basics.tell hc)

theorem pin : undoing.Carries (fun op _ s h => Bare sets op s h) (Registry.pin o) :=
  carries Idle.pin (Tally.carries_pin fun _ _ _ _ _ => trivial)

theorem unpin : undoing.Carries (fun op _ s h => Bare sets op s h) (Registry.unpin o) :=
  carries Idle.unpin (Tally.carries_unpin fun _ _ _ _ _ => trivial)

/-- An operation begins with nothing changed. -/
theorem begins (hn : ∀ m ∈ h, m.event.op ≠ op) :
    Bare sets op s (⟨.begins op thread q, s⟩ :: h) where
  own := .begins hn
  since m hm := by
    obtain rfl := Option.some.inj hm
    exact .refl _
  tally := .begins trivial hn

/-- The slot is locked or unlocked by whoever sets a listener. -/
theorem lock (hb : Bare true op s h) (locked : Bool) :
    Bare true op { s with listener.locked := locked } h where
  toIdle := hb.toIdle.change (.locked locked)
  tally := hb.tally.change (fun _ _ _ _ _ => trivial) ⟨fun hr => hr, rfl, fun _ _ => rfl⟩

end Bare

/-- Where `failed`, the operation has changed nothing, and the slot is
    unlocked if it was the one to lock it. -/
def Leaves (sets : Bool) (op : Nat) (failed : Prop) (s : State) (h : History) : Prop :=
  failed → Bare sets op s h ∧ (sets = true → s.listener.locked = false)

namespace Leaves

/-- What cannot fail leaves nothing to show. -/
theorem of_succeeds {m : Operation (Except HandleError β)}
    (hm : m.Makes (fun _ => True) fun result => ∃ b, result = .ok b) :
    Nests undoing op thread (fun result => Leaves sets op (∃ err, result = .error err))
      (m thread s) h := by
  have succeeds : Nests undoing op thread (fun result _ _ => ∃ b, result = .ok b)
      (m thread s) h :=
    .of_follows ((hm thread s []).mono (fun _ _ _ _ => trivial) fun _ _ _ hx => hx.2)
  refine succeeds.mono fun result s₁ h₁ hok hfailed => ?_
  obtain ⟨b, rfl⟩ := hok
  obtain ⟨err, he⟩ := hfailed
  cases he

/-- An object is registered.  Once there is a handle, nothing fails. -/
theorem registering {fails : HandleError → Operation (Except HandleError β)}
    {next : Handle → Operation (Except HandleError β)} (hb : Bare sets op s h)
    (hf : ∀ err s h, Bare sets op s h → Nests undoing op thread
      (fun result => Leaves sets op (∃ err, result = .error err)) (fails err thread s) h)
    (hn : ∀ handle, (next handle).Makes (fun _ => True) fun result => ∃ b, result = .ok b) :
    Nests undoing op thread (fun result => Leaves sets op (∃ err, result = .error err))
      ((do match ← Registry.register o k with
        | .error e => fails e
        | .ok handle => next handle : Operation (Except HandleError β)) thread s) h := by
  have logs : HandleId → Basics (fun m => undoing.Carries (fun _ _ _ _ => True) m) := by
    refine fun _ => Nesting.Carries.basics_of_calls fun {c} _ op thread s h _ => ?_
    exact .of_follows (Progress.Follows.anything (Operation.call c thread s) [])
  exact Registry.registered_nests Bare.pin Bare.unpin logs (fun _ _ _ _ _ _ _ => trivial) hb hf
    fun handle s' h' _ => of_succeeds (hn handle)

theorem startTunnel {settings : TunnelSettings} (hb : Bare false op s h) :
    Nests undoing op thread (fun result => Leaves false op (∃ err, result = .error err))
      (Bridge.startTunnel o settings thread s) h :=
  registering hb (fun _ _ _ hb _ => ⟨hb, nofun⟩) fun _ => Bridge.succeeds

theorem invokeAction {data : CString} (hb : Bare false op s h) :
    Nests undoing op thread (fun result => Leaves false op (∃ err, result = .error err))
      (Bridge.invokeAction data o thread s) h :=
  registering hb (fun _ _ _ hb _ => ⟨hb, nofun⟩) fun _ => Bridge.succeeds

theorem setEventListener {callback : Option HostObject} (hb : Bare true op s h) :
    Nests undoing op thread (fun result => Leaves true op (∃ err, result = .error err))
      (Bridge.setEventListener callback thread s) h := by
  cases callback with
  | none =>
    show Nests _ _ _ _ ((do
        Bridge.replaceListener .null
        pure (.ok .null) : Operation (Except HandleError HandleId)) thread _) h
    exact of_succeeds Bridge.replaceListener_succeeds
  | some o =>
    -- where there is no handle, the slot is unlocked at once
    exact registering (hb.lock true) (fun _ _ _ hb _ => ⟨hb.lock false, fun _ => rfl⟩)
      fun _ => Bridge.replaceListener_succeeds

/-- A failure is logged, and there is a status for it. -/
theorem registered {point : Entry.Point} {m : Operation (Except HandleError HandleId)}
    (hm : Nests undoing op thread (fun result => Leaves sets op (∃ err, result = .error err))
      (m thread s) h) :
    Nests undoing op thread (fun status => Leaves sets op (status = .handleFailure))
      ((m >>= Entry.registered point) thread s) h := by
  refine Nests.bind (hm.mono fun result s₁ h₁ hl => ?_)
  cases result with
  | ok id => exact fun hf => by cases hf
  | error err =>
    obtain ⟨hb, hu⟩ := hl ⟨err, rfl⟩
    have same : Nests undoing op thread (fun _ s' _ => s' = s₁)
        (Log.error s!"{point.name}: {err.message}" thread s₁) h₁ :=
      .of_follows ((Operation.Quiet.emit []).mono (fun _ _ _ _ => trivial) fun _ _ _ hx => hx.2)
    refine Nests.bind ((same.and (Bare.basics.emit op thread s₁ h₁ hb)).mono ?_)
    intro _ s₂ h₂ hx _
    obtain ⟨rfl, hb₂⟩ := hx
    exact ⟨hb₂, hu⟩

/-- A call that is declined has not failed. -/
theorem declined {status : Entry.Status} (hs : status ≠ .handleFailure) :
    Nests undoing op thread (fun status => Leaves sets op (status = .handleFailure))
      ((pure status : Operation Entry.Status) thread s) h :=
  fun hf => absurd hf hs

theorem whenReady {point : Entry.Point} {body : Operation Entry.Status} (hb : Bare sets op s h)
    (hbody : Nests undoing op thread (fun status => Leaves sets op (status = .handleFailure))
      (body thread s) h) :
    Nests undoing op thread (fun status => Leaves sets op (status = .handleFailure))
      (Entry.whenReady point .uninitialized body thread s) h := by
  simp only [Entry.whenReady, Operation.bind_apply, Operation.state_apply, Progress.bind]
  split
  · exact hbody
  · exact Nests.bind ((Bare.basics.emit op thread s h hb).mono fun _ _ _ _ => declined (by decide))

theorem entry_startTunnel {fd : Int32} {callback : Option HostObject}
    {stack address dns : Option CString} (hb : Bare false op s h) :
    Nests undoing op thread (fun status => Leaves false op (status = .handleFailure))
      (Entry.startTunnel fd callback stack address dns thread s) h := by
  have logs : Basics fun m => undoing.Carries (fun op _ s h => Bare false op s h) m := Bare.basics
  refine whenReady hb (Nests.bind ((logs.requiredCallback op thread s h hb).mono ?_))
  intro callback s h hb
  cases callback with
  | none => exact declined (by decide)
  | some o =>
    refine Nests.bind ((logs.required op thread s h hb).mono fun stack s h hb => ?_)
    refine Nests.bind ((logs.required op thread s h hb).mono fun address s h hb => ?_)
    refine Nests.bind ((logs.required op thread s h hb).mono fun dns s h hb => ?_)
    cases stack with
    | none => exact declined (by decide)
    | some stack =>
      cases address with
      | none => exact declined (by decide)
      | some address =>
        cases dns with
        | none => exact declined (by decide)
        | some dns => exact registered (startTunnel hb)

theorem entry_invokeAction {data : Option CString} {callback : Option HostObject}
    (hb : Bare false op s h) :
    Nests undoing op thread (fun status => Leaves false op (status = .handleFailure))
      (Entry.invokeAction data callback thread s) h := by
  have logs : Basics fun m => undoing.Carries (fun op _ s h => Bare false op s h) m := Bare.basics
  refine whenReady hb (Nests.bind ((logs.requiredCallback op thread s h hb).mono ?_))
  intro callback s h hb
  cases callback with
  | none => exact declined (by decide)
  | some o =>
    refine Nests.bind ((logs.required op thread s h hb).mono fun data s h hb => ?_)
    cases data with
    | none => exact declined (by decide)
    | some data => exact registered (invokeAction hb)

/-- Where a request fails, it has kept to itself. -/
theorem request (q : Request) (hb : Bare q.setsListener op s h) :
    Nests undoing op thread (fun result => Leaves q.setsListener op (∃ err, q.Fails result err))
      (q.operation thread s) h := by
  -- what registers nothing does not fail
  have harmless : (∀ result err, ¬ q.Fails result err) → Nests undoing op thread
      (fun result => Leaves q.setsListener op (∃ err, q.Fails result err))
        (q.operation thread s) h := by
    intro hf
    refine (Nests.of_follows (Progress.Follows.anything (q.operation thread s) [])).mono ?_
    intro result s' h' _ hfailed
    obtain ⟨err, he⟩ := hfailed
    exact absurd he (hf result err)
  match q with
  | .bridge q =>
    cases q with
    | startTunnel => exact startTunnel hb
    | invokeAction => exact invokeAction hb
    | setEventListener => exact setEventListener hb
    | _ => exact harmless fun _ _ hf => hf
  | .entry q =>
    cases q with
    | startTunnel =>
      exact (entry_startTunnel hb).mono fun status s h hl hf => hl hf.choose_spec
    | invokeAction =>
      exact (entry_invokeAction hb).mono fun status s h hl hf => hl hf.choose_spec
    | setEventListener =>
      exact (whenReady hb (registered (setEventListener hb))).mono
        fun status s h hl hf => hl hf.choose_spec
    | _ => exact harmless fun _ _ hf => hf
  | .registry _ | .dispatch _ | .callback .. | .library _ | .log _ =>
    exact harmless fun _ _ hf => hf

end Leaves

theorem undoing_kept (q : Request) : undoing.Kept q := by
  intro thread s h numbered _ _
  refine ⟨fun _ _ _ _ he => (by cases he), ?_⟩
  have other : ∀ m ∈ h, m.event.op ≠ h.begun := fun m hm => Nat.ne_of_lt (numbered m hm)
  refine (Leaves.request q (Bare.begins other)).mono fun result s' h' leaves => ?_
  refine ⟨fun op thread q' result' heq hf => ?_, trivial, trivial⟩
  cases heq
  obtain ⟨bare, unlocked⟩ := leaves hf
  exact {
    own := bare.own.arrive bare.since
    failures := by
      have own : (Event.ends h.begun thread q result).arrives h.begun := rfl
      have counted := bare.tally.failures
      rw [added_arrive own, ← counted]
      exact (add_zero _).symm
    unlocked := unlocked }

/-! ### Runs -/

/-- However operations are nested, and whatever the engine and the host do: a
    call that is declined or that fails to register its object leaves the bridge
    as it was, and only the refusals to attach the thread are counted. -/
theorem failures_harmless {c : Situation} (h : Reaches (.initial s) c) :
    c.history.Always Moment.Harmless := by
  have accounted := h.accounted
  have law : c.history.Always undoing.law :=
    (h.nested undoing_kept trivial (always_of_split fun _ _ _ _ => trivial)).always
  refine always_of_split fun later m before heq => ?_
  obtain ⟨event, s₁⟩ := m
  -- each operation that ends here began with a request of its own
  have planned : ∀ op thread (q : Request) (result : q.Result),
      event = .ends op thread q result → ∃ s₀, ⟨.begins op thread q, s₀⟩ ∈ before ∧
        made op before = (exchanges op before).map (·.call) ∧
        (Plan.undoing q s₀).ends (exchanges op before) result s₁ := by
    intro op thread q result hm
    subst hm
    obtain ⟨answered, s₀, began, plan⟩ := (heq ▸ accounted).split
    exact ⟨s₀, began, answered, plan _ (Request.undoing q)⟩
  refine ⟨fun op thread q result hm declined => ?_, fun op thread q result err hm failed => ?_⟩
  · obtain ⟨s₀, began, answered, plan⟩ := planned op thread q result hm
    obtain ⟨told, same⟩ := plan.1 declined
    exact ⟨s₀, began, by rw [answered, told]; rfl, same⟩
  · obtain ⟨s₀, began, answered, plan⟩ := planned op thread q result hm
    obtain ⟨o, k, err', registers, fails, undone⟩ := plan.2 err failed
    have rolls : RollsBack op thread q result s₁ before :=
      (heq ▸ law).split op thread q result hm ⟨err, failed⟩
    refine ⟨s₀, began, rolls, ?_, ⟨o, k, err', registers, fails, undone⟩, undone.unpinned⟩
    rw [engineCalls, answered, List.filter_eq_nil_iff]
    intro call hcall
    obtain ⟨x, hx, rfl⟩ := List.mem_map.mp hcall
    simp [undone.hosts x hx]

/-- The tunnel is to be started. -/
def tunnelStart : Request :=
  .entry (.startTunnel 5 (some Sample.object) (some .empty) (some .empty) (some .empty))

set_option maxRecDepth 4096 in
/-- The tunnel is started too early, and then an action is started without
    data.  While the host pins the callback of the tunnel after all, it sets a
    listener, which takes up all the room that there is.  The reference cannot
    be given back, since the host refuses the thread. -/
def tunnelCrowdedOut : Situation :=
  ((Situation.initial (State.initial 1)).play?
    [.start ⟨"host"⟩ tunnelStart,
     .start ⟨"host"⟩ (.entry (.init (some ⟨[]⟩) (some ⟨false, 1⟩))),
     .start ⟨"host"⟩ (.entry (.invokeAction none (some Sample.object))),
     .start ⟨"host"⟩ tunnelStart,
     .reply (.host .attach) (0 : Int32),
     .start ⟨"host"⟩ (.entry (.setEventListener (some Sample.object))),
     .reply (.host .attach) (0 : Int32),
     .reply (.host (.pin Sample.object)) (some Sample.reference),
     .reply (.host (.pin Sample.object)) (some Sample.reference'),
     .reply (.host .attach) (7 : Int32),
     .reply (.system .clock) (0 : UInt64)]).get rfl

set_option maxRecDepth 4096 in
theorem failures_harmless_tunnelCrowdedOut :
    Reaches (.initial (State.initial 1)) tunnelCrowdedOut ∧
    tunnelCrowdedOut.stack = [] ∧
    tunnelCrowdedOut.history.head? =
      some ⟨.ends 3 ⟨"host"⟩ tunnelStart Entry.Status.handleFailure, tunnelCrowdedOut.state⟩ ∧
    tunnelCrowdedOut.history.refusals = 1 ∧
    tunnelCrowdedOut.history.Always Moment.Harmless := by
  have reaches : Reaches (.initial (State.initial 1)) tunnelCrowdedOut :=
    Situation.reaches_get_play? _
  exact ⟨reaches, rfl, rfl, rfl, failures_harmless reaches⟩

end Run

end CallbackBridge
