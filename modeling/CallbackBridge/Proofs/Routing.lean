import CallbackBridge.Proofs.OneShot
import CallbackBridge.Proofs.Run.Registering

/-! # Routing

    An engine may supply any word as an id.  Whatever it supplies, the host
    object that is called is the one that was registered under that id, and
    only if the handle is of a kind that the call is for.

    Key ideas:

    1. What an operation finds under its id as it begins decides whom it calls.
       If it finds a handle that it may use, it is an errand to the object of
       that handle; otherwise it calls nobody.
    2. Between the entry of a handle into the table and the return of its
       registration nothing else can begin, so each handle that an operation
       finds had been returned to its caller.
    3. A registration that succeeds was told one reference by the host, and
       that reference is what the table keeps. -/

namespace CallbackBridge

/-! ### What a request finds -/

namespace DispatchRequest

variable {thread : Thread} {s : State} {d : DispatchRequest} {e : Registration}

/-- The kinds of handle that a request takes. -/
def Takes : DispatchRequest → HandleKind → Prop
  | .protect .., kind | .resolveOwner .., kind => kind = .tunnel
  | .notify .., kind => kind = .listener
  | .deliverResult .., kind => kind = .invoke ∨ kind = .listener

theorem accepts_iff {kind : HandleKind} : d.shape.accepts kind = true ↔ d.Takes kind := by
  cases d <;> cases kind <;> simp [shape, CallShape.accepts, Takes]

/-- The call of an object that a request asks for. -/
def callOn : DispatchRequest → HostObject → Call
  | .protect _ fd, o => .host (.protect o fd)
  | .notify _ payload, o => .host (.onResult o payload)
  | .resolveOwner _ query, o => .host (.resolve o query)
  | .deliverResult _ data, o => .host (.onResult o data)

/-- The handle that a request may use: the table lists it under the id, it is
    of a kind that the request takes, and its one result is not claimed. -/
structure Finds (d : DispatchRequest) (r : Registry) (e : Registration) : Prop where
  listed : r.listed? d.target = some e
  takes : d.Takes e.kind
  unclaimed : e.kind = .invoke → e.delivered = false

/-- What a request results in that may use no handle. -/
def unreached (d : DispatchRequest) (r : Registry) : d.Result :=
  if d.target.isNull then d.ignored
  else match Dispatch.refusal? r d.shape d.target with
    | some err => d.failure (.handle err)
    | none => d.failure (.alreadyDelivered d.target)

/-- How a request is answered that may use a handle, given whether the thread
    was attached. -/
def Answered (d : DispatchRequest) (err : Option AttachError) (r : d.Result) : Prop :=
  match err with
  | some err => r = d.failure (.attach err)
  | none => ∀ outcome, d.outcome? r = some outcome → outcome = .ok ()

/-- A request that may use no handle calls nobody. -/
theorem quiet_of_not_finds (hr : s.registry.Sound) (h : ∀ e, ¬ d.Finds s.registry e) :
    d.operation.Quiet thread s fun r _ => r = d.unreached s.registry := by
  unfold unreached
  cases hn : d.target.isNull with
  | true => exact ignores hn
  | false =>
    cases href : Dispatch.refusal? s.registry d.shape d.target with
    | some err => exact refused hn hr href
    | none =>
      -- the handle is one for this request, so its result is claimed
      unfold Dispatch.refusal? at href
      split at href
      · cases href
      next e hf =>
      have takes : d.Takes e.kind := by
        rw [← accepts_iff]
        by_contra hk
        simp [hk] at href
      have claimed : e.kind = .invoke ∧ e.delivered = true := by
        by_contra hc
        rw [not_and, Bool.not_eq_true] at hc
        exact h e ⟨hf, takes, hc⟩
      obtain ⟨hk, hd⟩ := claimed
      cases d with
      | deliverResult id data =>
        exact (Dispatch.deliverResult_rejects hn hr hf hk hd).mono fun _ _ h => h.1
      | _ => exact absurd takes (by rw [hk]; simp [Takes])

/-- A request that may use a handle is an errand to the object of the handle. -/
theorem errand (hn : d.target.isNull = false) (hr : s.registry.Sound)
    (h : d.Finds s.registry e) :
    (d.operation thread s).Follows (.errand (d.callOn e.object) d.Answered) [] := by
  have accepted : d.shape.accepts e.kind = true := accepts_iff.mpr h.takes
  -- a call without an answer reports how the errand went
  have answered : ∀ {c : Call} {p : Progress (Except DispatchError Unit)},
      p.Follows (.errand c Dispatch.Tried) [] →
      p.Follows (.errand c fun err r => match err with
        | some err => r = .error (.attach err)
        | none => ∀ outcome, some r = some outcome → outcome = .ok ()) [] := by
    intro c p hp
    refine hp.mono (fun _ _ _ h => h) ?_
    rintro _ r _ ⟨more, status, s₀, rfl, hm⟩
    refine ⟨more, status, s₀, rfl, ?_⟩
    split
    · next ha => rwa [ha] at hm
    · next ha =>
      rw [ha] at hm
      obtain ⟨⟨u, rfl⟩, called⟩ := hm
      exact ⟨fun outcome ho => (Option.some.inj ho).symm, called⟩
  have calls : ∀ {c : HostCall} (s₁ : State),
      (Dispatch.attached (Operation.call (.host c)) thread s₁).Follows
        (.errand (.host c) Dispatch.Tried) [] :=
    fun s₁ => Dispatch.attached_errand (f := pure) rfl fun _ => .pure trivial
  cases d with
  | protect id fd =>
    show Progress.Follows _ _ (Dispatch.protect id fd thread s)
    have known : id.isNull = false := hn
    rw [Dispatch.protect_eq known]
    exact answered (Dispatch.settle_errand (Dispatch.withTarget_errand hn h.listed accepted
      (calls _)))
  | notify id payload =>
    show Progress.Follows _ _ (Dispatch.notify id payload thread s)
    have known : id.isNull = false := hn
    rw [Dispatch.notify_eq known]
    exact answered (Dispatch.settle_errand (Dispatch.withTarget_errand hn h.listed accepted
      (calls _)))
  | deliverResult id data =>
    exact answered (Dispatch.deliverResult_errand hn hr h.listed accepted h.unclaimed)
  | resolveOwner id query =>
    have asks : (Dispatch.attached (Dispatch.askOwner e.object query) thread
        { s with registry := s.registry.lend id }).Follows
        (.errand (.host (.resolve e.object query)) Dispatch.Tried) [] := by
      refine Dispatch.attached_errand rfl fun answer => ?_
      cases answer with
      | none => exact .pure trivial
      | some text => exact .bind (.call rfl) fun _ _ => .bind (.call rfl) fun _ _ => .pure trivial
    -- whatever fails, the answer is the empty text
    refine (Dispatch.withTarget_errand hn h.listed accepted asks).after_errand fun result => ?_
    match result with
    | .ok (some owner) =>
      refine .bind .bump fun _ _ => .pure fun err herr => ?_
      cases err with
      | none => exact fun _ ho => by cases ho
      | some err => cases herr
    | .ok none =>
      refine .bind .bump fun _ _ => .bind .limitedError fun _ _ => .pure fun err herr => ?_
      cases err with
      | none => exact fun _ ho => by cases ho
      | some err => cases herr
    | .error e =>
      refine .bind Dispatch.reportDrop_makes fun _ _ => .pure fun err herr => ?_
      cases err with
      | none => exact fun _ ho => by cases ho
      | some err => rfl

end DispatchRequest

/-! ### Handles that were returned -/

namespace Run

open History

variable {s : State} {c : Situation} {h : History} {id : HandleId} {kind : HandleKind}
  {o : HostObject}

/-- Every registration in the table was returned to its caller. -/
def History.Returned (h : History) (r : Registry) : Prop :=
  ∀ e ∈ r.entries, e.id ∈ (owned h).map (·.id)

theorem History.Returned.of_ids {r r' : Registry} (hr : h.Returned r)
    (hid : ∀ e' ∈ r'.entries, ∃ e ∈ r.entries, e.id = e'.id) : h.Returned r' := by
  intro e' he'
  obtain ⟨e, he, hid⟩ := hid e' he'
  exact hid ▸ hr e he

theorem History.Returned.cons {r : Registry} {m : Moment} (hr : h.Returned r) :
    History.Returned (m :: h) r := by
  intro e he
  have grown : (owned h).Sublist (owned (m :: h)) := (List.sublist_cons_self m h).filterMap _
  exact (grown.map _).subset (hr e he)

/-- What was there before the handle `id` was issued was returned. -/
def History.ReturnedBut (h : History) (id : HandleId) (r : Registry) : Prop :=
  ∀ e ∈ r.entries, e.id = id ∨ e.id ∈ (owned h).map (·.id)

/-- Whenever an operation begins, every handle was returned. -/
def returning : Nesting where
  holds s h := h.Returned s.registry
  spans _ _ _ _ := True
  conduct m _ := ∀ op thread q, m.event = .begins op thread q → q.isCoreOrClose = true
  law m before := m.event.isBegin = true → before.Returned m.state.registry
  spans_refl _ _ := trivial
  spans_trans _ _ := trivial

theorem returning_parts :
    ReleaseParts (fun m => returning.Carries (fun _ _ s h => h.Returned s.registry) m) := by
  have basics : Basics (fun m => returning.Carries (fun _ _ s h => h.Returned s.registry) m) :=
    Nesting.Carries.basics fun _ _ _ _ _ _ hi =>
      ⟨fun hb => (by cases hb), fun _ _ => ⟨fun hb => (by cases hb), hi⟩⟩
  have parts : Parts (fun m => returning.Carries (fun _ _ s h => h.Returned s.registry) m) := by
    refine basics.parts ?_ fun hf => .modifyGet fun _ _ s h hi => hi.of_ids (hf s).stems
    intro c op thread s h hi
    exact ⟨fun hb => (by cases hb), fun _ => hi, fun r s' h' lost ho _ =>
      ⟨fun hb => (by cases hb), ho.holds rfl⟩⟩
  exact {
    toParts := parts
    strike := .modifyGet fun _ _ s h hi => hi.of_ids Registry.stems_striking
    miss := fun _ _ _ _ hi => hi }

/-- While the entry of a handle is logged, nothing else happens. -/
theorem returning_entered (id : HandleId) :
    Basics (fun m => returning.Carries (fun _ _ s h => h.ReturnedBut id s.registry) m) :=
  Nesting.Carries.basics fun _ _ _ _ _ _ hi =>
    ⟨fun hb => (by cases hb), fun _ _ => ⟨fun hb => (by cases hb), hi⟩⟩

/-- A registration returns the handle that it entered. -/
theorem returning_register (op : Nat) (thread : Thread) {k : HandleKind}
    (hi : h.Returned s.registry) :
    Nests returning op thread (fun result s' h' =>
      History.Returned (⟨.ends op thread (.registry (.register o k)) result, s'⟩ :: h') s'.registry)
      (Registry.register o k thread s) h := by
  have enter : ∀ pinned id s₁ s₂ (h₁ : History), h₁.Returned s₁.registry →
      Registry.entering pinned k s₁ = (.ok id, s₂) → h₁.ReturnedBut id s₂.registry := by
    intro pinned id s₁ s₂ h₁ hi₁ he
    obtain ⟨r, henlist, rfl⟩ := Registry.entering_ok he
    obtain ⟨-, -, -, rfl⟩ := Registry.enlist_ok henlist
    intro e he
    rcases List.mem_cons.mp he with rfl | he
    · exact .inl rfl
    · exact .inr (hi₁ e he)
  refine (returning_parts.toPinningParts.register_nests (J := fun id _ _ s h => h.ReturnedBut id s.registry)
    returning_entered enter hi).mono fun result s' h' hr => ?_
  cases result with
  | error e => exact hr
  | ok handle =>
    intro e he
    rcases hr e he with hid | hid
    · exact hid ▸ List.mem_cons_self ..
    · exact List.mem_cons_of_mem _ hid

theorem returning_kept (q : Request) : returning.Kept q := by
  intro thread s h _ hs hq
  refine ⟨fun _ => hs, ?_⟩
  have core := hq _ _ _ rfl
  have began : History.Returned (⟨.begins h.begun thread q, s⟩ :: h) s.registry := hs.cons
  -- only a registration has something of its own to return
  by_cases hreg : ∃ o k, q = .registry (.register o k)
  · obtain ⟨o, k, rfl⟩ := hreg
    exact (returning_register h.begun thread began).mono fun _ _ _ hi =>
      ⟨fun hb => (by cases hb), hi, trivial⟩
  · have clears : returning.Carries (fun _ _ s h => h.Returned s.registry)
        (Operation.modifyGet Registry.clearing) :=
      .modifyGet fun _ _ s h hi => hi.of_ids fun e' he' =>
        (Registry.Retains.clear rfl e' he').imp fun _ h => ⟨h.1, h.2.1⟩
    have carried := returning_parts.coreOrClose core (fun o k h => absurd ⟨o, k, h⟩ hreg)
      fun _ => returning_parts.close clears
    exact (carried h.begun thread s _ began).mono fun _ _ _ hi =>
      ⟨fun hb => (by cases hb), hi.cons, trivial⟩

/-! ### What was pinned -/

/-- A registration returned `id` as a handle of some kind, after the host had
    answered its pin with `o`. -/
def History.Obtained (h : History) (id : HandleId) (kind : HandleKind) (o : HostObject) : Prop :=
  ∃ later op thread object s before,
    h = later ++ ⟨.ends op thread (.registry (.register object kind)) (.ok ⟨id, kind⟩), s⟩ :: before ∧
    ∃ thread' lost s', ⟨.replies op thread' (.host (.pin object)) (some o) lost, s'⟩ ∈ before

/-- A registration that succeeds lists the one reference that it was told. -/
theorem History.fresh_of_ends (ha : h.Always Accounted) {later before : History} {op : Nat}
    {thread : Thread} {object : HostObject} {handle : Handle} {s' : State}
    (heq : h = later ++
      ⟨.ends op thread (.registry (.register object kind)) (.ok handle), s'⟩ :: before) :
    handle.kind = kind ∧ ∃ pinned, .fresh handle.id pinned kind ∈ s'.registry.entries ∧
      (∃ thread' lost s'', ⟨.replies op thread' (.host (.pin object)) (some pinned) lost, s''⟩ ∈
        before) ∧
      ∀ thread' o lost s'', ⟨.replies op thread' (.host (.pin object)) (some o) lost, s''⟩ ∈ before →
        o = pinned := by
  obtain ⟨-, s₀, began, -⟩ := (heq ▸ ha).split
  have hb : ⟨.begins op thread (.registry (.register object kind)), s₀⟩ ∈ h := by
    simp [heq, began]
  obtain ⟨-, hkind, pinned, s₁, visited, head⟩ := ends_of_follows ha hb register_follows heq
  refine ⟨hkind, pinned, List.mem_of_mem_head? head, ?_, ?_⟩
  · obtain ⟨s₂, hx⟩ := visited.exists_reply
    obtain ⟨thread', lost, hm⟩ := replies_of_mem_exchanges hx
    exact ⟨thread', lost, s₂, hm⟩
  · intro thread' o lost s'' hm
    exact Option.some.inj (visited.reply_unique (mem_exchanges hm rfl) (by simp) (by simp))

namespace CoreRun

/-- What a registration returned stood in the table then. -/
theorem exists_of_obtained (run : CoreRun s c) (ho : c.history.Obtained id kind o) :
    ∃ m ∈ c.history, .fresh id o kind ∈ m.state.registry.entries := by
  obtain ⟨later, op, thread, object, s', before, heq, thread', lost, s'', hm⟩ := ho
  obtain ⟨-, pinned, he, -, only⟩ := fresh_of_ends run.reaches.accounted heq
  obtain rfl := only thread' o lost s'' hm
  have hend : (⟨.ends op thread (.registry (.register object kind)) (.ok ⟨id, kind⟩), s'⟩ : Moment) ∈
      c.history := by simp [heq]
  exact ⟨_, hend, he⟩

/-- An id was returned for one kind of use of one reference. -/
theorem obtained_unique (run : CoreRun s c) {kind' : HandleKind} {o' : HostObject}
    (ho : c.history.Obtained id kind o) (ho' : c.history.Obtained id kind' o') :
    kind = kind' ∧ o = o' := by
  obtain ⟨m, hm, he⟩ := run.exists_of_obtained ho
  obtain ⟨m', hm', he'⟩ := run.exists_of_obtained ho'
  exact (same_registration run.settled hm hm' he he' rfl).symm

/-- What an operation finds in the table as it begins, a registration had
    returned. -/
theorem obtained_of_listed (run : CoreRun s c) {later before : History} {op : Nat} {thread : Thread}
    {q : Request} {s₀ : State} {e : Registration}
    (heq : c.history = later ++ ⟨.begins op thread q, s₀⟩ :: before)
    (he : e ∈ s₀.registry.entries) : before.Obtained e.id e.kind e.object := by
  have initially : returning.holds s [] := by
    intro e he
    rw [run.empty] at he
    cases he
  have stands := run.reaches.nested returning_kept initially run.core
  have returned : before.Returned s₀.registry := (heq ▸ stands.always).split rfl
  obtain ⟨handle, hown, hid⟩ := List.mem_map.mp (returned e he)
  obtain ⟨⟨event, s₁⟩, hm, op', thread', object, kind, rfl⟩ := exists_of_owned hown
  obtain ⟨later', before', hsplit⟩ := List.append_of_mem hm
  have hs : before <:+ c.history := suffix_of_split heq
  obtain ⟨hkind, pinned, hfresh, ⟨thread'', lost, s₂, hreply⟩, -⟩ :=
    fresh_of_ends (run.reaches.accounted.of_suffix hs) hsplit
  -- the table has had one object and one kind under the id since then
  have hb : ⟨.begins op thread q, s₀⟩ ∈ c.history := by simp [heq]
  obtain ⟨ho, hk⟩ := same_registration run.settled (hs.subset hm) hb hfresh he hid
  obtain ⟨id, k⟩ := handle
  obtain rfl : k = kind := hkind
  obtain rfl : id = e.id := hid
  obtain rfl : k = e.kind := hk
  obtain rfl : pinned = e.object := ho
  exact ⟨later', op', thread', object, s₁, before', hsplit, thread'', lost, s₂, hreply⟩

end CoreRun

/-! ### The law -/

/-- How operation `op` goes that was asked for `d` and may use a handle of
    `o`. -/
structure Errand (op : Nat) (d : DispatchRequest) (o : HostObject) (h : History) : Prop where
  /-- The one host object that it uses is `o`, in the call that it was asked
      for, on an attached thread. -/
  called : ∀ call o', h.Calls op call → target? call = some o' →
    call = d.callOn o ∧ ∃ status s a, h.toldFirst? op = some ⟨.host .attach, status, s⟩ ∧
      AttachState.ofStatus status = .ok a
  /-- By its end the thread was attached and the call was made, or neither
      was. -/
  ended : ∀ thread q result s, ⟨.ends op thread q result, s⟩ ∈ h →
    ∃ status s₁, h.toldFirst? op = some ⟨.host .attach, status, s₁⟩ ∧
      match AttachState.ofStatus status with
      | .ok _ => h.Calls op (d.callOn o)
      | .error _ => ∀ call, h.Calls op call → target? call = none
  /-- Its caller is told which. -/
  answered : ∀ thread result s, ⟨.ends op thread (.dispatch d) result, s⟩ ∈ h →
    ∃ status s₁, h.toldFirst? op = some ⟨.host .attach, status, s₁⟩ ∧
      match AttachState.ofStatus status with
      | .ok _ => d.Answered none result
      | .error err => d.Answered (some err) result

/-- An operation whose plan is an errand goes as one. -/
theorem History.errand_of_follows {op : Nat} {thread : Thread} {q : Request}
    {d : DispatchRequest} {s₀ : State} {post : Option AttachError → q.Result → Prop}
    (ha : h.Always Accounted) (hb : ⟨.begins op thread q, s₀⟩ ∈ h)
    (hp : (q.operation thread s₀).Follows (.errand (d.callOn o) post) [])
    (hd : q = .dispatch d →
      (d.operation thread s₀).Follows (.errand (d.callOn o) d.Answered) []) :
    Errand op d o h := by
  refine ⟨?_, ?_, ?_⟩
  · intro call o' ⟨thread₂, s₂, hm⟩ ho
    obtain ⟨front, back, hsplit⟩ := List.append_of_mem hm
    obtain ⟨rfl, -, accepted⟩ := errand_calls ha hb hp hsplit ho
    exact ⟨rfl, accepted⟩
  · intro thread' q' result s' he
    obtain rfl := request_of_ends ha hb he
    obtain ⟨status, s₁, told, hstatus⟩ := errand_ends ha hb hp he
    refine ⟨status, s₁, told, ?_⟩
    cases hs : AttachState.ofStatus status with
    | ok a =>
      rw [hs] at hstatus
      exact hstatus.2
    | error err =>
      rw [hs] at hstatus
      exact hstatus.2
  · intro thread' result s' he
    obtain rfl := request_of_ends ha hb he
    have hp : (Request.operation (.dispatch d) thread s₀).Follows
        (.errand (d.callOn o) d.Answered) [] := hd rfl
    obtain ⟨status, s₁, told, hstatus⟩ := errand_ends ha hb hp he
    refine ⟨status, s₁, told, ?_⟩
    cases hs : AttachState.ofStatus status with
    | ok a =>
      rw [hs] at hstatus
      exact hstatus.1
    | error err =>
      rw [hs] at hstatus
      exact hstatus.1

/-- Calls reach the objects that they are meant for. -/
structure Routed (c : Situation) : Prop where
  /-- Whoever calls a host object was asked for just that call on that thread,
      and found a handle that it may use; the registration that returned the
      handle had the object pinned. -/
  origin : ∀ op thread call s₁ o, ⟨.calls op thread call, s₁⟩ ∈ c.history →
    target? call = some o →
    ∃ later q d s₀ before e, c.history = later ++ ⟨.begins op thread q, s₀⟩ :: before ∧
      q.dispatched? = some d ∧ d.Finds s₀.registry e ∧ e.object = o ∧ call = d.callOn o ∧
      History.Obtained before d.target e.kind o
  /-- No other operation has the same number, and none calls a second object or
      the same one again. -/
  once : ∀ op, (c.history.AtMostOnce fun m => ∃ thread q, m.event = .begins op thread q) ∧
    c.history.AtMostOnce fun m => ∃ thread call, m.event = .calls op thread call ∧
      (target? call).isSome = true
  /-- An id stands for the one reference that its registration had pinned. -/
  meant : ∀ id kind kind' o o', c.history.Obtained id kind o → c.history.Obtained id kind' o' →
    kind = kind' ∧ o = o'
  /-- Whoever finds a handle that it may use calls its object, if the host
      attaches the thread. -/
  reaches : ∀ op thread q d s₀ e, ⟨.begins op thread q, s₀⟩ ∈ c.history → q.dispatched? = some d →
    d.Finds s₀.registry e → Errand op d e.object c.history
  /-- Whoever finds none calls nobody but the log and the clock, and its caller
      is told why. -/
  otherwise : ∀ op thread q d s₀, ⟨.begins op thread q, s₀⟩ ∈ c.history → q.dispatched? = some d →
    (∀ e, ¬ d.Finds s₀.registry e) →
    (∀ call, c.history.Calls op call → call.mayReenter = false) ∧
    ∀ thread' result s₁, ⟨.ends op thread' (.dispatch d) result, s₁⟩ ∈ c.history →
      result = d.unreached s₀.registry

namespace CoreRun

variable {op : Nat} {thread thread' : Thread} {q : Request} {d : DispatchRequest} {s₀ s₁ : State}
  {e : Registration}

theorem errand_of_finds (run : CoreRun s c) (first : 1 ≤ s.registry.nextId)
    (hb : ⟨.begins op thread q, s₀⟩ ∈ c.history) (hf : d.Finds s₀.registry e) :
    (d.operation thread s₀).Follows (.errand (d.callOn e.object) d.Answered) [] := by
  obtain ⟨he, hid, -⟩ := Registry.mem_of_listed? hf.listed
  exact d.errand (hid ▸ run.known first hb he) (sound_of_mem run.settled hb) hf

theorem errand (run : CoreRun s c) (first : 1 ≤ s.registry.nextId)
    (hb : ⟨.begins op thread q, s₀⟩ ∈ c.history) (hd : q.dispatched? = some d)
    (hf : d.Finds s₀.registry e) : Errand op d e.object c.history := by
  have hp := run.errand_of_finds first hb hf
  exact errand_of_follows run.reaches.accounted hb (Request.errand_of_dispatched? hd hp) fun _ => hp

/-- Whoever finds no handle that it may use is quiet. -/
theorem quiet (run : CoreRun s c) (hb : ⟨.begins op thread q, s₀⟩ ∈ c.history)
    (hd : q.dispatched? = some d) (hf : ∀ e, ¬ d.Finds s₀.registry e) :
    (∀ call, c.history.Calls op call → call.mayReenter = false) ∧
    ∀ thread' result s', ⟨.ends op thread' (.dispatch d) result, s'⟩ ∈ c.history →
      result = d.unreached s₀.registry := by
  have ha := run.reaches.accounted
  have quiet : d.operation.Quiet thread s₀ fun r _ => r = d.unreached s₀.registry :=
    d.quiet_of_not_finds (sound_of_mem run.settled hb) hf
  constructor
  · intro call ⟨thread₂, s₂, hm⟩
    exact calls_of_within ha hb (Request.follows_of_quiet hd quiet) hm
  · intro thread' result s' he
    obtain rfl := request_of_ends ha hb he
    exact result_of_within ha hb (quiet.follows fun _ h => h) he

/-- Whoever calls a host object was asked to, and found a handle for it. -/
theorem finds_of_use (run : CoreRun s c) {call : Call} (hb : ⟨.begins op thread q, s₀⟩ ∈ c.history)
    (hm : ⟨.calls op thread' call, s₁⟩ ∈ c.history) (ho : target? call = some o) :
    ∃ d e, q.dispatched? = some d ∧ d.Finds s₀.registry e := by
  have ha := run.reaches.accounted
  have loud : ¬ Upkeep call := by
    intro upkeep
    rw [show target? call = none from upkeep] at ho
    cases ho
  have core : q.isCoreOrClose = true := always_iff.mp run.core _ hb _ _ _ rfl
  cases hd : q.dispatched? with
  | none =>
    exact absurd (calls_of_within ha hb (Request.upkeep_of_dispatched? core hd _ _ _) hm) loud
  | some d =>
    by_contra hf
    have quiet := (run.quiet hb hd fun e hfinds => hf ⟨d, e, rfl, hfinds⟩).1 call ⟨thread', s₁, hm⟩
    exact loud (Upkeep.of_quiet quiet)

end CoreRun

/-- Whatever ids the engine supplies, each call reaches the object that it is
    meant for, or nobody.  A new registry issues 1 first. -/
theorem calls_routed (run : CoreRun s c) (first : 1 ≤ s.registry.nextId) : Routed c := by
  have ha := run.reaches.accounted
  refine ⟨?_, ?_, fun _ _ _ _ _ => run.obtained_unique, ?_, ?_⟩
  · intro op thread call s₁ o hm ho
    obtain ⟨front, back, hsplit⟩ := List.append_of_mem hm
    obtain ⟨-, q, s₀, began, -⟩ := (hsplit ▸ ha).split
    have hb : ⟨.begins op thread q, s₀⟩ ∈ c.history := by simp [hsplit, began]
    obtain ⟨d, e, hd, hf⟩ := run.finds_of_use hb hm ho
    obtain ⟨later, before, heq⟩ := List.append_of_mem hb
    obtain ⟨rfl, -⟩ := (run.errand first hb hd hf).called call o ⟨thread, s₁, hm⟩ ho
    obtain ⟨he, hid, -⟩ := Registry.mem_of_listed? hf.listed
    obtain rfl : e.object = o := by
      cases d <;> exact Option.some.inj ho
    exact ⟨later, q, d, s₀, before, e, heq, hd, hf, rfl, rfl, hid ▸ run.obtained_of_listed heq he⟩
  · intro op
    constructor
    · apply always_of_split
      intro later m before heq ⟨thread, q, hev⟩ m' hm' ⟨thread', q', hev'⟩
      obtain ⟨event, s₁⟩ := m
      obtain ⟨event', s₁'⟩ := m'
      simp only at hev hev'
      subst hev hev'
      -- the later one would have a number that is already taken
      have number : op = History.begun before := (heq ▸ ha).split
      have older : op < History.begun before :=
        op_lt_of_begins (ha.of_suffix (suffix_of_split heq)) hm'
      omega
    · apply always_of_split
      intro later m before heq ⟨thread, call, hev, huse⟩ m' hm' ⟨thread', call', hev', huse'⟩
      obtain ⟨event, s₁⟩ := m
      obtain ⟨event', s₁'⟩ := m'
      simp only at hev hev'
      subst hev hev'
      obtain ⟨o, ho⟩ := Option.isSome_iff_exists.mp huse
      have hm : ⟨.calls op thread call, s₁⟩ ∈ c.history := by simp [heq]
      obtain ⟨-, q, s₀, began, -⟩ := (heq ▸ ha).split
      have hb : ⟨.begins op thread q, s₀⟩ ∈ c.history := by simp [heq, began]
      obtain ⟨d, e, hd, hf⟩ := run.finds_of_use hb hm ho
      have hp := Request.errand_of_dispatched? hd (run.errand_of_finds first hb hf)
      obtain ⟨-, hmade, -⟩ := errand_calls ha hb hp heq ho
      -- an earlier use would be among the calls made before
      have loud : call'.mayReenter = true := by
        cases call' with
        | host => rfl
        | _ => cases huse'
      have hmem := mem_made hm' loud
      rw [hmade] at hmem
      obtain rfl := List.mem_singleton.mp hmem
      cases huse'
  · intro op thread q d s₀ e hb hd hf
    exact run.errand first hb hd hf
  · intro op thread q d s₀ hb hd hf
    exact run.quiet hb hd hf

set_option maxRecDepth 4096 in
/-- While a tunnel object is called, the engine asks a listener's call of its
    handle, delivers to a handle that was never issued and to a listener on a
    thread that the host refuses to attach, and asks the tunnel's handle once
    more after it was released. -/
def askedInside : Situation :=
  ((Situation.initial (.initial 0)).play?
    [.start ⟨"host"⟩ (.registry (.register Sample.object .tunnel)),
     .reply (.host .attach) (0 : Int32),
     .reply (.host (.pin Sample.object)) (some Sample.reference),
     .start ⟨"engine"⟩ (.callback ⟨true⟩ (.protect 1 3)),
     .reply (.host .attach) (1 : Int32),
     .start ⟨"engine"⟩ (.dispatch (.notify ⟨1⟩ .empty)),
     .reply (.system .clock) (0 : UInt64),
     .start ⟨"engine"⟩ (.dispatch (.deliverResult ⟨99⟩ .empty)),
     .reply (.system .clock) (0 : UInt64),
     .start ⟨"host"⟩ (.registry (.register Sample.object .listener)),
     .reply (.host .attach) (0 : Int32),
     .reply (.host (.pin Sample.object)) (some Sample.reference'),
     .start ⟨"engine"⟩ (.dispatch (.deliverResult ⟨2⟩ .empty)),
     .reply (.host .attach) (7 : Int32),
     .reply (.system .clock) (0 : UInt64),
     .start ⟨"host"⟩ (.registry (.releaseRaw ⟨1⟩)),
     .start ⟨"engine"⟩ (.dispatch (.resolveOwner ⟨1⟩ ⟨6, .empty, .empty, 0⟩)),
     .reply (.system .clock) (0 : UInt64),
     .reply (.host (.protect Sample.reference 3)) ()]).get rfl

set_option maxRecDepth 4096 in
theorem calls_routed_askedInside :
    CoreRun (.initial 0) askedInside ∧ 1 ≤ (State.initial 0).registry.nextId ∧
      askedInside.history.Calls 1 (.host (.protect Sample.reference 3)) ∧
      askedInside.state.counters.get .callbacksDropped = 4 ∧ Routed askedInside := by
  have run : CoreRun (.initial 0) askedInside :=
    ⟨rfl, Situation.reaches_get_play? _, by decide, by decide⟩
  have first : 1 ≤ (State.initial 0).registry.nextId := by decide
  have called : .host (.protect Sample.reference 3) ∈ made 1 askedInside.history := by decide
  exact ⟨run, first, calls_of_mem_made called, rfl, calls_routed run first⟩

end Run

end CallbackBridge
