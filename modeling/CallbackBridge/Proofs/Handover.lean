import CallbackBridge.Proofs.Listeners
import CallbackBridge.Proofs.Run.Registering

/-! # Handing over

    A bridge registers a callback object and hands its engine the handle.  The
    host is called in between, and may use the bridge again there, so several
    handles can be on their way at the same time.

    Key ideas:

    1. Between the entry of a handle into the table and the call that hands it
       over only the log is called, and nobody uses the bridge while a line is
       with the sink (`History.RepliesAtOnce`).  So what entered is what is handed
       over, and whatever was handed over before entered before it.
    2. What the handle stands for follows from what the operation was told: it
       visited the host once, to pin the callback object of its request.
    3. The calls of an operation tell which handles it has handed over, and its
       result says the same. -/

namespace CallbackBridge

open Run Run.History

/-! ### What is handed over -/

/-- A handle, unless it is the null handle. -/
def Handle.known? (handle : Handle) : Option Handle :=
  if handle.id.isNull then none else some handle

/-- The handle that a call hands over to the engine. -/
def Call.handed? (c : Call) : Option Handle :=
  c.passed?.bind Handle.known?

/-- What the application passes to be called back on. -/
def Request.callback? : Request → Option HostObject
  | .bridge (.startTunnel object _) | .bridge (.invokeAction _ object) => some object
  | .bridge (.setEventListener object) => object
  | _ => none

/-- The handle that a request reports to have handed over. -/
def Request.reported? : (q : Request) → q.Result → Option Handle
  | .bridge (.startTunnel ..), .ok id => Handle.known? ⟨id, .tunnel⟩
  | .bridge (.invokeAction ..), .ok id => Handle.known? ⟨id, .invoke⟩
  | .bridge (.setEventListener _), .ok id => Handle.known? ⟨id, .listener⟩
  | _, _ => none

/-- The object that the host was asked to pin, and the reference that it handed
    out. -/
def Exchange.pinned? : Exchange → Option (HostObject × HostObject)
  | ⟨.host (.pin object), some reference, _⟩ => some (object, reference)
  | _ => none

namespace Run.History

/-- Every handle that was handed over, newest first. -/
def handed (h : History) : List Handle :=
  h.filterMap fun m => match m.event with
    | .calls _ _ c => c.handed?
    | _ => none

/-- Every handle that operation `op` has handed over, newest first. -/
def handedBy (op : Nat) (h : History) : List Handle :=
  (h.engineCalls op).filterMap (·.handed?)

end Run.History

theorem Handle.eq_of_known? {handle handle' : Handle} (h : handle.known? = some handle') :
    handle' = handle := by
  unfold known? at h
  split at h
  · cases h
  · exact (Option.some.inj h).symm

theorem Call.handed?_eq_none {c : Call} (hc : c.passed? = none) : c.handed? = none := by
  rw [handed?, hc]
  rfl

/-! ### What the host was told to pin -/

section

variable {α β : Type} {thread : Thread} {s : State} {told : List Exchange}
  {callback : Option HostObject} {o : HostObject} {k : HandleKind} {id : HandleId}

/-- After the exchanges `told` the callback object is pinned, and the handle is
    listed for the reference that the host has handed out, as a fresh one. -/
def Granted (callback : Option HostObject) (told : List Exchange) (s : State)
    (handle : Handle) : Prop :=
  ∃ object reference, callback = some object ∧
    told.filterMap Exchange.pinned? = [(object, reference)] ∧
    s.registry.listed? handle.id = some (.fresh handle.id reference handle.kind)

/-- Only a granted handle is handed over. -/
def Plan.handing (α : Type) (callback : Option HostObject) : Plan α where
  calls told c s := ∀ handle, c.handed? = some handle → Granted callback told s handle
  ends _ _ _ := True

/-- Parts that make no call of the engine hand nothing over. -/
theorem Operation.Makes.handless_table :
    TableParts (fun m => m.Makes (·.handed? = none) fun _ => True) := by
  have basics : Basics (fun m => m.Makes (·.handed? = none) fun _ => True) := {
    pure := fun _ => .pure trivial
    bind := fun hm hf => .bind hm fun a _ => hf a
    state := .state
    thread := .readThread
    tell := fun hc =>
      .call (Call.handed?_eq_none (Call.passed?_eq_none (Call.toEngine_eq_false hc))) }
  exact {
    toParts := basics.parts (.call rfl) fun _ => .modifyGet
    strike := .modifyGet
    miss := .bump
    enter := .modifyGet }

/-- Nor do calls of the engine that pass it no handle. -/
theorem Operation.Makes.handless_engine :
    EngineParts (fun m => m.Makes (·.handed? = none) fun _ => True) where
  toParts := handless_table.toParts
  engine _ hc := .call (Call.handed?_eq_none hc)

theorem Operation.Makes.handing {m : Operation α} (hm : m.Makes (·.handed? = none) fun _ => True) :
    (m thread s).Follows (.handing α callback) told := by
  refine (hm thread s told).mono ?_ fun _ _ _ _ => trivial
  intro told' c s' hc handle hhanded
  have none : c.handed? = none := hc.2
  rw [none] at hhanded
  cases hhanded

theorem Progress.Follows.then_handless {p : Progress α} {f : α → Operation β}
    (hp : p.Follows (.handing α callback) told)
    (hf : ∀ a, (f a).Makes (·.handed? = none) fun _ => True) :
    (p.bind fun a s => f a thread s).Follows (.handing β callback) told :=
  Progress.Follows.bind (hp.mono (fun _ _ _ h => h) fun _ a _ _ => (hf a).handing)

/-- What is logged before makes no difference. -/
theorem Operation.Quiet.then_handing {m : Operation α} {f : α → Operation β}
    (hm : m.Quiet thread s fun _ s' => s' = s)
    (hf : ∀ a, (f a thread s).Follows (.handing β callback) told) :
    ((m >>= f) thread s).Follows (.handing β callback) told := by
  refine Progress.Follows.bind ((hm told).mono ?_ ?_)
  · intro told' c s' hc handle hhanded
    rw [Call.handed?_eq_none (Call.passed?_eq_none (Call.toEngine_eq_false hc.2))] at hhanded
    cases hhanded
  · intro told' a s' ha
    obtain ⟨rfl, rfl⟩ := ha
    exact hf a

/-- What was told on a visit that pins an object. -/
theorem Visited.pinned {policy : DetachPolicy} {reference : HostObject}
    (h : Visited policy (.host (.pin o)) (some reference) s told) :
    told.filterMap Exchange.pinned? = [(o, reference)] := by
  cases h <;> rfl

/-- Once the callback object is registered, its handle may be handed over. -/
theorem Registry.register_handing {next : Handle → Operation β}
    {fails : HandleError → Operation β}
    (hf : ∀ e, (fails e).Makes (·.handed? = none) fun _ => True)
    (hn : ∀ handle told s, Granted (some o) told s ⟨handle.id, k⟩ →
      (next handle thread s).Follows (.handing β (some o)) told) :
    ((do match ← Registry.register o k with
        | .error e => fails e
        | .ok handle => next handle : Operation β) thread s).Follows (.handing β (some o)) [] := by
  have silent : (Registry.register o k).Makes (·.handed? = none) fun _ => True :=
    Operation.Makes.handless_table.register Operation.Makes.handless_table.enter
  refine Progress.Follows.bind ((register_follows.and (silent thread s [])).mono ?_ ?_)
  · intro told c s' hc handle hhanded
    have none : c.handed? = none := hc.2.2
    rw [none] at hhanded
    cases hhanded
  · intro told result s' hr
    obtain ⟨outcome, -⟩ := hr
    cases result with
    | error e => exact (hf e).handing
    | ok handle =>
      obtain ⟨rfl, reference, s₁, visited, head⟩ := outcome
      refine hn handle told s' ⟨o, reference, rfl, visited.pinned, ?_⟩
      -- the newcomer stands first
      obtain ⟨rest, hrest⟩ := List.head?_eq_some_iff.mp head
      rw [listed?, hrest]
      exact List.find?_cons_of_pos (by simp [Registration.fresh])

/-- The handle may be passed to the engine. -/
def Passable (callback : Option HostObject) (told : List Exchange) (s : State) (handle : Handle) :
    Prop :=
  ∀ h, handle.known? = some h → Granted callback told s h

theorem Granted.passable {handle : Handle} (hg : Granted callback told s handle) :
    Passable callback told s handle := by
  intro h hknown
  obtain rfl := Handle.eq_of_known? hknown
  exact hg

theorem Operation.call_handing (thread : Thread) {c : Call} {handle : Handle}
    (hc : c.passed? = some handle) (hg : Passable callback told s handle) :
    (Operation.call c thread s).Follows (.handing c.Reply callback) told := by
  refine ⟨fun handle' hhanded => hg handle' ?_, fun _ _ _ => trivial⟩
  rw [Call.handed?, hc] at hhanded
  exact hhanded

namespace Engine

variable {e : Engine}

theorem startTunnel_handing {settings : TunnelSettings}
    (hg : Passable callback told s ⟨id, .tunnel⟩) :
    (e.startTunnel id settings thread s).Follows (.handing Unit callback) told := by
  have parts := Operation.Makes.handless_table
  cases e with
  | external => exact Operation.call_handing thread (c := .engine (.startTunnel id settings)) rfl hg
  | absent =>
    have silent : (AbsentEngine.startTunnel id).Makes (·.handed? = none) fun _ => True :=
      parts.bind parts.breadcrumb fun _ => parts.serve _ _
    exact silent.handing
  | linked =>
    have told' := Operation.call_handing thread
      (c := .library (.startTunnel id.raw settings)) rfl hg
    exact told'.then_handless fun _ => parts.breadcrumb

theorem invokeAction_handing {data : CString} (hg : Passable callback told s ⟨id, .invoke⟩) :
    (e.invokeAction id data thread s).Follows (.handing Unit callback) told := by
  have parts := Operation.Makes.handless_table
  cases e with
  | external => exact Operation.call_handing thread (c := .engine (.invokeAction id data)) rfl hg
  | absent =>
    have silent : (AbsentEngine.invokeAction id).Makes (·.handed? = none) fun _ => True :=
      parts.bind (parts.serve _ _) fun _ => parts.bind parts.breadcrumb fun _ => parts.serve _ _
    exact silent.handing
  | linked => exact Operation.call_handing thread (c := .library (.invokeAction id.raw data)) rfl hg

theorem setEventListener_handing (hg : Passable callback told s ⟨id, .listener⟩) :
    (e.setEventListener id thread s).Follows (.handing Unit callback) told := by
  cases e with
  | external => exact Operation.call_handing thread (c := .engine (.setEventListener id)) rfl hg
  | absent => exact trivial
  | linked => exact Operation.call_handing thread (c := .library (.setEventListener id.raw)) rfl hg

end Engine

theorem Bridge.replaceListener_handing (hg : Passable callback told s ⟨id, .listener⟩) :
    (Bridge.replaceListener id thread s).Follows (.handing Unit callback) told := by
  have parts := Operation.Makes.handless_table
  rw [Bridge.replaceListener, Operation.bind_apply, Operation.state_apply, Progress.bind,
    Operation.bind_apply]
  refine Progress.Follows.then_handless (Engine.setEventListener_handing hg) fun _ => ?_
  refine .bind .modifyGet fun previous _ => ?_
  cases previous with
  | none => exact parts.breadcrumb
  | some id => exact parts.bind (parts.releaseIfPresent parts.strike) fun _ => parts.breadcrumb

/-- Whatever a request to a bridge hands over was granted. -/
theorem Request.handing {q : Request} (hq : q.isBridge = true) :
    (q.operation thread s).Follows (.handing q.Result q.callback?) [] := by
  have parts := Operation.Makes.handless_table
  match q with
  | .callback table q => exact (parts.serve table q).handing
  | .library q =>
    show (LinkedEngine.serve q thread s).Follows _ _
    rw [LinkedEngine.serve_eq]
    exact (parts.serve _ q).handing
  | .bridge q =>
    cases hands : q.hands with
    | false => exact (Operation.Makes.handless_engine.bridge hands).handing
    | true =>
      cases q with
      | startTunnel o settings =>
        refine Registry.register_handing (fun _ => parts.pure _) fun handle told s hg => ?_
        refine Operation.Quiet.emit.then_handing fun _ => ?_
        exact (Engine.startTunnel_handing hg.passable).then_handless fun _ => parts.pure _
      | invokeAction data o =>
        refine Registry.register_handing (fun _ => parts.pure _) fun handle told s hg => ?_
        refine Operation.Quiet.breadcrumb.then_handing fun _ => ?_
        exact (Engine.invokeAction_handing hg.passable).then_handless fun _ => parts.pure _
      | setEventListener callback =>
        cases callback with
        | none =>
          -- the null handle is no handle
          have null : ∀ told s, Passable none told s ⟨.null, .listener⟩ :=
            fun _ _ _ h => by cases h
          exact (Bridge.replaceListener_handing (null _ _)).then_handless fun _ => parts.pure _
        | some o =>
          have unlocks : ∀ e, (do Bridge.lockSlot false; pure (.error e) :
              Operation (Except HandleError HandleId)).Makes (·.handed? = none) fun _ => True :=
            fun _ => parts.bind (fun _ _ told => ⟨.refl told, trivial⟩) fun _ => parts.pure _
          refine Registry.register_handing unlocks fun handle told s hg => ?_
          exact (Bridge.replaceListener_handing hg.passable).then_handless fun _ => parts.pure _
      | _ => cases hands
  | .registry _ | .dispatch _ | .entry _ | .log _ => cases hq

end

namespace Run

open History

/-! ### The order of handles -/

/-- How a moment keeps to the order in which handles are handed over. -/
structure Moment.InOrder (e : Engine) (m : Moment) (before : History) : Prop where
  /-- A handle that is handed over has been in the table at the beginning of no
      operation, so none has found it there. -/
  unused : ∀ op thread c handle, m.event = .calls op thread c → c.handed? = some handle →
    ∀ m' ∈ before, m'.event.isBegin = true → m'.state.registry.contains handle.id = false
  /-- Handles are handed over in rising order. -/
  rising : ∀ op thread c handle, m.event = .calls op thread c → c.handed? = some handle →
    ∀ earlier ∈ before.handed, earlier.id.raw < handle.id.raw
  /-- The stand-in for an engine is handed nothing by a call. -/
  present : ∀ op thread c handle, m.event = .calls op thread c → c.handed? = some handle →
    e ≠ .absent
  /-- An operation reports just the handle that it has handed over. -/
  reported : ∀ op thread q result, m.event = .ends op thread q result → e ≠ .absent →
    before.handedBy op = (q.reported? result).toList

variable {e : Engine} {s s' : State} {h h' : History} {op : Nat} {thread : Thread} {c : Call}
  {q : Request} {id : HandleId} {given : List Handle}

theorem Moment.InOrder.of_call (hc : c.handed? = none) :
    Moment.InOrder e ⟨.calls op thread c, s⟩ h where
  unused op thread c' handle heq hhanded := by
    cases heq
    rw [hc] at hhanded
    cases hhanded
  rising op thread c' handle heq hhanded := by
    cases heq
    rw [hc] at hhanded
    cases hhanded
  present op thread c' handle heq hhanded := by
    cases heq
    rw [hc] at hhanded
    cases hhanded
  reported op thread q result heq := by cases heq

theorem Moment.InOrder.of_reply {r : c.Reply} {lost : Option HostObject} :
    Moment.InOrder e ⟨.replies op thread c r lost, s⟩ h where
  unused op thread c handle heq := by cases heq
  rising op thread c handle heq := by cases heq
  present op thread c handle heq := by cases heq
  reported op thread q result heq := by cases heq

theorem Moment.InOrder.of_begin : Moment.InOrder e ⟨.begins op thread q, s⟩ h where
  unused op thread c handle heq := by cases heq
  rising op thread c handle heq := by cases heq
  present op thread c handle heq := by cases heq
  reported op thread q result heq := by cases heq

theorem Moment.InOrder.of_end {result : q.Result}
    (hr : e ≠ .absent → h.handedBy op = (q.reported? result).toList) :
    Moment.InOrder e ⟨.ends op thread q result, s⟩ h where
  unused op thread c handle heq := by cases heq
  rising op thread c handle heq := by cases heq
  present op thread c handle heq := by cases heq
  reported op thread q result heq := by
    cases heq
    exact hr

namespace History

theorem handed_of_call : handed (⟨.calls op thread c, s⟩ :: h) = c.handed?.toList ++ h.handed := by
  cases hc : c.handed? <;> simp [handed, hc]

theorem handedBy_of_ne {m : Moment} (hm : m.event.op ≠ op) :
    handedBy op (m :: h) = handedBy op h := by
  rw [handedBy, engineCalls_of_ne hm, handedBy]

theorem handedBy_of_call :
    handedBy op (⟨.calls op thread c, s⟩ :: h) = c.handed?.toList ++ h.handedBy op := by
  unfold handedBy
  cases hc : c.toEngine with
  | false =>
    rw [engineCalls_of_call hc, Call.handed?_eq_none (Call.passed?_eq_none hc)]
    rfl
  | true =>
    rw [engineCalls_of_engine hc, List.filterMap_cons]
    cases c.handed? <;> rfl

end History

/-! ### What operations rely on -/

/-- What holds whenever an operation may begin. -/
structure Issues (e : Engine) (s : State) (h : History) : Prop where
  sound : s.registry.Sound
  engine_eq : s.engine = e
  /-- Every id that was ever listed has been issued. -/
  listed : ∀ m ∈ h, ∀ id, m.state.registry.contains id = true → id.raw < s.registry.nextId
  /-- So has every id that was handed over. -/
  handed : ∀ handle ∈ h.handed, handle.id.raw < s.registry.nextId

/-- Operation `op` has handed over just the handles in `given`.  The stand-in is
    not told by a call. -/
structure Giving (e : Engine) (given : List Handle) (op : Nat) (s : State) (h : History) : Prop
    extends Issues e s h where
  given : e ≠ .absent → h.handedBy op = given

/-- Operation `op` has entered `id` in the table and is going to hand it
    over. -/
structure Entered (e : Engine) (id : HandleId) (op : Nat) (s : State) (h : History) : Prop
    extends Giving e [] op s h where
  issued : id.raw < s.registry.nextId
  unused : ∀ m ∈ h, m.event.isBegin = true → m.state.registry.contains id = false
  rising : ∀ earlier ∈ h.handed, earlier.id.raw < id.raw

/-- Handles are handed over in the order in which they entered the table. -/
def handing (e : Engine) : Nesting where
  holds := Issues e
  spans _ _ _ _ := True
  conduct m _ := ∀ op thread q, m.event = .begins op thread q → q.isBridge = true
  law := Moment.InOrder e
  spans_refl _ _ := trivial
  spans_trans _ _ := trivial

namespace Issues

theorem change (hi : Issues e s h) (hs : s'.registry.Sound)
    (hn : s.registry.nextId ≤ s'.registry.nextId) (he : s'.engine = s.engine) :
    Issues e s' h where
  sound := hs
  engine_eq := he.trans hi.engine_eq
  listed m hm id hc := UInt64.lt_of_lt_of_le (hi.listed m hm id hc) hn
  handed handle hm := UInt64.lt_of_lt_of_le (hi.handed handle hm) hn

theorem aside (hi : Issues e s h) (ha : Aside s s') : Issues e s' h :=
  hi.change (ha.sound hi.sound) ha.rises.next ha.engine_eq

/-- What a moment lists is settled from then on. -/
theorem cons {event : Event} (hi : Issues e s h)
    (hh : ∀ handle ∈ History.handed (⟨event, s⟩ :: h), handle.id.raw < s.registry.nextId) :
    Issues e s (⟨event, s⟩ :: h) where
  sound := hi.sound
  engine_eq := hi.engine_eq
  listed := by
    refine List.forall_mem_cons.mpr ⟨?_, hi.listed⟩
    intro id hc
    exact hi.sound.lt_next_of_contains hc
  handed := hh

theorem reply (hi : Issues e s h) {r : c.Reply} {lost : Option HostObject} :
    Issues e s (⟨.replies op thread c r lost, s⟩ :: h) :=
  hi.cons hi.handed

theorem call (hi : Issues e s h)
    (hh : ∀ handle, c.handed? = some handle → handle.id.raw < s.registry.nextId) :
    Issues e s (⟨.calls op thread c, s⟩ :: h) := by
  apply hi.cons
  rw [handed_of_call]
  intro handle hm
  rcases List.mem_append.mp hm with hm | hm
  · exact hh handle (Option.mem_toList.mp hm)
  · exact hi.handed handle hm

end Issues

/-- A call adds what it hands over to what was given. -/
theorem Giving.call (hg : Giving e given op s h) (hlaw : Moment.InOrder e ⟨.calls op thread c, s⟩ h)
    (hh : ∀ handle, c.handed? = some handle → handle.id.raw < s.registry.nextId) :
    Nests (handing e) op thread (fun _ s' h' => Giving e (c.handed?.toList ++ given) op s' h')
      (Operation.call c thread s) h := by
  have called : Issues e s (⟨.calls op thread c, s⟩ :: h) := hg.toIssues.call hh
  refine ⟨hlaw, fun _ => called, fun r s' h' lost ho _ => ⟨.of_reply, ?_⟩⟩
  have back : Issues e s' h' := by
    cases hq : c.mayReenter with
    | true => exact ho.holds hq
    | false =>
      obtain ⟨rfl, rfl⟩ := ho.quiet hq
      exact called
  refine ⟨back.reply, fun hne => ?_⟩
  -- what happened meanwhile belongs to others
  have same : h'.handedBy op = handedBy op (⟨.calls op thread c, s⟩ :: h) :=
    ho.since.unchanged fun _ _ => handedBy_of_ne
  show h'.handedBy op = _
  rw [same, handedBy_of_call, hg.given hne]

theorem Giving.carries_call (hc : c.handed? = none) :
    (handing e).Carries (fun op _ s h => Giving e given op s h) (Operation.call c) := by
  intro op thread s h hg
  have law : Moment.InOrder e ⟨.calls op thread c, s⟩ h := .of_call hc
  have called := hg.call law fun handle hh => by
    rw [hc] at hh
    cases hh
  rwa [hc] at called

/-- Parts that hand nothing over. -/
theorem giving_table (e : Engine) (given : List Handle) : TableParts (fun m =>
    (handing e).Carries (fun op _ s h => Giving e given op s h) m) := by
  have changes : ∀ {α : Type} {f : State → α × State}, (∀ s, Aside s (f s).2) →
      (handing e).Carries (fun op _ s h => Giving e given op s h) (Operation.modifyGet f) :=
    fun hf => .modifyGet fun _ _ s _ hg => ⟨hg.toIssues.aside (hf s), hg.given⟩
  have basics : Basics (fun m => (handing e).Carries (fun op _ s h => Giving e given op s h) m) :=
    Nesting.Carries.basics_of_calls fun hc =>
      Giving.carries_call (Call.handed?_eq_none (Call.passed?_eq_none (Call.toEngine_eq_false hc)))
  exact {
    toParts := basics.parts (Giving.carries_call rfl) fun hf => changes fun s => .touch (hf s)
    strike := changes fun _ => .striking _
    miss := changes (f := fun s => ((), { s with counters := s.counters.bump .duplicateReleases }))
      fun _ => ⟨id, .refl _, rfl, rfl⟩
    enter := changes fun _ => .entering _ _ }

theorem giving_engine (e : Engine) (given : List Handle) : EngineParts (fun m =>
    (handing e).Carries (fun op _ s h => Giving e given op s h) m) where
  toParts := (giving_table e given).toParts
  engine _ hc := Giving.carries_call (Call.handed?_eq_none hc)

/-! ### Handing over -/

namespace Entered

/-- A pinned object enters the table under an id that is new to everybody. -/
theorem of_entering {o : HostObject} {k : HandleKind} (hg : Giving e [] op s h)
    (he : Registry.entering o k s = (.ok id, s')) : Entered e id op s' h := by
  have aside : Aside s s' := by
    have entered : Aside s (Registry.entering o k s).2 := .entering o k
    rwa [he] at entered
  obtain ⟨r, henlist, rfl⟩ := Registry.entering_ok he
  obtain ⟨-, hlimit, rfl, rfl⟩ := Registry.enlist_ok henlist
  exact {
    toIssues := hg.toIssues.aside aside
    given := hg.given
    issued := Registry.lt_next hlimit
    unused := fun m hm _ => by
      rw [← Bool.not_eq_true]
      intro hc
      exact UInt64.lt_irrefl _ (hg.listed m hm _ hc)
    rising := hg.handed }

/-- While the entry is logged, nothing else happens. -/
theorem logs (id : HandleId) :
    Basics (fun m => (handing e).Carries (fun op _ s h => Entered e id op s h) m) := by
  refine Nesting.Carries.basics fun op thread s h c hc hi => ?_
  have none : c.handed? = none :=
    Call.handed?_eq_none (Call.passed?_eq_none (Call.toEngine_eq_false hc))
  have called : Issues e s (⟨.calls op thread c, s⟩ :: h) := by
    refine hi.toIssues.call fun handle hh => ?_
    rw [none] at hh
    cases hh
  refine ⟨.of_call none, fun r lost => ⟨.of_reply, ?_⟩⟩
  exact {
    toIssues := called.reply
    given := fun hne => by
      have same : handedBy op (⟨.calls op thread c, s⟩ :: h) = [] := by
        rw [handedBy_of_call, none, hi.given hne]
        rfl
      exact same
    issued := hi.issued
    unused := by
      refine List.forall_mem_cons.mpr ⟨fun hb => (by cases hb), ?_⟩
      exact List.forall_mem_cons.mpr ⟨fun hb => (by cases hb), hi.unused⟩
    rising := by
      have same : History.handed (⟨.calls op thread c, s⟩ :: h) = h.handed := by
        rw [handed_of_call, none]
        rfl
      show ∀ earlier ∈ History.handed (⟨.calls op thread c, s⟩ :: h), earlier.id.raw < id.raw
      rw [same]
      exact hi.rising }

/-- The handle is passed to the engine by a call. -/
theorem pass {k : HandleKind} (hi : Entered e id op s h) (hc : c.passed? = some ⟨id, k⟩)
    (hne : e ≠ .absent) :
    Nests (handing e) op thread
      (fun _ s' h' => Giving e (Handle.known? ⟨id, k⟩).toList op s' h')
      (Operation.call c thread s) h := by
  have handed : c.handed? = Handle.known? ⟨id, k⟩ := by rw [Call.handed?, hc]; rfl
  have same : ∀ handle, c.handed? = some handle → handle.id = id := by
    intro handle hh
    rw [handed] at hh
    rw [Handle.eq_of_known? hh]
  have law : Moment.InOrder e ⟨.calls op thread c, s⟩ h := {
    unused := fun op' thread' c' handle heq hh => by
      cases heq
      rw [same handle hh]
      exact hi.unused
    rising := fun op' thread' c' handle heq hh => by
      cases heq
      rw [same handle hh]
      exact hi.rising
    present := fun _ _ _ _ _ _ => hne
    reported := fun _ _ _ _ heq => by cases heq }
  have passed := hi.toGiving.call law fun handle hh => by
    rw [same handle hh]
    exact hi.issued
  rwa [handed, List.append_nil] at passed

/-- The stand-in is given the handle without a call. -/
theorem absent {given : List Handle} (hi : Entered .absent id op s h) :
    Giving .absent given op s h :=
  ⟨hi.toIssues, fun hne => absurd rfl hne⟩

theorem startTunnel {settings : TunnelSettings} (hi : Entered e id op s h) :
    Nests (handing e) op thread
      (fun _ s' h' => Giving e (Handle.known? ⟨id, .tunnel⟩).toList op s' h')
      (e.startTunnel id settings thread s) h := by
  cases e with
  | external => exact hi.pass (c := .engine (.startTunnel id settings)) rfl nofun
  | linked =>
    refine Nests.bind ((hi.pass (c := .library (.startTunnel id.raw settings)) rfl nofun).mono ?_)
    exact fun _ s' h' hg => (giving_table _ _).breadcrumb op thread s' h' hg
  | absent =>
    have parts := giving_table .absent (Handle.known? ⟨id, .tunnel⟩).toList
    exact parts.bind parts.breadcrumb (fun _ => parts.serve .ofDispatcher (.release id.raw))
      op thread s h hi.absent

theorem invokeAction {data : CString} (hi : Entered e id op s h) :
    Nests (handing e) op thread
      (fun _ s' h' => Giving e (Handle.known? ⟨id, .invoke⟩).toList op s' h')
      (e.invokeAction id data thread s) h := by
  cases e with
  | external => exact hi.pass (c := .engine (.invokeAction id data)) rfl nofun
  | linked => exact hi.pass (c := .library (.invokeAction id.raw data)) rfl nofun
  | absent =>
    have parts := giving_table .absent (Handle.known? ⟨id, .invoke⟩).toList
    exact parts.bind (parts.serve .ofDispatcher (.onResult id.raw (some .empty)))
      (fun _ => parts.bind parts.breadcrumb fun _ => parts.serve .ofDispatcher (.release id.raw))
      op thread s h hi.absent

theorem setEventListener (hi : Entered e id op s h) :
    Nests (handing e) op thread
      (fun _ s' h' => Giving e (Handle.known? ⟨id, .listener⟩).toList op s' h')
      (e.setEventListener id thread s) h := by
  cases e with
  | external => exact hi.pass (c := .engine (.setEventListener id)) rfl nofun
  | linked => exact hi.pass (c := .library (.setEventListener id.raw)) rfl nofun
  | absent => exact hi.absent

end Entered

/-- The engine is told that there is no listener any more. -/
theorem Giving.clearListener (hg : Giving e [] op s h) :
    Nests (handing e) op thread (fun _ s' h' => Giving e [] op s' h')
      (e.setEventListener .null thread s) h := by
  cases e with
  | external =>
    exact Giving.carries_call (c := .engine (.setEventListener .null)) rfl op thread s h hg
  | linked => exact Giving.carries_call (c := .library (.setEventListener 0)) rfl op thread s h hg
  | absent => exact hg

/-- The listener slot has nothing to do with it. -/
theorem Giving.slot (hg : Giving e given op s h) (listener : ListenerSlot) :
    Giving e given op { s with listener } h :=
  ⟨hg.toIssues.change hg.sound (UInt64.le_refl _) rfl, hg.given⟩

/-- What follows once the engine has been told about a listener. -/
theorem Giving.replaceListener {next : HandleId} (he : s.engine = e)
    (told : Nests (handing e) op thread (fun _ s' h' => Giving e given op s' h')
      (e.setEventListener next thread s) h) :
    Nests (handing e) op thread (fun _ s' h' => Giving e given op s' h')
      (Bridge.replaceListener next thread s) h := by
  have parts := giving_table e given
  subst he
  exact Bridge.replaceListener_nests parts.toBasics (fun _ _ listener hg => hg.slot listener)
    (fun _ => parts.releaseIfPresent parts.strike) told

/-! ### Requests -/

/-- An operation that reports no handle has handed none over. -/
theorem Giving.ends {given : List Handle} {result : q.Result} {s₀ : State} {h₀ : History}
    (hg : Giving e given op s h) (hr : given = (q.reported? result).toList) :
    (handing e).ends op thread q s₀ h₀ result s h :=
  ⟨.of_end fun hne => (hg.given hne).trans hr, hg.toIssues.cons hg.handed, trivial⟩

/-- A callback object is registered, and what goes on with the handle hands it
    over. -/
theorem Giving.registered {q : BridgeRequest} {o : HostObject} {k : HandleKind}
    {next : Handle → Operation (Request.bridge q).Result}
    {fails : HandleError → Operation (Request.bridge q).Result} {s₀ : State} {h₀ : History}
    (hg : Giving e [] op s h)
    (hf : ∀ err s h, Giving e [] op s h → Nests (handing e) op thread
      ((handing e).ends op thread (.bridge q) s₀ h₀) (fails err thread s) h)
    (hn : ∀ handle s h, Entered e handle.id op s h → Nests (handing e) op thread
      ((handing e).ends op thread (.bridge q) s₀ h₀) (next handle thread s) h) :
    Nests (handing e) op thread ((handing e).ends op thread (.bridge q) s₀ h₀)
      ((do match ← Registry.register o k with
        | .error err => fails err
        | .ok handle => next handle : Operation (Request.bridge q).Result) thread s) h :=
  (giving_table e []).toPinningParts.registered_nests Entered.logs
    (fun _ _ _ _ _ => Entered.of_entering) hg hf hn

theorem reported?_of_not_hands {q : BridgeRequest} (hq : q.hands = false)
    (result : (Request.bridge q).Result) : (Request.bridge q).reported? result = none := by
  cases q with
  | startTunnel | invokeAction | setEventListener => cases hq
  | _ => rfl

theorem handing_kept (q : Request) : (handing e).Kept q := by
  intro thread s h numbered hi conduct
  have bridge : q.isBridge = true := conduct _ _ _ rfl
  refine ⟨.of_begin, ?_⟩
  have other : ∀ m ∈ h, m.event.op ≠ h.begun := fun m hm => Nat.ne_of_lt (numbered m hm)
  have began : Giving e [] h.begun s (⟨.begins h.begun thread q, s⟩ :: h) := by
    refine ⟨hi.cons hi.handed, fun _ => ?_⟩
    have none : made h.begun h = [] := (untold other).2
    show ((made h.begun h).filter (·.toEngine)).filterMap (·.handed?) = []
    rw [none]
    rfl
  match q with
  | .callback table q =>
    have served := (giving_table e []).serve table q h.begun thread s _ began
    exact served.mono fun result s' h' hg => hg.ends rfl
  | .library q =>
    show Nests _ _ _ _ (LinkedEngine.serve q thread s) _
    rw [LinkedEngine.serve_eq]
    have served :=
      (giving_table e []).serve (s.libraryTable.getD ⟨false⟩) q h.begun thread s _ began
    exact served.mono fun result s' h' hg => hg.ends rfl
  | .bridge q =>
    cases hands : q.hands with
    | false =>
      have passed := (giving_engine e []).bridge hands h.begun thread s _ began
      refine passed.mono fun result s' h' hg => hg.ends ?_
      rw [reported?_of_not_hands hands]
      rfl
    | true =>
      cases q with
      | startTunnel o settings =>
        refine began.registered (fun err s h hg => hg.ends rfl) fun handle s₁ h₁ he => ?_
        refine Nests.bind (((Entered.logs handle.id).emit _ thread s₁ h₁ he).mono ?_)
        intro _ s₂ h₂ he
        simp only [Operation.bind_apply, Operation.state_apply, Progress.bind, he.engine_eq]
        exact Nests.bind (he.startTunnel.mono fun _ s₃ h₃ hg => hg.ends rfl)
      | invokeAction data o =>
        refine began.registered (fun err s h hg => hg.ends rfl) fun handle s₁ h₁ he => ?_
        refine Nests.bind (((Entered.logs handle.id).breadcrumb _ thread s₁ h₁ he).mono ?_)
        intro _ s₂ h₂ he
        simp only [Operation.bind_apply, Operation.state_apply, Progress.bind, he.engine_eq]
        exact Nests.bind (he.invokeAction.mono fun _ s₃ h₃ hg => hg.ends rfl)
      | setEventListener callback =>
        have locked := began.slot { s.listener with locked := true }
        cases callback with
        | none =>
          refine Nests.bind (p := Bridge.replaceListener .null thread _) ?_
          refine (Giving.replaceListener locked.engine_eq locked.clearListener).mono ?_
          exact fun _ s₁ h₁ hg => hg.ends rfl
        | some o =>
          refine locked.registered (fun err s h hg => ?_) fun handle s₁ h₁ he => ?_
          · exact (hg.slot { s.listener with locked := false }).ends rfl
          · refine Nests.bind ((Giving.replaceListener he.engine_eq he.setEventListener).mono ?_)
            exact fun _ s₂ h₂ hg => hg.ends rfl
      | _ => cases hands
  | .registry _ | .dispatch _ | .entry _ | .log _ => cases bridge

/-! ### Runs -/

/-- A run of a new bridge.  Its host and its engine may use it again wherever
    they are called, and refuse what they like. -/
structure EngineRun (s : State) (c : Situation) : Prop where
  empty : s.registry.entries = []
  reaches : Reaches (.initial s) c
  bridge : c.history.Only Request.isBridge

/-- What each moment of a run of a bridge keeps to. -/
structure Moment.HandsOver (e : Engine) (m : Moment) (before : History) : Prop
    extends Moment.InOrder e m before where
  /-- A handle that is handed over is in the table, for the use that the call is
      about: a fresh registration of the reference that the host handed out as
      the same operation had it pin the callback object. -/
  live : ∀ op thread c handle, m.event = .calls op thread c → c.handed? = some handle →
    ∃ thread' q s₀ object reference, ⟨.begins op thread' q, s₀⟩ ∈ before ∧
      q.callback? = some object ∧
      (exchanges op before).filterMap Exchange.pinned? = [(object, reference)] ∧
      m.state.registry.listed? handle.id = some (.fresh handle.id reference handle.kind)

/-- What is handed over was granted to its operation. -/
theorem EngineRun.granted {c : Situation} (run : EngineRun s c) {later before : History}
    {call : Call} {handle : Handle} {s₁ : State}
    (heq : c.history = later ++ ⟨.calls op thread call, s₁⟩ :: before)
    (hh : call.handed? = some handle) :
    ∃ thread' q s₀, ⟨.begins op thread' q, s₀⟩ ∈ before ∧
      Granted q.callback? (exchanges op before) s₁ handle := by
  have accounted := run.reaches.accounted
  obtain ⟨-, q, s₀, began, -⟩ := (heq ▸ accounted).split
  have hb : ⟨.begins op thread q, s₀⟩ ∈ c.history := by simp [heq, began]
  have bridge : q.isBridge = true := (always_iff.mp run.bridge) _ hb op thread q rfl
  obtain ⟨-, granted⟩ := calls_of_follows accounted hb (Request.handing bridge) heq
  exact ⟨thread, q, s₀, began, granted handle hh⟩

theorem EngineRun.ordered {c : Situation} (run : EngineRun s c) :
    c.history.Always (Moment.InOrder s.engine) := by
  have initially : (handing s.engine).holds s [] :=
    { sound := .of_entries_nil run.empty
      engine_eq := rfl
      listed := fun m hm => by cases hm
      handed := fun m hm => by cases hm }
  exact (run.reaches.nested handing_kept initially run.bridge).always

/-- However operations are nested, and whatever the engine and the host do: an
    engine is handed fresh handles of the callback objects only, each one once
    and in rising order, and its callers are told which. -/
theorem handles_handed_over {c : Situation} (run : EngineRun s c) :
    c.history.Always (Moment.HandsOver s.engine) := by
  refine always_of_split fun later m before heq => ?_
  refine ⟨(heq ▸ run.ordered).split, ?_⟩
  obtain ⟨event, s₁⟩ := m
  rintro op thread call handle rfl hh
  obtain ⟨thread', q, s₀, began, object, reference, hcallback, hpinned, hlisted⟩ :=
    run.granted heq hh
  exact ⟨thread', q, s₀, object, reference, began, hcallback, hpinned, hlisted⟩

set_option maxRecDepth 4096 in
/-- While the host pins the callback of a tunnel, it starts an action, and the
    engine answers that at once.  A listener is refused, and then none is
    set. -/
def startedWhilePinned : Situation :=
  ((Situation.initial bridged).play?
    [.start ⟨"host"⟩ (.bridge (.startTunnel Sample.object ⟨5, .empty, .empty, .empty⟩)),
     .reply (.host .attach) (0 : Int32),
     .start ⟨"host"⟩ (.bridge (.invokeAction .empty Sample.object)),
     .reply (.host .attach) (0 : Int32),
     .reply (.host (.pin Sample.object)) (some Sample.reference),
     .start ⟨"engine"⟩ (.callback ⟨true⟩ (.onResult 1 none)),
     .reply (.host .attach) (1 : Int32),
     .reply (.host (.onResult Sample.reference .empty)) (),
     .reply (.engine (.invokeAction ⟨1⟩ .empty)) (),
     .reply (.host (.pin Sample.object)) (some Sample.reference'),
     .reply (.engine (.startTunnel ⟨2⟩ ⟨5, .empty, .empty, .empty⟩)) (),
     .start ⟨"host"⟩ (.bridge (.setEventListener (some Sample.object))),
     .reply (.host .attach) (7 : Int32),
     .start ⟨"host"⟩ (.bridge (.setEventListener none)),
     .reply (.engine (.setEventListener .null)) ()]).get rfl

set_option maxRecDepth 4096 in
theorem handles_handed_over_startedWhilePinned :
    EngineRun bridged startedWhilePinned ∧
    startedWhilePinned.stack = [] ∧
    startedWhilePinned.history.handed = [⟨⟨2⟩, .tunnel⟩, ⟨⟨1⟩, .invoke⟩] ∧
    startedWhilePinned.history.Always (Moment.HandsOver .external) := by
  have run : EngineRun bridged startedWhilePinned :=
    ⟨rfl, Situation.reaches_get_play? _, by decide⟩
  exact ⟨run, rfl, rfl, handles_handed_over run⟩

end Run

end CallbackBridge
