import CallbackBridge.Proofs.Failures
import CallbackBridge.Proofs.Standin.Tidy

/-! # Calls without an engine

    Key ideas:

    1. A call has one loose registration of its own at most, and leaves the
       others as they are.  So what is nested in a call leaves the call's own
       registration as it is.
    2. `Midway` says how far a call is: which registration it has, how many
       calls of host objects it has counted, and how it has left the slot.
    3. What an action was told shows that its callback was pinned, got its
       result, and was given back, in this order. -/

namespace CallbackBridge

open Run Run.History

namespace Run

/-! ### Actions -/

/-- An action has succeeded. -/
def isAnswer : Event → Bool
  | .ends _ _ (.entry (.invokeAction ..)) status => status = Entry.Status.ok
  | _ => false

/-- How many actions have succeeded. -/
def History.answers (h : History) : Nat :=
  h.countP (isAnswer ·.event)

theorem History.answers_cons (m : Moment) (h : History) :
    History.answers (m :: h) = h.answers + if isAnswer m.event then 1 else 0 := by
  simp [History.answers, List.countP_cons]

/-- Told on the attempt to hand over a result: the object has taken it, or the
    thread was refused. -/
def Offered (reference : HostObject) (data : CString) (policy : DetachPolicy)
    (told : List Exchange) : Prop :=
  (∃ s, Visited policy (.host (.onResult reference data)) () s told) ∨
    ∃ err s, Refused err s told

/-- What an action was told, newest first: its callback was pinned, was handed
    the empty string, and was given back.  The latter two come to nothing where
    the host refuses the thread. -/
def Attended (o : HostObject) (policy : DetachPolicy) (told : List Exchange) : Prop :=
  ∃ reference s pinning delivery giving, told = giving ++ (delivery ++ pinning) ∧
    Visited policy (.host (.pin o)) (some reference) s pinning ∧
    Offered reference .empty policy delivery ∧ Returned reference policy giving

/-- An action that has succeeded has attended to its callback. -/
def Moment.Attends (m : Moment) (before : History) : Prop :=
  ∀ op thread data callback (status : Entry.Status),
    m.event = .ends op thread (.entry (.invokeAction data callback)) status → status = .ok →
    ∃ o, callback = some o ∧ Attended o m.state.registry.policy (exchanges op before)

/-- How many more calls were handled than actions have succeeded. -/
def ahead (s : State) (h : History) : UInt64 :=
  s.handled - .ofNat h.answers

theorem ahead_cons {s : State} {h : History} {m : Moment} (hm : isAnswer m.event = false) :
    ahead s (m :: h) = ahead s h := by
  simp [ahead, History.answers_cons, hm]

/-! ### Nested calls -/

/-- What a call of an entry point brings about. -/
structure Restores (s : State) (h : History) (s' : State) (h' : History) : Prop where
  loose_eq : s'.loose = s.loose
  /-- A locked slot is left alone, and none is left locked. -/
  locked : s.listener.locked = true → s'.listener = s.listener
  unlocked : s.listener.locked = false → s'.listener.locked = false
  ready : Entry.isReady s = true →
    Entry.isReady s' = true ∧ s'.registry.policy = s.registry.policy
  ahead_eq : ahead s' h' = ahead s h

namespace Restores

variable {s s' s'' : State} {h h' h'' : History}

theorem refl (s : State) (h : History) : Restores s h s h :=
  ⟨rfl, fun _ => rfl, fun hu => hu, fun hr => ⟨hr, rfl⟩, rfl⟩

theorem trans (hs : Restores s h s' h') (hs' : Restores s' h' s'' h'') :
    Restores s h s'' h'' where
  loose_eq := hs'.loose_eq.trans hs.loose_eq
  locked hl := by
    have same := hs.locked hl
    rw [hs'.locked (by rw [same]; exact hl), same]
  unlocked hu := hs'.unlocked (hs.unlocked hu)
  ready hr := by
    obtain ⟨hr', policy⟩ := hs.ready hr
    obtain ⟨hr'', policy'⟩ := hs'.ready hr'
    exact ⟨hr'', policy'.trans policy⟩
  ahead_eq := hs'.ahead_eq.trans hs.ahead_eq

end Restores

/-- Nothing piles up where entry points are called, and nobody sets a listener
    while another one is being set. -/
def tidying : Nesting where
  holds s _ := Tidy s
  spans := Restores
  conduct m _ := ∀ op thread q, m.event = .begins op thread q →
    q.isEntry = true ∧ (q.setsListener = true → m.state.listener.locked = false)
  law := Moment.Attends
  spans_refl := .refl
  spans_trans := .trans

/-- A condition on the slot that nested calls keep. -/
def Firm (slot : ListenerSlot → Prop) : Prop :=
  ∀ l l', slot l → (l.locked = true → l' = l) → (l.locked = false → l'.locked = false) → slot l'

/-- How far a call is that began in `s₀` after `h₀`: it has `own` in the table,
    it has handled `due` calls, and the slot is as `slot` says. -/
structure Midway (own : Option Registration) (due : UInt64) (slot : ListenerSlot → Prop)
    (s₀ : State) (h₀ : History) (s : State) (h : History) : Prop where
  tidy : Tidy s
  has : ∀ e ∈ own, e ∈ s.loose
  rest : (s.loose.filter fun e => own.map (·.id) ≠ some e.id) = s₀.loose
  slot : slot s.listener
  ready : Entry.isReady s₀ = true →
    Entry.isReady s = true ∧ s.registry.policy = s₀.registry.policy
  ahead_eq : ahead s h = ahead s₀ h₀ + due

namespace Midway

variable {own : Option Registration} {due : UInt64} {slot : ListenerSlot → Prop}
  {s₀ s s' : State} {h₀ h h' : History} {op : Nat} {thread : Thread} {e : Registration}

theorem faint (hm : Midway own due slot s₀ h₀ s h) (hf : Faint s s') :
    Midway own due slot s₀ h₀ s' h where
  tidy := hm.tidy.faint hf
  has := hf.loose_eq ▸ hm.has
  rest := hf.loose_eq ▸ hm.rest
  slot := hf.listener_eq ▸ hm.slot
  ready hr := by
    rw [hf.isReady_eq, hf.registry_eq]
    exact hm.ready hr
  ahead_eq := by
    rw [ahead, hf.handled_eq]
    exact hm.ahead_eq

theorem cons (hm : Midway own due slot s₀ h₀ s h) {m : Moment} (ha : isAnswer m.event = false) :
    Midway own due slot s₀ h₀ s (m :: h) :=
  { hm with ahead_eq := (ahead_cons ha).trans hm.ahead_eq }

/-- Nested calls leave what is loose as it is. -/
theorem nested (hm : Midway own due slot s₀ h₀ s h) (firm : Firm slot) (tidy : Tidy s')
    (hr : Restores s h s' h') : Midway own due slot s₀ h₀ s' h' where
  tidy := tidy
  has := hr.loose_eq ▸ hm.has
  rest := hr.loose_eq ▸ hm.rest
  slot := firm _ _ hm.slot hr.locked hr.unlocked
  ready h₀ := by
    obtain ⟨ready, policy⟩ := hm.ready h₀
    obtain ⟨ready', policy'⟩ := hr.ready ready
    exact ⟨ready', policy'.trans policy⟩
  ahead_eq := hr.ahead_eq.trans hm.ahead_eq

theorem carries_call (firm : Firm slot) (c : Call) :
    tidying.Carries (fun _ _ s h => Midway own due slot s₀ h₀ s h) (Operation.call c) := by
  intro op thread s h hm
  refine ⟨fun _ _ _ _ _ he => (by cases he), fun _ => hm.tidy, fun r s' h' lost ho _ => ?_⟩
  refine ⟨fun _ _ _ _ _ he => (by cases he), ?_⟩
  have tidy : Tidy s' := by
    cases hc : c.mayReenter with
    | true => exact ho.holds hc
    | false => exact (ho.quiet hc).1 ▸ hm.tidy
  exact ((hm.cons rfl).nested firm tidy ho.spans).cons rfl

theorem parts (firm : Firm slot) :
    EntryParts fun m => tidying.Carries (fun _ _ s h => Midway own due slot s₀ h₀ s h) m where
  toBasics := Nesting.Carries.basics_of_calls fun {c} _ => carries_call firm c
  engine := fun {c} _ _ => carries_call firm c
  logger := by
    intro α f hf
    refine .modifyGet fun op thread s h hm => ?_
    obtain ⟨logger, hl⟩ := hf s
    rw [hl]
    exact hm.faint ⟨rfl, rfl, rfl, rfl, fun _ _ => rfl⟩
  launched := fun _ _ _ _ hm => hm.faint (.of_bump rfl)

theorem carries_limit {α : Type} {f : State → α × State}
    (hf : ∀ s, ∃ limiter, (f s).2 = { s with limiter }) :
    tidying.Carries (fun _ _ s h => Midway own due slot s₀ h₀ s h) (Operation.modifyGet f) := by
  refine .modifyGet fun op thread s h hm => ?_
  obtain ⟨limiter, hl⟩ := hf s
  rw [hl]
  exact hm.faint ⟨rfl, rfl, rfl, rfl, fun _ _ => rfl⟩

theorem visit (firm : Firm slot) (c : HostCall) :
    tidying.Carries (fun _ _ s h => Midway own due slot s₀ h₀ s h)
      (CallbackBridge.visit (Operation.call (.host c))) :=
  (parts firm).visit (carries_call firm _) (carries_call firm _) (carries_call firm _)

theorem count {k : Counter} (hk : k.telling = false) :
    tidying.Carries (fun _ _ s h => Midway own due slot s₀ h₀ s h) (bump k) :=
  fun _ _ _ _ hm => hm.faint (.of_bump hk)

theorem pin (firm : Firm slot) {o : HostObject} :
    tidying.Carries (fun _ _ s h => Midway own due slot s₀ h₀ s h) (Registry.pin o) :=
  (parts firm).pin (visit firm _) (count rfl)

theorem unpin (firm : Firm slot) {o : HostObject} :
    tidying.Carries (fun _ _ s h => Midway own due slot s₀ h₀ s h) (Registry.unpin o) :=
  (parts firm).unpin (visit firm _) (count rfl) fun hf => carries_limit hf

/-! ### The call's own registration -/

/-- What is listed now is the call's own. -/
theorem enter {pinned : HostObject} {kind : HandleKind} {id : HandleId}
    (hm : Midway none due slot s₀ h₀ s h) (hr : Entry.isReady s₀ = true)
    (he : Registry.entering pinned kind s = (.ok id, s')) :
    Midway (some (.fresh id pinned kind)) due slot s₀ h₀ s' h ∧ id.isNull = false := by
  have tidy : Tidy s' := hm.tidy.enter (hm.ready hr).1 he
  obtain ⟨r, enlisted, rfl⟩ := Registry.entering_ok he
  obtain ⟨-, below, rfl, rfl⟩ := Registry.enlist_ok enlisted
  have older : ∀ e ∈ s.registry.entries, e.id ≠ ⟨s.registry.nextId⟩ := by
    intro e he heq
    have := hm.tidy.sound.issued e he
    rw [heq] at this
    exact UInt64.lt_irrefl _ this
  have unheld : s.listener.current ≠ some ⟨s.registry.nextId⟩ := by
    intro hc
    obtain ⟨e, he, hid, -⟩ := hm.tidy.slot _ hc
    exact older e he hid
  have loose : State.loose { s with
      registry := { s.registry with
        nextId := s.registry.nextId + 1
        entries := .fresh ⟨s.registry.nextId⟩ pinned kind :: s.registry.entries }
      counters := s.counters.bump .handlesRegistered } =
      .fresh ⟨s.registry.nextId⟩ pinned kind :: s.loose :=
    List.filter_cons_of_pos (decide_eq_true unheld)
  refine ⟨⟨tidy, ?_, ?_, hm.slot, hm.ready, hm.ahead_eq⟩, ?_⟩
  · intro e he
    cases he
    rw [loose]
    exact List.mem_cons_self ..
  · rw [loose, ← hm.rest, List.filter_cons_of_neg (by simp [Registration.fresh])]
    apply List.filter_congr
    intro e he
    simpa [Registration.fresh] using (older e (State.mem_loose.mp he).1).symm
  · exact tidy.known _ (List.mem_cons_self ..)

/-- The call's own registration changes. -/
theorem edit {f : Registration → Registration} (hm : Midway (some e) due slot s₀ h₀ s h)
    (hf : ∀ e, (f e).id = e.id) (sound : (s.registry.update e.id f).Sound) :
    Midway (some (f e)) due slot s₀ h₀ { s with registry := s.registry.update e.id f } h := by
  let edited : Registration → Registration := fun e' => if e'.id = e.id then f e' else e'
  have same_id : ∀ e', (edited e').id = e'.id := by
    intro e'
    by_cases hid : e'.id = e.id <;> simp [edited, hid, hf]
  have loose : State.loose { s with registry := s.registry.update e.id f } =
      s.loose.map edited := by
    rw [State.loose, State.loose, Registry.update, List.filter_map]
    congr 1
    apply List.filter_congr
    intro e' _
    rw [Function.comp_apply, same_id]
  refine ⟨hm.tidy.edit hf sound (hm.has e rfl), ?_, ?_, hm.slot, hm.ready, hm.ahead_eq⟩
  · intro e' he'
    cases he'
    rw [loose]
    exact List.mem_map.mpr ⟨e, hm.has e rfl, if_pos rfl⟩
  · -- the others are as they were
    have others : (s.loose.filter fun e' => (some e).map (·.id) ≠ some e'.id).map edited =
        s.loose.filter fun e' => (some e).map (·.id) ≠ some e'.id := by
      refine (List.map_congr_left fun e' he' => ?_).trans (List.map_id _)
      have other := (List.mem_filter.mp he').2
      exact if_neg fun heq => by simp [heq] at other
    rw [loose, ← hm.rest, ← others, List.filter_map]
    congr 1
    apply List.filter_congr
    intro e' _
    rw [Function.comp_apply, same_id, Option.map_some, Option.map_some, hf]

/-- The call's own registration goes. -/
theorem leave (hm : Midway (some e) due slot s₀ h₀ s h) :
    Midway none due slot s₀ h₀
      { s with registry := { s.registry with entries := s.registry.entries.filter (·.id ≠ e.id) } }
      h := by
  refine ⟨hm.tidy.leave (hm.has e rfl), by simp, ?_, hm.slot, hm.ready, hm.ahead_eq⟩
  rw [← hm.rest]
  simp only [State.loose, List.filter_filter]
  apply List.filter_congr
  intro e' _
  simp [eq_comm, Bool.and_comm]

/-- A call of a host object is counted. -/
theorem handle {k : Counter} (hm : Midway own due slot s₀ h₀ s h)
    (hr : Entry.isReady s₀ = true) (hk : k = .callbacksDispatched ∨ k = .callbacksDropped) :
    Midway own (due + 1) slot s₀ h₀ { s with counters := s.counters.bump k } h := by
  refine ⟨hm.tidy.handle (hm.ready hr).1 hk, hm.has, hm.rest, hm.slot, hm.ready, ?_⟩
  have ahead_eq := hm.ahead_eq
  rw [ahead] at ahead_eq ⊢
  rw [State.handled_bump hk]
  grind

/-! ### Parts of a call -/

theorem policy_eq (hm : Midway own due slot s₀ h₀ s h) (hr : Entry.isReady s₀ = true) :
    s.registry.policy = s₀.registry.policy :=
  (hm.ready hr).2

/-- Logging tells the call nothing. -/
theorem quiet {α : Type} {m : Operation α} {post : α → State → Prop}
    (hm : Midway own due slot s₀ h₀ s h)
    (hc : tidying.Carries (fun _ _ s h => Midway own due slot s₀ h₀ s h) m)
    (hq : m.Quiet thread s post) :
    Nests tidying op thread (fun a s' h' => Midway own due slot s₀ h₀ s' h' ∧
      exchanges op h' = exchanges op h ∧ post a s') (m thread s) h := by
  refine ((hc op thread s h hm).told (hq [])).mono ?_
  rintro a s' h' ⟨hm', more, told, rfl, hp⟩
  exact ⟨hm', told, hp⟩

/-- A result is offered to an object. -/
theorem offer {o : HostObject} {data : CString} (firm : Firm slot)
    (hr : Entry.isReady s₀ = true) (hm : Midway own due slot s₀ h₀ s h) :
    Nests tidying op thread (fun _ s' h' => Midway own due slot s₀ h₀ s' h' ∧
      ∃ delivery, exchanges op h' = delivery ++ exchanges op h ∧
        Offered o data s₀.registry.policy delivery)
      (Dispatch.attached (Operation.call (.host (.onResult o data))) thread s) h := by
  have visited : Nests tidying op thread _ (onHostThread s.registry.policy
      (Operation.call (.host (.onResult o data))) thread s) h :=
    Nests.told (visit firm (.onResult o data) op thread s h hm) (onHostThread_follows rfl)
  rw [hm.policy_eq hr] at visited
  simp only [Dispatch.attached, Operation.bind_apply, Operation.state_apply, Progress.bind,
    hm.policy_eq hr]
  refine Nests.bind (visited.mono ?_)
  rintro result s₁ h₁ ⟨hm₁, delivery, told, ended⟩
  cases result with
  | ok _ => exact ⟨hm₁, delivery, told, .inl ⟨s₁, ended⟩⟩
  | error err => exact ⟨hm₁.faint (.of_bump rfl), delivery, told, .inr ⟨err, s₁, ended⟩⟩

/-- How the call of a host object went is counted and logged. -/
theorem settle {result : Except DispatchError Unit} {shape : CallShape} {id : HandleId}
    (firm : Firm slot) (hr : Entry.isReady s₀ = true) (hm : Midway own due slot s₀ h₀ s h) :
    Nests tidying op thread (fun _ s' h' => Midway own (due + 1) slot s₀ h₀ s' h' ∧
      exchanges op h' = exchanges op h) (Dispatch.settle shape id result thread s) h := by
  cases result with
  | ok _ =>
    have counted := hm.handle hr (.inl rfl)
    simp only [Dispatch.settle, bump, Operation.bind_apply, Operation.modify_apply, Progress.bind]
    refine Nests.bind ((counted.quiet (parts firm).breadcrumb .breadcrumb).mono ?_)
    rintro _ s₁ h₁ ⟨hm₁, told, -⟩
    exact ⟨hm₁, told⟩
  | error err =>
    have counted := hm.handle hr (.inr rfl)
    have limited : tidying.Carries (fun _ _ s h => Midway own (due + 1) slot s₀ h₀ s h)
        (Log.limitedError err.category s!"dropped {shape.name} for {id.text}: {err.message}") :=
      (parts firm).limitedError fun hf => carries_limit hf
    simp only [Dispatch.settle, Dispatch.reportDrop, bump, Operation.bind_apply,
      Operation.modify_apply, Progress.bind, Progress.bind_assoc]
    refine Nests.bind ((counted.quiet limited .limitedError).mono ?_)
    rintro _ s₁ h₁ ⟨hm₁, told, -⟩
    exact ⟨hm₁, told⟩

/-- A result is offered to the call's own object, which stays registered. -/
theorem deliver {data : CString} (firm : Firm slot) (hr : Entry.isReady s₀ = true)
    (hm : Midway (some e) due slot s₀ h₀ s h) (hl : e.listed = true) (hk : e.kind = .invoke)
    (hd : e.delivered = false) :
    Nests tidying op thread (fun _ s' h' =>
      Midway (some { e with delivered := true }) (due + 1) slot s₀ h₀ s' h' ∧
      ∃ delivery, exchanges op h' = delivery ++ exchanges op h ∧
        Offered e.object data s₀.registry.policy delivery)
      (Dispatch.deliverResult e.id data thread s) h := by
  have mem := (State.mem_loose.mp (hm.has e rfl)).1
  have known := hm.tidy.known e mem
  have sound := hm.tidy.sound
  have hf : s.registry.listed? e.id = some e := sound.distinct.listed?_eq mem hl
  let lent : Registration := { e with delivered := true, loans := e.loans + 1 }
  let s₁ : State := { s with registry := (s.registry.markDelivered e.id).lend e.id }
  -- it is claimed and lent before the host is called
  have hm₁ : Midway (some lent) due slot s₀ h₀ s₁ h :=
    (hm.edit (f := fun e => { e with delivered := true }) (fun _ => rfl) sound.markDelivered).edit
      (f := fun e => { e with loans := e.loans + 1 }) (fun _ => rfl) sound.markDelivered.lend
  have claimed : Dispatch.handOver (Dispatch.claimResult e) e.object data thread
      { s with registry := s.registry.lend e.id } =
      Dispatch.attached (Operation.call (.host (.onResult e.object data))) thread s₁ := by
    rw [Dispatch.handOver, Operation.bind_apply, Dispatch.claimResult_invoke sound hf hk, hd]
    rfl
  rw [Dispatch.deliverResult_eq known, Operation.bind_apply,
    Dispatch.withTarget_listed known hf (by rw [hk]; rfl), Operation.bind_apply, claimed]
  refine Nests.bind (Nests.bind ((hm₁.offer firm hr).mono ?_))
  rintro result s₂ h₂ ⟨hm₂, delivery, told, offered⟩
  -- whatever was nested in the call has left the loan as it was
  have mem₂ := (State.mem_loose.mp (hm₂.has lent rfl)).1
  have back : Registry.giveBack lent.id thread s₂ = .finished () _ :=
    Registry.giveBack_listed hm₂.tidy.sound mem₂ hl
  have hm₃ : Midway (some { e with delivered := true }) due slot s₀ h₀ { s₂ with
      registry := s₂.registry.update e.id fun e => { e with loans := e.loans - 1 } } h₂ :=
    hm₂.edit (f := fun e => { e with loans := e.loans - 1 }) (fun _ => rfl)
      (hm₂.tidy.sound.update (fun _ => rfl) fun e' he' hid hl' => by
        rw [hm₂.tidy.sound.distinct.eq he' mem₂ hid] at hl'
        exact absurd hl (by simpa using hl'))
  rw [Operation.bind_apply, show e.id = lent.id from rfl, back]
  refine (hm₃.settle firm hr).mono ?_
  rintro _ s₄ h₄ ⟨hm₄, told₄⟩
  exact ⟨hm₄, delivery, told₄.trans told, offered⟩

/-- The call's own registration is struck off, and its object is given back. -/
theorem take (firm : Firm slot) (hr : Entry.isReady s₀ = true)
    (hm : Midway (some e) due slot s₀ h₀ s h) (hl : e.listed = true) (hu : e.loans = 0) :
    Nests tidying op thread (fun found s' h' => found = true ∧
      Midway none due slot s₀ h₀ s' h' ∧ ∃ giving, exchanges op h' = giving ++ exchanges op h ∧
        Returned e.object s₀.registry.policy giving) (Registry.take e.id thread s) h := by
  have mem := (State.mem_loose.mp (hm.has e rfl)).1
  have hf : s.registry.listed? e.id = some e := hm.tidy.sound.distinct.listed?_eq mem hl
  let struck : Registration := { e with listed := false, loans := e.loans + 1 }
  have hm₁ : Midway (some struck) due slot s₀ h₀ { s with registry := s.registry.delist e.id } h :=
    hm.edit (f := fun e => { e with listed := false, loans := e.loans + 1 }) (fun _ => rfl)
      hm.tidy.sound.delist
  have hm₂ := hm₁.faint (.of_bump (k := .handlesReleased) rfl)
  rw [Registry.take_listed hf]
  simp only [bump, Operation.bind_apply, Operation.modify_apply, Progress.bind]
  refine Nests.bind ((hm₂.quiet (parts firm).breadcrumb .breadcrumb).mono ?_)
  rintro _ s₃ h₃ ⟨hm₃, told₃, -⟩
  -- the release holds the last loan, so the object is unpinned
  have mem₃ := (State.mem_loose.mp (hm₃.has struck rfl)).1
  have back : Registry.giveBack struck.id thread s₃ = Registry.unpin struck.object thread _ :=
    Registry.giveBack_last hm₃.tidy.sound mem₃ rfl (by simp [struck, hu])
  have hm₄ := hm₃.leave
  have policy : s₃.registry.policy = s₀.registry.policy := hm₃.policy_eq hr
  rw [show e.id = struck.id from rfl, back]
  refine Nests.bind ((Nests.told (unpin firm op thread _ h₃ hm₄) Registry.unpin_follows).mono ?_)
  rintro _ s₅ h₅ ⟨hm₅, giving, told₅, returned⟩
  rw [told₃] at told₅
  exact ⟨rfl, hm₅, giving, told₅, policy ▸ returned⟩

/-- The stand-in gives the call's own registration back. -/
theorem discard {operation : String} (firm : Firm slot) (hr : Entry.isReady s₀ = true)
    (hm : Midway (some e) due slot s₀ h₀ s h) (hl : e.listed = true) (hu : e.loans = 0) :
    Nests tidying op thread (fun _ s' h' => Midway none due slot s₀ h₀ s' h' ∧
      ∃ giving, exchanges op h' = giving ++ exchanges op h ∧
        Returned e.object s₀.registry.policy giving)
      (AbsentEngine.discard e.id operation thread s) h := by
  refine Nests.bind ((hm.quiet (parts firm).breadcrumb .breadcrumb).mono ?_)
  rintro _ s₁ h₁ ⟨hm₁, told₁, -⟩
  have known : e.id.isNull = false := hm.tidy.known e (State.mem_loose.mp (hm.has e rfl)).1
  have released : Registry.releaseRaw e.id = Registry.remove e.id := if_neg (by simp [known])
  have served : CallbackTable.ofDispatcher.serve (.release e.id.raw) = (do
      let _ ← Registry.remove e.id
      pure ()) := by
    rw [← released]
    rfl
  rw [served]
  refine Nests.bind (Nests.bind ((hm₁.take firm hr hl hu).mono ?_))
  rintro found s₂ h₂ ⟨rfl, hm₂, giving, told₂, returned⟩
  rw [told₁] at told₂
  exact ⟨hm₂, giving, told₂, returned⟩

/-- The stand-in offers the empty string, and gives the handle back. -/
theorem answer (firm : Firm slot) (hr : Entry.isReady s₀ = true)
    (hm : Midway (some e) due slot s₀ h₀ s h) (hl : e.listed = true) (hk : e.kind = .invoke)
    (hd : e.delivered = false) (hu : e.loans = 0) :
    Nests tidying op thread (fun _ s' h' => Midway none (due + 1) slot s₀ h₀ s' h' ∧
      ∃ delivery giving, exchanges op h' = giving ++ (delivery ++ exchanges op h) ∧
        Offered e.object .empty s₀.registry.policy delivery ∧
        Returned e.object s₀.registry.policy giving)
      (AbsentEngine.invokeAction e.id thread s) h := by
  have offers : Nests tidying op thread (fun _ s' h' =>
      Midway (some { e with delivered := true }) (due + 1) slot s₀ h₀ s' h' ∧
      ∃ delivery, exchanges op h' = delivery ++ exchanges op h ∧
        Offered e.object .empty s₀.registry.policy delivery)
      (CallbackTable.ofDispatcher.serve (.onResult e.id.raw (some .empty)) thread s) h :=
    Nests.bind ((hm.deliver firm hr hl hk hd).mono fun _ _ _ hx => hx)
  refine Nests.bind (offers.mono ?_)
  rintro _ s₁ h₁ ⟨hm₁, delivery, told₁, offered⟩
  refine (hm₁.discard firm hr hl hu).mono ?_
  rintro _ s₂ h₂ ⟨hm₂, giving, told₂, returned⟩
  rw [told₁] at told₂
  exact ⟨hm₂, delivery, giving, told₂, offered, returned⟩

/-- An object is registered, and is then the call's own. -/
theorem register {o : HostObject} {k : HandleKind} (firm : Firm slot)
    (hr : Entry.isReady s₀ = true) (hm : Midway none due slot s₀ h₀ s h) :
    Nests tidying op thread (fun result s' h' => match result with
      | .error _ => Midway none due slot s₀ h₀ s' h'
      | .ok handle => handle.id.isNull = false ∧ ∃ reference s₁ pinning,
        Midway (some (.fresh handle.id reference k)) due slot s₀ h₀ s' h' ∧
        exchanges op h' = pinning ++ exchanges op h ∧
        Visited s₀.registry.policy (.host (.pin o)) (some reference) s₁ pinning)
      (Registry.register o k thread s) h := by
  let J (id : HandleId) (s : State) (h : History) : Prop := id.isNull = false ∧
    ∃ pinned, Midway (some (.fresh id pinned k)) due slot s₀ h₀ s h
  -- the registration stays the call's own while it is logged
  have logs : ∀ id, Basics fun m => tidying.Carries (fun _ _ s h => J id s h) m := by
    refine fun id => Nesting.Carries.basics_of_calls fun {c} _ op thread s h hj => ?_
    obtain ⟨known, pinned, hm⟩ := hj
    exact (carries_call firm c op thread s h hm).mono fun _ _ _ hm => ⟨known, pinned, hm⟩
  have entered : ∀ pinned id s₁ s₂ h₁, Midway none due slot s₀ h₀ s₁ h₁ →
      Registry.entering pinned k s₁ = (.ok id, s₂) → J id s₂ h₁ := by
    intro pinned id s₁ s₂ h₁ hm he
    obtain ⟨hm₂, known⟩ := hm.enter hr he
    exact ⟨known, pinned, hm₂⟩
  have registers : Nests tidying op thread (fun result s' h' => match result with
      | .error _ => Midway none due slot s₀ h₀ s' h'
      | .ok handle => J handle.id s' h') (Registry.register o k thread s) h :=
    Registry.register_nests (I := fun _ _ s h => Midway none due slot s₀ h₀ s h)
      (J := fun id _ _ s h => J id s h) (pin firm) (unpin firm) logs entered hm
  refine (registers.told register_follows).mono ?_
  rintro result s' h' ⟨hj, pinning, told, outcome⟩
  cases result with
  | error err => exact hj
  | ok handle =>
    obtain ⟨known, reference, hm'⟩ := hj
    obtain ⟨-, pinned, s₁, visited, head⟩ := outcome
    -- what the host has pinned is what was registered
    have same : Registration.fresh handle.id reference k = .fresh handle.id pinned k :=
      hm'.tidy.sound.distinct.eq (State.mem_loose.mp (hm'.has _ rfl)).1
        (List.mem_of_mem_head? head) rfl
    rw [same] at hm'
    rw [hm.policy_eq hr] at visited
    exact ⟨known, pinned, s₁, pinning, hm', told, visited⟩

end Midway

end Run

end CallbackBridge
