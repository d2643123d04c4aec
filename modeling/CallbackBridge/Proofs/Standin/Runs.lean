import CallbackBridge.Proofs.Standin.Operations

/-! # Nothing accumulates without an engine

    Key ideas:

    1. The listener that is replaced becomes loose when the slot is switched,
       and is then the call's own, to be released like any other.
    2. Each entry point leaves what is loose as it found it, and a slot that
       was locked as it was.
    3. Nothing is loose at the beginning of a run, and so nothing is at rest. -/

namespace CallbackBridge

open Run Run.History

namespace Run

namespace Midway

variable {own : Option Registration} {due : UInt64} {slot : ListenerSlot → Prop}
  {s₀ s s' : State} {h₀ h h' : History} {op : Nat} {thread : Thread} {e : Registration}

/-! ### Requests to the bridge -/

theorem engine_eq (hm : Midway own due slot s₀ h₀ s h) : s.engine = .absent :=
  hm.tidy.engine_eq

theorem startTunnel {o : HostObject} {settings : TunnelSettings} (firm : Firm slot)
    (hr : Entry.isReady s₀ = true) (hm : Midway none due slot s₀ h₀ s h) :
    Nests tidying op thread (fun _ s' h' => Midway none due slot s₀ h₀ s' h')
      (Bridge.startTunnel o settings thread s) h := by
  refine Nests.bind ((hm.register firm hr).mono fun result s₁ h₁ registered => ?_)
  cases result with
  | error err => exact registered
  | ok handle =>
    obtain ⟨-, reference, -, -, hm₁, -⟩ := registered
    refine Nests.bind ((hm₁.quiet (parts firm).emit .emit).mono ?_)
    rintro _ s₂ h₂ ⟨hm₂, -⟩
    simp only [Operation.bind_apply, Operation.state_apply, Progress.bind, hm₂.engine_eq]
    exact Nests.bind ((hm₂.discard firm hr rfl rfl).mono fun _ _ _ hx => hx.1)

/-- An action is answered before it returns. -/
theorem invokeAction {o : HostObject} {data : CString} (firm : Firm slot)
    (hr : Entry.isReady s₀ = true) (hm : Midway none due slot s₀ h₀ s h) :
    Nests tidying op thread (fun result s' h' => match result with
      | .error _ => Midway none due slot s₀ h₀ s' h'
      | .ok _ => Midway none (due + 1) slot s₀ h₀ s' h' ∧
        ∃ told, exchanges op h' = told ++ exchanges op h ∧ Attended o s₀.registry.policy told)
      (Bridge.invokeAction data o thread s) h := by
  refine Nests.bind ((hm.register firm hr).mono fun result s₁ h₁ registered => ?_)
  cases result with
  | error err => exact registered
  | ok handle =>
    obtain ⟨-, reference, s', pinning, hm₁, told₁, pinned⟩ := registered
    refine Nests.bind ((hm₁.quiet (parts firm).breadcrumb .breadcrumb).mono ?_)
    rintro _ s₂ h₂ ⟨hm₂, told₂, -⟩
    simp only [Operation.bind_apply, Operation.state_apply, Progress.bind, hm₂.engine_eq]
    refine Nests.bind ((hm₂.answer firm hr rfl rfl rfl rfl).mono ?_)
    rintro _ s₃ h₃ ⟨hm₃, delivery, giving, told₃, offered, returned⟩
    refine ⟨hm₃, giving ++ (delivery ++ pinning), ?_, reference, s', pinning, delivery, giving, rfl,
      pinned, offered, returned⟩
    rw [told₃, told₂, told₁, List.append_assoc, List.append_assoc]

/-! ### The listener -/

/-- The slot changes and holds the same handle. -/
theorem hold {slot' : ListenerSlot → Prop} {l : ListenerSlot} (hm : Midway own due slot s₀ h₀ s h)
    (hr : Entry.isReady s₀ = true) (hc : l.current = s.listener.current) (hl : slot' l) :
    Midway own due slot' s₀ h₀ { s with listener := l } h := by
  have loose : State.loose { s with listener := l } = s.loose := by
    simp [State.loose, hc]
  refine ⟨.of_ready (hm.ready hr).1 hm.tidy.engine_eq hm.tidy.sound hm.tidy.first hm.tidy.known
    ?_ hm.tidy.clean, ?_, ?_, hl, hm.ready, hm.ahead_eq⟩
  · intro id hid
    exact hm.tidy.slot id (hc ▸ hid)
  · rw [loose]
    exact hm.has
  · rw [loose]
    exact hm.rest

/-- The slot is switched to the call's own handle, or to none.  What it held
    before is the call's own then. -/
theorem switch {cur : Option HandleId} (hm : Midway own due (· = ⟨cur, true⟩) s₀ h₀ s h)
    (hr : Entry.isReady s₀ = true) (hown : ∀ e ∈ own, e.listed = true ∧ e.loans = 0) :
    ∃ own' : Option Registration, own'.map (·.id) = cur ∧
      (∀ e ∈ own', e.listed = true ∧ e.loans = 0) ∧
      Midway own' due (·.locked = false) s₀ h₀
        { s with listener := ⟨own.map (·.id), false⟩ } h := by
  have current : s.listener.current = cur := congrArg ListenerSlot.current hm.slot
  -- the registration of the handle that is in the slot
  obtain ⟨own', hid, held⟩ : ∃ own' : Option Registration, own'.map (·.id) = cur ∧
      ∀ e ∈ own', e ∈ s.registry.entries ∧ e.listed = true ∧ e.loans = 0 := by
    cases cur with
    | none => exact ⟨none, rfl, by simp⟩
    | some id =>
      obtain ⟨e, he, rfl, hx⟩ := hm.tidy.slot id current
      exact ⟨some e, rfl, fun e' he' => by cases he'; exact ⟨he, hx⟩⟩
  refine ⟨own', hid, fun e he => (held e he).2, .of_ready (hm.ready hr).1 hm.tidy.engine_eq
    hm.tidy.sound hm.tidy.first hm.tidy.known ?_ hm.tidy.clean, ?_, ?_, rfl, hm.ready,
    hm.ahead_eq⟩
  · intro id hc
    obtain ⟨e, rfl, rfl⟩ := Option.map_eq_some_iff.mp hc
    exact ⟨e, (State.mem_loose.mp (hm.has e rfl)).1, rfl, hown e rfl⟩
  · intro e he
    refine State.mem_loose.mpr ⟨(held e he).1, fun hc => ?_⟩
    obtain ⟨e₁, rfl, heq⟩ := Option.map_eq_some_iff.mp hc
    -- the call's own handle was not the one in the slot
    refine (State.mem_loose.mp (hm.has e₁ rfl)).2 ?_
    rw [current, ← hid, show own' = some e from he, heq]
    rfl
  · rw [hid, ← hm.rest]
    simp only [State.loose, List.filter_filter, current]
    apply List.filter_congr
    intro e _
    exact Bool.and_comm _ _

theorem firm_locked (cur : Option HandleId) : Firm (· = ⟨cur, true⟩) := by
  rintro l l' rfl locked -
  exact locked rfl

theorem firm_unlocked : Firm (·.locked = false) :=
  fun _ _ hl _ unlocked => unlocked hl

/-- The listener before is released once the slot is switched. -/
theorem replaceListener {cur : Option HandleId} {next : HandleId}
    (hr : Entry.isReady s₀ = true) (hm : Midway own due (· = ⟨cur, true⟩) s₀ h₀ s h)
    (hnext : (if next.isNull then none else some next) = own.map (·.id))
    (hown : ∀ e ∈ own, e.listed = true ∧ e.loans = 0) :
    Nests tidying op thread (fun _ s' h' => Midway none due (·.locked = false) s₀ h₀ s' h')
      (Bridge.replaceListener next thread s) h := by
  have current : s.listener.current = cur := congrArg ListenerSlot.current hm.slot
  obtain ⟨own', hid, held, hm₁⟩ := hm.switch hr hown
  have logs : Basics fun m => tidying.Carries
      (fun _ _ s h => Midway none due (·.locked = false) s₀ h₀ s h) m :=
    (parts firm_unlocked).toBasics
  -- the stand-in is told nothing about a listener
  have untold : s.engine.setEventListener next = pure () := by
    rw [hm.engine_eq]
    rfl
  simp only [Bridge.replaceListener, Bridge.switchSlot, Operation.bind_apply,
    Operation.state_apply, Operation.modifyGet_apply, Progress.bind, untold,
    Operation.pure_apply, current, hnext]
  cases own' with
  | none =>
    subst hid
    exact logs.breadcrumb op thread _ h hm₁
  | some e =>
    subst hid
    obtain ⟨hl, hu⟩ := held e rfl
    have known : e.id.isNull = false :=
      hm₁.tidy.known e (State.mem_loose.mp (hm₁.has e rfl)).1
    have releases : Registry.releaseIfPresent e.id = (do
        if ← Registry.take e.id then
          pure true
        else
          Log.breadcrumb .handle s!"handle {e.id.text} was already released by the engine"
          pure false) := if_neg (by simp [known])
    simp only [Option.map_some, releases]
    refine Nests.bind (Nests.bind (Nests.bind ((hm₁.take firm_unlocked hr hl hu).mono ?_)))
    rintro found s₂ h₂ ⟨rfl, hm₂, -⟩
    exact logs.breadcrumb op thread s₂ h₂ hm₂

/-- A listener is set while nobody else sets one. -/
theorem setEventListener {callback : Option HostObject} (hr : Entry.isReady s₀ = true)
    (hm : Midway none due slot s₀ h₀ s h) :
    Nests tidying op thread (fun _ s' h' => Midway none due (·.locked = false) s₀ h₀ s' h')
      (Bridge.setEventListener callback thread s) h := by
  -- until the slot is switched, nested calls leave it alone
  have locked : Midway none due (· = ⟨s.listener.current, true⟩) s₀ h₀
      { s with listener.locked := true } h := hm.hold hr rfl rfl
  simp only [Bridge.setEventListener, Bridge.lockSlot, Operation.bind_apply,
    Operation.modify_apply, Progress.bind]
  cases callback with
  | none => exact Nests.bind (locked.replaceListener hr rfl (by simp))
  | some o =>
    refine Nests.bind ((locked.register (firm_locked _) hr).mono fun result s₁ h₁ registered => ?_)
    cases result with
    | error err => exact registered.hold hr rfl rfl
    | ok handle =>
      obtain ⟨known, reference, -, -, hm₁, -⟩ := registered
      refine Nests.bind (hm₁.replaceListener hr (if_neg (by simp [known])) fun e he => ?_)
      cases he
      exact ⟨rfl, rfl⟩

/-! ### Entry points -/

/-- A failure is logged. -/
theorem registered {point : Entry.Point} {result : Except HandleError HandleId}
    (firm : Firm slot) (hm : Midway own due slot s₀ h₀ s h) :
    Nests tidying op thread (fun status s' h' => Midway own due slot s₀ h₀ s' h' ∧
      exchanges op h' = exchanges op h ∧ (status = .ok ↔ ∃ id, result = .ok id))
      (Entry.registered point result thread s) h := by
  cases result with
  | ok id => exact ⟨hm, rfl, by simp⟩
  | error err =>
    refine Nests.bind ((hm.quiet (parts firm).emit .emit).mono ?_)
    rintro _ s₁ h₁ ⟨hm₁, told, -⟩
    exact ⟨hm₁, told, by simp⟩

/-- Where the bridge is not initialised nothing is done. -/
theorem whenReady {α : Type} {point : Entry.Point} {otherwise : α} {body : Operation α}
    {post : α → State → History → Prop} (firm : Firm slot) (hm : Midway own due slot s₀ h₀ s h)
    (hbody : Entry.isReady s = true → Nests tidying op thread post (body thread s) h)
    (early : ∀ s' h', Midway own due slot s₀ h₀ s' h' → post otherwise s' h') :
    Nests tidying op thread post (Entry.whenReady point otherwise body thread s) h := by
  simp only [Entry.whenReady, Operation.bind_apply, Operation.state_apply, Progress.bind]
  split
  · next hr => exact hbody hr
  · exact Nests.bind (((parts firm).emit op thread s h hm).mono fun _ s' h' hm' => early s' h' hm')

theorem required {point : Entry.Point} {name : String} {value : Option CString}
    (firm : Firm slot) (hm : Midway own due slot s₀ h₀ s h) :
    Nests tidying op thread (fun found s' h' => Midway own due slot s₀ h₀ s' h' ∧
      exchanges op h' = exchanges op h ∧ found = value ∧ s' = s)
      (Entry.required point name value thread s) h :=
  hm.quiet (parts firm).required Entry.required_quiet

theorem requiredCallback {point : Entry.Point} {callback : Option HostObject}
    (firm : Firm slot) (hm : Midway own due slot s₀ h₀ s h) :
    Nests tidying op thread (fun found s' h' => Midway own due slot s₀ h₀ s' h' ∧
      exchanges op h' = exchanges op h ∧ found = callback ∧ s' = s)
      (Entry.requiredCallback point callback thread s) h :=
  hm.quiet (parts firm).requiredCallback Entry.requiredCallback_quiet

theorem entry_startTunnel {fd : Int32} {callback : Option HostObject}
    {stack address dns : Option CString} (firm : Firm slot)
    (hm : Midway none 0 slot s h₀ s h) :
    Nests tidying op thread (fun _ s' h' => Midway none 0 slot s h₀ s' h')
      (Entry.startTunnel fd callback stack address dns thread s) h := by
  refine hm.whenReady firm (fun hr => ?_) fun _ _ hm' => hm'
  refine Nests.bind ((hm.requiredCallback firm).mono ?_)
  rintro callback s₁ h₁ ⟨hm₁, -⟩
  cases callback with
  | none => exact hm₁
  | some o =>
    refine Nests.bind ((hm₁.required firm).mono ?_)
    rintro stack s₂ h₂ ⟨hm₂, -⟩
    refine Nests.bind ((hm₂.required firm).mono ?_)
    rintro address s₃ h₃ ⟨hm₃, -⟩
    refine Nests.bind ((hm₃.required firm).mono ?_)
    rintro dns s₄ h₄ ⟨hm₄, -⟩
    -- each of the three strings has to be there
    cases stack with
    | none => exact hm₄
    | some stack =>
      cases address with
      | none => exact hm₄
      | some address =>
        cases dns with
        | none => exact hm₄
        | some dns =>
          refine Nests.bind ((hm₄.startTunnel firm hr).mono fun result s₅ h₅ hm₅ => ?_)
          exact (hm₅.registered firm).mono fun _ _ _ hx => hx.1

/-- An action that succeeds was answered. -/
theorem entry_invokeAction {data : Option CString} {callback : Option HostObject}
    (firm : Firm slot) (hm : Midway none 0 slot s h₀ s h) (untold : exchanges op h = []) :
    Nests tidying op thread (fun status s' h' =>
      (status ≠ .ok → Midway none 0 slot s h₀ s' h') ∧
      (status = .ok → Midway none 1 slot s h₀ s' h' ∧
        ∃ o, callback = some o ∧ Attended o s'.registry.policy (exchanges op h')))
      (Entry.invokeAction data callback thread s) h := by
  -- where it is declined, nothing was done
  have declines : ∀ {status : Entry.Status} {s' h'}, status ≠ .ok → Midway none 0 slot s h₀ s' h' →
      (status ≠ .ok → Midway none 0 slot s h₀ s' h') ∧
      (status = .ok → Midway none 1 slot s h₀ s' h' ∧
        ∃ o, callback = some o ∧ Attended o s'.registry.policy (exchanges op h')) :=
    fun hs hm => ⟨fun _ => hm, fun heq => absurd heq hs⟩
  refine hm.whenReady firm (fun hr => ?_) fun _ _ hm' => declines (by decide) hm'
  refine Nests.bind ((hm.requiredCallback firm).mono ?_)
  rintro found s₁ h₁ ⟨hm₁, told₁, rfl, -⟩
  cases found with
  | none => exact declines (by decide) hm₁
  | some o =>
    refine Nests.bind ((hm₁.required firm).mono ?_)
    rintro data s₂ h₂ ⟨hm₂, told₂, -⟩
    cases data with
    | none => exact declines (by decide) hm₂
    | some data =>
      refine Nests.bind ((hm₂.invokeAction firm hr).mono fun result s₃ h₃ invoked => ?_)
      cases result with
      | error err =>
        refine (Midway.registered firm invoked).mono ?_
        rintro status s₄ h₄ ⟨hm₄, -, hok⟩
        exact ⟨fun _ => hm₄, fun heq => by simpa using hok.mp heq⟩
      | ok id =>
        obtain ⟨hm₃, told, told₃, attended⟩ := invoked
        refine (Midway.registered firm hm₃).mono ?_
        rintro status s₄ h₄ ⟨hm₄, told₄, hok⟩
        refine ⟨fun hne => absurd (hok.mpr ⟨id, rfl⟩) hne, fun _ => ⟨hm₄, o, rfl, ?_⟩⟩
        rw [hm₄.policy_eq hr, told₄, told₃, told₂, told₁, untold, List.append_nil]
        exact attended

theorem entry_setEventListener {callback : Option HostObject} (firm : Firm slot)
    (hm : Midway none 0 slot s h₀ s h) (hs : ∀ l, slot l → l.locked = false) :
    Nests tidying op thread (fun _ s' h' => Midway none 0 (·.locked = false) s h₀ s' h')
      (Entry.setEventListener callback thread s) h := by
  have unlock : ∀ s' h', Midway none 0 slot s h₀ s' h' →
      Midway none 0 (·.locked = false) s h₀ s' h' := fun _ _ hm' =>
    { hm' with slot := hs _ hm'.slot }
  refine hm.whenReady firm (fun hr => ?_) unlock
  refine Nests.bind ((hm.setEventListener hr).mono fun result s₁ h₁ hm₁ => ?_)
  exact (hm₁.registered firm_unlocked).mono fun _ _ _ hx => hx.1

/-- The bridge is created while nothing is registered. -/
theorem create {options : BridgeOptions} (firm : Firm slot) (hm : Midway none 0 slot s₀ h₀ s h)
    (hi : Entry.isReady s = false) :
    Nests tidying op thread (fun _ s' h' => Midway none 0 slot s₀ h₀ s' h' ∧
      Entry.isReady s' = false) (Bridge.create .absent options thread s) h := by
  obtain ⟨empty, slot_empty, unhandled⟩ := hm.tidy.idle hi
  let policy := DetachPolicy.ofFlag options.detachAfterCallback
  let s₁ : State := { s with
    registry := .new policy options.maxHandles.toUInt64, counters := .zero, listener := .empty
    engine := .absent }
  have loose : s.loose = [] := by simp [State.loose, empty]
  -- a bridge that was ready when the call began would still be
  have unready : Entry.isReady s₀ = false := by
    rw [← Bool.not_eq_true]
    intro hr
    rw [(hm.ready hr).1] at hi
    cases hi
  have tidy : Tidy s₁ := {
    engine_eq := rfl
    sound := .of_entries_nil rfl
    first := UInt64.le_refl _
    known := by simp [s₁, Registry.new]
    slot := by simp [s₁, ListenerSlot.empty]
    clean := fun k _ => by cases k <;> rfl
    idle := fun _ => ⟨rfl, rfl, rfl⟩ }
  have emptied : slot .empty := slot_empty ▸ hm.slot
  have hm₁ : Midway none 0 slot s₀ h₀ s₁ h := by
    refine ⟨tidy, by simp, ?_, emptied, fun hr => by simp [unready] at hr, ?_⟩
    · rw [← hm.rest, loose]
      rfl
    · rw [← hm.ahead_eq, ahead, ahead, unhandled]
      rfl
  let text := s!"bridge initialized (policy={policy.name}, max_handles={options.maxHandles.toNat})"
  show Nests tidying op thread _ (Log.breadcrumb .boundary text thread s₁) h
  refine (hm₁.quiet (parts firm).breadcrumb .breadcrumb).mono ?_
  rintro _ s₂ h₂ ⟨hm₂, -, rfl⟩
  exact ⟨hm₂, hi⟩

/-- How the bridge was initialised is remembered. -/
theorem remember {r : Except InitError Unit} (hm : Midway none 0 slot s₀ h₀ s h)
    (hi : Entry.isReady s = false) :
    Midway none 0 slot s₀ h₀ { s with startup := some r } h := by
  have idle := hm.tidy.idle hi
  refine ⟨{ hm.tidy with idle := fun _ => idle }, hm.has, hm.rest, hm.slot, fun hr => ?_,
    hm.ahead_eq⟩
  rw [(hm.ready hr).1] at hi
  cases hi

theorem initOnce {methods : HostMethods} {options : BridgeOptions} (firm : Firm slot)
    (hm : Midway none 0 slot s₀ h₀ s h) :
    Nests tidying op thread (fun _ s' h' => Midway none 0 slot s₀ h₀ s' h')
      (Entry.initOnce methods options thread s) h := by
  simp only [Entry.initOnce, Operation.bind_apply, Operation.state_apply, Progress.bind]
  rcases hs : s.startup with _ | _ | _
  case some.error | some.ok => exact hm
  case none =>
    have unready : Entry.isReady s = false := by simp [Entry.isReady, hs]
    simp only
    cases methods.check with
    | error e => exact hm.remember unready
    | ok _ =>
      refine Nests.bind ((hm.quiet (parts firm).emit .emit).mono ?_)
      rintro _ s₁ h₁ ⟨hm₁, -, rfl⟩
      refine Nests.bind ((hm₁.create firm unready).mono ?_)
      rintro _ s₂ h₂ ⟨hm₂, unready₂⟩
      exact hm₂.remember unready₂

theorem init {methods : Option HostMethods} {options : Option BridgeOptions} (firm : Firm slot)
    (hm : Midway none 0 slot s₀ h₀ s h) :
    Nests tidying op thread (fun _ s' h' => Midway none 0 slot s₀ h₀ s' h')
      (Entry.init methods options thread s) h := by
  have logs : ∀ {level message code} {s' : State} {h' : History},
      Midway none 0 slot s₀ h₀ s' h' → Nests tidying op thread
        (fun _ s' h' => Midway none 0 slot s₀ h₀ s' h')
        ((do Log.emit level .plain message; pure code : Operation Int32) thread s') h' :=
    fun hm' => Nests.bind ((parts firm).emit op thread _ _ hm')
  cases methods with
  | none => exact logs hm
  | some methods =>
    refine Nests.bind ((hm.initOnce firm).mono fun result s₁ h₁ hm₁ => ?_)
    cases result with
    | ok _ => exact hm₁
    | error e => exact logs hm₁

/-! ### Whole calls -/

/-- The slot `l` of a call that found it as `found`. -/
def Resting (found l : ListenerSlot) : Prop :=
  (found.locked = true → l = found) ∧ (found.locked = false → l.locked = false)

theorem firm_resting (found : ListenerSlot) : Firm (Resting found) := by
  rintro l l' ⟨same, unlocked⟩ locked' unlocked'
  refine ⟨fun hf => ?_, fun hf => unlocked' (unlocked hf)⟩
  obtain rfl := same hf
  exact locked' hf

theorem begins {q : Request} (ht : Tidy s) :
    Midway none 0 (Resting s.listener) s h s (⟨.begins op thread q, s⟩ :: h) where
  tidy := ht
  has := by simp
  rest := by simp
  slot := ⟨fun _ => rfl, fun hu => hu⟩
  ready hr := ⟨hr, rfl⟩
  ahead_eq := by
    rw [ahead_cons rfl]
    exact (add_zero _).symm

/-- A call has ended that owes nothing. -/
theorem restores (hm : Midway none due (Resting s₀.listener) s₀ h₀ s h) {m : Moment}
    (hd : due = if isAnswer m.event then 1 else 0) : Restores s₀ h₀ s (m :: h) where
  loose_eq := by simpa using hm.rest
  locked := hm.slot.1
  unlocked := hm.slot.2
  ready := hm.ready
  ahead_eq := by
    have ahead_eq := hm.ahead_eq
    rw [ahead] at ahead_eq ⊢
    rw [History.answers_cons]
    -- an action that has succeeded has handled one call, and counts as one answer
    by_cases ha : isAnswer m.event = true
    · rw [hd, if_pos ha] at ahead_eq
      rw [if_pos ha, UInt64.ofNat_add]
      grind
    · rw [hd, if_neg ha] at ahead_eq
      simpa [ha] using ahead_eq

/-- A call that was no action, or did not succeed. -/
theorem ends {q : Request} {result : q.Result}
    (hm : Midway none 0 (Resting s₀.listener) s₀ h₀ s h)
    (ha : isAnswer (.ends op thread q result) = false) :
    tidying.ends op thread q s₀ h₀ result s h := by
  refine ⟨fun op thread data callback status heq hs => ?_, hm.tidy, hm.restores (by simp [ha])⟩
  rw [show Event.ends _ _ _ _ = _ from heq, hs] at ha
  cases ha

/-- A call of an entry point that hands nothing over. -/
theorem entry {q : EntryRequest} (hm : Midway none 0 (Resting s₀.listener) s₀ h₀ s h)
    (firm : Firm (Resting s₀.listener)) (hq : q.hands = false) (hi : q.initializes = false) :
    Nests tidying op thread (tidying.ends op thread (.entry q) s₀ h₀) (q.operation thread s) h := by
  refine ((parts firm).entry hq hi op thread s h hm).mono fun result s' h' hm' => hm'.ends ?_
  cases q <;> first | rfl | cases hq

end Midway

theorem tidying_kept (q : Request) : tidying.Kept q := by
  intro thread s h numbered tidy conduct
  obtain ⟨entry, inTurn⟩ := conduct _ _ _ rfl
  refine ⟨fun _ _ _ _ _ he => (by cases he), ?_⟩
  have firm := Midway.firm_resting s.listener
  have hm : Midway none 0 (Midway.Resting s.listener) s h s (⟨.begins h.begun thread q, s⟩ :: h) :=
    .begins tidy
  match q with
  | .entry q =>
    cases q with
    | init => exact (hm.init firm).mono fun _ _ _ hm' => hm'.ends rfl
    | startTunnel => exact (hm.entry_startTunnel firm).mono fun _ _ _ hm' => hm'.ends rfl
    | setEventListener callback =>
      have unlocked : s.listener.locked = false := inTurn rfl
      refine (hm.entry_setEventListener firm fun l hl => hl.2 unlocked).mono ?_
      intro status s' h' hm'
      have resting : Midway none 0 (Midway.Resting s.listener) s h s' h' :=
        { hm' with slot := ⟨fun hl => by simp [unlocked] at hl, fun _ => hm'.slot⟩ }
      exact resting.ends rfl
    | invokeAction data callback =>
      have untold : exchanges h.begun h = [] :=
        (untold fun m hm => Nat.ne_of_lt (numbered m hm)).1
      refine (hm.entry_invokeAction firm untold).mono ?_
      rintro status s' h' ⟨failed, succeeded⟩
      by_cases hs : status = .ok
      · obtain ⟨hm', attended⟩ := succeeded hs
        refine ⟨fun op thread data callback status heq _ => ?_, hm'.tidy, hm'.restores ?_⟩
        · cases heq
          exact attended
        · simp [isAnswer, hs]
      · exact (failed hs).ends (by simp [isAnswer, hs])
    | _ => exact hm.entry firm rfl rfl
  | .registry _ | .dispatch _ | .callback .. | .library _ | .bridge _ | .log _ => cases entry

/-! ### Runs -/

/-- A run of a process without an engine.  The host may refuse threads, and may
    call entry points from inside its own calls; listeners are set one after
    the other. -/
structure StandinRun (processId : Nat) (c : Situation) : Prop where
  reaches : Reaches (.initial (State.initial processId)) c
  entry : c.history.Only Request.isEntry
  inTurn : c.history.ListenersInTurn

/-- What the calls of entry points have left behind. -/
structure Settled (s : State) (h : History) : Prop where
  table : s.registry.table.map (·.id) = s.listener.current.toList
  size : s.registry.table.length ≤ 1
  duplicateReleases : s.counters.get .duplicateReleases = 0
  staleLookups : s.counters.get .staleLookups = 0
  resultsRejected : s.counters.get .resultsRejected = 0
  handled : s.counters.get .callbacksDispatched + s.counters.get .callbacksDropped =
    .ofNat h.answers

/-- Without an engine nothing accumulates: at rest the table holds the listener
    and nothing else, nothing was released twice or looked up in vain, and there
    was one delivery for each action that succeeded, which its own callback has
    got before it was given back. -/
theorem nothing_accumulates {processId : Nat} {c : Situation} (run : StandinRun processId c) :
    (c.AtRest → Settled c.state c.history) ∧ c.history.Always Moment.Attends := by
  have conduct : c.history.Always tidying.conduct :=
    (run.entry.and run.inTurn).imp fun _ _ hm op thread q hq =>
      ⟨hm.1 op thread q hq, hm.2 op thread q hq⟩
  have stands := run.reaches.nested tidying_kept (Tidy.initial processId) conduct
  refine ⟨fun rest => ?_, stands.always⟩
  have tidy : Tidy c.state := (stands.at_rest rest).1
  have restores : Restores (State.initial processId) [] c.state c.history :=
    (stands.at_rest rest).2
  -- nothing was loose at the beginning
  have table := tidy.table_of_loose restores.loose_eq
  refine ⟨table, ?_, tidy.clean _ rfl, tidy.clean _ rfl, tidy.clean _ rfl, ?_⟩
  · rw [← List.length_map (·.id), table]
    cases c.state.listener.current <;> simp
  · have none : ahead (State.initial processId) [] = 0 := by
      simp only [ahead, State.handled, State.initial]
      decide
    exact sub_eq_zero.mp (restores.ahead_eq.trans none)

set_option maxRecDepth 4096 in
/-- The result of an action is dropped, as the host refuses the thread.  While
    the callback of the action is given back, the host clears the listener. -/
def clearedMeanwhile : Situation :=
  ((Situation.initial (State.initial 1)).play?
    [.start ⟨"host"⟩ (.entry (.init (some ⟨[]⟩) (some ⟨false, 2⟩))),
     .start ⟨"host"⟩ (.entry (.setEventListener (some Sample.object))),
     .reply (.host .attach) (0 : Int32),
     .reply (.host (.pin Sample.object)) (some Sample.reference),
     .start ⟨"host"⟩ (.entry (.invokeAction (some .empty) (some Sample.object))),
     .reply (.host .attach) (0 : Int32),
     .reply (.host (.pin Sample.object)) (some Sample.reference'),
     .reply (.host .attach) (7 : Int32),
     .reply (.system .clock) (0 : UInt64),
     .reply (.host .attach) (0 : Int32),
     .start ⟨"host"⟩ (.entry (.setEventListener none)),
     .reply (.host .attach) (1 : Int32),
     .reply (.host (.unpin Sample.reference)) (),
     .reply (.host (.unpin Sample.reference')) ()]).get rfl

set_option maxRecDepth 4096 in
theorem nothing_accumulates_clearedMeanwhile :
    StandinRun 1 clearedMeanwhile ∧ clearedMeanwhile.AtRest ∧
    clearedMeanwhile.history.answers = 1 ∧
    clearedMeanwhile.state.counters.get .callbacksDropped = 1 ∧
    Settled clearedMeanwhile.state clearedMeanwhile.history ∧
    clearedMeanwhile.history.Always Moment.Attends := by
  have run : StandinRun 1 clearedMeanwhile :=
    ⟨Situation.reaches_get_play? _, by decide, by decide⟩
  have accumulates := nothing_accumulates run
  exact ⟨run, rfl, rfl, rfl, accumulates.1 rfl, accumulates.2⟩

end Run

end CallbackBridge
