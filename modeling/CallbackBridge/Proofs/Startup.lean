import CallbackBridge.Proofs.Run.Cues
import CallbackBridge.Proofs.Run.Entries
import CallbackBridge.Proofs.Run.Monologues

/-! # Initialisation is decided once

    The first call to initialise that brings a method table decides for good
    whether there is a bridge, and with what policy and capacity.

    Proof structure:

    1. No request but such a call changes the settings, and once they are
       decided no request at all does.
    2. Calls to initialise, and entry points that come too early, only speak to
       the log.  What they do is told by the state in which they begin.
    3. At each beginning the settings are those that the first call with a table
       has decided on, if there was one. -/

namespace CallbackBridge

open Run

/-! ### Settings -/

/-- What is decided when the bridge is created. -/
structure Settings where
  startup : Option (Except InitError Unit)
  policy : DetachPolicy
  capacity : UInt64

/-- The settings of a state. -/
def State.settings (s : State) : Settings :=
  ⟨s.startup, s.registry.policy, s.registry.capacity⟩

/-- A call to initialise the bridge that brings a method table. -/
structure Attempt where
  op : Nat
  methods : HostMethods
  options : Option BridgeOptions

/-- What a call to initialise the bridge brings, if it brings a table. -/
def Request.brings? : Request → Option (HostMethods × Option BridgeOptions)
  | .entry (.init (some methods) options) => some (methods, options)
  | _ => none

/-- The state after the bridge was created, before that is recorded. -/
def State.created (s : State) (options : BridgeOptions) : State :=
  { s with
    registry := .new (.ofFlag options.detachAfterCallback) options.maxHandles.toUInt64
    counters := .zero
    listener := .empty
    engine := .absent }

/-- The state after the bridge was initialised. -/
def State.opened (s : State) (options : BridgeOptions) : State :=
  { s.created options with startup := some (.ok ()) }

/-- The state after a table was found to lack `method`. -/
def State.failed (s : State) (method : HostMethod) : State :=
  { s with startup := some (.error (.missingMethod method)) }

/-- The state after a call that brings a table, where nothing was decided. -/
def State.decided (s : State) (methods : HostMethods) (options : Option BridgeOptions) : State :=
  match methods.firstMissing? with
  | none => s.opened (options.getD .standard)
  | some method => s.failed method

/-! ### Who changes them -/

/-- A request leaves the settings alone, unless it may still decide on them. -/
def settling (q : Request) : Habit where
  between cue s := q.brings? = none ∨ cue.state.startup ≠ none → s.settings = cue.state.settings
  calls cue _ s := q.brings? = none ∨ cue.state.startup ≠ none → s.settings = cue.state.settings

theorem Touch.settings_eq {s s' : State} (ht : Touch s s') : s'.settings = s.settings := by
  have startup : s'.startup = s.startup := by cases ht <;> rfl
  simp [State.settings, startup, ht.rises.policy, ht.rises.capacity]

theorem settings_entering {o : HostObject} {k : HandleKind} {s : State} :
    (Registry.entering o k s).2.settings = s.settings := by
  rcases he : Registry.entering o k s with ⟨err | id, s'⟩
  · rw [Registry.entering_error he]
  · obtain ⟨r, henlist, rfl⟩ := Registry.entering_ok he
    obtain ⟨-, -, -, rfl⟩ := Registry.enlist_ok henlist
    rfl

theorem settling_parts (q : Request) : WholeParts fun m => (settling q).Of m := by
  have changes : ∀ {α : Type} {f : State → α × State}, (∀ s, (f s).2.settings = s.settings) →
      (settling q).Of (Operation.modifyGet f) :=
    fun hf => .modifyGet fun _ s hb hq => (hf s).trans (hb hq)
  have calls : ∀ {c : Call}, (settling q).Of (Operation.call c) :=
    .call (fun _ _ hb => hb) fun _ _ _ _ _ _ _ => rfl
  have basics : Basics fun m => (settling q).Of m := ⟨.pure, .bind, .state, .thread, fun _ => calls⟩
  exact {
    toParts := basics.parts calls fun hf => changes fun s => (hf s).settings_eq
    strike := changes fun s => by
      unfold Registry.striking
      split <;> rfl
    miss := changes (f := fun s => ((), { s with counters := s.counters.bump _ })) fun _ => rfl
    enter := changes fun s => settings_entering
    engine := fun _ => calls
    clear := changes fun _ => rfl
    slot := fun hf => changes fun s => by
      obtain ⟨listener, h⟩ := hf s
      rw [h]
      rfl
    logger := fun hf => changes fun s => by
      obtain ⟨logger, h⟩ := hf s
      rw [h]
      rfl }

theorem State.startup_decided (s : State) (methods : HostMethods)
    (options : Option BridgeOptions) :
    (s.decided methods options).startup = some methods.check := by
  unfold State.decided HostMethods.check
  cases methods.firstMissing? <;> rfl

/-! ### What is said -/

namespace Entry

/-- What a call to initialise is told once that has been decided. -/
def again : Except InitError Unit → InitError
  | .ok () => .alreadyInitialized
  | .error e => e

/-- The line about a call to initialise that failed. -/
def failure (s : State) (e : InitError) : List (Log.Line × State) :=
  Log.said s .error .plain s!"{Point.init.name} failed: {e.message}"

/-- The line about the bridge that was created. -/
def creation (s : State) : List (Log.Line × State) :=
  Log.said s .debug (.of .boundary)
    s!"bridge initialized (policy={s.registry.policy.name}, max_handles={s.registry.capacity.toNat})"

/-- The line about a call that comes too early, where there is one. -/
def tooEarly (s : State) : Option Point → List (Log.Line × State)
  | none => []
  | some point => Log.said s .warn .plain s!"{point.name} called before BridgeInit"

end Entry

/-- The answer of an entry point that needs the bridge, where there is none, and
    the name that it is logged under, if it is. -/
def EntryRequest.unready? : (q : EntryRequest) → Option (Option Entry.Point × q.Result)
  | .startTunnel .. => some (some .startTunnel, .uninitialized)
  | .stopTunnel => some (some .stopTunnel, ())
  | .updateDns _ => some (some .updateDns, ())
  | .forceGc => some (some .forceGc, ())
  | .invokeAction .. => some (some .invokeAction, .uninitialized)
  | .setEventListener _ => some (some .setEventListener, .uninitialized)
  | .traffic _ => some (some .traffic, .empty)
  | .totalTraffic _ => some (some .totalTraffic, .empty)
  | .suspend _ => some (some .suspend, ())
  | .counters => some (none, none)
  | .init .. | .startHelper _ | .terminateHelper .. | .pollHelper _ | .setLogSink ..
  | .setBreadcrumbMask _ => none

namespace Entry

variable {thread : Thread} {s : State} {options : Option BridgeOptions} {methods : HostMethods}

theorem init_null_speaks : (init none options thread s).Speaks (-1) s
    (Log.said s .error .plain s!"{Point.init.name}: host vtable is null") :=
  Log.emit_speaks.then_ends rfl

/-- Once it has been decided, nothing is done again. -/
theorem init_again_speaks {r : Except InitError Unit} (hs : s.startup = some r) :
    (init (some methods) options thread s).Speaks (again r).status s (failure s (again r)) := by
  have once : initOnce methods (options.getD .standard) thread s =
      .finished (.error (again r)) s := by
    simp only [initOnce, Operation.bind_apply, Operation.state_apply, Progress.bind, hs]
    rcases r with e | ⟨⟩ <;> rfl
  simp only [init, Operation.bind_apply, once, Progress.bind]
  exact Log.emit_speaks.then_ends rfl

theorem init_fails_speaks {method : HostMethod} (hs : s.startup = none)
    (hm : methods.firstMissing? = some method) :
    (init (some methods) options thread s).Speaks (-2) (s.failed method)
      (failure (s.failed method) (.missingMethod method)) := by
  have once : initOnce methods (options.getD .standard) thread s =
      .finished (.error (.missingMethod method)) (s.failed method) := by
    simp only [initOnce, Operation.bind_apply, Operation.state_apply, Progress.bind, hs,
      HostMethods.check, hm]
    rfl
  simp only [init, Operation.bind_apply, once, Progress.bind]
  exact Log.emit_speaks.then_ends rfl

theorem create_speaks {options : BridgeOptions} :
    (Bridge.create .absent options thread s).Speaks () (s.created options)
      (creation (s.created options)) := by
  simp only [Bridge.create, Operation.bind_apply, Operation.modify_apply, Progress.bind,
    Engine.installCallbacks, Operation.pure_apply]
  exact Log.emit_speaks

/-- The bridge is created.  All lines are said before that is recorded. -/
theorem init_opens_speaks (hs : s.startup = none) (hm : methods.firstMissing? = none) :
    ∃ said, (init (some methods) options thread s).Speaks 0 (s.opened (options.getD .standard))
      said ∧ ∀ x ∈ said, x.2.startup = none := by
  have once : ∃ said, (initOnce methods (options.getD .standard) thread s).Speaks (.ok ())
      (s.opened (options.getD .standard)) said ∧ ∀ x ∈ said, x.2.startup = none := by
    simp only [initOnce, Operation.bind_apply, Operation.state_apply, Progress.bind, hs,
      HostMethods.check, hm]
    refine ⟨_, Log.emit_speaks.bind (create_speaks.then_ends rfl), fun x hx => ?_⟩
    rcases List.mem_append.mp hx with hx | hx <;>
    · rw [Log.state_of_mem_said hx]
      exact hs
  obtain ⟨said, speaks, first⟩ := once
  exact ⟨said, speaks.then_ends rfl, first⟩

/-- Where nothing was decided, a call that brings a table decides. -/
theorem init_decides_speaks (hs : s.startup = none) : ∃ result said,
    (init (some methods) options thread s).Speaks result (s.decided methods options) said := by
  unfold State.decided
  split
  · next hm =>
    obtain ⟨said, speaks, -⟩ := init_opens_speaks hs hm
    exact ⟨_, said, speaks⟩
  · next method hm => exact ⟨_, _, init_fails_speaks hs hm⟩

theorem whenReady_speaks {α : Type} {point : Point} {otherwise : α} {body : Operation α}
    (hr : isReady s = false) :
    (whenReady point otherwise body thread s).Speaks otherwise s (tooEarly s (some point)) := by
  simp only [whenReady, Operation.bind_apply, Operation.state_apply, Progress.bind, hr]
  exact Log.emit_speaks.then_ends rfl

/-- An entry point that needs the bridge does nothing without it. -/
theorem unready_speaks {q : EntryRequest} {point : Option Point} {result : q.Result}
    (hq : q.unready? = some (point, result)) (hr : isReady s = false) :
    (q.operation thread s).Speaks result s (tooEarly s point) := by
  cases q with
  | init | startHelper | terminateHelper | pollHelper | setLogSink | setBreadcrumbMask => cases hq
  | traffic | totalTraffic =>
    cases hq
    exact (whenReady_speaks hr).then_ends rfl
  | counters =>
    cases hq
    simp only [EntryRequest.operation, counters, Operation.bind_apply, Operation.state_apply,
      Progress.bind, hr]
    exact .ends
  | _ =>
    cases hq
    exact whenReady_speaks hr

end Entry

/-! ### Settings at each moment -/

/-- Where each line is said and the end is come to in a manner, after cues of one
    sort, so is the whole. -/
theorem Progress.Speaks.heeds {α : Type} {μ : Manner α} {p : Progress α} {a : α} {s : State}
    {said : List (Log.Line × State)} {cue : Cue} (hp : p.Speaks a s said) (sort : Cue → Prop)
    (calls : ∀ cue, sort cue → ∀ x ∈ said, μ.calls cue (.log x.1) x.2)
    (ends : ∀ cue, sort cue → μ.ends cue a s) (hc : sort cue)
    (told : ∀ x ∈ said, sort (.told ⟨.log x.1, (), x.2⟩)) : p.Heeds μ cue := by
  induction hp generalizing cue with
  | ends => exact ends cue hc
  | line _ ih =>
    refine ⟨calls _ hc _ (List.mem_cons_self ..), fun reply s' hq => ?_⟩
    obtain rfl := hq rfl
    exact ih (fun cue hc x hx => calls cue hc x (List.mem_cons_of_mem _ hx))
      (told _ (List.mem_cons_self ..)) fun x hx => told x (List.mem_cons_of_mem _ hx)

/-- A call that brings a table decides on the settings, or finds them decided. -/
theorem settling_init {methods : HostMethods} {options : Option BridgeOptions} :
    (settling (.entry (.init (some methods) options))).Of (Entry.init (some methods) options) := by
  intro thread s cue hb
  have vacuous : ∀ {cue : Cue} {s : State}, cue.state.startup = none →
      (settling (.entry (.init (some methods) options))).between cue s :=
    fun hn hd => absurd hn (hd.resolve_left (Option.some_ne_none _))
  cases hs : s.startup with
  | some r =>
    refine (Entry.init_again_speaks hs).heeds (fun cue => (settling _).between cue s)
      ?_ (fun _ hc => hc) hb ?_
    · intro cue hc x hx
      rw [Log.state_of_mem_said hx]
      exact hc
    · intro x hx _
      rw [← Log.state_of_mem_said hx]
      rfl
  | none =>
    have undecided : cue.state.startup = none := by
      by_contra decided
      have same : s.startup = cue.state.startup :=
        congrArg Settings.startup (hb (.inr decided))
      exact decided (same.symm.trans hs)
    cases hm : methods.firstMissing? with
    | none =>
      obtain ⟨said, speaks, first⟩ := Entry.init_opens_speaks hs hm
      exact speaks.heeds (fun cue => cue.state.startup = none) (fun _ hc _ _ => vacuous hc)
        (fun _ hc => vacuous hc) undecided first
    | some method =>
      have after : ∀ {cue : Cue}, cue.state.startup = none ∨ cue.state = s.failed method →
          (settling (.entry (.init (some methods) options))).between cue (s.failed method) := by
        rintro cue (hn | heq)
        · exact vacuous hn
        · exact fun _ => by rw [heq]
      refine (Entry.init_fails_speaks hs hm).heeds
        (fun cue => cue.state.startup = none ∨ cue.state = s.failed method) ?_
        (fun _ hc => after hc) (.inl undecided) ?_
      · intro cue hc x hx
        rw [Log.state_of_mem_said hx]
        exact after hc
      · exact fun x hx => .inr (Log.state_of_mem_said hx)

/-- Only a call that brings a table changes the settings, and only where they
    have not been decided. -/
theorem settling_of (q : Request) : (settling q).Of q.operation := by
  have parts := settling_parts q
  cases hi : q.initializes with
  | false => exact parts.request hi
  | true =>
    cases q with
    | entry q =>
      cases q with
      | init methods options =>
        cases methods with
        | none => exact parts.bind parts.emit fun _ => parts.pure _
        | some methods => exact settling_init
      | _ => cases hi
    | _ => cases hi

namespace Run

namespace History

/-- What a moment brings to initialise the bridge with. -/
def attempt? (m : Moment) : Option Attempt :=
  match m.event with
  | .begins op _ q => q.brings?.map fun x => ⟨op, x.1, x.2⟩
  | .calls .. | .replies .. | .ends .. => none

/-- The first call to initialise the bridge that brings a table. -/
def firstAttempt? : History → Option Attempt
  | [] => none
  | m :: before => (firstAttempt? before).or (attempt? m)

variable {h later earlier : History} {m : Moment} {root : State}

theorem firstAttempt?_append : firstAttempt? (later ++ h) =
    (firstAttempt? h).or (firstAttempt? later) := by
  induction later with
  | nil => simp [firstAttempt?]
  | cons m later ih => simp [firstAttempt?, ih, Option.or_assoc]

theorem firstAttempt?_cons_eq_none : firstAttempt? (m :: h) = none ↔
    firstAttempt? h = none ∧ attempt? m = none := by
  simp [firstAttempt?]

theorem brings?_eq_none (hf : firstAttempt? h = none) {op : Nat} {thread : Thread} {q : Request}
    {s : State} (hm : ⟨.begins op thread q, s⟩ ∈ h) : q.brings? = none := by
  induction h with
  | nil => cases hm
  | cons m h ih =>
    obtain ⟨hh, hn⟩ := firstAttempt?_cons_eq_none.mp hf
    rcases List.mem_cons.mp hm with rfl | hm
    · simpa [attempt?] using hn
    · exact ih hh hm

theorem event_of_brings? {op : Nat} {thread : Thread} {q : Request} {s : State} {x : Attempt}
    (hx : attempt? ⟨.begins op thread q, s⟩ = some x) :
    op = x.op ∧ q = .entry (.init (some x.methods) x.options) := by
  obtain ⟨_, hq, rfl⟩ := Option.map_eq_some_iff.mp hx
  unfold Request.brings? at hq
  split at hq
  · cases hq
    exact ⟨rfl, rfl⟩
  · cases hq

/-- The first call with a table has its place in the history. -/
theorem exists_of_firstAttempt? {x : Attempt} (hf : firstAttempt? h = some x) :
    ∃ later earlier thread s,
      h = later ++ ⟨.begins x.op thread (.entry (.init (some x.methods) x.options)), s⟩ :: earlier ∧
      firstAttempt? earlier = none := by
  induction h with
  | nil => cases hf
  | cons m h ih =>
    rcases Option.or_eq_some_iff.mp hf with hh | ⟨hh, hm⟩
    · obtain ⟨later, earlier, thread, s, rfl, hn⟩ := ih hh
      exact ⟨m :: later, earlier, thread, s, rfl, hn⟩
    · obtain ⟨e, s⟩ := m
      cases e with
      | begins op thread q =>
        obtain ⟨rfl, rfl⟩ := event_of_brings? hm
        exact ⟨[], h, thread, s, rfl, hh⟩
      | _ => cases hm

/-- A moment leaves the settings as they were, unless its operation decides on
    them. -/
theorem settings_eq (hp : Prompted (fun q => (settling q).manner q.Result) root m h)
    (hd : firstAttempt? h = none ∨ (h.lastState root).startup ≠ none) :
    m.state.settings = (h.lastState root).settings := by
  obtain ⟨e, s⟩ := m
  -- who goes on is somebody who brought no table, or finds it decided
  have settled : ∀ {op thread cue q s'}, h.cue? = some (op, thread, cue) →
      ⟨.begins op thread q, s'⟩ ∈ h → (settling q).between cue s →
      s.settings = (h.lastState root).settings := by
    intro op thread cue q s' hc hb hbetween
    rw [lastState_of_cue? hc] at hd ⊢
    exact hbetween (hd.imp (fun hf => brings?_eq_none hf hb) fun hn => hn)
  cases e with
  | begins | replies => exact congrArg State.settings hp.2
  | calls op thread call =>
    obtain ⟨cue, q, s', hc, hb, hcalls⟩ := hp
    exact settled hc hb hcalls
  | ends op thread q result =>
    obtain ⟨cue, s', hc, hb, hends⟩ := hp
    exact settled hc hb hends

/-- Before a call brings a table the settings are the first ones. -/
theorem settings_of_unattempted
    (ha : h.Always (Prompted (fun q => (settling q).manner q.Result) root))
    (hf : firstAttempt? h = none) : (h.lastState root).settings = root.settings := by
  induction h with
  | nil => rfl
  | cons m h ih =>
    have hh := (firstAttempt?_cons_eq_none.mp hf).1
    exact (settings_eq ha.1 (.inl hh)).trans (ih ha.2 hh)

/-- Once they have been decided they stay. -/
theorem settings_kept
    (ha : (later ++ m :: h).Always (Prompted (fun q => (settling q).manner q.Result) root))
    (hd : m.state.startup ≠ none) : ∀ m' ∈ later, m'.state.settings = m.state.settings := by
  suffices hl : (lastState root (later ++ m :: h)).settings = m.state.settings ∧
      ∀ m' ∈ later, m'.state.settings = m.state.settings from hl.2
  induction later with
  | nil => exact ⟨rfl, by simp⟩
  | cons m' later ih =>
    obtain ⟨last, kept⟩ := ih ha.2
    have decided : (lastState root (later ++ m :: h)).startup ≠ none := by
      have same : (lastState root (later ++ m :: h)).startup = m.state.startup :=
        congrArg Settings.startup last
      rwa [same]
    have here : m'.state.settings = m.state.settings :=
      (settings_eq ha.1 (.inr decided)).trans last
    exact ⟨here, List.forall_mem_cons.mpr ⟨here, kept⟩⟩

end History

open History

variable {root : State} {c : Situation}

/-- Until a call brings a table nothing is decided. -/
theorem Reaches.startup_unattempted (h : Reaches (.initial root) c) (hr : root.startup = none)
    {op : Nat} {thread : Thread} {q : Request} {s : State} {later earlier : History}
    (heq : c.history = later ++ ⟨.begins op thread q, s⟩ :: earlier)
    (hf : firstAttempt? earlier = none) : s.startup = none := by
  have prompted := h.habitual settling_of fun _ _ _ => rfl
  have began := (heq ▸ prompted).split
  have first : s.settings = root.settings := (congrArg State.settings began.2).trans
    (settings_of_unattempted (prompted.of_suffix (suffix_of_split heq)) hf)
  exact (congrArg Settings.startup first).trans hr

/-- What the first call with a table decides on holds at all moments after it,
    but for its own. -/
theorem settings_after_attempt (h : Reaches (.initial root) c) (hr : root.startup = none)
    {op : Nat} {thread : Thread} {methods : HostMethods} {options : Option BridgeOptions}
    {s : State} {later earlier : History}
    (heq : c.history =
      later ++ ⟨.begins op thread (.entry (.init (some methods) options)), s⟩ :: earlier)
    (hf : firstAttempt? earlier = none) :
    ∀ m ∈ later, m.event.isBegin = true ∨ m.event.op ≠ op →
      m.state.settings = (s.decided methods options).settings := by
  have prompted := h.habitual settling_of fun _ _ _ => rfl
  have hs : s.startup = none := h.startup_unattempted hr heq hf
  have decides : ∃ result said, (Entry.init (some methods) options thread s).Speaks result
      (s.decided methods options) said := Entry.init_decides_speaks hs
  obtain ⟨result, said, speaks⟩ := decides
  intro m hm other
  have outside : m ∉ monologue op thread (.entry (.init (some methods) options)) said result
      (s.decided methods options) := by
    intro hm
    obtain ⟨hbegin, hop⟩ := of_mem_monologue hm
    rcases other with hb | ho
    · simp [hb] at hbegin
    · exact ho hop
  rcases h.unfolds heq speaks with ⟨rest, hrest⟩ | ⟨unfinished, -⟩
  · have hlater : later = rest.reverse ++
        ⟨.ends op thread (.entry (.init (some methods) options)) result,
          s.decided methods options⟩ :: (speech op thread said).reverse := by
      rw [← List.reverse_reverse later, ← hrest]
      simp [monologue]
    have hmem : m ∈ rest.reverse := by
      have hm' := List.mem_reverse.mpr hm
      rw [← hrest] at hm'
      exact List.mem_reverse.mpr ((List.mem_append.mp hm').resolve_left outside)
    rw [heq, hlater, List.append_assoc] at prompted
    refine settings_kept prompted ?_ m hmem
    rw [s.startup_decided methods options]
    exact Option.some_ne_none _
  · exact absurd (unfinished.subset (List.mem_reverse.mpr hm)) outside

/-- After a call has brought a table it is decided whether there is a bridge. -/
theorem Reaches.startup_attempted (h : Reaches (.initial root) c) (hr : root.startup = none)
    {op : Nat} {thread : Thread} {q : Request} {s : State} {later earlier : History} {x : Attempt}
    (heq : c.history = later ++ ⟨.begins op thread q, s⟩ :: earlier)
    (hf : firstAttempt? earlier = some x) : s.startup = some x.methods.check := by
  obtain ⟨later', earlier', thread', s', rfl, hf'⟩ := exists_of_firstAttempt? hf
  have attempted : c.history = (later ++ ⟨.begins op thread q, s⟩ :: later') ++
      ⟨.begins x.op thread' (.entry (.init (some x.methods) x.options)), s'⟩ :: earlier' := by
    simpa using heq
  have decided := settings_after_attempt h hr attempted hf' ⟨.begins op thread q, s⟩ (by simp)
    (.inl rfl)
  exact (congrArg Settings.startup decided).trans (s'.startup_decided ..)

/-! ### How it is decided -/

/-- How calls of entry points go before the bridge is initialised, when it is,
    and if it is not. -/
structure StartupDecided (c : Situation) : Prop where
  /-- A call without a table is refused, and changes nothing. -/
  null_table : ∀ {op thread options s} {earlier later : History},
    c.history = later ++ ⟨.begins op thread (.entry (.init none options)), s⟩ :: earlier →
    c.Unfolds op later (monologue op thread (.entry (.init none options))
      (Log.said s .error .plain s!"{Entry.Point.init.name}: host vtable is null") (-1 : Int32) s)
  /-- The first call with a table succeeds if the table is complete.  Its options
      alone decide on the policy and the capacity, for good. -/
  first_complete : ∀ {op thread methods options s} {earlier later : History},
    c.history =
      later ++ ⟨.begins op thread (.entry (.init (some methods) options)), s⟩ :: earlier →
    earlier.firstAttempt? = none → methods.firstMissing? = none →
    (∃ said, c.Unfolds op later (monologue op thread (.entry (.init (some methods) options)) said
      (0 : Int32) (s.opened (options.getD .standard)))) ∧
    ∀ m ∈ later, m.event.op ≠ op → m.state.startup = some (.ok ()) ∧
      m.state.registry.policy = .ofFlag (options.getD .standard).detachAfterCallback ∧
      m.state.registry.capacity = (options.getD .standard).maxHandles.toUInt64
  /-- Otherwise it fails for good, and tells the first entry that is missing. -/
  first_incomplete : ∀ {op thread methods options s method} {earlier later : History},
    c.history =
      later ++ ⟨.begins op thread (.entry (.init (some methods) options)), s⟩ :: earlier →
    earlier.firstAttempt? = none → methods.firstMissing? = some method →
    c.Unfolds op later (monologue op thread (.entry (.init (some methods) options))
      (Entry.failure (s.failed method) (.missingMethod method)) (-2 : Int32) (s.failed method))
  /-- After a success, later calls with a table are refused and change nothing. -/
  later_complete : ∀ {op thread methods options s x} {earlier later : History},
    c.history =
      later ++ ⟨.begins op thread (.entry (.init (some methods) options)), s⟩ :: earlier →
    earlier.firstAttempt? = some x → x.methods.firstMissing? = none →
    c.Unfolds op later (monologue op thread (.entry (.init (some methods) options))
      (Entry.failure s .alreadyInitialized) (-3 : Int32) s)
  /-- After a failure, they are told the same entry again. -/
  later_incomplete : ∀ {op thread methods options s x method} {earlier later : History},
    c.history =
      later ++ ⟨.begins op thread (.entry (.init (some methods) options)), s⟩ :: earlier →
    earlier.firstAttempt? = some x → x.methods.firstMissing? = some method →
    c.Unfolds op later (monologue op thread (.entry (.init (some methods) options))
      (Entry.failure s (.missingMethod method)) (-2 : Int32) s)
  /-- Only the first call with a table may succeed. -/
  success_first : ∀ {op thread methods options s},
    ⟨.ends op thread (.entry (.init methods options)) (0 : Int32), s⟩ ∈ c.history →
    ∃ x, c.history.firstAttempt? = some x ∧ x.op = op ∧ x.methods.firstMissing? = none
  /-- Without a bridge, all other entry points that need it do nothing. -/
  unready : ∀ {op thread s} {earlier later : History} {q : EntryRequest} {point : Option Entry.Point}
      {result : q.Result},
    c.history = later ++ ⟨.begins op thread (.entry q), s⟩ :: earlier →
    (∀ x, earlier.firstAttempt? = some x → x.methods.firstMissing? ≠ none) →
    q.unready? = some (point, result) →
    c.Unfolds op later (monologue op thread (.entry q) (Entry.tooEarly s point) result s)

theorem InitError.status_ne_zero (e : InitError) : e.status ≠ 0 := by
  have negative : (-2 : Int32) ≠ 0 := by decide
  cases e with
  | missingMethod method => exact negative
  | nullMethods | alreadyInitialized => decide

/-- A call to initialise the bridge succeeds only if it is the first one with a
    table, and that is complete. -/
theorem Reaches.success_first (h : Reaches (.initial root) c) (hr : root.startup = none)
    {op : Nat} {thread : Thread} {methods : Option HostMethods} {options : Option BridgeOptions}
    {s : State}
    (he : ⟨.ends op thread (.entry (.init methods options)) (0 : Int32), s⟩ ∈ c.history) :
    ∃ x, firstAttempt? c.history = some x ∧ x.op = op ∧ x.methods.firstMissing? = none := by
  obtain ⟨later, before, heq⟩ := List.append_of_mem he
  obtain ⟨-, s₀, hb, planned⟩ := (heq ▸ h.accounted).split
  obtain ⟨meanwhile, earlier, rfl⟩ := List.append_of_mem hb
  -- a call that says `said` succeeds only if that is how it ends
  have result_eq : ∀ {result : Int32} {s' said},
      (Entry.init methods options thread s₀).Speaks result s' said → result = 0 :=
    fun speaks => (planned _ speaks.follows).1.symm
  have begun : c.history = (later ++ ⟨.ends op thread (.entry (.init methods options)) (0 : Int32), s⟩
      :: meanwhile) ++ ⟨.begins op thread (.entry (.init methods options)), s₀⟩ :: earlier := by
    simpa using heq
  cases methods with
  | none => exact absurd (result_eq Entry.init_null_speaks) (by decide)
  | some methods =>
    cases hf : firstAttempt? earlier with
    | some x =>
      have again : (Entry.init (some methods) options thread s₀).Speaks _ _ _ :=
        Entry.init_again_speaks (h.startup_attempted hr begun hf)
      exact absurd (result_eq again) (InitError.status_ne_zero _)
    | none =>
      have undecided := h.startup_unattempted hr begun hf
      cases hm : methods.firstMissing? with
      | some method =>
        exact absurd (result_eq (Entry.init_fails_speaks undecided hm)) (by decide)
      | none =>
        refine ⟨⟨op, methods, options⟩, ?_, rfl, hm⟩
        rw [begun, firstAttempt?_append, firstAttempt?, hf]
        rfl

/-- Initialisation is decided once, by the first call with a table, whatever else
    is asked of the bridge before it, meanwhile and after it. -/
theorem initialised_once (h : Reaches (.initial root) c) (hr : root.startup = none) :
    StartupDecided c where
  null_table {_ thread options s} _ _ heq :=
    h.unfolds heq (@Entry.init_null_speaks thread s options)
  first_complete {op thread methods options s} {earlier later} heq hf hm := by
    have undecided := h.startup_unattempted hr heq hf
    obtain ⟨said, speaks, -⟩ := Entry.init_opens_speaks undecided hm
    refine ⟨⟨said, h.unfolds heq speaks⟩, fun m hmem other => ?_⟩
    have settings := settings_after_attempt h hr heq hf m hmem (.inr other)
    simp only [State.decided, hm] at settings
    exact ⟨congrArg Settings.startup settings, congrArg Settings.policy settings,
      congrArg Settings.capacity settings⟩
  first_incomplete heq hf hm :=
    h.unfolds heq (Entry.init_fails_speaks (h.startup_unattempted hr heq hf) hm)
  later_complete heq hf hm := by
    have decided := h.startup_attempted hr heq hf
    simp only [HostMethods.check, hm] at decided
    exact h.unfolds heq (Entry.init_again_speaks decided)
  later_incomplete heq hf hm := by
    have decided := h.startup_attempted hr heq hf
    simp only [HostMethods.check, hm] at decided
    exact h.unfolds heq (Entry.init_again_speaks decided)
  success_first he := h.success_first hr he
  unready {op thread s} {earlier later} {q point result} heq hx hq := by
    refine h.unfolds heq (Entry.unready_speaks hq ?_)
    cases hf : firstAttempt? earlier with
    | none => simp [Entry.isReady, h.startup_unattempted hr heq hf]
    | some x =>
      cases hm : x.methods.firstMissing? with
      | none => exact absurd hm (hx x hf)
      | some method => simp [Entry.isReady, h.startup_attempted hr heq hf, HostMethods.check, hm]

/-- The status that a call to initialise the bridge ends with. -/
def Moment.initStatus? (m : Moment) : Option Int32 :=
  match m.event with
  | .ends _ _ (.entry (.init ..)) status => some status
  | _ => none

/-- The bridge is not initialised with a table that lacks two entries, and then
    not with a complete one either. -/
def initialisedInVain : List Move :=
  let main : Thread := ⟨"main"⟩
  [.start main (.entry (.init none none)),
   .start main (.entry (.init (some ⟨[.unpin, .pin]⟩) none)),
   .start main (.entry .counters),
   .start main (.entry (.init (some ⟨[]⟩) (some ⟨true, 2⟩))),
   .start main (.entry (.setEventListener none))]

/-- The bridge is initialised, and then not again with another capacity. -/
def initialisedTwice : List Move :=
  let main : Thread := ⟨"main"⟩
  [.start main (.entry (.setEventListener none)),
   .start main (.entry (.init (some ⟨[]⟩) (some ⟨true, 2⟩))),
   .start main (.entry (.init none none)),
   .start main (.entry (.init (some ⟨[.attach]⟩) (some ⟨false, 9⟩))),
   .start main (.entry .counters)]

theorem initialised_once_played : ∃ c c',
    Path (.initial (.initial 0)) initialisedInVain c ∧
    c.history.filterMap Moment.initStatus? = [-2, -2, -1] ∧
    Path (.initial (.initial 0)) initialisedTwice c' ∧
    c'.history.filterMap Moment.initStatus? = [-3, -1, 0] ∧
    StartupDecided c ∧ StartupDecided c' := by
  have played : ((Situation.initial (.initial 0)).play? initialisedInVain).isSome = true := rfl
  have played' : ((Situation.initial (.initial 0)).play? initialisedTwice).isSome = true := rfl
  exact ⟨_, _, Situation.path_get_play? played, rfl, Situation.path_get_play? played', rfl,
    initialised_once (Situation.reaches_get_play? played) rfl,
    initialised_once (Situation.reaches_get_play? played') rfl⟩

end Run

end CallbackBridge
