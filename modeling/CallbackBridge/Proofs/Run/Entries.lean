import CallbackBridge.Proofs.Run.Bridges

/-! # The parts of entry points

    An entry point looks whether the bridge is initialised and whether its
    arguments are there, and hands the rest to the bridge or to the helpers.

    Key ideas:

    1. What an entry point adds to a request to the bridge is log lines.
    2. `EntryParts` covers the entry points that pass no handle to the engine.
       The one that initialises the bridge is told apart: it replaces the
       registry, the counters and the slot.
    3. `CallerParts` covers whatever uses the registry from outside, where it
       does not matter which handles are passed to the engine; `WholeParts`
       covers every request but the one that initialises the bridge. -/

namespace CallbackBridge

/-- An entry point that passes a handle to the engine, if it succeeds. -/
def EntryRequest.hands : EntryRequest → Bool
  | .startTunnel .. | .invokeAction .. | .setEventListener _ => true
  | .init .. | .stopTunnel | .updateDns _ | .forceGc | .traffic _ | .totalTraffic _ | .suspend _
  | .startHelper _ | .terminateHelper .. | .pollHelper _ | .counters | .setLogSink ..
  | .setBreadcrumbMask _ => false

/-- The entry point that initialises the bridge. -/
def EntryRequest.initializes : EntryRequest → Bool
  | .init .. => true
  | _ => false

/-- A call of that entry point. -/
def Request.initializes : Request → Bool
  | .entry q => q.initializes
  | .registry _ | .dispatch _ | .callback .. | .library _ | .bridge _ | .log _ => false

namespace Basics

variable {Φ : {α : Type} → Operation α → Prop} {α : Type} {point : Entry.Point}

/-- A string that is missing is logged. -/
theorem required (hb : Basics Φ) {name : String} {value : Option CString} :
    Φ (Entry.required point name value) := by
  unfold Entry.required
  split
  · exact hb.bind hb.emit fun _ => hb.pure _
  · exact hb.pure _

theorem requiredCallback (hb : Basics Φ) {callback : Option HostObject} :
    Φ (Entry.requiredCallback point callback) := by
  unfold Entry.requiredCallback
  split
  · exact hb.bind hb.emit fun _ => hb.pure _
  · exact hb.pure _

/-- A call that comes too early is logged. -/
theorem whenReady (hb : Basics Φ) {otherwise : α} {body : Operation α} (hbody : Φ body) :
    Φ (Entry.whenReady point otherwise body) := by
  refine hb.bind hb.state fun s => ?_
  split
  · exact hbody
  · exact hb.bind hb.emit fun _ => hb.pure _

/-- The bridge is initialised, where every change of the state will do. -/
theorem init (hb : Basics Φ)
    (change : ∀ {α : Type} {f : State → α × State}, Φ (Operation.modifyGet f))
    {methods : Option HostMethods} {options : Option BridgeOptions} :
    Φ (Entry.init methods options) := by
  have keeps : ∀ startup, Φ (Operation.modify fun s => { s with startup }) :=
    fun startup => change (f := fun s => ((), { s with startup }))
  have creates : ∀ options, Φ (Bridge.create .absent options) := fun options =>
    hb.bind (change (f := fun s => ((), { s with
      registry := .new (DetachPolicy.ofFlag options.detachAfterCallback) options.maxHandles.toUInt64
      counters := .zero, listener := .empty, engine := .absent }))) fun _ =>
        hb.bind (hb.pure ()) fun _ => hb.breadcrumb
  have once : ∀ methods options, Φ (Entry.initOnce methods options) := by
    intro methods options
    refine hb.bind hb.state fun s => ?_
    rcases s.startup with _ | (e | _)
    · cases methods.check with
      | error e => exact hb.bind (keeps _) fun _ => hb.pure _
      | ok _ =>
        exact hb.bind hb.emit fun _ => hb.bind (creates options) fun _ =>
          hb.bind (keeps _) fun _ => hb.pure _
    · exact hb.pure _
    · exact hb.pure _
  cases methods with
  | none => exact hb.bind hb.emit fun _ => hb.pure _
  | some methods =>
    refine hb.bind (once methods _) fun r => ?_
    cases r with
    | ok _ => exact hb.pure _
    | error e => exact hb.bind hb.emit fun _ => hb.pure _

/-- Whatever way it comes, a request for an owner is asked of the dispatcher. -/
theorem asked (hb : Basics Φ) (ask : ∀ {id query}, Φ (Dispatch.resolveOwner id query))
    {q : Request} (hq : q.asks = true) : Φ q.operation := by
  have serves : ∀ (table : CallbackTable) {q : EngineRequest}, q.asks = true →
      Φ (table.serve q) := by
    intro table q hq
    refine hb.serve (fun {d} hd => ?_) fun _ handle h => ?_
    · cases d with
      | resolveOwner => exact ask
      | _ => cases hd.trans hq
    · subst h
      cases hq
  cases q with
  | dispatch d =>
    cases d with
    | resolveOwner => exact ask
    | _ => cases hq
  | callback table q => exact serves table hq
  | library q => exact hb.serveLibrary fun table => serves table hq
  | _ => cases hq

/-! ### Helpers -/

theorem send (hb : Basics Φ) {pid signal : Int32} : Φ (Helper.send pid signal) := by
  unfold Helper.send
  split
  · exact hb.pure _
  · refine hb.bind (hb.tell (c := .system (.signal pid signal)) rfl) fun r => ?_
    cases r with
    | error e => exact hb.pure _
    | ok _ => exact hb.bind hb.breadcrumb fun _ => hb.pure _

theorem poll (hb : Basics Φ) {pid : Int32} : Φ (Helper.poll pid) := by
  unfold Helper.poll
  split
  · exact hb.pure _
  · refine hb.bind (hb.tell (c := .system (.wait pid)) rfl) fun r => ?_
    match r with
    | .error e => exact hb.pure _
    | .ok none => exact hb.pure _
    | .ok (some exit) => exact hb.bind hb.breadcrumb fun _ => hb.pure _

end Basics

/-- `Φ` also holds of changes of the logger, and of the count of helpers. -/
structure EntryParts (Φ : {α : Type} → Operation α → Prop) : Prop extends PassingParts Φ where
  logger : ∀ {α : Type} {f : State → α × State},
    (∀ s, ∃ logger, (f s).2 = { s with logger }) → Φ (Operation.modifyGet f)
  launched : Φ (bump .helpersLaunched)

namespace EntryParts

variable {Φ : {α : Type} → Operation α → Prop}

/-- What an entry point passes on to the bridge. -/
theorem forwards (hp : EntryParts Φ) {q : BridgeRequest} (hq : q.hands = false) :
    Φ q.operation :=
  hp.toPassingParts.bridge hq fun _ _ => hp.toPassingParts.startHelper hp.launched

theorem entry_startHelper (hp : EntryParts Φ) {config : Option RawHelperConfig} :
    Φ (Entry.startHelper config) := by
  cases config with
  | none => exact hp.bind hp.emit fun _ => hp.pure _
  | some raw =>
    simp only [Entry.startHelper]
    split
    · exact hp.bind hp.emit fun _ => hp.pure _
    refine hp.bind hp.state fun s => ?_
    -- whether the bridge counts it or not, a helper is answered with its number
    split
    case isTrue =>
      refine hp.bind (hp.toPassingParts.startHelper hp.launched) fun launched => ?_
      cases launched with
      | ok helper => exact hp.pure _
      | error e => exact hp.bind hp.emit fun _ => hp.pure _
    case isFalse =>
      refine hp.bind hp.launch fun launched => ?_
      cases launched with
      | ok helper => exact hp.pure _
      | error e => exact hp.bind hp.emit fun _ => hp.pure _

theorem terminateHelper (hp : EntryParts Φ) {pid : Int32} {force : Bool} :
    Φ (Entry.terminateHelper pid force) := by
  unfold Entry.terminateHelper
  split
  all_goals
    refine hp.bind hp.send fun sent => ?_
    cases sent with
    | ok _ => exact hp.pure _
    | error e => exact hp.bind hp.emit fun _ => hp.pure _

theorem pollHelper (hp : EntryParts Φ) {pid : Int32} : Φ (Entry.pollHelper pid) := by
  refine hp.bind hp.poll fun r => ?_
  match r with
  | .ok none => exact hp.pure _
  | .ok (some (.exited code)) => exact hp.pure _
  | .ok (some (.signaled signal)) => exact hp.pure _
  | .error e => exact hp.bind hp.emit fun _ => hp.pure _

theorem setLogSink (hp : EntryParts Φ) {request : Option Log.SinkRequest}
    {level : Option CString} : Φ (Entry.setLogSink request level) := by
  refine hp.bind (hp.logger fun s => ?_) fun r => ?_
  · split
    · exact ⟨s.logger, rfl⟩
    · exact ⟨_, rfl⟩
  · cases r <;> exact hp.pure _

/-- Every entry point that passes no handle to the engine, but for the one that
    initialises the bridge. -/
theorem entry (hp : EntryParts Φ) {q : EntryRequest} (hq : q.hands = false)
    (hi : q.initializes = false) : Φ q.operation := by
  cases q with
  | init => cases hi
  | startTunnel | invokeAction | setEventListener => cases hq
  | stopTunnel => exact hp.whenReady (hp.forwards (q := .stopTunnel) rfl)
  | updateDns dns =>
    refine hp.whenReady (hp.bind hp.required fun dns => ?_)
    cases dns with
    | none => exact hp.pure ()
    | some dns => exact hp.forwards (q := .updateDns dns) rfl
  | forceGc => exact hp.whenReady (hp.forwards (q := .forceGc) rfl)
  | suspend b => exact hp.whenReady (hp.forwards (q := .suspend b) rfl)
  | traffic b =>
    exact hp.bind (hp.whenReady (hp.forwards (q := .traffic b) rfl)) fun _ => hp.pure _
  | totalTraffic b =>
    exact hp.bind (hp.whenReady (hp.forwards (q := .totalTraffic b) rfl)) fun _ => hp.pure _
  | startHelper => exact hp.entry_startHelper
  | terminateHelper => exact hp.terminateHelper
  | pollHelper => exact hp.pollHelper
  | counters => exact hp.bind hp.state fun _ => hp.pure _
  | setLogSink => exact hp.setLogSink
  | setBreadcrumbMask mask =>
    have masks : Φ (Log.setMask mask) :=
      hp.logger (f := fun s => ((), { s with logger := s.logger.setMask mask })) fun _ => ⟨_, rfl⟩
    exact hp.bind masks fun _ => hp.breadcrumb

end EntryParts

/-! ### Every request -/

/-- `Φ` also holds of all calls of an engine, of changes of the listener slot
    and of the logger, and of a release that may miss. -/
structure CallerParts (Φ : {α : Type} → Operation α → Prop) : Prop extends OfferParts Φ where
  calls : ∀ {c : Call}, c.toEngine = true → Φ (Operation.call c)
  releaseIfPresent : ∀ {id : HandleId}, Φ (Registry.releaseIfPresent id)
  slot : ∀ {α : Type} {f : State → α × State},
    (∀ s, ∃ listener, (f s).2 = { s with listener }) → Φ (Operation.modifyGet f)
  logger : ∀ {α : Type} {f : State → α × State},
    (∀ s, ∃ logger, (f s).2 = { s with logger }) → Φ (Operation.modifyGet f)
  limit : ∀ {α : Type} {f : State → α × State},
    (∀ s, ∃ limiter, (f s).2 = { s with limiter }) → Φ (Operation.modifyGet f)

namespace CallerParts

variable {Φ : {α : Type} → Operation α → Prop}

theorem toEntryParts (hp : CallerParts Φ) : EntryParts Φ where
  toBasics := hp.toBasics
  engine hc _ := hp.calls hc
  logger := hp.logger
  launched := hp.launched

theorem setEventListener (hp : CallerParts Φ) {callback : Option HostObject} :
    Φ (Bridge.setEventListener callback) := by
  have locks : ∀ locked, Φ (Bridge.lockSlot locked) := fun locked =>
    hp.slot (f := fun s => ((), { s with listener.locked := locked })) fun _ => ⟨_, rfl⟩
  have tells : ∀ (e : Engine) next, Φ (e.setEventListener next) := by
    intro e next
    cases e with
    | absent => exact hp.pure ()
    | external | linked => exact hp.calls rfl
  have replaces : ∀ next, Φ (Bridge.replaceListener next) := by
    intro next
    refine hp.bind hp.state fun s => hp.bind (tells s.engine next) fun _ =>
      hp.bind (hp.slot fun _ => ⟨_, rfl⟩) fun previous => ?_
    cases previous with
    | none => exact hp.breadcrumb
    | some id => exact hp.bind hp.releaseIfPresent fun _ => hp.breadcrumb
  cases callback with
  | none => exact hp.bind (locks true) fun _ => hp.bind (replaces .null) fun _ => hp.pure _
  | some object =>
    refine hp.bind (locks true) fun _ => hp.bind hp.register fun r => ?_
    cases r with
    | error e => exact hp.bind (locks false) fun _ => hp.pure _
    | ok handle => exact hp.bind (replaces handle.id) fun _ => hp.pure _

theorem bridge (hp : CallerParts Φ) (q : BridgeRequest) : Φ q.operation := by
  cases hs : (Request.bridge q).setsListener with
  | false => exact hp.toOfferParts.bridge hs
  | true =>
    cases q with
    | setEventListener callback => exact hp.setEventListener
    | _ => cases hs

theorem registered (hp : CallerParts Φ) {point : Entry.Point}
    {r : Except HandleError HandleId} : Φ (Entry.registered point r) := by
  cases r with
  | ok _ => exact hp.pure _
  | error e => exact hp.bind hp.emit fun _ => hp.pure _

/-- Every entry point, but for the one that initialises the bridge. -/
theorem entry (hp : CallerParts Φ) {q : EntryRequest} (hi : q.initializes = false) :
    Φ q.operation := by
  cases hh : q.hands with
  | false => exact hp.toEntryParts.entry hh hi
  | true =>
    cases q with
    | setEventListener listener =>
      exact hp.whenReady (hp.bind (hp.bridge (.setEventListener listener)) fun _ => hp.registered)
    | invokeAction data callback =>
      refine hp.whenReady (hp.bind hp.requiredCallback fun callback => ?_)
      cases callback with
      | none => exact hp.pure _
      | some callback =>
        refine hp.bind hp.required fun data => ?_
        cases data with
        | none => exact hp.pure _
        | some data =>
          exact hp.bind (hp.bridge (.invokeAction data callback)) fun _ => hp.registered
    | startTunnel fd callback stack address dns =>
      refine hp.whenReady (hp.bind hp.requiredCallback fun callback => ?_)
      cases callback with
      | none => exact hp.pure _
      | some callback =>
        refine hp.bind hp.required fun stack => hp.bind hp.required fun address =>
          hp.bind hp.required fun dns => ?_
        cases stack <;> cases address <;> cases dns
        case some.some.some stack address dns =>
          exact hp.bind (hp.bridge (.startTunnel callback ⟨fd, stack, address, dns⟩)) fun _ =>
            hp.registered
        all_goals exact hp.pure _
    | _ => cases hh

theorem log (hp : CallerParts Φ) (q : LogRequest) : Φ q.operation := by
  cases q with
  | install request level =>
    refine hp.logger fun s => ?_
    split
    · exact ⟨s.logger, rfl⟩
    · exact ⟨_, rfl⟩
  | setMask mask =>
    exact hp.logger (f := fun s => ((), { s with logger := s.logger.setMask mask })) fun _ =>
      ⟨_, rfl⟩
  | error | warn | info => exact hp.emit
  | detail b message =>
    show Φ (Log.detail b message)
    unfold Log.detail
    split
    · exact hp.pure ()
    · exact hp.emit
  | limitedError => exact hp.toBasics.limitedError hp.limit

/-- Every request, where those to the registry itself, those for an owner and
    those that initialise the bridge are told apart. -/
theorem request (hp : CallerParts Φ) {q : Request}
    (registry : ∀ r, q = .registry r → Φ r.operation) (ask : q.asks = true → Φ q.operation)
    (init : q.initializes = true → Φ q.operation) : Φ q.operation := by
  cases q with
  | registry r => exact registry r rfl
  | dispatch d =>
    cases hd : d.asks with
    | false => exact hp.dispatch hd
    | true => exact ask hd
  | callback table q =>
    cases hq : q.asks with
    | false => exact hp.serve table hq
    | true => exact ask hq
  | library q =>
    cases hq : q.asks with
    | false => exact hp.toBasics.serveLibrary fun table => hp.serve table hq
    | true => exact ask hq
  | bridge q => exact hp.bridge q
  | entry q =>
    cases hi : q.initializes with
    | false => exact hp.entry hi
    | true => exact init hi
  | log q => exact hp.log q

end CallerParts

/-- `Φ` holds of all parts of requests, but for those that initialise the
    bridge. -/
structure WholeParts (Φ : {α : Type} → Operation α → Prop) : Prop extends TableParts Φ where
  engine : ∀ {c : Call}, c.toEngine = true → Φ (Operation.call c)
  clear : Φ (Operation.modifyGet Registry.clearing)
  slot : ∀ {α : Type} {f : State → α × State},
    (∀ s, ∃ listener, (f s).2 = { s with listener }) → Φ (Operation.modifyGet f)
  logger : ∀ {α : Type} {f : State → α × State},
    (∀ s, ∃ logger, (f s).2 = { s with logger }) → Φ (Operation.modifyGet f)

namespace WholeParts

variable {Φ : {α : Type} → Operation α → Prop}

theorem toCallerParts (hp : WholeParts Φ) : CallerParts Φ where
  toBasics := hp.toBasics
  register := hp.register hp.enter
  releaseRaw := hp.releaseRaw
  dispatch _ := hp.dispatch _
  launched := hp.bump rfl
  engine hc _ := hp.engine hc
  calls := hp.engine
  releaseIfPresent := hp.releaseIfPresent hp.strike
  slot := hp.slot
  logger := hp.logger
  limit := hp.limit

/-- Every request, but for those that initialise the bridge. -/
theorem request (hp : WholeParts Φ) {q : Request} (hi : q.initializes = false) :
    Φ q.operation := by
  refine hp.toCallerParts.request (fun r _ => ?_) (hp.toBasics.asked hp.resolveOwner) fun hi' => ?_
  · exact hp.toTableParts.coreOrClose (q := .registry r) hp.clear rfl
  · rw [hi] at hi'
    cases hi'

end WholeParts

end CallbackBridge
