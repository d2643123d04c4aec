import CallbackBridge.Proofs.Run.Pairing
import CallbackBridge.Proofs.Run.Parts

/-! # The parts of mirrored operations

    Most of what the bridge does depends on its tables and counters, and not on
    how it is set up.  Two bridges that are set up differently therefore do the
    same, but for the parts where the difference shows.

    Key ideas:

    1. A change is `Unaware` of the set-up if it takes states that differ only
       in the set-up to such states.  All changes of the registry and of the
       counters are.
    2. `Twins` lists the parts where a difference may show: lines of the log,
       visits to the host, and calls.  One lemma for each function follows, as
       in `Proofs.Run.Parts`. -/

namespace CallbackBridge

/-! ### Set-ups -/

/-- How a bridge is set up. -/
structure Setup where
  logger : Log.Logger
  limiter : Log.Limiter
  policy : DetachPolicy
  engine : Engine
  libraryTable : Option CallbackTable

namespace State

/-- How the bridge is set up. -/
def setup (s : State) : Setup :=
  ⟨s.logger, s.limiter, s.registry.policy, s.engine, s.libraryTable⟩

/-- The same tables and counters, set up otherwise. -/
def under (s : State) (x : Setup) : State :=
  { s with
    logger := x.logger, limiter := x.limiter, registry.policy := x.policy, engine := x.engine
    libraryTable := x.libraryTable }

@[simp] theorem setup_under (s : State) (x : Setup) : (s.under x).setup = x := rfl

end State

/-- A change that does not depend on the set-up, and leaves it as it is. -/
def Unaware {α : Type} (f : State → α × State) : Prop :=
  ∀ s x, f (s.under x) = ((f s).1, (f s).2.under x)

namespace Unaware

variable {α : Type} {f : State → α × State}

theorem setup_eq (hf : Unaware f) (s : State) : (f s).2.setup = s.setup := by
  have same : (f s).2 = (f s).2.under s.setup := congrArg Prod.snd (hf s s.setup)
  rw [same, State.setup_under]

theorem bump (k : Counter) :
    Unaware fun s => ((), { s with counters := s.counters.bump k }) :=
  fun _ _ => rfl

theorem returnLoan (id : HandleId) : Unaware fun s =>
    ((s.registry.returnLoan id).1, { s with registry := (s.registry.returnLoan id).2 }) := by
  intro s x
  have found : (s.under x).registry.find? id = s.registry.find? id := rfl
  simp only [Registry.returnLoan, found]
  cases s.registry.find? id with
  | none => rfl
  | some e => by_cases shared : (e.listed || 1 < e.loans) = true <;> simp [shared] <;> rfl

theorem lend (id : HandleId) : Unaware fun s => match s.registry.listed? id with
    | none => (none, s)
    | some e => (some e, { s with registry := s.registry.lend id }) := by
  intro s x
  have found : (s.under x).registry.listed? id = s.registry.listed? id := rfl
  simp only [found]
  cases s.registry.listed? id <;> rfl

theorem claim (id : HandleId) : Unaware fun s => match s.registry.find? id with
    | none => (false, s)
    | some e => (!e.delivered, { s with registry := s.registry.markDelivered id }) := by
  intro s x
  have found : (s.under x).registry.find? id = s.registry.find? id := rfl
  simp only [found]
  cases s.registry.find? id <;> rfl

theorem entering (o : HostObject) (k : HandleKind) : Unaware (Registry.entering o k) := by
  intro s x
  have full : (s.under x).registry.atCapacity = s.registry.atCapacity := rfl
  have next : (s.under x).registry.nextId = s.registry.nextId := rfl
  simp only [Registry.entering, Registry.enlist, Registry.issue?, full, next]
  by_cases hf : s.registry.atCapacity = true
  · simp only [hf, if_true]
    rfl
  · by_cases hn : s.registry.nextId < HandleId.limit <;> simp only [hf, hn] <;> rfl

theorem striking (id : HandleId) : Unaware (Registry.striking id) := by
  intro s x
  have found : (s.under x).registry.listed? id = s.registry.listed? id := rfl
  simp only [Registry.striking, found]
  cases s.registry.listed? id <;> rfl

theorem clearing : Unaware Registry.clearing :=
  fun _ _ => rfl

end Unaware

namespace Run

/-! ### Parts -/

/-- A visit goes along with one by the same policy, if the calls of the host
    and of the log do. -/
theorem Mirrored.onHostThread {α : Type} {ρ : Pairing} {policy : DetachPolicy}
    {body : Operation α}
    (log : ∀ {area message},
      Mirrored ρ Eq (Log.breadcrumb area message) (Log.breadcrumb area message))
    (attach : Mirrored ρ Eq (Operation.call (.host .attach)) (Operation.call (.host .attach)))
    (detach : Mirrored ρ Eq (Operation.call (.host .detach)) (Operation.call (.host .detach)))
    (hb : Mirrored ρ Eq body body) :
    Mirrored ρ Eq (CallbackBridge.onHostThread policy body)
      (CallbackBridge.onHostThread policy body) := by
  have acquire : Mirrored ρ Eq (AttachGuard.acquire policy) (AttachGuard.acquire policy) := by
    refine Mirrored.bind_eq attach fun status => ?_
    split
    · exact .pure rfl
    · exact .pure rfl
    · exact Mirrored.thread.bind_eq fun _ => log.bind_eq fun _ => .pure rfl
  have drop : ∀ g : AttachGuard, Mirrored ρ Eq g.drop g.drop := by
    intro g
    unfold AttachGuard.drop
    split
    · exact Mirrored.bind_eq detach fun _ => Mirrored.thread.bind_eq fun _ => log
    · exact .pure rfl
  refine acquire.bind_eq fun acquired => ?_
  cases acquired with
  | error e => exact .pure rfl
  | ok g => exact hb.bind_eq fun a => (drop g).bind_eq fun _ => .pure rfl

/-- The two runs do the same in all parts of operations. -/
structure Twins (ρ : Pairing) : Prop where
  under : ∀ {s s' : State}, ρ.alike s s' → ∃ x, s' = s.under x
  change : ∀ {α : Type} {f : State → α × State}, Unaware f →
    Mirrored ρ Eq (Operation.modifyGet f) (Operation.modifyGet f)
  emit : ∀ {level : Log.Level} {b : Log.Breadcrumbs} {message : String},
    Mirrored ρ Eq (Log.emit level b message) (Log.emit level b message)
  /-- Whether the line was admitted may differ. -/
  limitedError : ∀ {c : Log.Category} {text : String},
    Mirrored ρ (fun _ _ => True) (Log.limitedError c text) (Log.limitedError c text)
  host : ∀ {c : HostCall}, c.guarded = true →
    Mirrored ρ Eq (Operation.call (.host c)) (Operation.call (.host c))
  visit : ∀ {α : Type} {body : Operation α}, Mirrored ρ Eq body body →
    Mirrored ρ Eq (CallbackBridge.visit body) (CallbackBridge.visit body)

namespace Twins

variable {α β γ : Type} {ρ : Pairing} {id : HandleId}

theorem breadcrumb (hp : Twins ρ) {area : Log.Area} {message : String} :
    Mirrored ρ Eq (Log.breadcrumb area message) (Log.breadcrumb area message) := by
  unfold Log.breadcrumb Log.detail
  split
  · exact .pure rfl
  · exact hp.emit

theorem bump (hp : Twins ρ) {k : Counter} :
    Mirrored ρ Eq (CallbackBridge.bump k) (CallbackBridge.bump k) :=
  hp.change (.bump k)

/-- What follows on a visit. -/
theorem after (hp : Twins ρ) {body : Operation α} {next : Except AttachError α → Operation β}
    (hb : Mirrored ρ Eq body body) (hn : ∀ r, Mirrored ρ Eq (next r) (next r)) :
    let visiting : Operation β := do
      let s ← Operation.state
      let r ← onHostThread s.registry.policy body
      next r
    Mirrored ρ Eq visiting visiting := by
  intro visiting
  rw [show visiting = _ from (visit_bind body next).symm]
  exact (hp.visit hb).bind_eq hn

/-! ### The registry -/

theorem unpin (hp : Twins ρ) {o : HostObject} :
    Mirrored ρ Eq (Registry.unpin o) (Registry.unpin o) := by
  refine hp.after (hp.host rfl) fun result => ?_
  cases result with
  | ok _ => exact .pure rfl
  | error e => exact hp.bump.bind_eq fun _ => hp.limitedError.bind fun _ _ _ => .pure rfl

theorem pin (hp : Twins ρ) {o : HostObject} :
    Mirrored ρ Eq (Registry.pin o) (Registry.pin o) := by
  refine hp.after (hp.host rfl) fun result => ?_
  match result with
  | .ok (some pinned) => exact .pure rfl
  | .ok none => exact .pure rfl
  | .error e => exact hp.bump.bind_eq fun _ => hp.emit.bind_eq fun _ => .pure rfl

theorem giveBack (hp : Twins ρ) : Mirrored ρ Eq (Registry.giveBack id) (Registry.giveBack id) := by
  refine (hp.change (.returnLoan id)).bind_eq fun last => ?_
  cases last with
  | none => exact .pure rfl
  | some o => exact hp.unpin

theorem look (hp : Twins ρ) : Mirrored ρ Eq (Registry.look id) (Registry.look id) := by
  unfold Registry.look
  split
  · exact .pure rfl
  · refine (hp.change (.lend id)).bind_eq fun found => ?_
    cases found with
    | some e => exact .pure rfl
    | none => exact hp.bump.bind_eq fun _ => .pure rfl

theorem register (hp : Twins ρ) {o : HostObject} {k : HandleKind} :
    Mirrored ρ Eq (Registry.register o k) (Registry.register o k) := by
  rw [Registry.register_eq]
  refine Mirrored.bind .state fun s s' hs => ?_
  obtain ⟨x, rfl⟩ := hp.under hs
  have full : (s.under x).registry.atCapacity = s.registry.atCapacity := rfl
  rw [full]
  cases s.registry.atCapacity with
  | true => exact .pure rfl
  | false =>
    refine hp.pin.bind_eq fun pinned => ?_
    cases pinned with
    | error e => exact .pure rfl
    | ok pinned =>
      refine (hp.change (.entering pinned k)).bind_eq fun listed => ?_
      cases listed with
      | error e => exact hp.unpin.bind_eq fun _ => .pure rfl
      | ok id => exact hp.breadcrumb.bind_eq fun _ => .pure rfl

theorem take (hp : Twins ρ) : Mirrored ρ Eq (Registry.take id) (Registry.take id) := by
  rw [Registry.take_eq]
  refine (hp.change (.striking id)).bind_eq fun found => ?_
  cases found with
  | none => exact .pure rfl
  | some e => exact hp.breadcrumb.bind_eq fun _ => hp.giveBack.bind_eq fun _ => .pure rfl

theorem remove (hp : Twins ρ) : Mirrored ρ Eq (Registry.remove id) (Registry.remove id) := by
  refine hp.take.bind_eq fun found => ?_
  cases found with
  | true => exact .pure rfl
  | false => exact hp.bump.bind_eq fun _ => hp.limitedError.bind fun _ _ _ => .pure rfl

theorem releaseRaw (hp : Twins ρ) :
    Mirrored ρ Eq (Registry.releaseRaw id) (Registry.releaseRaw id) := by
  unfold Registry.releaseRaw
  split
  · exact .pure rfl
  · exact hp.remove

theorem releaseIfPresent (hp : Twins ρ) :
    Mirrored ρ Eq (Registry.releaseIfPresent id) (Registry.releaseIfPresent id) := by
  unfold Registry.releaseIfPresent
  split
  · exact .pure rfl
  · refine hp.take.bind_eq fun found => ?_
    cases found with
    | true => exact .pure rfl
    | false => exact hp.breadcrumb.bind_eq fun _ => .pure rfl

theorem release (hp : Twins ρ) {handle : Handle} :
    Mirrored ρ Eq (Registry.release handle) (Registry.release handle) := by
  refine hp.remove.bind_eq fun found => ?_
  cases found with
  | true => exact .pure rfl
  | false => exact hp.emit

theorem unpinAll (hp : Twins ρ) (objects : List HostObject) :
    Mirrored ρ Eq (Registry.unpinAll objects) (Registry.unpinAll objects) := by
  induction objects with
  | nil => exact .pure rfl
  | cons o rest ih => exact hp.unpin.bind_eq fun _ => ih

theorem close (hp : Twins ρ) : Mirrored ρ Eq Registry.close Registry.close :=
  (hp.change .clearing).bind_eq hp.unpinAll

/-- Every request to the registry. -/
theorem registry (hp : Twins ρ) (q : RegistryRequest) :
    Mirrored ρ Eq q.operation q.operation := by
  cases q with
  | register object kind => exact hp.register
  | look id => exact hp.look
  | giveBack id => exact hp.giveBack
  | release handle => exact hp.release
  | releaseRaw id => exact hp.releaseRaw
  | releaseIfPresent id => exact hp.releaseIfPresent
  | close => exact hp.close

/-! ### The dispatcher -/

theorem attached (hp : Twins ρ) {body : Operation α} (hb : Mirrored ρ Eq body body) :
    Mirrored ρ Eq (Dispatch.attached body) (Dispatch.attached body) := by
  refine hp.after hb fun result => ?_
  cases result with
  | ok a => exact .pure rfl
  | error e => exact hp.bump.bind_eq fun _ => .pure rfl

theorem withTarget (hp : Twins ρ) {shape : CallShape}
    {body : Registration → Operation (Except DispatchError α)}
    (hb : ∀ e, Mirrored ρ Eq (body e) (body e)) :
    Mirrored ρ Eq (Dispatch.withTarget shape id body) (Dispatch.withTarget shape id body) := by
  refine hp.look.bind_eq fun found => ?_
  cases found with
  | error e => exact .pure rfl
  | ok target =>
    dsimp only
    split
    · exact (hb target).bind_eq fun _ => hp.giveBack.bind_eq fun _ => .pure rfl
    · exact hp.giveBack.bind_eq fun _ => .pure rfl

theorem reportDrop (hp : Twins ρ) {shape : CallShape} {e : DispatchError} :
    Mirrored ρ Eq (Dispatch.reportDrop shape id e) (Dispatch.reportDrop shape id e) :=
  hp.bump.bind_eq fun _ => hp.limitedError.bind fun _ _ _ => .pure rfl

theorem settle (hp : Twins ρ) {shape : CallShape} {r : Except DispatchError Unit} :
    Mirrored ρ Eq (Dispatch.settle shape id r) (Dispatch.settle shape id r) := by
  cases r with
  | ok _ => exact hp.bump.bind_eq fun _ => hp.breadcrumb.bind_eq fun _ => .pure rfl
  | error e => exact hp.reportDrop.bind_eq fun _ => .pure rfl

theorem claimResult (hp : Twins ρ) {e : Registration} :
    Mirrored ρ Eq (Dispatch.claimResult e) (Dispatch.claimResult e) := by
  unfold Dispatch.claimResult
  split
  · refine (hp.change (.claim e.id)).bind_eq fun claimed => ?_
    cases claimed with
    | true => exact .pure rfl
    | false => exact hp.bump.bind_eq fun _ => hp.limitedError.bind fun _ _ _ => .pure rfl
  · exact .pure rfl

theorem askOwner (hp : Twins ρ) {target : HostObject} {query : OwnerQuery} :
    Mirrored ρ Eq (Dispatch.askOwner target query) (Dispatch.askOwner target query) := by
  refine Mirrored.bind_eq (hp.host (c := .resolve target query) rfl) fun answer => ?_
  cases answer with
  | none => exact .pure rfl
  | some text =>
    refine Mirrored.bind_eq (hp.host (c := .readString text) rfl) fun copy => ?_
    exact Mirrored.bind_eq (hp.host (c := .freeString text) rfl) fun _ => .pure rfl

theorem dispatch (hp : Twins ρ) (d : DispatchRequest) :
    Mirrored ρ Eq d.operation d.operation := by
  cases d with
  | protect id fd =>
    show Mirrored ρ Eq (Dispatch.protect id fd) (Dispatch.protect id fd)
    unfold Dispatch.protect
    split
    · exact .pure rfl
    · refine (hp.withTarget fun target => ?_).bind_eq fun _ => hp.settle
      exact hp.attached (hp.host (c := .protect target.object fd) rfl)
  | notify id payload =>
    show Mirrored ρ Eq (Dispatch.notify id payload) (Dispatch.notify id payload)
    unfold Dispatch.notify
    split
    · exact .pure rfl
    · refine (hp.withTarget fun target => ?_).bind_eq fun _ => hp.settle
      exact hp.attached (hp.host (c := .onResult target.object payload) rfl)
  | resolveOwner id query =>
    refine (hp.withTarget fun _ => hp.attached hp.askOwner).bind_eq fun result => ?_
    match result with
    | .ok (some owner) => exact hp.bump.bind_eq fun _ => .pure rfl
    | .ok none =>
      exact hp.bump.bind_eq fun _ => hp.limitedError.bind fun _ _ _ => .pure rfl
    | .error e => exact hp.reportDrop.bind_eq fun _ => .pure rfl
  | deliverResult id data =>
    show Mirrored ρ Eq (Dispatch.deliverResult id data) (Dispatch.deliverResult id data)
    unfold Dispatch.deliverResult
    split
    · exact .pure rfl
    · refine (hp.withTarget fun target => hp.claimResult.bind_eq fun claimed => ?_).bind_eq
        fun _ => hp.settle
      cases claimed with
      | error e => exact .pure rfl
      | ok _ => exact hp.attached (hp.host (c := .onResult target.object data) rfl)

/-- What an engine asks for. -/
theorem serve (hp : Twins ρ) (table : CallbackTable) (q : EngineRequest) :
    Mirrored ρ Eq (table.serve q) (table.serve q) := by
  unfold CallbackTable.serve
  split
  · cases q with
    | protect handle fd => exact (hp.dispatch (.protect ..)).bind_eq fun _ => .pure rfl
    | resolveOwner handle protocol source target uid =>
      exact (hp.dispatch (.resolveOwner ..)).bind_eq fun _ => .pure rfl
    | onResult handle data => exact (hp.dispatch (.deliverResult ..)).bind_eq fun _ => .pure rfl
    | release handle => exact hp.releaseRaw.bind_eq fun _ => .pure rfl
  · exact .pure rfl

end Twins

/-! ### Bridges -/

/-- Two engines do the same. -/
structure EngineTwins (ρ : Pairing) (e e' : Engine) : Prop where
  startTunnel : ∀ id settings,
    Mirrored ρ Eq (e.startTunnel id settings) (e'.startTunnel id settings)
  stopTunnel : Mirrored ρ Eq e.stopTunnel e'.stopTunnel
  updateDns : ∀ dns, Mirrored ρ Eq (e.updateDns dns) (e'.updateDns dns)
  forceGc : Mirrored ρ Eq e.forceGc e'.forceGc
  invokeAction : ∀ id data, Mirrored ρ Eq (e.invokeAction id data) (e'.invokeAction id data)
  setEventListener : ∀ id, Mirrored ρ Eq (e.setEventListener id) (e'.setEventListener id)
  traffic : ∀ b, Mirrored ρ Eq (e.traffic b) (e'.traffic b)
  totalTraffic : ∀ b, Mirrored ρ Eq (e.totalTraffic b) (e'.totalTraffic b)
  suspend : ∀ b, Mirrored ρ Eq (e.suspend b) (e'.suspend b)

/-- An engine does the same in both runs, if the two call it alike. -/
theorem Twins.engineTwins {ρ : Pairing} (hp : Twins ρ)
    (engine : ∀ c, Mirrored ρ Eq (Operation.call (.engine c)) (Operation.call (.engine c)))
    (library : ∀ c, Mirrored ρ Eq (Operation.call (.library c)) (Operation.call (.library c)))
    (e : Engine) : EngineTwins ρ e e := by
  have discard : ∀ id operation, Mirrored ρ Eq (AbsentEngine.discard id operation)
      (AbsentEngine.discard id operation) :=
    fun id _ => hp.breadcrumb.bind_eq fun _ => hp.serve .ofDispatcher (.release id.raw)
  cases e with
  | external =>
    exact ⟨fun id settings => engine (.startTunnel id settings), engine .stopTunnel,
      fun dns => engine (.updateDns dns), engine .forceGc,
      fun id data => engine (.invokeAction id data), fun id => engine (.setEventListener id),
      fun b => engine (.traffic b), fun b => engine (.totalTraffic b),
      fun b => engine (.suspend b)⟩
  | absent =>
    exact ⟨fun id _ => discard id _, .pure rfl, fun _ => .pure rfl, .pure rfl,
      fun id _ => (hp.serve .ofDispatcher (.onResult id.raw (some .empty))).bind_eq
        fun _ => discard id _,
      fun _ => .pure rfl, fun _ => .pure rfl, fun _ => .pure rfl, fun _ => .pure rfl⟩
  | linked =>
    exact ⟨fun id settings => (library (.startTunnel _ settings)).bind_eq fun _ => hp.breadcrumb,
      library .stopTunnel, fun dns => library (.updateDns dns), library .forceGc,
      fun id data => library (.invokeAction _ data), fun id => library (.setEventListener _),
      fun b => (library (.traffic _)).bind_eq fun _ => .pure rfl,
      fun b => (library (.totalTraffic _)).bind_eq fun _ => .pure rfl,
      fun b => library (.suspend _)⟩

/-- The two runs also do the same in the parts of a bridge. -/
structure BridgeTwins (ρ : Pairing) : Prop extends Twins ρ where
  spawn : ∀ {program : Option CString} {arguments : List (Option CString)},
    Mirrored ρ Eq (Operation.call (.system (.spawn program arguments)))
      (Operation.call (.system (.spawn program arguments)))
  engines : ∀ {s s' : State}, ρ.alike s s' → EngineTwins ρ s.engine s'.engine

namespace BridgeTwins

variable {α : Type} {ρ : Pairing} {id : HandleId}

/-- The engine of the bridge is asked to do something. -/
theorem engine (hp : BridgeTwins ρ) {ask : Engine → Operation α}
    (ha : ∀ {e e'}, EngineTwins ρ e e' → Mirrored ρ Eq (ask e) (ask e')) :
    Mirrored ρ Eq (Operation.state >>= fun s => ask s.engine)
      (Operation.state >>= fun s => ask s.engine) :=
  Mirrored.bind .state fun _ _ hs => ha (hp.engines hs)

/-- What goes on with a handle, once it is registered. -/
theorem registered (hp : BridgeTwins ρ) {o : HostObject} {k : HandleKind}
    {next : Handle → Operation (Except HandleError HandleId)}
    (hn : ∀ handle, Mirrored ρ Eq (next handle) (next handle)) :
    let registering : Operation (Except HandleError HandleId) := do
      match ← Registry.register o k with
      | .error e => pure (.error e)
      | .ok handle => next handle
    Mirrored ρ Eq registering registering := by
  refine hp.register.bind_eq fun r => ?_
  cases r with
  | error e => exact .pure rfl
  | ok handle => exact hn handle

theorem replaceListener (hp : BridgeTwins ρ) {next : HandleId} :
    Mirrored ρ Eq (Bridge.replaceListener next) (Bridge.replaceListener next) := by
  refine Mirrored.bind .state fun s s' hs => ?_
  refine ((hp.engines hs).setEventListener next).bind_eq fun _ => ?_
  refine (hp.change fun _ _ => rfl).bind_eq fun previous => ?_
  cases previous with
  | none => exact hp.breadcrumb
  | some id => exact Mirrored.bind_eq (hp.releaseIfPresent) fun _ => hp.breadcrumb

theorem setEventListener (hp : BridgeTwins ρ) {callback : Option HostObject} :
    Mirrored ρ Eq (Bridge.setEventListener callback) (Bridge.setEventListener callback) := by
  have lock : ∀ locked, Mirrored ρ Eq (Bridge.lockSlot locked) (Bridge.lockSlot locked) :=
    fun locked => hp.change (f := fun s => ((), { s with listener.locked := locked }))
      fun _ _ => rfl
  refine (lock true).bind_eq fun _ => ?_
  cases callback with
  | none => exact hp.replaceListener.bind_eq fun _ => .pure rfl
  | some o =>
    refine hp.register.bind_eq fun r => ?_
    cases r with
    | error e => exact (lock false).bind_eq fun _ => .pure rfl
    | ok handle => exact hp.replaceListener.bind_eq fun _ => .pure rfl

theorem launch (hp : BridgeTwins ρ) {config : HelperConfig} :
    Mirrored ρ Eq (Helper.launch config) (Helper.launch config) := by
  unfold Helper.launch
  split
  · exact .pure rfl
  split
  · exact .pure rfl
  · exact hp.spawn.bind_eq fun _ => hp.emit.bind_eq fun _ => .pure rfl

theorem startHelper (hp : BridgeTwins ρ) {config : HelperConfig} :
    Mirrored ρ Eq (Bridge.startHelper config) (Bridge.startHelper config) := by
  refine hp.launch.bind_eq fun r => ?_
  cases r with
  | error e => exact .pure rfl
  | ok helper => exact hp.bump.bind_eq fun _ => .pure rfl

/-- Every request to a bridge. -/
theorem bridge (hp : BridgeTwins ρ) (q : BridgeRequest) :
    Mirrored ρ Eq q.operation q.operation := by
  cases q with
  | startTunnel callback settings =>
    exact hp.registered fun handle => hp.emit.bind_eq fun _ =>
      Mirrored.bind .state fun _ _ hs =>
        ((hp.engines hs).startTunnel handle.id settings).bind_eq fun _ => .pure rfl
  | stopTunnel => exact hp.emit.bind_eq fun _ => hp.engine fun he => he.stopTunnel
  | updateDns dns =>
    exact hp.breadcrumb.bind_eq fun _ => hp.engine fun he => he.updateDns dns
  | forceGc => exact hp.engine fun he => he.forceGc
  | invokeAction data callback =>
    exact hp.registered fun handle => hp.breadcrumb.bind_eq fun _ =>
      Mirrored.bind .state fun _ _ hs =>
        ((hp.engines hs).invokeAction handle.id data).bind_eq fun _ => .pure rfl
  | setEventListener callback => exact hp.setEventListener
  | traffic b => exact hp.engine fun he => he.traffic b
  | totalTraffic b => exact hp.engine fun he => he.totalTraffic b
  | suspend b => exact hp.emit.bind_eq fun _ => hp.engine fun he => he.suspend b
  | startHelper config => exact hp.startHelper

end BridgeTwins

end Run

end CallbackBridge
