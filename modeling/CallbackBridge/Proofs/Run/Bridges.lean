import CallbackBridge.Proofs.Run.Parts

/-! # The parts of operations of a bridge

    A bridge registers objects, calls its engine, and serves what the engine
    asks.  This goes on from `Proofs.Run.Parts`.

    Key ideas:

    1. Calls of an engine are parts of their own.  Some of them matter more
       than the others: they pass a handle to the engine, and one of those sets
       the event listener.
    2. `EngineParts` covers the requests that pass no handle.  `BridgeParts`
       covers all but one: setting the listener changes the listener slot.
    3. A bridge knows the registry and the dispatcher by what they offer.  A
       property that holds of that, if not of its parts, is `OfferParts`. -/

namespace CallbackBridge

namespace Call

/-- An engine is called, or the library behind one. -/
def toEngine : Call → Bool
  | .engine _ | .library _ => true
  | .host _ | .log _ | .system _ => false

/-- The listener that a call hands to the engine. -/
def listener? : Call → Option HandleId
  | .engine (.setEventListener id) => some id
  | .library (.setEventListener raw) => some ⟨raw⟩
  | _ => none

/-- The handle that a call passes to the engine, which may be the null handle,
    and what it is for. -/
def passed? : Call → Option Handle
  | .engine (.startTunnel id _) => some ⟨id, .tunnel⟩
  | .engine (.invokeAction id _) => some ⟨id, .invoke⟩
  | .engine (.setEventListener id) => some ⟨id, .listener⟩
  | .library (.startTunnel raw _) => some ⟨⟨raw⟩, .tunnel⟩
  | .library (.invokeAction raw _) => some ⟨⟨raw⟩, .invoke⟩
  | .library (.setEventListener raw) => some ⟨⟨raw⟩, .listener⟩
  | _ => none

theorem passed?_eq_none {c : Call} (hc : c.toEngine = false) : c.passed? = none := by
  cases c with
  | engine | library => cases hc
  | _ => rfl

theorem listener?_eq_none_of_passed? {c : Call} (hc : c.passed? = none) : c.listener? = none := by
  cases c with
  | engine c => cases c <;> first | rfl | cases hc
  | library c => cases c <;> first | rfl | cases hc
  | _ => rfl

theorem listener?_eq_none {c : Call} (hc : c.toEngine = false) : c.listener? = none := by
  cases c with
  | engine | library => cases hc
  | _ => rfl

theorem mayReenter_of_toEngine {c : Call} (hc : c.toEngine = true) : c.mayReenter = true := by
  cases c with
  | engine | library => rfl
  | _ => cases hc

theorem toEngine_eq_false {c : Call} (hc : c.mayReenter = false) : c.toEngine = false := by
  cases c with
  | log | system => rfl
  | _ => cases hc

end Call

/-! ### Requests that pass no handle -/

/-- A request that passes a handle to the engine, if it succeeds. -/
def BridgeRequest.hands : BridgeRequest → Bool
  | .startTunnel .. | .invokeAction .. | .setEventListener _ => true
  | .stopTunnel | .updateDns _ | .forceGc | .traffic _ | .totalTraffic _ | .suspend _
  | .startHelper _ => false

/-- A request of the library goes through the table that the library has. -/
def Request.through (table : Option CallbackTable) : Request → Request
  | .library q => .callback (table.getD ⟨false⟩) q
  | q => q

theorem LinkedEngine.serve_eq {q : EngineRequest} {thread : Thread} {s : State} :
    serve q thread s = (s.libraryTable.getD ⟨false⟩).serve q thread s := by
  simp only [serve, Operation.bind_apply, Operation.state_apply, Progress.bind]
  cases s.libraryTable with
  | none => rfl
  | some table => rfl

/-- What is passed through to the engine is one call of it at most, and no handle is
    in it. -/
theorem Engine.passThrough {Φ : {α : Type} → Operation α → Prop} {e : Engine}
    (pure : ∀ {α : Type} (a : α), Φ (Pure.pure a : Operation α))
    (bind : ∀ {α β : Type} {m : Operation α} {f : α → Operation β},
      Φ m → (∀ a, Φ (f a)) → Φ (m >>= f))
    (call : ∀ {c : Call}, c.toEngine = true → c.passed? = none → Φ (Operation.call c)) :
    Φ e.stopTunnel ∧ (∀ dns, Φ (e.updateDns dns)) ∧ Φ e.forceGc ∧ (∀ b, Φ (e.suspend b)) ∧
      (∀ b, Φ (e.traffic b)) ∧ ∀ b, Φ (e.totalTraffic b) := by
  cases e with
  | external =>
    exact ⟨call rfl rfl, fun _ => call rfl rfl, call rfl rfl, fun _ => call rfl rfl,
      fun _ => call rfl rfl, fun _ => call rfl rfl⟩
  | absent =>
    exact ⟨pure (), fun _ => pure (), pure (), fun _ => pure (), fun _ => pure "", fun _ => pure ""⟩
  | linked =>
    refine ⟨call rfl rfl, fun _ => call rfl rfl, call rfl rfl, fun _ => call rfl rfl,
      fun b => ?_, fun b => ?_⟩
    · exact bind (call (c := .library (.traffic (LinkedEngine.byte b))) rfl rfl) fun _ => pure _
    · exact bind (call (c := .library (.totalTraffic (LinkedEngine.byte b))) rfl rfl)
        fun _ => pure _

/-- `Φ` also holds of calls of an engine that pass it no handle. -/
structure PassingParts (Φ : {α : Type} → Operation α → Prop) : Prop extends Basics Φ where
  engine : ∀ {c : Call}, c.toEngine = true → c.passed? = none → Φ (Operation.call c)

namespace PassingParts

variable {Φ : {α : Type} → Operation α → Prop}

/-- What is passed through to the engine. -/
theorem passThrough (hp : PassingParts Φ) {e : Engine} :
    Φ e.stopTunnel ∧ (∀ dns, Φ (e.updateDns dns)) ∧ Φ e.forceGc ∧ (∀ b, Φ (e.suspend b)) ∧
      (∀ b, Φ (e.traffic b)) ∧ ∀ b, Φ (e.totalTraffic b) :=
  Engine.passThrough hp.pure hp.bind hp.engine

theorem launch (hp : PassingParts Φ) {config : HelperConfig} : Φ (Helper.launch config) := by
  unfold Helper.launch
  split
  · exact hp.pure _
  split
  · exact hp.pure _
  · exact hp.bind (hp.tell (c := .system (.spawn ..)) rfl) fun _ =>
      hp.bind hp.emit fun _ => hp.pure _

/-- A helper that was launched is counted. -/
theorem startHelper (hp : PassingParts Φ) (launched : Φ (bump .helpersLaunched))
    {config : HelperConfig} : Φ (Bridge.startHelper config) := by
  refine hp.bind hp.launch fun r => ?_
  cases r with
  | error e => exact hp.pure _
  | ok helper => exact hp.bind launched fun _ => hp.pure _

/-- The requests to a bridge that pass no handle to its engine.  Launching a
    helper, which is counted, is told apart. -/
theorem bridge (hp : PassingParts Φ) {q : BridgeRequest} (hq : q.hands = false)
    (helper : ∀ config, q = .startHelper config → Φ (Bridge.startHelper config)) :
    Φ q.operation := by
  cases q with
  | startTunnel | invokeAction | setEventListener => cases hq
  | stopTunnel => exact hp.bind hp.emit fun _ => hp.bind hp.state fun _ => hp.passThrough.1
  | updateDns dns =>
    exact hp.bind hp.breadcrumb fun _ => hp.bind hp.state fun _ => hp.passThrough.2.1 dns
  | forceGc => exact hp.bind hp.state fun _ => hp.passThrough.2.2.1
  | suspend b => exact hp.bind hp.emit fun _ => hp.bind hp.state fun _ => hp.passThrough.2.2.2.1 b
  | traffic b => exact hp.bind hp.state fun _ => hp.passThrough.2.2.2.2.1 b
  | totalTraffic b => exact hp.bind hp.state fun _ => hp.passThrough.2.2.2.2.2 b
  | startHelper config => exact helper config rfl

end PassingParts

/-- `Φ` holds of all parts that pass no handle to an engine. -/
structure EngineParts (Φ : {α : Type} → Operation α → Prop) : Prop extends Parts Φ where
  engine : ∀ {c : Call}, c.toEngine = true → c.passed? = none → Φ (Operation.call c)

namespace EngineParts

variable {Φ : {α : Type} → Operation α → Prop}

theorem toPassingParts (hp : EngineParts Φ) : PassingParts Φ where
  toBasics := hp.toBasics
  engine := hp.engine

/-- The requests to a bridge that pass no handle to its engine. -/
theorem bridge (hp : EngineParts Φ) {q : BridgeRequest} (hq : q.hands = false) :
    Φ q.operation :=
  hp.toPassingParts.bridge hq fun _ _ => hp.toPassingParts.startHelper (hp.bump rfl)

end EngineParts

/-! ### Requests that register -/

/-- `Φ` holds of what the registry and the dispatcher offer to a bridge, and of
    calls of an engine that hand it no listener. -/
structure OfferParts (Φ : {α : Type} → Operation α → Prop) : Prop extends Basics Φ where
  register : ∀ {o : HostObject} {k : HandleKind}, Φ (Registry.register o k)
  releaseRaw : ∀ {id : HandleId}, Φ (Registry.releaseRaw id)
  dispatch : ∀ {d : DispatchRequest}, d.asks = false → Φ d.operation
  launched : Φ (bump .helpersLaunched)
  engine : ∀ {c : Call}, c.toEngine = true → c.listener? = none → Φ (Operation.call c)

namespace OfferParts

variable {Φ : {α : Type} → Operation α → Prop}

theorem toPassingParts (hp : OfferParts Φ) : PassingParts Φ where
  toBasics := hp.toBasics
  engine hc hn := hp.engine hc (Call.listener?_eq_none_of_passed? hn)

/-- What an engine asks for, but for an owner. -/
theorem serve (hp : OfferParts Φ) (table : CallbackTable) {q : EngineRequest}
    (hq : q.asks = false) : Φ (table.serve q) :=
  hp.toBasics.serve (fun hd => hp.dispatch (hd.trans hq)) fun _ _ _ => hp.releaseRaw

/-- The stand-in gives a handle back. -/
theorem discard (hp : OfferParts Φ) {id : HandleId} {operation : String} :
    Φ (AbsentEngine.discard id operation) :=
  hp.bind hp.breadcrumb fun _ => hp.serve .ofDispatcher (q := .release id.raw) rfl

theorem startTunnel (hp : OfferParts Φ) {e : Engine} {id : HandleId}
    {settings : TunnelSettings} : Φ (e.startTunnel id settings) := by
  cases e with
  | external => exact hp.engine rfl rfl
  | absent => exact hp.discard
  | linked =>
    exact hp.bind (hp.engine (c := .library (.startTunnel id.raw settings)) rfl rfl)
      fun _ => hp.breadcrumb

theorem invokeAction (hp : OfferParts Φ) {e : Engine} {id : HandleId} {data : CString} :
    Φ (e.invokeAction id data) := by
  cases e with
  | external => exact hp.engine rfl rfl
  | absent =>
    exact hp.bind (hp.serve .ofDispatcher (q := .onResult ..) rfl) fun _ => hp.discard
  | linked => exact hp.engine rfl rfl

/-- What goes on with a handle, once it is registered. -/
theorem registered (hp : OfferParts Φ) {o : HostObject} {k : HandleKind}
    {next : Handle → Operation (Except HandleError HandleId)} (hn : ∀ handle, Φ (next handle)) :
    Φ (do
      match ← Registry.register o k with
      | .error e => pure (.error e)
      | .ok handle => next handle) := by
  refine hp.bind hp.register fun r => ?_
  cases r with
  | error e => exact hp.pure _
  | ok handle => exact hn handle

/-- Every request to a bridge, but for those that set the listener. -/
theorem bridge (hp : OfferParts Φ) {q : BridgeRequest}
    (hq : (Request.bridge q).setsListener = false) : Φ q.operation := by
  cases hands : q.hands with
  | false =>
    have passing := hp.toPassingParts
    exact passing.bridge hands fun _ _ => passing.startHelper hp.launched
  | true =>
    cases q with
    | startTunnel callback settings =>
      exact hp.registered fun _ => hp.bind hp.emit fun _ => hp.bind hp.state fun _ =>
        hp.bind hp.startTunnel fun _ => hp.pure _
    | invokeAction data callback =>
      exact hp.registered fun _ => hp.bind hp.breadcrumb fun _ => hp.bind hp.state fun _ =>
        hp.bind hp.invokeAction fun _ => hp.pure _
    | setEventListener => cases hq
    | _ => cases hands

end OfferParts

/-- What the library asks for, through its own functions. -/
theorem Basics.serveLibrary {Φ : {α : Type} → Operation α → Prop} (hb : Basics Φ)
    {q : EngineRequest} (serve : ∀ table : CallbackTable, Φ (table.serve q)) :
    Φ (LinkedEngine.serve q) := by
  refine hb.bind hb.state fun s => ?_
  split
  · exact hb.pure _
  · exact serve _

/-- `Φ` also holds of calls of an engine that hand it no listener. -/
structure BridgeParts (Φ : {α : Type} → Operation α → Prop) : Prop extends TableParts Φ where
  engine : ∀ {c : Call}, c.toEngine = true → c.listener? = none → Φ (Operation.call c)

namespace BridgeParts

variable {Φ : {α : Type} → Operation α → Prop}

theorem toOfferParts (hp : BridgeParts Φ) : OfferParts Φ where
  toBasics := hp.toBasics
  register := hp.register hp.enter
  releaseRaw := hp.releaseRaw
  dispatch _ := hp.dispatch _
  launched := hp.bump rfl
  engine := hp.engine

/-- Every request to a bridge or from its engine, but for those that set the
    listener. -/
theorem request (hp : BridgeParts Φ) {q : Request} (hq : q.isBridge = true)
    (hs : q.setsListener = false) : Φ q.operation := by
  match q with
  | .bridge q => exact hp.toOfferParts.bridge hs
  | .callback table q => exact hp.serve table q
  | .library q => exact hp.toBasics.serveLibrary fun table => hp.serve table q
  | .registry _ | .dispatch _ | .entry _ | .log _ => cases hq

end BridgeParts

/-! ### Replacing the listener -/

/-- It is enough that the engine may be told about the next listener, and that
    the slot may be switched and the listener before released. -/
theorem Bridge.replaceListener_nests {ν : Run.Nesting}
    {I : Nat → Thread → State → Run.History → Prop} {next : HandleId} {op : Nat} {thread : Thread}
    {s : State} {h : Run.History} (hb : Basics (fun m => ν.Carries I m))
    (switch : ∀ s' h' listener, I op thread s' h' → I op thread { s' with listener } h')
    (release : ∀ id, ν.Carries I (Registry.releaseIfPresent id))
    (told : Run.Nests ν op thread (fun _ => I op thread)
      (s.engine.setEventListener next thread s) h) :
    Run.Nests ν op thread (fun _ => I op thread) (Bridge.replaceListener next thread s) h := by
  rw [Bridge.replaceListener, Operation.bind_apply, Operation.state_apply, Progress.bind,
    Operation.bind_apply]
  refine Run.Nests.bind (told.mono fun _ s₁ h₁ hi => ?_)
  simp only [Bridge.switchSlot, Operation.bind_apply, Operation.modifyGet_apply, Progress.bind]
  have switched := switch s₁ h₁ ⟨if next.isNull then none else some next, false⟩ hi
  cases s₁.listener.current with
  | none => exact hb.breadcrumb op thread _ h₁ switched
  | some id => exact hb.bind (release id) (fun _ => hb.breadcrumb) op thread _ h₁ switched

end CallbackBridge
