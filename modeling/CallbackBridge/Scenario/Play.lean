import CallbackBridge.Scenario.World

/-! # Scripted sessions: playing the steps

    Key ideas:

    1. The scripted host answers a call in three moves: it records the call,
       plays the steps that wait for it, and replies.
    2. Playing a step inside a call uses the same functions one level further
       in.  A session has finitely many lists of steps and plays each of them
       at most once, so the number of levels is known in advance.
    3. The scripted engine acts through the callback table while it is being
       called; its acts call the host, never the engine. -/

namespace CallbackBridge.Scenario

/-- The process and its surroundings. -/
structure Machine where
  state : State
  world : World

/-- A move of a session. -/
abbrev Move (α : Type) := StateM Machine α

/-- Answers calls that are made on a thread. -/
abbrev Responder := Thread → (c : Call) → Move c.Reply

/-- Plays a step on a thread. -/
abbrev Player := Thread → Step → Move Answer

namespace Move

/-- Changes the surroundings. -/
def onWorld (f : World → World) : Move Unit :=
  modify fun m => { m with world := f m.world }

/-- Changes the surroundings and yields a value. -/
def fromWorld {α : Type} (f : World → α × World) : Move α :=
  modifyGet fun m =>
    let (a, world) := f m.world
    (a, { m with world })

/-- Records an event. -/
def record (e : Event) : Move Unit :=
  onWorld (·.record e)

/-- Puts the bridge of the other owner into the state. -/
def exchange : Move Unit :=
  modify fun m =>
    let owner := match m.world.owner with
      | .session => .process
      | .process => .session
    ⟨m.world.aside.within m.state, { m.world with aside := .of m.state, owner }⟩

/-- Makes a move on the bridge of an owner. -/
def onBridgeOf {α : Type} (owner : BridgeOwner) (move : Move α) : Move α := do
  if (← get).world.owner = owner then
    move
  else
    exchange
    let a ← move
    exchange
    pure a

/-- Runs an operation of the bridge. -/
def operate {α : Type} (respond : Responder) (thread : Thread) (op : Operation α) : Move α :=
  fun m =>
    let behaviour (c : Call) (s : State) (w : World) : c.Reply × State × World :=
      let (reply, m) := respond thread c ⟨s, w⟩
      (reply, m.state, m.world)
    let (a, s, w) := (op thread m.state).run behaviour m.world
    (a, ⟨s, w⟩)

end Move

open Move

/-! ### The host -/

/-- Plays steps inside another one. -/
def playNested (play : Player) (thread : Thread) : List Step → Move Unit
  | [] => pure ()
  | step :: rest => do
    let answer ← play thread step
    record (.nested step.name answer)
    playNested play thread rest

/-- Plays the oldest steps that wait for a method. -/
def playHook (play : Player) (thread : Thread) (method : HostMethod) : Move Unit := do
  let steps ← fromWorld (·.takeHook method)
  playNested play thread steps

/-- The scripted host. -/
def respondHost (play : Player) (thread : Thread) : (c : HostCall) → Move c.Reply
  | .attach => do
    let status ← fromWorld fun w =>
      let (status, host) := w.host.attach thread
      (status, { w with host })
    record (.attach thread status)
    playHook play thread .attach
    pure status
  | .detach => do
    onWorld fun w => { w with host := w.host.detach thread }
    record (.detach thread)
    playHook play thread .detach
  | .pin object => do
    let reference ← fromWorld fun w =>
      let (reference, host) := w.host.pin object
      (reference, { w with host })
    record (.pin object reference)
    playHook play thread .pin
    pure reference
  | .unpin reference => do
    let object ← fromWorld fun w =>
      let (object, host) := w.host.unpin reference
      (object, { w with host })
    record (.unpin object)
    playHook play thread .unpin
  | .protect target fd => do
    record (.protect ((← get).world.host.pinned target) fd)
    playHook play thread .protect
  | .resolve target query => do
    record (.resolve ((← get).world.host.pinned target) query)
    playHook play thread .resolve
    fromWorld fun w =>
      let (string, host) := w.host.resolve query
      (string, { w with host })
  | .onResult target data => do
    record (.onResult ((← get).world.host.pinned target) data)
    playHook play thread .onResult
  | .readString string => do
    let m ← get
    pure (m.world.host.textOf string)
  | .freeString string => do
    record (.freeString ((← get).world.host.textOf string))
    onWorld fun w => { w with host := w.host.free string }
    playHook play thread .freeString

/-! ### The operating system and the sink -/

/-- The scripted operating system. -/
def respondSystem : (c : SystemCall) → Move c.Reply
  | .clock => do
    let m ← get
    pure m.world.clock
  | .spawn _ pointers => fromWorld fun w =>
    let (pid, children) := w.children.spawn (CString.ofPointers pointers)
    (pid, { w with children })
  | .signal pid signal => fromWorld fun w =>
    let (result, children) := w.children.signal pid signal
    (result, { w with children })
  | .wait pid => fromWorld fun w =>
    let (result, children) := w.children.wait pid
    (result, { w with children })
  | .print stream line => onWorld fun w =>
    { w with printed := (stream, line) :: w.printed }

/-- The sink records its lines, and prints them where the program does. -/
def respondLog (line : Log.Line) : Move Unit :=
  onWorld fun w =>
    match w.printsLog with
    | none => w.record (.log line)
    | some text => { w with printed := (.output, text line) :: w.printed }

/-! ### The engine and the library -/

/-- The text that an engine answers: nothing where none is set or where the
    bytes are not text. -/
def engineText (setting : Option ByteArray × Option ByteArray) (onlyProxies : Bool) : String :=
  let bytes := if onlyProxies then setting.2 else setting.1
  (bytes.bind Text.Utf8.decode?).getD ""

/-- The string that the library answers, or a null pointer. -/
def libraryText (setting : Option ByteArray × Option ByteArray) (onlyProxies : UInt8) :
    Option CString :=
  (if onlyProxies ≠ 0 then setting.2 else setting.1).map .ofBytes

/-- The result that an action is answered with. -/
def replyTo (data : CString) : CString :=
  .ofBytes ("reply:".toUTF8 ++ data.bytes)

/-- What an engine does through a callback table during an action. -/
def act (table : CallbackTable) (handle : UInt64) (data : CString) : EngineAct → Operation Unit
  | .result => table.serve (.onResult handle (some (replyTo data)))
  | .nullResult => table.serve (.onResult handle none)
  | .release => table.serve (.release handle)

/-- Does each act of a list. -/
def actAll (table : CallbackTable) (handle : UInt64) (data : CString) :
    List EngineAct → Operation Unit
  | [] => pure ()
  | first :: rest => do
    act table handle data first
    actAll table handle data rest

/-- Answers the calls that an engine's acts lead to. -/
def respondToActs (play : Player) : Responder := fun thread call =>
  match call with
  | .host call => respondHost play thread call
  | .system call => respondSystem call
  | .log line => respondLog line
  | .engine (.traffic _) | .engine (.totalTraffic _) => pure ""
  | .engine .installCallbacks | .engine (.startTunnel ..) | .engine .stopTunnel
  | .engine (.updateDns _) | .engine .forceGc | .engine (.invokeAction ..)
  | .engine (.setEventListener _) | .engine (.suspend _) => pure ()
  | .library (.startTunnel ..) => pure 0
  | .library (.traffic _) | .library (.totalTraffic _) => pure none
  | .library .stopTunnel | .library (.updateDns _) | .library .forceGc
  | .library (.invokeAction ..) | .library (.setEventListener _)
  | .library (.suspend _) => pure ()

/-- What the scripted engine does in a call, and its reply. -/
def engineReply (play : Player) (thread : Thread) (config : EngineConfig) :
    (call : EngineCall) → Move call.Reply
  | .invokeAction callback data =>
    operate (respondToActs play) thread (actAll .ofDispatcher callback.raw data config.acts)
  | .setEventListener listener => do
    let old ← fromWorld fun w =>
      (w.engine.listener, { w with engine.listener := listener.raw })
    if config.releaseOldListener then
      operate (respondToActs play) thread (CallbackTable.ofDispatcher.serve (.release old))
  | .traffic onlyProxies => pure (engineText config.traffic onlyProxies)
  | .totalTraffic onlyProxies => pure (engineText config.totalTraffic onlyProxies)
  | .installCallbacks | .startTunnel .. | .stopTunnel | .updateDns _ | .forceGc
  | .suspend _ => pure ()

/-- The scripted engine. -/
def respondEngine (play : Player) (thread : Thread) (call : EngineCall) : Move call.Reply := do
  record (.engine call)
  engineReply play thread (← get).world.engine.config call

/-- Runs an operation through the table that the library was given, if any. -/
def throughTable (respond : Responder) (thread : Thread)
    (op : CallbackTable → Operation Unit) : Move Unit := do
  match (← get).state.libraryTable with
  | none => pure ()
  | some table => operate respond thread (op table)

/-- What the scripted library does in a call, and its reply. -/
def libraryReply (play : Player) (thread : Thread) (config : EngineConfig) :
    (call : LibraryCall) → Move call.Reply
  | .startTunnel .. => pure config.started
  | .invokeAction callback data =>
    throughTable (respondToActs play) thread fun table =>
      actAll table callback data config.acts
  | .setEventListener listener => do
    let old ← fromWorld fun w => (w.engine.listener, { w with engine.listener := listener })
    if config.releaseOldListener && old ≠ 0 then
      throughTable (respondToActs play) thread fun table => table.serve (.release old)
  | .traffic onlyProxies => pure (libraryText config.traffic onlyProxies)
  | .totalTraffic onlyProxies => pure (libraryText config.totalTraffic onlyProxies)
  | .stopTunnel | .updateDns _ | .forceGc | .suspend _ => pure ()

/-- The scripted library. -/
def respondLibrary (play : Player) (thread : Thread) (call : LibraryCall) : Move call.Reply := do
  record (.library call)
  libraryReply play thread (← get).world.engine.config call

/-- All scripted foreign code. -/
def respond (play : Player) : Responder := fun thread call =>
  match call with
  | .host call => respondHost play thread call
  | .engine call => respondEngine play thread call
  | .library call => respondLibrary play thread call
  | .log line => respondLog line
  | .system call => respondSystem call

/-! ### Steps -/

section steps

variable (layer : Layer) (play : Player) (thread : Thread)

/-- Runs an operation of the bridge on the step's thread. -/
def perform {α : Type} (op : Operation α) : Move α :=
  operate (respond play) thread op

/-- The session has a registry. -/
def hasRegistry (s : State) : Bool :=
  match layer with
  | .core | .bridge _ => true
  | .entry => Entry.isReady s

/-- The session takes steps on a bridge of its own. -/
def hasBridge : Bool :=
  match layer with
  | .core | .entry => false
  | .bridge _ => true

/-! ### Answers to requests -/

/-- The answer to a poll. -/
def answerPoll : Except ProcessError (Option HelperExit) → Answer
  | .ok none => .running
  | .ok (some exit) => .exit exit
  | .error e => .failed (.process e)

/-- The answer to a signal. -/
def answerSignal : Except ProcessError Unit → Answer
  | .ok () => .ok
  | .error e => .failed (.process e)

/-- The answer to a request of an engine. -/
def answerEngine : (q : EngineRequest) → q.Answer → Answer
  | .resolveOwner .., owner => .text owner.bytes
  | .protect .., () | .onResult .., () | .release _, () => .ok

/-- The answer to a request to the registry. -/
def answerRegistry : (q : RegistryRequest) → q.Result → Answer
  | .register .., .ok handle => .handle handle
  | .register .., .error e => .failed (.handle e)
  | .look _, .ok target => .object target.object target.kind
  | .look _, .error e => .failed (.handle e)
  | .giveBack _, () | .release _, () | .close, () => .ok
  | .releaseRaw _, found | .releaseIfPresent _, found => .flag found

/-- The answer to a call that yields nothing but may fail. -/
def answerCall : Except DispatchError Unit → Answer
  | .ok () => .ok
  | .error e => .failed (.dispatch e)

/-- The answer to a request to the dispatcher. -/
def answerDispatch : (q : DispatchRequest) → q.Result → Answer
  | .resolveOwner .., owner => .text owner.toUTF8
  | .protect .., result | .notify .., result | .deliverResult .., result => answerCall result

/-- The answer to an operation that yields an id. -/
def answerId : Except HandleError HandleId → Answer
  | .ok id => .id id
  | .error e => .failed (.handle e)

/-- The answer to a request to the bridge.  Helpers launched this way are not
    kept, so each is answered as the first. -/
def answerBridge : (q : BridgeRequest) → q.Result → Answer
  | .startTunnel .., result | .invokeAction .., result | .setEventListener _, result =>
    answerId result
  | .traffic _, text | .totalTraffic _, text => .text text.toUTF8
  | .startHelper _, .ok helper => .launched 0 helper.argv
  | .startHelper _, .error e => .failed (.launch e)
  | .stopTunnel, () | .updateDns _, () | .forceGc, () | .suspend _, () => .ok

/-- What a caller's variable holds before an entry point fills it. -/
def untouched : Int32 := -99

/-- The answer of an entry point.  Variables for results are passed. -/
def answerEntry : (q : EntryRequest) → q.Result → Answer
  | .init .., status | .startHelper _, status => .status status
  | .startTunnel .., status | .invokeAction .., status | .setEventListener _, status
  | .terminateHelper .., status => .status status.code
  | .traffic _, text | .totalTraffic _, text => .text text.bytes
  | .pollHelper _, status => .poll status.code (status.value?.getD untouched)
  | .counters, counters => .countersOut counters.isSome (counters.getD .zero)
  | .setLogSink .., done => .flag done
  | .stopTunnel, () | .updateDns _, () | .forceGc, () | .suspend _, ()
  | .setBreadcrumbMask _, () => .ok

/-- The answer to a request to the log. -/
def answerLog : (q : LogRequest) → q.Result → Answer
  | .install .., .ok () => .ok
  | .install .., .error e => .failed (.sink e)
  | .limitedError .., emitted => .flag emitted
  | .setMask _, () | .error _, () | .warn _, () | .info _, () | .detail .., () => .ok

/-- The answer to a request. -/
def answerTo : (q : Request) → q.Result → Answer
  | .registry q, result => answerRegistry q result
  | .dispatch q, result => answerDispatch q result
  | .callback _ q, result => answerEngine q result
  | .library q, result => answerEngine q result
  | .bridge q, result => answerBridge q result
  | .entry q, result => answerEntry q result
  | .log q, result => answerLog q result

/-- The answer to a request that the session cannot take in a state. -/
def refusal? (s : State) : Request → Option Answer
  | .registry _ | .dispatch _ | .callback .. =>
    if hasRegistry layer s then none else some .notAvailable
  | .bridge _ => if hasBridge layer then none else some .notAvailable
  | .library _ => if s.libraryTable.isSome then none else some .notInstalled
  | .entry _ | .log _ => none

/-! ### Steps of each sort -/

/-- A step that is one request. -/
def playRequest (q : Request) : Move Answer := do
  match refusal? layer (← get).state q with
  | some answer => pure answer
  | none => return answerTo q (← perform play thread q.operation)

/-- Keeps a launched helper and answers with it. -/
def keepLaunched : Except LaunchError HelperProcess → Move Answer
  | .error e => pure (.failed (.launch e))
  | .ok helper => fromWorld fun w =>
    (.launched w.launched.length helper.argv, { w with launched := w.launched ++ [helper.pid] })

/-- The answer of a monitor that has reported, or not. -/
def answerDeath (pids : List Int32) : Option HelperDeath → Answer
  | none => .nothing
  | some death => .death (pids.findIdx (· = death.pid)) death.exit

/-- Steps on helpers.  Helpers that end on their own have ended at once, so
    there is nothing to wait for. -/
def playHelper : HelperStep → Move Answer
  | .launch config => do
    keepLaunched (← perform play thread (Helper.launch config))
  | .poll process => do
    let pid := (← get).world.pidOf process
    return answerPoll (← perform play thread (Helper.poll pid))
  | .terminate process => do
    let pid := (← get).world.pidOf process
    return answerSignal (← perform play thread (Helper.terminate pid))
  | .forceKill process => do
    let pid := (← get).world.pidOf process
    return answerSignal (← perform play thread (Helper.forceKill pid))
  | .settle => pure .ok
  | .received process => do
    let w := (← get).world
    match w.children.recorded? (w.pidOf process) with
    | none => pure .nothing
    | some arguments => pure (.arguments arguments)
  | .monitor processes interval stop => do
    let w := (← get).world
    let pids := processes.map w.pidOf
    let monitor ← perform play thread (Monitor.spawn pids interval)
    let (death, monitor) ← perform play thread monitor.tick
    let answer :=
      if stop then .stopped monitor.running monitor.stop.running death.isNone
      else answerDeath pids death
    let _ ← perform play thread monitor.drop
    pure answer

/-- Takes the newest handle of an id from those that steps own. -/
def takeOwned (id : HandleId) : Move (Option Handle) :=
  fromWorld fun w =>
    match w.owned.find? (·.id = id) with
    | none => (none, w)
    | some handle => (some handle, { w with owned := w.owned.erase handle })

/-- Looks an id up; the loan is kept or given back. -/
def lookUp (keep : Bool) (id : HandleId) : Move Answer := do
  let result ← perform play thread (Registry.look id)
  if result.isOk then
    if keep then onWorld fun w => { w with held := id :: w.held }
    else perform play thread (Registry.giveBack id)
  pure (answerRegistry (.look id) result)

/-- Steps that own handles, hold loans or look at the registry. -/
def playRegistry : RegistryStep → Move Answer
  | .register object kind => do
    match HostObject.ofAddress? object with
    | none => pure .nullObject
    | some object =>
      let result ← perform play thread (Registry.register object kind)
      match result with
      | .error _ => pure ()
      | .ok handle => onWorld fun w => { w with owned := handle :: w.owned }
      pure (answerRegistry (.register object kind) result)
  | .release id => do
    match ← takeOwned id with
    | none => pure .notOwned
    | some handle =>
      perform play thread (Registry.release handle)
      pure .ok
  | .intoRaw id => do
    match ← takeOwned id with
    | none => pure .nothing
    | some handle => pure (.id handle.id)
  | .contains id => do
    return .flag ((← get).state.registry.contains id)
  | .isEmpty => do
    return .flag ((← get).state.registry.size = 0)
  | .size => do
    return .size (← get).state.registry.size
  | .get id => lookUp play thread false id
  | .hold id => lookUp play thread true id
  | .drop id => do
    let held ← fromWorld fun w => (w.held, { w with held := w.held.erase id })
    if id ∈ held then perform play thread (Registry.giveBack id)
    pure (.flag (id ∈ held))
  | .claim id => do
    if id ∈ (← get).world.held then
      return .flag (← perform play thread (Registry.claim id))
    else
      pure .nothing
  | .installTable table => do
    perform play thread (LinkedEngine.install table)
    pure .ok

/-- Steps on the bridge that are more than a request. -/
def playBridge : BridgeStep → Move Answer
  | .startTunnel object settings => do
    match HostObject.ofAddress? object with
    | none => pure .nullObject
    | some callback =>
      return answerId (← perform play thread (Bridge.startTunnel callback settings))
  | .invoke object data => do
    match HostObject.ofAddress? object with
    | none => pure .nullObject
    | some callback =>
      return answerId (← perform play thread (Bridge.invokeAction data callback))
  | .counters => do
    return .counters (← get).state.counters
  | .helper config => do
    keepLaunched (← perform play thread (Bridge.startHelper config))
  | .unknown => pure .unknownStep

/-- Steps through the entry points that are more than a request. -/
def playEntry : EntryStep → Move Answer
  | .helper config => do
    let pid ← perform play thread (Entry.startHelper config)
    if h : 0 < pid then
      fromWorld fun w =>
        (.helper w.launched.length, { w with launched := w.launched ++ [⟨pid, h⟩] })
    else
      pure (.status pid)
  | .terminate process force => do
    let pid := (← get).world.pidOf process
    playRequest layer play thread (.entry (.terminateHelper pid force))
  | .poll process nullOut => do
    let pid := (← get).world.pidOf process
    let status ← perform play thread (Entry.pollHelper pid)
    if nullOut then pure (.poll status.code untouched)
    else pure (answerEntry (.pollHelper pid) status)
  | .counters nullOut => do
    if nullOut then pure (.flag false)
    else playRequest layer play thread (.entry .counters)
  | .freeNull => pure .ok

/-- Plays an action on the bridge that is in place; steps inside it are played
    by `play`. -/
def playInPlace : Action → Move Answer
  | .attachStatus status => do
    onWorld fun w => { w with host.attachStatus := status }
    pure .ok
  | .refusePin refuse => do
    onWorld fun w => { w with host.refusePin := refuse }
    pure .ok
  | .answer answer => do
    onWorld fun w => { w with host.answer := answer }
    pure .ok
  | .hook none _ => pure .ok
  | .hook (some method) steps => do
    onWorld fun w => { w with host.hooks := w.host.hooks ++ [(method, steps)] }
    pure .ok
  | .engineConfig config => do
    onWorld fun w => { w with engine.config := config }
    pure .ok
  | .hostDetach => do
    let was ← fromWorld fun w =>
      (decide (thread ∈ w.host.attached), { w with host := w.host.detach thread })
    pure (.flag was)
  | .acquireGuard detach => do
    match ← perform play thread (AttachGuard.acquire (.ofFlag detach)) with
    | .error e => pure (.failed (.dispatch (.attach e)))
    | .ok guard =>
      onWorld fun w => { w with guards := guard :: w.guards }
      pure .ok
  | .dropGuard => do
    match (← get).world.guards with
    | [] => pure (.flag false)
    | guard :: rest =>
      onWorld fun w => { w with guards := rest }
      perform play thread guard.drop
      pure (.flag true)
  | .withHost detach steps => do
    match ← perform play thread (AttachGuard.acquire (.ofFlag detach)) with
    | .error e => pure (.failed (.dispatch (.attach e)))
    | .ok guard =>
      playNested play thread steps
      perform play thread guard.drop
      pure .ok
  | .elapse => do
    onWorld fun w => { w with clock := w.clock + 1000 }
    pure .ok
  | .unknownCategory => pure .nothing
  | .libraryFreeNull => do
    if (← get).state.libraryTable.isSome then pure .ok else pure .notInstalled
  | .ask request => playRequest layer play thread request
  | .helper step => playHelper play thread step
  | .registry step => do
    if hasRegistry layer (← get).state then playRegistry play thread step
    else pure .notAvailable
  | .bridge step => do
    if hasBridge layer then playBridge play thread step
    else pure .notAvailable
  | .entry step => playEntry layer play thread step

/-- The owner of the bridge that an action is about.  Entry points know the
    process-wide bridge only. -/
def ownerFor (action : Action) : BridgeOwner :=
  match layer, action with
  | .core, .ask (.entry _) | .core, .entry _
  | .bridge _, .ask (.entry _) | .bridge _, .entry _ => .process
  | _, _ => .session

/-- Plays an action; steps inside it are played by `play`. -/
def playAction (action : Action) : Move Answer :=
  onBridgeOf (ownerFor layer action) (playInPlace layer play thread action)

end steps

/-- Plays a step whose inner steps lie at most `levels` deep. -/
def player (layer : Layer) : (levels : Nat) → Player
  | 0 => fun thread step => playAction layer (fun _ _ => pure .ok) thread step.action
  | levels + 1 => fun thread step => playAction layer (player layer levels) thread step.action

end CallbackBridge.Scenario
