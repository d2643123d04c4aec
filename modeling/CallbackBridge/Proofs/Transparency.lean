import CallbackBridge.Proofs.Ledger.Runs
import CallbackBridge.Proofs.Run.Bridges
import CallbackBridge.Proofs.Run.Calls
import CallbackBridge.Proofs.Run.Twins

/-! # The linked engine is transparent

    The library below a linked engine knows handles as pointers and truth values
    as bytes, and calls back through functions of its own.  Nobody else notices:
    a bridge over it does what it does over an engine that makes the same calls
    straight through the callback table.

    Key ideas:

    1. Each call of an engine has one way to be passed on to the library, which
       can be read back.
    2. A run over the linked engine and one over foreign code go together, call
       by call.  Only one line of the log, about the start of a tunnel, has no
       counterpart.
    3. What both runs show is the same once the words of the library are taken
       for what they stand for, and the log is left out. -/

namespace CallbackBridge

/-! ### What the library is told -/

/-- What a call of the library stands for. -/
def LibraryCall.direct : LibraryCall → EngineCall
  | .startTunnel callback settings => .startTunnel ⟨callback⟩ settings
  | .stopTunnel => .stopTunnel
  | .updateDns dns => .updateDns dns
  | .forceGc => .forceGc
  | .invokeAction callback data => .invokeAction ⟨callback⟩ data
  | .setEventListener listener => .setEventListener ⟨listener⟩
  | .traffic onlyProxies => .traffic (onlyProxies != 0)
  | .totalTraffic onlyProxies => .totalTraffic (onlyProxies != 0)
  | .suspend suspended => .suspend (suspended != 0)

/-- What a reply of the library stands for.  Whether a tunnel was started is
    not passed on. -/
def LibraryCall.heard : (c : LibraryCall) → c.Reply → c.direct.Reply
  | .traffic _, text | .totalTraffic _, text => LinkedEngine.copyText text
  | .startTunnel .., _ | .stopTunnel, _ | .updateDns _, _ | .forceGc, _ | .invokeAction .., _
  | .setEventListener _, _ | .suspend _, _ => ()

namespace Call

/-- A call to the log. -/
def isLog : Call → Bool
  | .log _ => true
  | .host _ | .engine _ | .library _ | .system _ => false

/-- A call to the library. -/
def isLibrary : Call → Bool
  | .library _ => true
  | .host _ | .engine _ | .log _ | .system _ => false

/-- A call of the library is taken for what it stands for. -/
def direct : Call → Call
  | .library c => .engine c.direct
  | c => c

/-- So is its reply. -/
def heard : (c : Call) → c.Reply → c.direct.Reply
  | .library c, r => c.heard r
  | .host _, r | .engine _, r | .log _, r | .system _, r => r

/-- How a call of an engine is passed on to the library. -/
def linked : Call → Call
  | .engine (.startTunnel id settings) =>
    .library (.startTunnel (LinkedEngine.pointer id) settings)
  | .engine .stopTunnel => .library .stopTunnel
  | .engine (.updateDns dns) => .library (.updateDns dns)
  | .engine .forceGc => .library .forceGc
  | .engine (.invokeAction id data) => .library (.invokeAction (LinkedEngine.pointer id) data)
  | .engine (.setEventListener id) => .library (.setEventListener (LinkedEngine.pointer id))
  | .engine (.traffic b) => .library (.traffic (LinkedEngine.byte b))
  | .engine (.totalTraffic b) => .library (.totalTraffic (LinkedEngine.byte b))
  | .engine (.suspend b) => .library (.suspend (LinkedEngine.byte b))
  | c => c

/-- What the library replies to such a call, and what is made of it. -/
def answers : (c : Call) → c.linked.Reply → c.Reply → Prop
  | .engine (.traffic _), text, r | .engine (.totalTraffic _), text, r =>
    r = LinkedEngine.copyText text
  | .engine .installCallbacks, _, _ | .engine (.startTunnel ..), _, _ | .engine .stopTunnel, _, _
  | .engine (.updateDns _), _, _ | .engine .forceGc, _, _ | .engine (.invokeAction ..), _, _
  | .engine (.setEventListener _), _, _ | .engine (.suspend _), _, _ => True
  | .host _, r, r' | .library _, r, r' | .log _, r, r' | .system _, r, r' => r' = r

end Call

/-- What is passed on to the library can be read back. -/
theorem Call.direct_linked (c : Call) : c.linked.direct = c.direct := by
  match c with
  | .engine e =>
    cases e with
    | traffic b => cases b <;> rfl
    | totalTraffic b => cases b <;> rfl
    | suspend b => cases b <;> rfl
    | _ => rfl
  | .host _ | .library _ | .log _ | .system _ => rfl

/-- The truth value that a call passes on. -/
def LibraryCall.byte? : LibraryCall → Option UInt8
  | .traffic b | .totalTraffic b | .suspend b => some b
  | .startTunnel .. | .stopTunnel | .updateDns _ | .forceGc | .invokeAction ..
  | .setEventListener _ => none

/-- The library can tell what it is called for. -/
theorem LibraryCall.of_linked {e : EngineCall} {l : LibraryCall}
    (h : Call.linked (.engine e) = .library l) :
    l.direct = e ∧ ∀ b ∈ l.byte?, b = 0 ∨ b = 1 := by
  have stands : l.direct = e := by
    have same := Call.direct_linked (.engine e)
    rw [h] at same
    injection same
  refine ⟨stands, ?_⟩
  have bytes : ∀ b : Bool, LinkedEngine.byte b = 0 ∨ LinkedEngine.byte b = 1 := by decide
  cases e <;> cases h <;> simp [byte?, bytes]

namespace Request

/-- A request through the functions of the library stands for one through the
    callback table. -/
abbrev direct : Request → Request :=
  through (some .ofDispatcher)

/-- The result is the same. -/
def shown : (q : Request) → q.Result → q.direct.Result
  | .library _, r => r
  | .registry _, r | .dispatch _, r | .callback .., r | .bridge _, r | .entry _, r | .log _, r => r

end Request

namespace State

/-- The bridge has the linked engine, whose table is that of its dispatcher. -/
def Linked (s : State) : Prop :=
  s.engine = .linked ∧ s.libraryTable = some .ofDispatcher

/-- The same bridge over foreign code. -/
def direct (s : State) : State :=
  { s with engine := .external }

end State

/-- The table that a new bridge installs is kept, if none was kept before. -/
theorem Bridge.create_linked {thread : Thread} {options : BridgeOptions} {s : State}
    (hn : s.libraryTable = none) :
    (Bridge.create .linked options).Quiet thread s fun _ s' => s'.Linked := by
  let policy := DetachPolicy.ofFlag options.detachAfterCallback
  let capacity := options.maxHandles.toUInt64
  let created : State := { s with
    registry := .new policy capacity, counters := .zero, listener := .empty, engine := .linked }
  let installed : State := { created with libraryTable := some .ofDispatcher }
  have installs : (Engine.installCallbacks .linked).Quiet thread created
      fun _ s' => s' = installed := by
    have logs : Engine.installCallbacks .linked thread created =
        Log.breadcrumb .engine "libclash callbacks installed" thread installed := by
      simp [Engine.installCallbacks, LinkedEngine.install, created, hn, Progress.bind]
      rfl
    exact .congr logs .breadcrumb
  let create : Operation Unit := Operation.modify fun s => { s with
    registry := .new policy capacity, counters := .zero, listener := .empty, engine := .linked }
  have creates : create.Quiet thread s fun _ s' => s' = created := .of_eq rfl rfl
  refine creates.bind ?_
  rintro _ _ rfl
  refine installs.bind ?_
  rintro _ _ rfl
  refine Operation.Quiet.breadcrumb.mono ?_
  rintro _ _ rfl
  exact ⟨rfl, rfl⟩

namespace Run

/-! ### What is shown -/

/-- What an event shows to those who do not read the log, where words of the
    library are taken for what they stand for.  What is lost by it is not part of
    what is shown. -/
def Event.direct : Event → Option Event
  | .begins op thread q => some (.begins op thread q.direct)
  | .calls op thread c => if c.isLog then none else some (.calls op thread c.direct)
  | .replies op thread c r _ =>
    if c.isLog then none else some (.replies op thread c.direct (c.heard r) none)
  | .ends op thread q result => some (.ends op thread q.direct (q.shown result))

/-- The engine is not told apart either. -/
def Moment.direct (m : Moment) : Option Moment :=
  m.event.direct.map fun e => ⟨e, m.state.direct⟩

/-- What a history shows. -/
def History.direct (h : History) : History :=
  h.filterMap Moment.direct

/-! ### The two runs -/

/-- A run over the linked engine, and one over foreign code. -/
def linkage : Pairing where
  alike s s' := s.Linked ∧ s' = s.direct
  skips := Call.isLog
  makes c := !c.isLibrary
  call := Call.linked
  answers := Call.answers
  request := Request.direct
  results q result result' := result' = q.shown result
  mayReenter_eq c := by
    match c with
    | .engine e => cases e <;> rfl
    | .host _ | .library _ | .log _ | .system _ => rfl
  exists_answer c r := by
    match c with
    | .engine e => cases e <;> first | exact ⟨(), trivial⟩ | exact ⟨_, rfl⟩
    | .host _ | .library _ | .log _ | .system _ => exact ⟨r, rfl⟩

namespace linkage

/-- Nothing is nested in a call of the log. -/
theorem quiet : linkage.Quiet := by
  intro c hc
  cases c <;> first | rfl | cases hc

theorem host {c : HostCall} :
    Mirrored linkage Eq (Operation.call (.host c)) (Operation.call (.host c)) :=
  (Mirrored.call (ρ := linkage) (c := .host c) rfl).mono fun _ _ hr => hr.symm

theorem system {c : SystemCall} :
    Mirrored linkage Eq (Operation.call (.system c)) (Operation.call (.system c)) :=
  (Mirrored.call (ρ := linkage) (c := .system c) rfl).mono fun _ _ hr => hr.symm

/-- A change that the engine has nothing to do with. -/
theorem change {α : Type} {f : State → α × State} (hf : Unaware f) :
    Mirrored linkage Eq (Operation.modifyGet f) (Operation.modifyGet f) := by
  refine .modifyGet fun s s' hs => ?_
  obtain ⟨⟨engine, table⟩, rfl⟩ := hs
  -- a change that does not look at the setup commutes with setting another engine
  have setup := hf.setup_eq s
  have same : f s.direct = ((f s).1, (f s).2.direct) := by
    rw [show s.direct = s.under { s.setup with engine := .external } from rfl, hf, ← setup]
    rfl
  rw [same]
  refine ⟨rfl, ⟨?_, ?_⟩, rfl⟩
  · exact (congrArg Setup.engine setup).trans engine
  · exact (congrArg Setup.libraryTable setup).trans table

theorem emit {level : Log.Level} {b : Log.Breadcrumbs} {message : String} :
    Mirrored linkage Eq (Log.emit level b message) (Log.emit level b message) := by
  refine Mirrored.bind .state fun s s' hs => ?_
  obtain ⟨-, rfl⟩ := hs
  have same : s.direct.logger.line? level b message = s.logger.line? level b message := rfl
  rw [same]
  cases s.logger.line? level b message with
  | none => exact .pure rfl
  | some line => exact (Mirrored.call (ρ := linkage) (c := .log line) rfl).mono fun _ _ _ => rfl

theorem breadcrumb {area : Log.Area} {message : String} :
    Mirrored linkage Eq (Log.breadcrumb area message) (Log.breadcrumb area message) := by
  unfold Log.breadcrumb Log.detail
  split
  · exact .pure rfl
  · exact emit

theorem limitedError {c : Log.Category} {text : String} :
    Mirrored linkage Eq (Log.limitedError c text) (Log.limitedError c text) := by
  have offer : ∀ now, Mirrored linkage Eq
      (Operation.modifyGet fun s =>
        ((s.limiter.offer now c).1, { s with limiter := (s.limiter.offer now c).2 }))
      (Operation.modifyGet fun s =>
        ((s.limiter.offer now c).1, { s with limiter := (s.limiter.offer now c).2 })) := by
    refine fun now => .modifyGet fun s s' hs => ?_
    obtain ⟨linked, rfl⟩ := hs
    exact ⟨rfl, linked, rfl⟩
  refine Mirrored.bind_eq system fun now => (offer now).bind_eq fun admitted => ?_
  cases admitted with
  | none => exact .pure rfl
  | some suppressed => exact emit.bind_eq fun _ => .pure rfl

theorem visit {α : Type} {body : Operation α} (hb : Mirrored linkage Eq body body) :
    Mirrored linkage Eq (CallbackBridge.visit body) (CallbackBridge.visit body) := by
  refine Mirrored.bind .state fun s s' hs => ?_
  obtain ⟨-, rfl⟩ := hs
  exact .onHostThread breadcrumb host host hb

theorem twins : Twins linkage where
  under {s _} hs := ⟨{ s.setup with engine := .external }, hs.2⟩
  change := change
  emit := emit
  limitedError := limitedError.mono fun _ _ _ => trivial
  host _ := host
  visit := visit

/-- A line that only the linked engine logs. -/
theorem unmatched {area : Log.Area} {message : String} :
    Mirrored linkage Eq (Log.breadcrumb area message) (pure ()) := by
  intro thread s s' hs
  unfold Log.breadcrumb Log.detail
  split
  · exact .finished hs rfl
  simp only [Log.emit, Operation.bind_apply, Operation.state_apply, Progress.bind]
  cases s.logger.line? .debug (.of area) message with
  | none => exact .finished hs rfl
  -- the second run waits until the line is taken
  | some line => exact .skipping rfl fun _ => .finished hs rfl

/-- What an engine is called for, and what is done with its reply. -/
theorem engine {α β : Type} {c : EngineCall} {f : (Call.engine c).linked.Reply → Operation α}
    {f' : (Call.engine c).Reply → Operation β} {post : α → β → Prop}
    (hf : ∀ r r', Call.answers (.engine c) r r' → Mirrored linkage post (f r) (f' r')) :
    Mirrored linkage post (Operation.call (Call.linked (.engine c)) >>= f)
      (Operation.call (.engine c) >>= f') :=
  (Mirrored.call (ρ := linkage) (c := .engine c) rfl).bind hf

theorem engineTwins : EngineTwins linkage .linked .external where
  startTunnel id settings := engine (c := .startTunnel id settings) fun _ _ _ => unmatched
  stopTunnel := (Mirrored.call (ρ := linkage) (c := .engine .stopTunnel) rfl).mono fun _ _ _ => rfl
  updateDns dns :=
    (Mirrored.call (ρ := linkage) (c := .engine (.updateDns dns)) rfl).mono fun _ _ _ => rfl
  forceGc := (Mirrored.call (ρ := linkage) (c := .engine .forceGc) rfl).mono fun _ _ _ => rfl
  invokeAction id data :=
    (Mirrored.call (ρ := linkage) (c := .engine (.invokeAction id data)) rfl).mono
      fun _ _ _ => rfl
  setEventListener id :=
    (Mirrored.call (ρ := linkage) (c := .engine (.setEventListener id)) rfl).mono fun _ _ _ => rfl
  traffic b := engine (c := .traffic b) fun _ _ hr => .pure hr.symm
  totalTraffic b := engine (c := .totalTraffic b) fun _ _ hr => .pure hr.symm
  suspend b :=
    (Mirrored.call (ρ := linkage) (c := .engine (.suspend b)) rfl).mono fun _ _ _ => rfl

theorem bridgeTwins : BridgeTwins linkage where
  toTwins := twins
  spawn := system
  engines {s s'} hs := by
    obtain ⟨linked, rfl⟩ := hs
    rw [linked.1]
    exact engineTwins

theorem request {q : Request} (hq : q.isBridge = true) :
    Mirrored linkage (linkage.results q) q.operation (linkage.request q).operation := by
  match q with
  | .bridge q => exact (bridgeTwins.bridge q).mono fun _ _ heq => heq.symm
  | .callback table q => exact (twins.serve table q).mono fun _ _ heq => heq.symm
  | .library q =>
    intro thread s s' hs
    -- the library calls back through the table that was installed
    have serves := twins.serve .ofDispatcher q thread s s' hs
    obtain ⟨⟨-, table⟩, rfl⟩ := hs
    have through : LinkedEngine.serve q thread s = CallbackTable.ofDispatcher.serve q thread s := by
      rw [LinkedEngine.serve_eq, table]
      rfl
    rw [← through] at serves
    exact serves.mono fun _ _ heq => heq.symm
  | .registry _ | .dispatch _ | .entry _ | .log _ => cases hq

end linkage

/-! ### What the two runs show -/

/-- A call and its reply show the same as what is passed on to the library. -/
theorem Event.direct_calls (op : Nat) (thread : Thread) (c : Call) :
    Event.direct (.calls op thread c.linked) = Event.direct (.calls op thread c) := by
  have log : c.linked.isLog = c.isLog := by
    match c with
    | .engine e => cases e <;> rfl
    | .host _ | .library _ | .log _ | .system _ => rfl
  rw [direct, direct, log, Call.direct_linked]

theorem Event.direct_replies {op : Nat} {thread : Thread} {c : Call} {r : c.linked.Reply}
    {r' : c.Reply} {lost lost' : Option HostObject} (hr : c.answers r r') :
    Event.direct (.replies op thread c r' lost') =
      Event.direct (.replies op thread c.linked r lost) := by
  match c with
  | .engine e =>
    cases e with
    | traffic b =>
      obtain rfl : r' = _ := hr
      cases b <;> rfl
    | totalTraffic b =>
      obtain rfl : r' = _ := hr
      cases b <;> rfl
    | suspend b => cases b <;> rfl
    | _ => rfl
  | .host _ | .library _ | .log _ | .system _ =>
    obtain rfl : r' = r := hr
    rfl

/-- Moments that go together show the same. -/
theorem Moment.direct_eq {m m' : Moment} (hm : linkage.Moments m m') : m'.direct = m.direct := by
  cases hm with
  | @begins op thread q s s' hs =>
    obtain ⟨-, rfl⟩ := hs
    cases q <;> rfl
  | @calls op thread c s s' hc hs =>
    obtain ⟨-, rfl⟩ := hs
    exact congrArg (Option.map _) (Event.direct_calls op thread c).symm
  | @replies op thread c r r' lost lost' s s' hr hs =>
    obtain ⟨-, rfl⟩ := hs
    exact congrArg (Option.map _) (Event.direct_replies hr)
  | @ends op thread q result result' s s' hr hs =>
    obtain ⟨-, rfl⟩ := hs
    obtain rfl : result' = q.shown result := hr
    cases q <;> rfl

theorem History.direct_eq {h h' : History} (hh : linkage.Histories h h') :
    h'.direct = h.direct := by
  induction hh with
  | nil => rfl
  | @cons m m' h h' hm _ ih =>
    rw [direct, List.filterMap_cons, Moment.direct_eq hm, show h'.filterMap _ = h.direct from ih]
    rfl
  | @alone m h h' hm _ ih =>
    -- only the lines of the log are left out, and none of them is shown
    have unseen : m.direct = none := by
      obtain ⟨e, s⟩ := m
      cases e with
      | calls _ _ c | replies _ _ c =>
        have log : c.isLog = true := hm
        simp [Moment.direct, Event.direct, log]
      | begins | ends => cases hm
    rw [ih, direct, direct, List.filterMap_cons, unseen]

/-- The library is called for what the bridge has called its engine for, and
    can tell that. -/
def Moment.Encoded (m : Moment) : Prop :=
  ∀ op thread l, m.event = .calls op thread (.library l) → ∃ e,
    Call.library l = Call.linked (.engine e) ∧ l.direct = e ∧ ∀ b ∈ l.byte?, b = 0 ∨ b = 1

theorem encoded {h h' : History} (hh : linkage.Histories h h') :
    h.Always fun m _ => m.Encoded := by
  induction hh with
  | nil => trivial
  | @cons m m' h h' hm _ ih =>
    refine ⟨fun op thread l heq => ?_, ih⟩
    cases hm with
    | @calls op thread c s s' hc hs =>
      have called : c.linked = .library l := by
        injection heq
      match c with
      | .engine e => exact ⟨e, called.symm, LibraryCall.of_linked called⟩
      | .host _ | .log _ | .system _ => cases called
      -- the second run makes no call to a library
      | .library _ => cases hc
    | begins | replies | ends => cases heq
  | @alone m h h' hm _ ih =>
    refine ⟨fun op thread l heq => ?_, ih⟩
    -- a call to the library is never left out
    have omitted : linkage.omits (.calls op thread (.library l)) = true := heq ▸ hm
    cases omitted

/-! ### Runs -/

/-- Nothing is lost between a bridge and its library. -/
structure Lossless : Prop where
  /-- The first table that is installed is the one that the library gets. -/
  installs : ∀ thread options s, s.libraryTable = none →
    (Bridge.create .linked options).Quiet thread s fun _ s' => s'.Linked
  handle : ∀ id : HandleId, ⟨LinkedEngine.pointer id⟩ = id
  null : ∀ id : HandleId, LinkedEngine.pointer id = 0 ↔ id.isNull = true
  text : ∀ (text : CString) (t : String), text.text? = some t →
    LinkedEngine.copyText (some text) = t
  noText : LinkedEngine.copyText none = ""

theorem lossless : Lossless where
  installs _ _ _ hn := Bridge.create_linked hn
  handle _ := rfl
  null id := by simp [LinkedEngine.pointer, HandleId.isNull]
  text _ _ ht := Text.Utf8.decodeLossy_of_decode? ht
  noText := rfl

/-- A run of a bridge over the linked engine.  The library calls back whenever
    it likes, with any pointers and strings. -/
structure LinkedRun (s : State) (c : Situation) : Prop where
  linked : s.Linked
  reaches : Reaches (.initial s) c
  bridge : c.history.Only Request.isBridge

/-- A run over foreign code has come to where a run over the linked engine is,
    and has shown the same: the same requests with the same results, the same
    calls with the same replies, and the same tables and counters at each. -/
structure Situation.Shows (c d : Situation) : Prop where
  rest : d.AtRest ↔ c.AtRest
  state : d.state = c.state.direct
  history : d.history.direct = c.history.direct

/-- The linked engine is transparent. -/
theorem linked_transparent {s : State} {c : Situation} (run : LinkedRun s c) :
    (c.Admits → ∃ d, Reaches (.initial s.direct) d ∧ c.Shows d) ∧
    c.history.Always (fun m _ => m.Encoded) ∧ Lossless := by
  obtain ⟨d, reaches, trails⟩ := run.reaches.mirrored linkage.quiet
    (fun _ hq => linkage.request hq) ⟨run.linked, rfl⟩ run.bridge
  refine ⟨fun admits => ⟨d, reaches, ?_⟩, ?_, lossless⟩
  -- where a request may come in, the second run is not ahead
  · obtain ⟨⟨-, state⟩, stack, history⟩ := trails.beside_of_admits admits linkage.quiet
    refine ⟨?_, state, History.direct_eq history⟩
    rw [Situation.AtRest, Situation.AtRest, ← List.length_eq_zero_iff, ← List.length_eq_zero_iff,
      stack.length_eq]
  -- the histories go together even where it is
  · cases trails with
    | beside beside => exact encoded beside.history
    | ahead _ _ history _ => exact encoded history

/-- A bridge over the linked engine, whose next handle is an odd one. -/
def linkedLate : State :=
  { State.initial 0 with
    engine := .linked, libraryTable := some .ofDispatcher
    registry := { Registry.new .detachOnExit 0 with nextId := 0xfffffffffffffff1 } }

/-- Settings of a tunnel. -/
def someSettings : TunnelSettings := ⟨5, .empty, .ofTextCut "10.0.0.1", .ofTextCut "1.1.1.1"⟩

set_option maxRecDepth 4096 in
/-- The library asks for a descriptor to be excluded while it starts a tunnel,
    gives a handle back that nobody knows, and is asked about traffic. -/
def askedForTraffic : Situation :=
  ((Situation.initial linkedLate).play?
    [.start ⟨"host"⟩ (.bridge (.startTunnel Sample.object someSettings)),
     .reply (.host .attach) (0 : Int32),
     .reply (.host (.pin Sample.object)) (some Sample.reference),
     .start ⟨"library"⟩ (.library (.protect 0xfffffffffffffff1 6)),
     .reply (.host .attach) (1 : Int32),
     .reply (.host (.protect Sample.reference 6)) (),
     .reply (.host .detach) (),
     .start ⟨"library"⟩ (.library (.onResult 0 none)),
     .start ⟨"library"⟩ (.library (.release 77)),
     .reply (.system .clock) (0 : UInt64),
     .reply (.library (.startTunnel 0xfffffffffffffff1 someSettings)) (1 : UInt8),
     .start ⟨"host"⟩ (.bridge (.traffic true)),
     .reply (.library (.traffic 1)) (some (CString.ofTextCut "1/2")),
     .start ⟨"host"⟩ (.bridge (.setEventListener none))]).get rfl

set_option maxRecDepth 4096 in
theorem linked_transparent_askedForTraffic :
    LinkedRun linkedLate askedForTraffic ∧ askedForTraffic.Admits ∧
    (∃ d, Reaches (.initial linkedLate.direct) d ∧ askedForTraffic.Shows d) ∧
    askedForTraffic.history.Always (fun m _ => m.Encoded) := by
  have run : LinkedRun linkedLate askedForTraffic :=
    ⟨⟨rfl, rfl⟩, Situation.reaches_get_play? _, by decide⟩
  have admits : askedForTraffic.Admits := by decide
  have transparent := linked_transparent run
  exact ⟨run, admits, transparent.1 admits, transparent.2.1⟩

end Run

end CallbackBridge
