import CallbackBridge.Scenario.Script
import CallbackBridge.Scenario.Children

/-! # Scripted sessions: the surroundings

    The scripted host keeps the set of attached threads, the table of pins and
    its settings.  The scripted engine keeps its settings and its listener.
    Events record each call, and what the steps of a hook answered. -/

namespace CallbackBridge.Scenario

/-! ### Answers -/

/-- Why a step failed. -/
inductive Failure where
  | handle (error : HandleError)
  | dispatch (error : DispatchError)
  | sink (error : Log.SinkError)
  | launch (error : LaunchError)
  | process (error : ProcessError)
  deriving DecidableEq, Repr

/-- What a step answers. -/
inductive Answer where
  | ok
  /-- The session has no registry or no bridge that could take the step. -/
  | notAvailable
  | notInstalled
  | notOwned
  | nullObject
  | unknownStep
  | nothing
  | failed (failure : Failure)
  | flag (value : Bool)
  | size (value : Nat)
  | id (value : HandleId)
  | status (value : Int32)
  | handle (value : Handle)
  | object (value : HostObject) (kind : HandleKind)
  | text (value : ByteArray)
  | counters (value : Counters)
  | launched (index : Nat) (argv : List String)
  | helper (index : Nat)
  | running
  | exit (value : HelperExit)
  | arguments (value : List CString)
  | death (index : Nat) (exit : Option HelperExit)
  | stopped (before after quiet : Bool)
  | poll (status out : Int32)
  | countersOut (filled : Bool) (value : Counters)

/-! ### Events -/

/-- The object that was pinned for a reference, if the reference is pinned. -/
abbrev PinnedObject := Option HostObject

/-- What happened around the bridge. -/
inductive Event where
  | log (line : Log.Line)
  | attach (thread : Thread) (status : Int32)
  | detach (thread : Thread)
  /-- Without a reference the host refused. -/
  | pin (object : HostObject) (reference : Option HostObject)
  | unpin (object : PinnedObject)
  | protect (target : PinnedObject) (fd : Int32)
  | resolve (target : PinnedObject) (query : OwnerQuery)
  | onResult (target : PinnedObject) (data : CString)
  | freeString (text : CString)
  | engine (call : EngineCall)
  | library (call : LibraryCall)
  /-- A step inside another has answered. -/
  | nested (name : String) (answer : Answer)

/-! ### State -/

/-- The scripted host. -/
structure Host where
  /-- The attached threads. -/
  attached : List Thread
  /-- Pinned references, each with its object. -/
  pins : List (HostObject × HostObject)
  /-- How many references were handed out. -/
  pinCount : Nat
  /-- The fixed answer to an attach, where there is one. -/
  attachStatus : Option Int32
  /-- Pins are refused. -/
  refusePin : Bool
  /-- The answer to a question for an owner. -/
  answer : OwnerAnswer
  /-- Strings that were answered and not taken back, each with its text. -/
  strings : List (HostString × CString)
  /-- How many strings were answered. -/
  stringCount : Nat
  /-- Steps that wait for a call of a method, oldest first. -/
  hooks : List (HostMethod × List Step)

/-- The scripted engine, or the scripted library in its place. -/
structure ScriptedEngine where
  config : EngineConfig
  /-- The word of the listener that it holds; 0 for none. -/
  listener : UInt64

/-- The part of a state that belongs to one bridge.  The rest belongs to the
    process. -/
structure BridgePart where
  registry : Registry
  counters : Counters
  engine : Engine
  listener : ListenerSlot

namespace BridgePart

/-- The bridge in a state. -/
def of (s : State) : BridgePart :=
  ⟨s.registry, s.counters, s.engine, s.listener⟩

/-- The state with this bridge in it. -/
def within (b : BridgePart) (s : State) : State :=
  { s with registry := b.registry, counters := b.counters, engine := b.engine,
           listener := b.listener }

end BridgePart

/-- Whom a bridge belongs to.  A session that plays against the entry points
    has no bridge beside the process-wide one, and counts that as its own. -/
inductive BridgeOwner where
  | session
  | process
  deriving DecidableEq, Repr

/-- All that surrounds the bridge, and what a session keeps for its steps. -/
structure World where
  host : Host
  engine : ScriptedEngine
  /-- Milliseconds on the limiter's clock. -/
  clock : UInt64
  children : Children
  /-- What happened since the last answer, newest first. -/
  events : List Event
  /-- Printed lines, newest first. -/
  printed : List (Stream × String)
  /-- Log lines are printed too. -/
  printsLog : Option (Log.Line → String)
  /-- Handles that steps own. -/
  owned : List Handle
  /-- Ids of which steps hold a loan, newest first. -/
  held : List HandleId
  /-- Attach guards, newest first. -/
  guards : List AttachGuard
  /-- Process numbers of launched helpers, oldest first. -/
  launched : List Pid
  /-- The owner of the bridge that the state holds. -/
  owner : BridgeOwner
  /-- The bridge of the other owner. -/
  aside : BridgePart

/-- The surroundings at the start of a session, in which some process numbers
    belong to processes that are no children. -/
def World.initial (config : EngineConfig) (answer : OwnerAnswer) (foreign : List Int32) :
    World where
  host := ⟨[], [], 0, none, false, answer, [], 0, []⟩
  engine := ⟨config, 0⟩
  clock := 0
  children := .beside foreign
  events := []
  printed := []
  printsLog := none
  owned := []
  held := []
  guards := []
  launched := []
  owner := .session
  aside := ⟨.new .keepAttached 0, .zero, .absent, .empty⟩

namespace World

/-! ### Small steps -/

/-- Records an event. -/
def record (w : World) (e : Event) : World :=
  { w with events := e :: w.events }

/-- The number of the process that a reference names; 0 if there is none. -/
def pidOf (w : World) : ProcessRef → Int32
  | .launched index => (w.launched[index]?.map (·.number)).getD 0
  | .number pid => pid

/-- Takes the oldest steps that wait for a method. -/
def takeHook (w : World) (method : HostMethod) : List Step × World :=
  match w.host.hooks.find? (·.1 = method) with
  | none => ([], w)
  | some (_, steps) =>
    (steps, { w with host.hooks := w.host.hooks.eraseP (·.1 = method) })

end World

namespace Host

/-- The address of pin number `k`. -/
def pinAddress (k : Nat) : UInt64 := 0x10000000 + 16 * UInt64.ofNat k

/-- Pins an object. -/
def pin (h : Host) (object : HostObject) : Option HostObject × Host :=
  if h.refusePin then (none, h)
  else match HostObject.ofAddress? (pinAddress h.pinCount) with
    | none => (none, h)
    | some reference =>
      (some reference,
        { h with pins := (reference, object) :: h.pins, pinCount := h.pinCount + 1 })

/-- The object that was pinned for a reference. -/
def pinned (h : Host) (reference : HostObject) : PinnedObject :=
  (h.pins.find? (·.1 = reference)).map (·.2)

/-- Unpins a reference.  Yields the object that was pinned. -/
def unpin (h : Host) (reference : HostObject) : PinnedObject × Host :=
  (h.pinned reference, { h with pins := h.pins.filter (·.1 ≠ reference) })

/-- Attaches a thread. -/
def attach (h : Host) (thread : Thread) : Int32 × Host :=
  let status := h.attachStatus.getD (if thread ∈ h.attached then 0 else 1)
  if status = 0 ∨ status = 1 then
    (status, { h with attached := h.attached.insert thread })
  else (status, h)

/-- Detaches a thread. -/
def detach (h : Host) (thread : Thread) : Host :=
  { h with attached := h.attached.filter (· ≠ thread) }

/-- The bytes of a text. -/
def echoText (query : OwnerQuery) : ByteArray :=
  let protocol := Text.Decimal.ofInt query.protocol.toInt
  let uid := Text.Decimal.ofInt query.uid.toInt
  s!"{protocol}:".toUTF8 ++ query.source.bytes ++ ">".toUTF8 ++ query.target.bytes
    ++ s!":uid-{uid}".toUTF8

/-- The text that is the answer to a question for an owner. -/
def answerText (h : Host) (query : OwnerQuery) : Option CString :=
  match h.answer with
  | .text answer => answer
  | .echo => if query.uid < 0 then none else some (.ofBytes (echoText query))

/-- The address of string number `k`. -/
def stringAddress (k : Nat) : UInt64 := 0x20000000 + 16 * UInt64.ofNat k

/-- Answers a question for an owner with a new string. -/
def resolve (h : Host) (query : OwnerQuery) : Option HostString × Host :=
  match h.answerText query, HostString.ofAddress? (stringAddress h.stringCount) with
  | some text, some string =>
    (some string,
      { h with strings := (string, text) :: h.strings, stringCount := h.stringCount + 1 })
  | _, _ => (none, h)

/-- The text of a string, which is empty once it was taken back. -/
def textOf (h : Host) (string : HostString) : CString :=
  ((h.strings.find? (·.1 = string)).map (·.2)).getD .empty

/-- Takes a string back. -/
def free (h : Host) (string : HostString) : Host :=
  { h with strings := h.strings.filter (·.1 ≠ string) }

end Host

end CallbackBridge.Scenario
