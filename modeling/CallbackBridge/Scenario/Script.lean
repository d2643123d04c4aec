import CallbackBridge.Request

/-! # Scripted sessions: the script

    A session plays a list of steps against the bridge.  The host, the engine,
    the library and the operating system around it are scripted too: settings
    say what they answer, and a hook says what the host does with the bridge
    while it is being called.

    This module holds the steps.  `Scenario.World` holds the surroundings and
    `Scenario.Play` plays the steps. -/

namespace CallbackBridge.Scenario

/-! ### Settings of the surroundings -/

/-- What the scripted host answers to a question for an owner. -/
inductive OwnerAnswer where
  /-- The question itself, or nothing for a negative user. -/
  | echo
  /-- A fixed string, or a null pointer. -/
  | text (answer : Option CString)
  deriving DecidableEq

/-- What the scripted engine does with the callback of an action. -/
inductive EngineAct where
  /-- Delivers a result made from the data. -/
  | result
  /-- Delivers a null pointer. -/
  | nullResult
  /-- Gives the handle back. -/
  | release
  deriving DecidableEq, Repr

/-- The settings of the scripted engine and of the scripted library. -/
structure EngineConfig where
  /-- What is done during each action, in order. -/
  acts : List EngineAct
  /-- A new listener gives the one before it back. -/
  releaseOldListener : Bool
  /-- Session traffic, without and with `onlyProxies`. -/
  traffic : Option ByteArray × Option ByteArray
  /-- Total traffic, without and with `onlyProxies`. -/
  totalTraffic : Option ByteArray × Option ByteArray
  /-- The byte that the library answers to a start. -/
  started : UInt8

/-- Settings that make the engine do nothing. -/
def EngineConfig.quiet : EngineConfig :=
  ⟨[], false, (none, none), (none, none), 1⟩

/-- A process, by the order of launches in the session or by its number. -/
inductive ProcessRef where
  | launched (index : Nat)
  | number (pid : Int32)
  deriving DecidableEq, Repr

/-! ### Steps

    Most steps are one request each.  The steps below keep something for
    later steps, look at the state, or act on the surroundings. -/

/-- Steps on helpers. -/
inductive HelperStep where
  | launch (config : HelperConfig)
  | poll (process : ProcessRef)
  | terminate (process : ProcessRef)
  | forceKill (process : ProcessRef)
  /-- Waits until the helpers that end on their own have ended. -/
  | settle
  /-- The arguments that a helper recorded. -/
  | received (process : ProcessRef)
  | monitor (processes : List ProcessRef) (interval : Nat) (stop : Bool)

/-- Steps that own handles, hold loans or look at the registry. -/
inductive RegistryStep where
  /-- Registers an object and owns the handle; object 0 is refused. -/
  | register (object : UInt64) (kind : HandleKind)
  /-- Releases an owned handle. -/
  | release (id : HandleId)
  /-- Gives up an owned handle without releasing it. -/
  | intoRaw (id : HandleId)
  | contains (id : HandleId)
  | isEmpty
  | size
  /-- Looks an id up and gives the loan back at once. -/
  | get (id : HandleId)
  /-- Looks an id up and holds the loan. -/
  | hold (id : HandleId)
  /-- Gives back the newest held loan. -/
  | drop (id : HandleId)
  | claim (id : HandleId)
  /-- Gives the library a callback table. -/
  | installTable (table : CallbackTable)

/-- Steps on the bridge that check their object, keep a helper or look at the
    counters. -/
inductive BridgeStep where
  | startTunnel (object : UInt64) (settings : TunnelSettings)
  | invoke (object : UInt64) (data : CString)
  | counters
  | helper (config : HelperConfig)
  /-- A step that no bridge knows. -/
  | unknown

/-- Steps through the entry points that name a process, keep a helper or pass
    a null pointer for the result. -/
inductive EntryStep where
  | helper (config : Option RawHelperConfig)
  | terminate (process : ProcessRef) (force : Bool)
  | poll (process : ProcessRef) (nullOut : Bool)
  | counters (nullOut : Bool)
  /-- Gives a null string back. -/
  | freeNull

mutual

/-- A step of a session. -/
inductive Step where
  /-- The name that events show, the thread it runs on, and what it does. -/
  | mk (name : String) (thread : Thread) (action : Action)

/-- What a step does. -/
inductive Action where
  /-- What the host answers to an attach, where that is fixed. -/
  | attachStatus (status : Option Int32)
  | refusePin (refuse : Bool)
  | answer (answer : OwnerAnswer)
  /-- Queues steps for the next call of a method; without one they stay
      unplayed. -/
  | hook (method : Option HostMethod) (steps : List Step)
  | engineConfig (config : EngineConfig)
  /-- The host drops the current thread. -/
  | hostDetach
  | acquireGuard (detach : Bool)
  | dropGuard
  /-- Plays steps on an attached thread. -/
  | withHost (detach : Bool) (steps : List Step)
  /-- One interval of the limiter passes. -/
  | elapse
  /-- A line of a category that does not exist. -/
  | unknownCategory
  /-- Gives a null string back through the functions of the library. -/
  | libraryFreeNull
  | ask (request : Request)
  | helper (step : HelperStep)
  | registry (step : RegistryStep)
  | bridge (step : BridgeStep)
  | entry (step : EntryStep)

end

namespace Step

/-- The name that events show. -/
def name : Step → String
  | .mk name _ _ => name

/-- The thread of a step that is not part of another. -/
def thread : Step → Thread
  | .mk _ thread _ => thread

/-- What the step does. -/
def action : Step → Action
  | .mk _ _ action => action

end Step

mutual

/-- How many lists of steps lie inside a step. -/
def Step.depth : Step → Nat
  | .mk _ _ action => action.depth

/-- How many lists of steps lie inside an action. -/
def Action.depth : Action → Nat
  | .hook _ steps => depthOfAll steps + 1
  | .withHost _ steps => depthOfAll steps + 1
  | _ => 0

/-- How many lists of steps lie inside some steps. -/
def depthOfAll : List Step → Nat
  | [] => 0
  | step :: rest => step.depth + depthOfAll rest

end

/-- The process number that a step names, if it names one. -/
def ProcessRef.number? : ProcessRef → Option Int32
  | .launched _ => none
  | .number pid => some pid

/-- The process numbers that a step on helpers names. -/
def HelperStep.named : HelperStep → List Int32
  | .poll process | .terminate process | .forceKill process | .received process =>
    process.number?.toList
  | .monitor processes _ _ => processes.filterMap (·.number?)
  | .launch _ | .settle => []

/-- The process numbers that a step through the entry points names. -/
def EntryStep.named : EntryStep → List Int32
  | .terminate process _ | .poll process _ => process.number?.toList
  | .helper _ | .counters _ | .freeNull => []

/-- The process numbers that a request names. -/
def namedInRequest : Request → List Int32
  | .entry (.terminateHelper pid _) | .entry (.pollHelper pid) => [pid]
  | _ => []

mutual

/-- The process numbers that a step names. -/
def Step.named : Step → List Int32
  | .mk _ _ action => action.named

/-- The process numbers that an action names. -/
def Action.named : Action → List Int32
  | .hook _ steps => namedInAll steps
  | .withHost _ steps => namedInAll steps
  | .ask request => namedInRequest request
  | .helper step => step.named
  | .entry step => step.named
  | _ => []

/-- The process numbers that some steps name. -/
def namedInAll : List Step → List Int32
  | [] => []
  | step :: rest => step.named ++ namedInAll rest

end

/-! ### Sessions -/

/-- What a session plays against. -/
inductive Layer where
  /-- The registry and the dispatcher. -/
  | core
  /-- A bridge over an engine. -/
  | bridge (engine : Engine)
  /-- The entry points, before initialisation. -/
  | entry
  deriving DecidableEq, Repr

/-- A session. -/
structure Session where
  layer : Layer
  /-- The detach policy that is asked for. -/
  detach : Bool
  /-- The handle limit, where one is given. -/
  capacity : Option UInt64
  engineConfig : EngineConfig
  answer : OwnerAnswer
  /-- The first id, where one is given. -/
  startId : Option UInt64
  /-- The sink that is installed first, with its level. -/
  sink : Option (UInt32 × String)
  steps : List Step

end CallbackBridge.Scenario
