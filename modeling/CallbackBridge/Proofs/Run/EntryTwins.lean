import CallbackBridge.Proofs.Run.Entries
import CallbackBridge.Proofs.Run.Twins

/-! # The parts of mirrored entry points

    Entry points add little to the bridge: they look whether it is initialised,
    check their arguments and log what is wrong.  This goes on from
    `Proofs.Run.Twins`.

    Key ideas:

    1. Whether the bridge is initialised is no part of the set-up, so both runs
       find the same.
    2. The entry points that set up the log are left out, and the one that
       initialises the bridge is told apart: it sets the bridge up anew. -/

namespace CallbackBridge

/-- A request to the log, or to an entry point that sets it up. -/
def Request.setsLog : Request → Bool
  | .log _ | .entry (.setLogSink ..) | .entry (.setBreadcrumbMask _) => true
  | .registry _ | .dispatch _ | .callback .. | .library _ | .bridge _ | .entry _ => false

namespace Run

/-- The two runs also call the operating system alike. -/
structure EntryTwins (ρ : Pairing) : Prop extends BridgeTwins ρ where
  system : ∀ {c : SystemCall}, c ≠ .clock →
    Mirrored ρ Eq (Operation.call (.system c)) (Operation.call (.system c))

namespace EntryTwins

variable {α : Type} {ρ : Pairing} {point : Entry.Point}

/-! ### Checks -/

theorem required (hp : EntryTwins ρ) {name : String} {value : Option CString} :
    Mirrored ρ Eq (Entry.required point name value) (Entry.required point name value) := by
  unfold Entry.required
  split
  · exact hp.emit.bind_eq fun _ => .pure rfl
  · exact .pure rfl

theorem requiredCallback (hp : EntryTwins ρ) {callback : Option HostObject} :
    Mirrored ρ Eq (Entry.requiredCallback point callback)
      (Entry.requiredCallback point callback) := by
  unfold Entry.requiredCallback
  split
  · exact hp.emit.bind_eq fun _ => .pure rfl
  · exact .pure rfl

/-- Both runs find the bridge initialised, or neither does. -/
theorem ready (hp : EntryTwins ρ) {m m' : Operation α} (hm : Mirrored ρ Eq m m)
    (hm' : Mirrored ρ Eq m' m') :
    let chosen : Operation α := do
      let s ← Operation.state
      if Entry.isReady s then m else m'
    Mirrored ρ Eq chosen chosen := by
  refine Mirrored.bind .state fun s s' hs => ?_
  obtain ⟨x, rfl⟩ := hp.under hs
  have same : Entry.isReady (s.under x) = Entry.isReady s := rfl
  rw [same]
  split
  · exact hm
  · exact hm'

theorem whenReady (hp : EntryTwins ρ) {otherwise : α} {body : Operation α}
    (hb : Mirrored ρ Eq body body) :
    Mirrored ρ Eq (Entry.whenReady point otherwise body)
      (Entry.whenReady point otherwise body) :=
  hp.ready hb (hp.emit.bind_eq fun _ => .pure rfl)

theorem registered (hp : EntryTwins ρ) {r : Except HandleError HandleId} :
    Mirrored ρ Eq (Entry.registered point r) (Entry.registered point r) := by
  cases r with
  | ok _ => exact .pure rfl
  | error e => exact hp.emit.bind_eq fun _ => .pure rfl

/-! ### Helpers -/

theorem send (hp : EntryTwins ρ) {pid signal : Int32} :
    Mirrored ρ Eq (Helper.send pid signal) (Helper.send pid signal) := by
  unfold Helper.send
  split
  · exact .pure rfl
  · refine Mirrored.bind_eq (hp.system (c := .signal pid signal) nofun) fun r => ?_
    cases r with
    | error e => exact .pure rfl
    | ok _ => exact hp.breadcrumb.bind_eq fun _ => .pure rfl

theorem poll (hp : EntryTwins ρ) {pid : Int32} :
    Mirrored ρ Eq (Helper.poll pid) (Helper.poll pid) := by
  unfold Helper.poll
  split
  · exact .pure rfl
  · refine Mirrored.bind_eq (hp.system (c := .wait pid) nofun) fun r => ?_
    rcases r with e | (_ | exit)
    · exact .pure rfl
    · exact .pure rfl
    · exact hp.breadcrumb.bind_eq fun _ => .pure rfl

/-- What is answered to the caller who launches a helper. -/
theorem launched (hp : EntryTwins ρ) {m : Operation (Except LaunchError HelperProcess)}
    (hm : Mirrored ρ Eq m m) :
    let answering : Operation Int32 := do
      match ← m with
      | .ok helper => pure helper.pid.number
      | .error e =>
        Log.error s!"{Entry.Point.startHelper.name}: {e.message}"
        pure Entry.launchFailedPid
    Mirrored ρ Eq answering answering := by
  refine hm.bind_eq fun r => ?_
  cases r with
  | ok helper => exact .pure rfl
  | error e => exact hp.emit.bind_eq fun _ => .pure rfl

theorem entry_startHelper (hp : EntryTwins ρ) {config : Option RawHelperConfig} :
    Mirrored ρ Eq (Entry.startHelper config) (Entry.startHelper config) := by
  cases config with
  | none => exact hp.emit.bind_eq fun _ => .pure rfl
  | some raw =>
    simp only [Entry.startHelper]
    split
    · exact hp.emit.bind_eq fun _ => .pure rfl
    · exact hp.ready (hp.launched hp.startHelper) (hp.launched hp.launch)

theorem terminateHelper (hp : EntryTwins ρ) {pid : Int32} {force : Bool} :
    Mirrored ρ Eq (Entry.terminateHelper pid force) (Entry.terminateHelper pid force) := by
  unfold Entry.terminateHelper
  split
  all_goals
    refine hp.send.bind_eq fun sent => ?_
    cases sent with
    | ok _ => exact .pure rfl
    | error e => exact hp.emit.bind_eq fun _ => .pure rfl

theorem pollHelper (hp : EntryTwins ρ) {pid : Int32} :
    Mirrored ρ Eq (Entry.pollHelper pid) (Entry.pollHelper pid) := by
  refine hp.poll.bind_eq fun r => ?_
  rcases r with e | (_ | (code | signal))
  · exact hp.emit.bind_eq fun _ => .pure rfl
  · exact .pure rfl
  · exact .pure rfl
  · exact .pure rfl

/-! ### Entry points -/

/-- The bridge is initialised in both runs, or that fails in both of them. -/
theorem init (hp : EntryTwins ρ) {methods : Option HostMethods} {options : Option BridgeOptions}
    (create : ∀ options,
      Mirrored ρ Eq (Bridge.create .absent options) (Bridge.create .absent options)) :
    Mirrored ρ Eq (Entry.init methods options) (Entry.init methods options) := by
  have keep : ∀ startup, Mirrored ρ Eq (Operation.modify fun s => { s with startup })
      (Operation.modify fun s => { s with startup }) :=
    fun startup => hp.change (f := fun s => ((), { s with startup })) fun _ _ => rfl
  cases methods with
  | none => exact hp.emit.bind_eq fun _ => .pure rfl
  | some methods =>
    have once : ∀ options, Mirrored ρ Eq (Entry.initOnce methods options)
        (Entry.initOnce methods options) := by
      intro options
      refine Mirrored.bind .state fun s s' hs => ?_
      obtain ⟨x, rfl⟩ := hp.under hs
      have same : (s.under x).startup = s.startup := rfl
      rw [same]
      rcases s.startup with _ | (e | _)
      · cases methods.check with
        | error e => exact (keep _).bind_eq fun _ => .pure rfl
        | ok _ =>
          exact hp.emit.bind_eq fun _ => (create options).bind_eq fun _ =>
            (keep _).bind_eq fun _ => .pure rfl
      · exact .pure rfl
      · exact .pure rfl
    refine (once _).bind_eq fun r => ?_
    cases r with
    | ok _ => exact .pure rfl
    | error e => exact hp.emit.bind_eq fun _ => .pure rfl

theorem startTunnel (hp : EntryTwins ρ) {fd : Int32} {callback : Option HostObject}
    {stack address dns : Option CString} :
    Mirrored ρ Eq (Entry.startTunnel fd callback stack address dns)
      (Entry.startTunnel fd callback stack address dns) := by
  refine hp.whenReady (hp.requiredCallback.bind_eq fun callback => ?_)
  cases callback with
  | none => exact .pure rfl
  | some callback =>
    refine hp.required.bind_eq fun stack => hp.required.bind_eq fun address =>
      hp.required.bind_eq fun dns => ?_
    cases stack <;> cases address <;> cases dns
    case some.some.some => exact (hp.bridge (.startTunnel ..)).bind_eq fun _ => hp.registered
    all_goals exact .pure rfl

theorem invokeAction (hp : EntryTwins ρ) {data : Option CString} {callback : Option HostObject} :
    Mirrored ρ Eq (Entry.invokeAction data callback) (Entry.invokeAction data callback) := by
  refine hp.whenReady (hp.requiredCallback.bind_eq fun callback => ?_)
  cases callback with
  | none => exact .pure rfl
  | some callback =>
    refine hp.required.bind_eq fun data => ?_
    cases data with
    | none => exact .pure rfl
    | some data => exact (hp.bridge (.invokeAction ..)).bind_eq fun _ => hp.registered

/-- Every entry point but those that set up the log. -/
theorem entry (hp : EntryTwins ρ) {q : EntryRequest} (hl : Request.setsLog (.entry q) = false)
    (create : ∀ options, q.initializes = true →
      Mirrored ρ Eq (Bridge.create .absent options) (Bridge.create .absent options)) :
    Mirrored ρ Eq q.operation q.operation := by
  cases q with
  | init => exact hp.init fun options => create options rfl
  | startTunnel => exact hp.startTunnel
  | stopTunnel => exact hp.whenReady (hp.bridge .stopTunnel)
  | updateDns dns =>
    refine hp.whenReady (hp.required.bind_eq fun dns => ?_)
    cases dns with
    | none => exact .pure rfl
    | some dns => exact hp.bridge (.updateDns dns)
  | forceGc => exact hp.whenReady (hp.bridge .forceGc)
  | invokeAction => exact hp.invokeAction
  | setEventListener listener =>
    exact hp.whenReady ((hp.bridge (.setEventListener listener)).bind_eq fun _ => hp.registered)
  | traffic b => exact (hp.whenReady (hp.bridge (.traffic b))).bind_eq fun _ => .pure rfl
  | totalTraffic b => exact (hp.whenReady (hp.bridge (.totalTraffic b))).bind_eq fun _ => .pure rfl
  | suspend b => exact hp.whenReady (hp.bridge (.suspend b))
  | startHelper => exact hp.entry_startHelper
  | terminateHelper => exact hp.terminateHelper
  | pollHelper => exact hp.pollHelper
  | counters => 
    refine Mirrored.bind .state fun s s' hs => ?_
    obtain ⟨x, rfl⟩ := hp.under hs
    exact .pure rfl
  | setLogSink | setBreadcrumbMask => cases hl

end EntryTwins

end Run

end CallbackBridge
