import CallbackBridge.Proofs.Ledger.Runs
import CallbackBridge.Proofs.Run.Footprints

/-! # Operations on different handles

    Engines call from any of their threads, and nobody says in which order.  For
    two operations on different handles the order does not matter.

    Key ideas:

    1. Each operation looks at the registrations of its own handle only, and
       what it leaves behind spares those of the other one.
    2. Counters add up, pins are taken away and threads join in either order.
    3. Which of two operations on one thread attaches it does depend on the
       order, so only the status that an attachment reports may differ.
    4. Where foreign code only replies, performing an operation is a run of the
       bridge. -/

namespace CallbackBridge

open Run

variable {α β : Type}

/-- Two outcomes leave the same behind: the table, the counters, the attached
    threads and the pins. -/
structure Outcome.Agrees (o : Outcome α) (o' : Outcome β) : Prop where
  registry : o'.state.registry = o.state.registry
  counters : o'.state.counters = o.state.counters
  attached : o'.around.attached = o.around.attached
  pinned : o'.around.pinned = o.around.pinned

theorem Counters.eq_of_get {c c' : Counters} (h : c.get = c'.get) : c = c' := by
  have same : c.toList = c'.toList := by rw [toList, toList, h]
  cases c
  cases c'
  simpa [toList, Counter.all, get] using same

/-- They do so if what they share is the same. -/
theorem Outcome.Agrees.of_shared {o : Outcome α} {o' : Outcome β}
    (h : Shared.of o'.state o'.around = Shared.of o.state o.around) : o.Agrees o' where
  registry := congrArg Shared.registry h
  counters := Counters.eq_of_get (congrArg Shared.counted h)
  attached := congrArg Shared.attached h
  pinned := congrArg Shared.pinned h

/-- An outcome is what a run from `c` comes to at rest, where `threads` were
    attached to begin with. -/
def Outcome.ReachedFrom (o : Outcome α) (threads : List Thread) (c : Situation) : Prop :=
  ∃ d, Reaches c d ∧ d.AtRest ∧ d.state = o.state ∧ o.around.Told threads d.history

/-- Two requests that are performed one after the other are a run. -/
theorem SteadyHost.reachedFrom_perform (host : SteadyHost) (x y : Request) (t u : Thread)
    {c : Situation} (rest : c.AtRest) {w : Surroundings} {threads : List Thread}
    (told : w.Told threads c.history) :
    let first := host.perform t x.operation c.state w
    (host.perform u y.operation first.state first.around).ReachedFrom threads c := by
  intro first
  obtain ⟨d, to_d, state, stack, -, told, -⟩ := host.reaches_perform rest.admits t x told
  have rest : d.AtRest := stack.trans rest
  obtain ⟨e, to_e, state', stack', -, told', -⟩ := host.reaches_perform rest.admits u y told
  rw [state] at state' told'
  exact ⟨e, to_d.trans to_e, stack'.trans rest, state', told'⟩

/-- Two requests on different handles, known to the table or not, come to the
    same in either order, in any state and on any threads.  Each has the same
    result and makes the same calls, and they leave the same behind.  Wherever a
    run has come to rest, both orders are runs. -/
theorem different_handles_commute {x y : Request} {a b : HandleId} (hx : x.handle? = some a)
    (hy : y.handle? = some b) (apart : a ≠ b) (host : SteadyHost) (t u : Thread) (s : State)
    (w : Surroundings) :
    let first := host.perform t x.operation s w
    let second := host.perform u y.operation first.state first.around
    let first' := host.perform u y.operation s w
    let second' := host.perform t x.operation first'.state first'.around
    (second'.result = first.result ∧ second'.calls = first.calls ∧
      first'.result = second.result ∧ first'.calls = second.calls ∧ second.Agrees second') ∧
    ∀ c threads, c.AtRest → c.state = s → w.Told threads c.history →
      second.ReachedFrom threads c ∧ second'.ReachedFrom threads c := by
  intro first second first' second'
  obtain ⟨_, _, dx, leaves⟩ := Local.request host t hx (Shared.of s w)
  obtain ⟨_, _, dy, leaves'⟩ := Local.request host u hy (Shared.of s w)
  have spares := leaves.confined.spares apart
  have spares' := leaves'.confined.spares apart.symm
  have untouched := (Footprint.apply_none (x := Shared.of s w)).symm
  -- `x` is performed first, and `y` after what it has left behind
  obtain ⟨result₁, calls₁, shared₁⟩ := leaves.perform Footprint.spares_none untouched
  rw [Footprint.apply_none] at shared₁
  obtain ⟨result₂, calls₂, shared₂⟩ := leaves'.perform spares shared₁
  -- and the other way round
  obtain ⟨result₁', calls₁', shared₁'⟩ := leaves'.perform Footprint.spares_none untouched
  rw [Footprint.apply_none] at shared₁'
  obtain ⟨result₂', calls₂', shared₂'⟩ := leaves.perform spares' shared₁'
  refine ⟨⟨result₂'.trans result₁.symm, calls₂'.trans calls₁.symm, result₁'.trans result₂.symm,
    calls₁'.trans calls₂.symm, .of_shared ?_⟩, ?_⟩
  · rw [shared₂', shared₂, leaves.confined.comm spares']
  · rintro c threads rest rfl told
    exact ⟨host.reachedFrom_perform x y t u rest told, host.reachedFrom_perform y x u t rest told⟩

/-! ### Two operations on one thread -/

namespace Run.Sample

/-- A host that attaches every thread, pins each object as itself and knows no
    owners. -/
def steady : SteadyHost where
  refusal _ := none
  clock _ := 0
  answer
    | .host .attach => (0 : Int32)
    | .host (.pin object) => some object
    | .host (.resolve ..) => none
    | .host (.readString _) => .empty
    | .host .detach | .host (.unpin _) | .host (.protect ..) | .host (.onResult ..)
    | .host (.freeString _) => ()
    | .engine (.traffic _) | .engine (.totalTraffic _) => ""
    | .engine .installCallbacks | .engine (.startTunnel ..) | .engine .stopTunnel
    | .engine (.updateDns _) | .engine .forceGc | .engine (.invokeAction ..)
    | .engine (.setEventListener _) | .engine (.suspend _) => ()
    | .library (.startTunnel ..) => (0 : UInt8)
    | .library (.traffic _) | .library (.totalTraffic _) => none
    | .library .stopTunnel | .library (.updateDns _) | .library .forceGc
    | .library (.invokeAction ..) | .library (.setEventListener _) | .library (.suspend _) => ()
    | .log _ => ()
    | .system .clock => (0 : UInt64)
    | .system (.spawn ..) => ⟨2, by decide⟩
    | .system (.signal ..) => .ok ()
    | .system (.wait _) => .ok none
    | .system (.print ..) => ()

/-- The callback of an action is registered, and then a tunnel. -/
def registered : Outcome (Except HandleError Handle) :=
  let first := steady.perform ⟨"main"⟩ (Registry.register object .invoke) (.initial 0) ⟨∅, 0, 0⟩
  steady.perform ⟨"main"⟩ (Registry.register reference .tunnel) first.state first.around

end Run.Sample

/-- A result is delivered and a tunnel is released on one thread, which is
    attached by whatever comes first. -/
theorem different_handles_commute_delivered :
    let host := Sample.steady
    let deliver : Request := .dispatch (.deliverResult ⟨1⟩ .empty)
    let release : Request := .registry (.releaseRaw ⟨2⟩)
    let worker : Thread := ⟨"worker"⟩
    let start := Sample.registered
    let first := host.perform worker deliver.operation start.state start.around
    let second := host.perform worker release.operation first.state first.around
    let first' := host.perform worker release.operation start.state start.around
    let second' := host.perform worker deliver.operation first'.state first'.around
    deliver.handle? = some ⟨1⟩ ∧ release.handle? = some ⟨2⟩ ∧ first.result = .ok () ∧
      second.result = true ∧ second.around.pinned = {Sample.object} ∧
      second'.result = first.result ∧ second'.calls = first.calls ∧
      first'.result = second.result ∧ first'.calls = second.calls ∧ second.Agrees second' := by
  have commute := different_handles_commute (x := .dispatch (.deliverResult ⟨1⟩ .empty))
    (y := .registry (.releaseRaw ⟨2⟩)) rfl rfl (by decide) Sample.steady ⟨"worker"⟩ ⟨"worker"⟩
    Sample.registered.state Sample.registered.around
  exact ⟨rfl, rfl, rfl, rfl, by decide, commute.1⟩

end CallbackBridge
