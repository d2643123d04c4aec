import CallbackBridge.Proofs.Reports.Runs
import CallbackBridge.Proofs.Run.Veiled

/-! # What goes unnoticed

    How the log is set up, and whether threads stay attached, is nobody else's
    business: two runs that differ in it do the same.

    Key ideas:

    1. A sink may be installed, replaced and removed at any time, and the clock
       may read anything.  All that follows from it are lines of the log.
    2. Under either policy the host is asked to attach a thread at the same
       places.  What differs is whether it was attached before, and whether it is
       detached again.
    3. Hosts and engines answer as they like, and use the bridge meanwhile.
       What they do must not depend on what is behind the veil; they make the
       same moves in both runs, as far as those are in front of it. -/

namespace CallbackBridge.Run

variable {s : State} {moves : List Move} {c : Situation}

/-! ### Logging -/

/-- Logging changes nothing.  A run of any requests has a counterpart from each
    state that differs in the log only, and every run that makes the same moves
    there, but for requests to the log, looks the same. -/
theorem logging_unnoticed (run : Veil.log.Run s moves c) (awake : Veil.log.Awake c)
    (logger : Log.Logger) (limiter : Log.Limiter) :
    (∃ moves' c', Path (.initial { s with logger, limiter }) moves' c' ∧
      moves'.filterMap Veil.log.move? = moves.filterMap Veil.log.move? ∧ Veil.log.Same c c') ∧
    ∀ moves' c', Veil.log.Run { s with logger, limiter } moves' c' → Veil.log.Awake c' →
      moves'.filterMap Veil.log.move? = moves.filterMap Veil.log.move? → Veil.log.Same c c' :=
  ⟨run.counterpart rfl awake, fun _ _ run' awake' seen => run.same run' rfl seen awake awake'⟩

/-- While the host attaches the thread of a registration, the engine releases a
    handle that it never had. -/
def releasedUnheard : List Move :=
  [.start ⟨"host"⟩ (.registry (.register Sample.object .tunnel)),
   .start ⟨"engine"⟩ (.registry (.releaseRaw ⟨5⟩)),
   .reply (.system .clock) (0 : UInt64),
   .reply (.host .attach) (0 : Int32),
   .reply (.host (.pin Sample.object)) (some Sample.reference)]

/-- The same with a sink, which is told of it, and then removed. -/
def releasedHeard : List Move :=
  let text := s!"ignoring release of unknown handle {(⟨5⟩ : HandleId).text}"
  [.start ⟨"host"⟩ (.registry (.register Sample.object .tunnel)),
   .start ⟨"engine"⟩ (.registry (.releaseRaw ⟨5⟩)),
   .reply (.system .clock) (500 : UInt64),
   .reply (.log (Sample.watched.logger.limited .duplicateRelease text 0)) (),
   .start ⟨"engine"⟩ (.log (.install none none)),
   .reply (.host .attach) (0 : Int32),
   .reply (.host (.pin Sample.object)) (some Sample.reference)]

theorem path_releasedHeard : ∃ c, Path (.initial Sample.watched) releasedHeard c ∧
    c.stack = [] ∧ c.state.counters.get .duplicateReleases = 1 := by
  let waiting := (Situation.initial Sample.watched).start ⟨"host"⟩
    (.registry (.register Sample.object .tunnel))
  let told := waiting.releasedInVain ⟨"engine"⟩ ⟨5⟩ 500
  let rest : List Move :=
    [.start ⟨"engine"⟩ (.log (.install none none)),
     .reply (.host .attach) (0 : Int32),
     .reply (.host (.pin Sample.object)) (some Sample.reference)]
  have to_waiting : Path (.initial Sample.watched) _ waiting := Step.path (.start (by decide))
  have to_told : Path waiting _ told := path_releasedInVain (by decide) rfl rfl rfl
  have played : (told.play? rest).isSome = true := rfl
  have to_end := Situation.path_get_play? played
  exact ⟨_, to_waiting.append (to_told.append to_end), rfl, rfl⟩

theorem logging_unnoticed_released : ∃ c c',
    Veil.log.Run (.initial 0) releasedUnheard c ∧ Veil.log.Run Sample.watched releasedHeard c' ∧
    c'.state.counters.get .duplicateReleases = 1 ∧ Veil.log.Same c c' := by
  have played : ((Situation.initial (.initial 0)).play? releasedUnheard).isSome = true := rfl
  have run : Veil.log.Run (.initial 0) releasedUnheard _ :=
    ⟨Situation.path_get_play? played, by decide, nofun⟩
  obtain ⟨c', path, rest, counted⟩ := path_releasedHeard
  have run' : Veil.log.Run Sample.watched releasedHeard c' := ⟨path, by decide, nofun⟩
  have awake' : Veil.log.Awake c' := Veil.awake_of_atRest rest
  have same := (logging_unnoticed run (Veil.awake_of_atRest rfl) Sample.watched.logger .perSecond).2
  exact ⟨_, c', run, run', counted, same _ _ run' awake' rfl⟩

/-! ### Detaching -/

/-- Whether threads are detached again makes no difference.  A run of any
    requests, but for ones to create a bridge, has a counterpart under the other
    policy, and every run that makes the same moves there looks the same: all
    that may differ is whether a thread was attached before, when it is detached,
    and what is logged.  Nothing is done while the host detaches a thread. -/
theorem detaching_unnoticed (run : Veil.attachments.Run s moves c)
    (awake : Veil.attachments.Awake c) (policy : DetachPolicy) :
    (∃ moves' c', Path (.initial { s with registry.policy := policy }) moves' c' ∧
      moves'.filterMap Veil.attachments.move? = moves.filterMap Veil.attachments.move? ∧
      Veil.attachments.Same c c') ∧
    ∀ moves' c', Veil.attachments.Run { s with registry.policy := policy } moves' c' →
      Veil.attachments.Awake c' →
      moves'.filterMap Veil.attachments.move? = moves.filterMap Veil.attachments.move? →
      Veil.attachments.Same c c' :=
  ⟨run.counterpart rfl awake, fun _ _ run' awake' seen => run.same run' rfl seen awake awake'⟩

/-- A tunnel is registered and asked to protect a descriptor.  While it does so,
    its handle is released on the same thread, which stays attached all the time
    since it was attached first. -/
def releasedWhileKept : List Move :=
  [.start ⟨"main"⟩ (.registry (.register Sample.object .tunnel)),
   .reply (.host .attach) (1 : Int32),
   .reply (.host (.pin Sample.object)) (some Sample.reference),
   .start ⟨"main"⟩ (.dispatch (.protect ⟨1⟩ 7)),
   .reply (.host .attach) (0 : Int32),
   .start ⟨"main"⟩ (.registry (.releaseRaw ⟨1⟩)),
   .reply (.host (.protect Sample.reference 7)) (),
   .reply (.host .attach) (0 : Int32),
   .reply (.host (.unpin Sample.reference)) ()]

/-- The same where each operation detaches the thread again. -/
def releasedWhileDetaching : List Move :=
  [.start ⟨"main"⟩ (.registry (.register Sample.object .tunnel)),
   .reply (.host .attach) (1 : Int32),
   .reply (.host (.pin Sample.object)) (some Sample.reference),
   .reply (.host .detach) (),
   .start ⟨"main"⟩ (.dispatch (.protect ⟨1⟩ 7)),
   .reply (.host .attach) (1 : Int32),
   .start ⟨"main"⟩ (.registry (.releaseRaw ⟨1⟩)),
   .reply (.host (.protect Sample.reference 7)) (),
   .reply (.host .detach) (),
   .reply (.host .attach) (1 : Int32),
   .reply (.host (.unpin Sample.reference)) (),
   .reply (.host .detach) ()]

/-- A fresh process whose threads are detached again. -/
def Sample.detaching : State := { State.initial 0 with registry.policy := .detachOnExit }

theorem detaching_unnoticed_released : ∃ c c',
    Veil.attachments.Run (.initial 0) releasedWhileKept c ∧
    Veil.attachments.Run Sample.detaching releasedWhileDetaching c' ∧
    c'.state.registry.entries = [] ∧ Veil.attachments.Same c c' := by
  have played : ((Situation.initial (.initial 0)).play? releasedWhileKept).isSome = true := rfl
  have played' : ((Situation.initial Sample.detaching).play? releasedWhileDetaching).isSome =
    true := rfl
  have run : Veil.attachments.Run (.initial 0) releasedWhileKept _ :=
    ⟨Situation.path_get_play? played, by decide, fun _ => by decide +revert⟩
  have run' : Veil.attachments.Run Sample.detaching releasedWhileDetaching _ :=
    ⟨Situation.path_get_play? played', by decide, fun _ => by decide +revert⟩
  have same := (detaching_unnoticed run (Veil.awake_of_atRest rfl) .detachOnExit).2
  exact ⟨_, _, run, run', rfl, same _ _ run' (Veil.awake_of_atRest rfl) rfl⟩

end CallbackBridge.Run
