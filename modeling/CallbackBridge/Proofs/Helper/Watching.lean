import CallbackBridge.Proofs.Commutation
import CallbackBridge.Proofs.Helper.Polls

/-! # Watching helpers

    Key ideas:

    1. Between two ticks anything may happen to the children: each tick comes in
       surroundings of its own.  Within a tick, too, each call may find them
       changed.
    2. Each turn keeps what holds of a monitor at work (`Watch.Sound`), a stop amid
       a tick as much as any other turn.
    3. Under an operating system that reaps once each call tends the children, and
       so does each turn (`Watch.Tends`). -/

namespace CallbackBridge

open Waitable

namespace Monitor

/-! ### Monitors at work -/

namespace Watch

variable {ε : Type} {behaviour : (call : Call) → State → ε → call.Reply × State × ε}
  {pids : List Int32} {w : Watch ε} {t : Tick ε} {search : Search ε}

/-! #### Turns -/

/-- What a turn can do. -/
inductive Turned (behaviour : (call : Call) → State → ε → call.Reply × State × ε)
    (w : Watch ε) : Watch ε → Prop
  | nothing : Turned behaviour w w
  | begins {thread : Thread} {s : State} {e : ε} :
    ¬ w.Over → Turned behaviour w (w.begin thread s e)
  | goesOn {search : Search ε} :
    w.phase = .searches search → Turned behaviour w (w.proceed behaviour search)
  | waits : w.phase = .looks → Turned behaviour w { w with phase := .waits }
  | stops : Turned behaviour w { w with monitor := w.monitor.stop }

theorem turned (behaviour : (call : Call) → State → ε → call.Reply × State × ε) (w : Watch ε)
    (turn : Turn ε) : Turned behaviour w (w.turn behaviour turn) := by
  cases turn with
  | tick thread s e =>
    cases hp : w.phase with
    | waits =>
      cases hr : w.monitor.running with
      | true =>
        simp only [Watch.turn, hp, hr, if_true]
        refine .begins fun isOver => ?_
        rw [isOver.1] at hr
        cases hr
      | false =>
        simp only [Watch.turn, hp, hr, Bool.false_eq_true, if_false]
        exact .nothing
    | searches search =>
      simp only [Watch.turn, hp]
      exact .nothing
    | looks =>
      simp only [Watch.turn, hp]
      refine .begins fun isOver => ?_
      rw [isOver.2] at hp
      cases hp
  | goOn =>
    cases hp : w.phase with
    | searches search =>
      simp only [Watch.turn, hp]
      exact .goesOn hp
    | waits | looks =>
      simp only [Watch.turn, hp]
      exact .nothing
  | wait =>
    cases hp : w.phase with
    | looks =>
      simp only [Watch.turn, hp]
      exact .waits hp
    | waits | searches =>
      simp only [Watch.turn, hp]
      exact .nothing
  | stop => exact .stops

/-- What holds of a monitor at work, whatever happens to it. -/
structure Sound (pids : List Int32) (w : Watch ε) : Prop where
  watches : w.monitor.pids = pids
  searched : ∀ t ∈ w.past, Searched pids t.polls t.report
  searching : ∀ t, w.phase = .searches t → t.rest.Polls (Searched pids) t.polls
  quiet : ∀ t ∈ w.past.dropLast, t.report = none
  /-- A monitor that is not done has not reported. -/
  reported : w.Over ∨ ∀ t ∈ w.past, t.report = none

namespace Sound

theorem fresh (pids : List Int32) (interval : Nat) (running : Bool) :
    (Watch.fresh ⟨pids, interval, running⟩ : Watch ε).Sound pids where
  watches := rfl
  searched := by simp [Watch.fresh]
  searching := by simp [Watch.fresh]
  quiet := by simp [Watch.fresh]
  reported := .inr (by simp [Watch.fresh])

theorem begin (h : w.Sound pids) (busy : ¬ w.Over) (thread : Thread) (s : State) (e : ε) :
    (w.begin thread s e).Sound pids where
  watches := h.watches
  searched := h.searched
  searching t ht := by
    cases ht
    refine (polls_search w.monitor thread s []).mono ?_
    rintro _ report ⟨polls, rfl, searched⟩
    exact h.watches ▸ searched
  quiet := h.quiet
  reported := .inr (h.reported.resolve_left busy)

theorem close (h : w.Sound pids) (busy : ¬ w.Over) (searched : Searched pids t.polls t.report) :
    (w.close t).Sound pids where
  watches := h.watches
  searched := by
    simp only [Watch.close, List.mem_append, List.mem_singleton]
    rintro t' (older | rfl)
    · exact h.searched t' older
    · exact searched
  searching t' ht := by
    simp only [Watch.close] at ht
    split at ht <;> cases ht
  quiet := by
    simp only [Watch.close, List.dropLast_concat]
    exact h.reported.resolve_left busy
  reported := by
    cases hr : t.report with
    | some death => exact .inl ⟨by simp [Watch.close, settle, hr], by simp [Watch.close, hr]⟩
    | none =>
      refine .inr ?_
      simp only [Watch.close, List.mem_append, List.mem_singleton]
      rintro t' (older | rfl)
      · exact h.reported.resolve_left busy t' older
      · exact hr

theorem proceed (h : w.Sound pids) (amid : w.phase = .searches search) :
    (w.proceed behaviour search).Sound pids := by
  have busy : ¬ w.Over := fun isOver => by simp [isOver.2] at amid
  have sought := h.searching search amid
  obtain ⟨before, polls, around, rest⟩ := search
  cases rest with
  | finished report s => exact h.close busy sought
  | calling call s resume =>
    exact {
      watches := h.watches
      searched := h.searched
      searching t ht := by
        cases ht
        exact sought.2 _ _
      quiet := h.quiet
      reported := .inr (h.reported.resolve_left busy) }

/-- Every turn keeps it, a stop amid a tick as much as any other. -/
theorem turned {w' : Watch ε} (h : w.Sound pids) (done : Turned behaviour w w') :
    w'.Sound pids := by
  cases done with
  | nothing => exact h
  | begins busy => exact h.begin busy ..
  | goesOn amid => exact h.proceed amid
  | waits looks =>
    have busy : ¬ w.Over := fun isOver => by simp [isOver.2] at looks
    exact ⟨h.watches, h.searched, nofun, h.quiet, .inr (h.reported.resolve_left busy)⟩
  | stops =>
    exact ⟨h.watches, h.searched, h.searching, h.quiet,
      h.reported.imp_left fun isOver => ⟨rfl, isOver.2⟩⟩

theorem live (h : w.Sound pids) (turns : List (Turn ε)) : (w.live behaviour turns).Sound pids := by
  induction turns generalizing w with
  | nil => exact h
  | cons first rest ih => exact ih (h.turned (Watch.turned _ w first))

/-- The ticks that are over have reaped the child whose exit was reported. -/
theorem reaped (h : w.Sound pids) : (w.past.flatMap (·.polls)).filterMap Poll.reaped? =
    w.reports.filterMap fun death => death.exit.map (death.pid, ·) := by
  have each : ∀ past : List (Tick ε), (∀ t ∈ past, Searched pids t.polls t.report) →
      (past.flatMap (·.polls)).filterMap Poll.reaped? =
        (past.filterMap (·.report)).filterMap fun death => death.exit.map (death.pid, ·) := by
    intro past
    induction past with
    | nil => exact fun _ => rfl
    | cons t later ih =>
      intro searched
      obtain ⟨first, rest⟩ := List.forall_mem_cons.mp searched
      rw [List.flatMap_cons, List.filterMap_append, first.reaped, ih rest]
      cases hr : t.report with
      | none => simp [hr]
      | some death => cases he : death.exit <;> simp [hr, he]
  exact each _ h.searched

end Sound

/-- A tick always comes to its end, and reports what its run does. -/
theorem ends (behaviour : (call : Call) → State → ε → call.Reply × State × ε)
    (amid : w.phase = .searches search) : ∃ n more, w.live behaviour (List.replicate n .goOn) =
      w.close ⟨search.before, search.polls ++ more,
        (search.rest.run behaviour search.around).1,
        (search.rest.run behaviour search.around).2.2⟩ := by
  obtain ⟨before, polls, around, rest⟩ := search
  induction rest generalizing w polls around with
  | finished report s =>
    refine ⟨1, [], ?_⟩
    simp only [List.replicate_one, Watch.live, turn, amid, proceed, List.append_nil]
    rfl
  | calling call s resume ih =>
    let outcome := behaviour call s around
    let polls' := polls ++ (Poll.ofCall? call outcome.1).toList
    let w' : Watch ε :=
      { w with phase := .searches ⟨before, polls', outcome.2.2, resume outcome.1 outcome.2.1⟩ }
    have step : w.turn behaviour .goOn = w' := by
      simp only [turn, amid, proceed, w', polls', outcome]
    have goes : w'.phase =
        .searches ⟨before, polls', outcome.2.2, resume outcome.1 outcome.2.1⟩ := rfl
    obtain ⟨n, more, later⟩ := ih _ _ _ _ goes
    refine ⟨n + 1, (Poll.ofCall? call outcome.1).toList ++ more, ?_⟩
    rw [List.replicate_succ, Watch.live, step, later, ← List.append_assoc]
    rfl

/-- A tick that nothing falls into is the tick of a monitor on its own. -/
theorem exists_live_tick (behaviour : (call : Call) → State → ε → call.Reply × State × ε)
    (running : w.monitor.running = true) (waits : w.phase = .waits) (thread : Thread) (s : State)
    (e : ε) :
    let ran := (w.monitor.tick thread s).run behaviour e
    ∃ n polls, w.live behaviour (.tick thread s e :: List.replicate n .goOn) =
      ⟨ran.1.2, if ran.1.1.isNone then .looks else .waits,
        w.past ++ [⟨e, polls, ran.1.1, ran.2.2⟩]⟩ := by
  intro ran
  have begun : w.turn behaviour (.tick thread s e) = w.begin thread s e := by
    simp [turn, waits, running]
  have searched : ran = (fun found : Option HelperDeath × State × ε =>
      ((found.1, w.monitor.settle found.1), found.2))
        ((w.monitor.search thread s).run behaviour e) := by
    have same : w.monitor.tick = (do
        let report ← w.monitor.search
        pure (report, w.monitor.settle report)) := if_pos running
    simp only [ran, same]
    exact Progress.run_bind ..
  have amid : (w.begin thread s e).phase = .searches ⟨e, [], e, w.monitor.search thread s⟩ := rfl
  obtain ⟨n, more, ended⟩ := (w.begin thread s e).ends behaviour amid
  refine ⟨n, more, ?_⟩
  rw [live, begun, ended, searched]
  rfl

/-! #### Children -/

/-- The polls of each tick tend the children. -/
structure Tends (children : ε → Waitables) (w : Watch ε) : Prop where
  past : ∀ t ∈ w.past, ∀ pid, Tended pid (children t.before pid) t.polls (children t.after pid)
  current : ∀ t, w.phase = .searches t →
    ∀ pid, Tended pid (children t.before pid) t.polls (children t.around pid)

namespace Tends

variable {children : ε → Waitables}

theorem proceed (hr : ReapsOnce behaviour children) (h : w.Tends children) (sound : w.Sound pids)
    (amid : w.phase = .searches search) : (w.proceed behaviour search).Tends children := by
  have tended := h.current search amid
  have sought := sound.searching search amid
  obtain ⟨before, polls, around, rest⟩ := search
  cases rest with
  | finished report s =>
    refine ⟨fun t ht => ?_, fun t ht => ?_⟩
    · simp only [Watch.proceed, Watch.close, List.mem_append, List.mem_singleton] at ht
      rcases ht with older | rfl
      · exact h.past t older
      · exact tended
    · simp only [Watch.proceed, Watch.close] at ht
      split at ht <;> cases ht
  | calling call s resume =>
    refine ⟨h.past, fun t ht pid => ?_⟩
    cases ht
    exact (tended pid).append (tended_call hr sought.1 s around pid)

theorem live (hr : ReapsOnce behaviour children) (h : w.Tends children) (sound : w.Sound pids)
    (turns : List (Turn ε)) : (w.live behaviour turns).Tends children := by
  induction turns generalizing w with
  | nil => exact h
  | cons first rest ih =>
    have done := turned behaviour w first
    refine ih ?_ (sound.turned done)
    generalize w.turn behaviour first = w' at done
    cases done with
    | nothing => exact h
    | begins =>
      refine ⟨h.past, fun t ht pid => ?_⟩
      cases ht
      exact .aged .stays
    | goesOn amid => exact h.proceed hr sound amid
    | waits => exact ⟨h.past, nofun⟩
    | stops => exact ⟨h.past, h.current⟩

end Tends

end Watch

/-! ### Lives of monitors -/

variable {ε : Type}

namespace Watch

variable {behaviour : (call : Call) → State → ε → call.Reply × State × ε} {pids : List Int32}
  {w : Watch ε} {search : Search ε}

end Watch

/-- Three children are there at the first tick.  At the second one two of them
    have ended, and the monitor is stopped after the first poll.  At the last one
    all of them have ended. -/
def Sample.turns : List (Turn Scenario.Children) :=
  let early : Scenario.Children :=
    ⟨[⟨⟨5001, by decide⟩, [], .running⟩, ⟨⟨5002, by decide⟩, [], .running⟩,
      ⟨⟨5003, by decide⟩, [], .suspended⟩], []⟩
  let late := (early.setState 5002 (.ended (.exited 3))).setState 5003 (.ended (.signaled 9))
  [.tick ⟨"monitor"⟩ (.initial 1) early, .goOn, .goOn, .goOn, .goOn, .goOn, .wait,
    .tick ⟨"monitor"⟩ (.initial 1) late, .goOn, .stop, .goOn, .goOn, .goOn,
    .tick ⟨"monitor"⟩ (.initial 1) (late.setState 5001 (.ended (.exited 0))), .goOn]

end Monitor

end CallbackBridge
