import CallbackBridge.Proofs.Reports.Bridges

/-! # What the log tells of a run

    Whoever reads the log learns how often each thing has failed, however the
    failures were nested and however many lines were held back.

    Key ideas:

    1. Each operation that has ended leaves the gap as it was.  Before a run
       there is none, so there is none when no operation is in progress.
    2. That the limiter's lines are heard is a law of each moment.  It holds in
       the middle of operations as well. -/

namespace CallbackBridge.Run

open History

/-- A run of requests to a new registry, to its dispatcher and its bridge, with a
    new limiter.  A sink is installed throughout, which may take whatever it likes
    and may be replaced by another one. -/
structure LogRun (s : State) (c : Situation) : Prop where
  empty : s.registry.entries = []
  uncounted : s.counters = .zero
  unlimited : ∃ interval, s.limiter = .new interval
  reaches : Reaches (.initial s) c
  work : c.history.Only fun q => q.isCoreOrClose || q.isBridge || q.setsSink
  watched : c.history.Watched

/-- What was counted can be read off the log. -/
structure Situation.Reconstructed (c : Situation) : Prop where
  releases : logged c.state c.history .duplicateRelease =
    c.state.counters.get .duplicateReleases
  queries : logged c.state c.history .queryFailure = .ofNat (c.history.countP (·.event.isBlank))
  /-- That a refusal has kept an object from being pinned is no error. -/
  attachments : logged c.state c.history .attachFailure =
    c.state.counters.get .attachFailures - .ofNat (c.history.endings.countP (·.registerRefused))
  /-- Other calls that were dropped are reported under what has gone wrong. -/
  handles : logged c.state c.history .staleHandle =
    c.state.counters.get .callbacksDropped - c.state.counters.get .resultsRejected -
      .ofNat (c.history.endings.countP (·.dispatchRefused))

variable {e : Engine} {op : Nat} {thread : Thread} {s : State} {h : History} {c : Situation}

theorem statuses_eq_nil (hn : ∀ m ∈ h, m.event.op ≠ op) : statuses op h = [] := by
  induction h with
  | nil => rfl
  | cons m before ih =>
    rw [statuses_of_ne (hn m (List.mem_cons_self ..))]
    exact ih fun m hm => hn m (List.mem_cons_of_mem _ hm)

/-- An operation that has begun just now owes nothing of its own. -/
theorem Owes.begins {q : Request} (numbered : ∀ m ∈ h, m.event.op < h.begun)
    (hs : (reporting e).holds s h) (sink : s.logger.sink.isSome = true) :
    Owes e (gap s h) (· = []) h.begun s (⟨.begins h.begun thread q, s⟩ :: h) where
  serves := hs.1
  sink := sink
  heard m hm := m.heard_cons hm nofun
  gap_eq := gap_begins numbered
  answers := by
    show statuses h.begun h = []
    exact statuses_eq_nil fun m hm => Nat.ne_of_lt (numbered m hm)

/-- A change of the sink reports nothing. -/
theorem Squared.sink {g : Log.Category → UInt64} {s₀ : State} {q : Request} {result : q.Result}
    {logger : Log.Logger} (hx : Squared e g s₀ q op thread result s h) :
    Squared e g s₀ q op thread result { s with logger } h where
  serves := hx.serves
  heard := hx.heard
  gap_eq := (gap_change (fun _ _ => rfl) rfl).trans hx.gap_eq

/-- Each operation leaves the gap as it was. -/
theorem reporting_kept (q : Request) : (reporting e).Kept q := by
  intro thread s h numbered hs conduct
  obtain ⟨sink, sort⟩ := conduct
  have work := sort _ _ _ rfl
  have began : Owes e (gap s h) (· = []) h.begun s (⟨.begins h.begun thread q, s⟩ :: h) :=
    .begins numbered hs sink
  have squared : Nests (reporting e) h.begun thread (Squared e (gap s h) s q h.begun thread)
      (q.operation thread s) (⟨.begins h.begun thread q, s⟩ :: h) := by
    match q with
    | .registry q =>
      exact (Owes.request rfl began).mono fun result _ _ hx => hx.squared fun _ => rfl
    | .dispatch d =>
      exact (Owes.request rfl began).mono fun result _ _ hx => hx.squared fun _ => rfl
    | .callback table q =>
      exact (Owes.request rfl began).mono fun result _ _ hx => hx.squared fun _ => rfl
    | .library q =>
      show Nests _ _ _ _ (LinkedEngine.serve q thread s) _
      rw [LinkedEngine.serve_eq]
      exact (Owes.request (q := .callback (s.libraryTable.getD ⟨false⟩) q) rfl began).mono
        fun result _ _ hx => Owing.squared (q := .library q) (fun _ => rfl) hx
    | .bridge q => exact began.bridge hs.1.2
    | .log (.install request level) =>
      have unchanged : ∀ result, Squared e (gap s h) s (.log (.install request level)) h.begun
          thread result s _ := fun _ => (began.owing rfl rfl).squared fun _ => rfl
      simp only [Request.operation, LogRequest.operation, Log.install, Operation.modifyGet_apply]
      split <;> exact (unchanged _).sink
    | .log (.setMask mask) => exact ((began.owing rfl rfl).squared fun _ => rfl).sink
    | .entry _ => cases work
    | .log (.error _) | .log (.warn _) | .log (.info _) | .log (.detail ..)
    | .log (.limitedError ..) => cases work
  refine ⟨hs.2 _ rfl, (squared.pending (.begins numbered)).mono ?_⟩
  intro result s' h' hx
  obtain ⟨hx, pending⟩ := hx
  refine ⟨hx.heard _ rfl, ⟨hx.serves, fun m hm => m.heard_cons hm nofun⟩, ?_⟩
  show gap s' _ = gap s h
  -- what it owes is taken off the gap as soon as it has ended
  rw [gap_ends pending, hx.gap_eq]
  exact add_sub_cancel_right _ _

namespace LogRun

theorem stands (run : LogRun s c) : (reporting s.engine).Stands s c := by
  have initially : (reporting s.engine).holds s [] :=
    ⟨⟨.of_entries_nil run.empty, rfl⟩, fun _ _ => trivial⟩
  exact run.reaches.nested reporting_kept initially (run.watched.and run.work)

/-- Nothing was counted yet, and nothing reported. -/
theorem gap_eq_zero (run : LogRun s c) : gap s [] = 0 := by
  obtain ⟨interval, unlimited⟩ := run.unlimited
  have counters : ∀ k, s.counters.get k = 0 := by
    intro k
    rw [run.uncounted]
    cases k <;> rfl
  have slots : ∀ d, (s.limiter.slot d).suppressed = 0 := by
    intro d
    rw [unlimited]
    rfl
  have endings : History.endings [] = [] := rfl
  funext d
  cases d <;> simp [gap, owed, logged, reported, counters, slots, endings]

/-- At rest what was counted was reported. -/
theorem logged_eq (run : LogRun s c) (rest : c.AtRest) :
    logged c.state c.history = owed c.state c.history := by
  have spans : gap c.state c.history = gap s [] := (run.stands.at_rest rest).2
  rw [run.gap_eq_zero] at spans
  exact (sub_eq_zero.mp spans).symm

end LogRun

/-- However operations are nested, and whatever the host refuses or answers:
    what the limiter admits reaches the sink, and where no operation is in
    progress the log tells how often each thing has failed. -/
theorem log_reconstructs {c : Situation} (run : LogRun s c) :
    c.history.Always Moment.Heard ∧ (c.AtRest → c.Reconstructed) := by
  refine ⟨run.stands.always, fun rest => ?_⟩
  have told : ∀ d, logged c.state c.history d = owed c.state c.history d :=
    fun d => congrFun (run.logged_eq rest) d
  exact ⟨told .duplicateRelease, told .queryFailure, told .attachFailure, told .staleHandle⟩

/-! ### A run with nested failures -/

/-- Operation `op` has offered the limiter a line, where the clock reads `now` and
    somebody watches the log. -/
def Situation.offered (c : Situation) (op : Nat) (thread : Thread) (d : Log.Category)
    (text : String) (now : UInt64) (s : State) : Situation :=
  let (admitted, limiter) := s.limiter.offer now d
  let told : History := match admitted with
    | none => []
    | some k =>
      let line : Call := .log (s.logger.limited d text k)
      [⟨.replies op thread line () none, { s with limiter }⟩,
        ⟨.calls op thread line, { s with limiter }⟩]
  ⟨{ s with limiter }, c.stack, told ++ ⟨.replies op thread (.system .clock) now none, s⟩ ::
    ⟨.calls op thread (.system .clock), s⟩ :: c.history⟩

/-- What the system and the sink reply where such a line is offered. -/
def Situation.offering (d : Log.Category) (text : String) (now : UInt64) (s : State) :
    List Move :=
  .reply (.system .clock) now ::
    ((s.limiter.offer now d).1.map fun k =>
      .reply (.log (s.logger.limited d text k)) ()).toList

theorem path_offered {q : Request} {d : Log.Category} {text : String} (now : UInt64)
    {f : Bool → Operation q.Result} (clear : Log.Clear text)
    (sink : s.logger.sink.isSome = true) :
    Path (c.proceed op thread q ((Log.limitedError d text >>= f) thread s))
      (Situation.offering d text now s) ((c.offered op thread d text now s).proceed op thread q
        (f (s.limiter.offer now d).1.isSome thread (c.offered op thread d text now s).state)) := by
  -- the clock is read
  show Path _ ([.reply (.system .clock) now] ++ _) _
  refine (@Step.reply _ ⟨op, thread, q, .system .clock, _⟩ now rfl).path.append ?_
  rcases hoffer : s.limiter.offer now d with ⟨_ | k, limiter⟩
  · simp only [Situation.offered, Situation.reply, Situation.answered, Situation.proceed,
      Situation.note, Log.limitedError, Operation.bind_apply, Operation.modifyGet_apply,
      Operation.call_apply, Progress.bind, hoffer]
    exact .refl
  · have line : s.logger.line? .error .plain (d.message text k) =
        some (s.logger.limited d text k) := Log.Logger.line?_limited sink clear
    simp only [Situation.offered, Situation.reply, Situation.answered, Situation.proceed,
      Situation.note, Log.limitedError, Log.error, Log.emit, Operation.bind_apply,
      Operation.modifyGet_apply, Operation.state_apply, Operation.call_apply, Progress.bind, hoffer,
      line]
    let f : Frame := ⟨op, thread, q, .log (s.logger.limited d text k), fun _ t => f true thread t⟩
    exact (@Step.reply _ f () rfl).path

theorem reaches_offered {q : Request} {d : Log.Category} {text : String} (now : UInt64)
    {f : Bool → Operation q.Result} (clear : Log.Clear text)
    (sink : s.logger.sink.isSome = true) :
    Reaches (c.proceed op thread q ((Log.limitedError d text >>= f) thread s))
      ((c.offered op thread d text now s).proceed op thread q
        (f (s.limiter.offer now d).1.isSome thread (c.offered op thread d text now s).state)) :=
  ⟨_, path_offered now clear sink⟩

/-- An id is released that nothing is registered under, where the clock reads
    `now` and somebody watches the log. -/
def Situation.releasedInVain (c : Situation) (thread : Thread) (id : HandleId) (now : UInt64) :
    Situation :=
  let op := c.history.begun
  let q : Request := .registry (.releaseRaw id)
  let s := { c.state with counters := c.state.counters.bump .duplicateReleases }
  let (admitted, limiter) := s.limiter.offer now .duplicateRelease
  let told : History := match admitted with
    | none => []
    | some k =>
      let line : Call := .log (s.logger.limited .duplicateRelease
        s!"ignoring release of unknown handle {id.text}" k)
      [⟨.replies op thread line () none, { s with limiter }⟩,
        ⟨.calls op thread line, { s with limiter }⟩]
  ⟨{ s with limiter }, c.stack, ⟨.ends op thread q false, { s with limiter }⟩ :: told ++
    ⟨.replies op thread (.system .clock) now none, s⟩ ::
    ⟨.calls op thread (.system .clock), s⟩ :: ⟨.begins op thread q, c.state⟩ :: c.history⟩

theorem path_releasedInVain {id : HandleId} {now : UInt64} (ha : c.Admits)
    (hn : id.isNull = false) (hf : c.state.registry.listed? id = none)
    (sink : c.state.logger.sink.isSome = true) :
    Path c (.start thread (.registry (.releaseRaw id)) :: Situation.offering .duplicateRelease
      s!"ignoring release of unknown handle {id.text}" now c.state)
      (c.releasedInVain thread id now) := by
  let q : Request := .registry (.releaseRaw id)
  let s := { c.state with counters := c.state.counters.bump .duplicateReleases }
  let text := s!"ignoring release of unknown handle {id.text}"
  have released : Registry.releaseRaw id thread c.state =
      (Log.limitedError .duplicateRelease text >>= fun _ => pure false) thread s := by
    have removes : Registry.releaseRaw id = Registry.remove id := if_neg (by simp [hn])
    rw [removes, Registry.remove, Operation.bind_apply, Registry.take_released hf]
    rfl
  have begins : Step c (.start thread q) (c.start thread q) := .start ha
  have started : c.start thread q = (c.note (.begins c.history.begun thread q)).proceed
      c.history.begun thread q (Registry.releaseRaw id thread c.state) := rfl
  rw [released] at started
  show Path c ([.start thread q] ++ _) _
  refine begins.path.append ?_
  rw [started]
  exact path_offered now (.unknown id) sink

theorem reaches_releasedInVain {id : HandleId} {now : UInt64} (ha : c.Admits)
    (hn : id.isNull = false) (hf : c.state.registry.listed? id = none)
    (sink : c.state.logger.sink.isSome = true) :
    Reaches c (c.releasedInVain thread id now) :=
  ⟨_, path_releasedInVain ha hn hf sink⟩

/-- A process with a sink that takes errors only. -/
def Sample.watched : State := { State.initial 0 with logger := ⟨0, some ⟨⟨0⟩, .error⟩⟩ }

/-- While the host attaches the thread of a registration, the engine releases a
    handle three times that it never had.  The second line is held back, and the
    third one tells of it.  In the end the host refuses the thread. -/
def reportedWhileAttaching : Situation :=
  let waiting := (Situation.initial Sample.watched).start ⟨"host"⟩
    (.registry (.register Sample.object .tunnel))
  let first := waiting.releasedInVain ⟨"engine"⟩ ⟨5⟩ 0
  let second := first.releasedInVain ⟨"engine"⟩ ⟨5⟩ 10
  let third := second.releasedInVain ⟨"engine"⟩ ⟨5⟩ 1000
  (third.play? [.reply (.host .attach) (7 : Int32)]).get rfl

theorem reaches_reportedWhileAttaching :
    Reaches (.initial Sample.watched) reportedWhileAttaching := by
  let waiting := (Situation.initial Sample.watched).start ⟨"host"⟩
    (.registry (.register Sample.object .tunnel))
  let first := waiting.releasedInVain ⟨"engine"⟩ ⟨5⟩ 0
  let second := first.releasedInVain ⟨"engine"⟩ ⟨5⟩ 10
  let third := second.releasedInVain ⟨"engine"⟩ ⟨5⟩ 1000
  have to_waiting : Reaches (.initial Sample.watched) waiting :=
    (Reaches.refl _).tail (.start (by decide))
  have to_first : Reaches waiting first := reaches_releasedInVain (by decide) rfl rfl rfl
  have to_second : Reaches first second := reaches_releasedInVain (by decide) rfl rfl rfl
  have to_third : Reaches second third := reaches_releasedInVain (by decide) rfl rfl rfl
  have refused : (third.play? [.reply (.host .attach) (7 : Int32)]).isSome = true := rfl
  exact to_waiting.trans (to_first.trans (to_second.trans (to_third.trans
    (Situation.reaches_get_play? refused))))

theorem log_reconstructs_reportedWhileAttaching :
    LogRun Sample.watched reportedWhileAttaching ∧
    reportedWhileAttaching.stack = [] ∧
    reportedWhileAttaching.state.counters.get .duplicateReleases = 3 ∧
    reportedWhileAttaching.state.counters.get .attachFailures = 1 ∧
    reportedWhileAttaching.Reconstructed := by
  have run : LogRun Sample.watched reportedWhileAttaching :=
    ⟨rfl, rfl, ⟨1000, rfl⟩, reaches_reportedWhileAttaching, by decide, by decide⟩
  exact ⟨run, rfl, rfl, rfl, (log_reconstructs run).2 rfl⟩

end CallbackBridge.Run
