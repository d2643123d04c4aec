import CallbackBridge.Helper.Watch
import CallbackBridge.Proofs.Run.Parts
import CallbackBridge.Scenario.Children

/-! # Polls of helpers

    A poll has a side effect: it reaps a child that has ended, and whoever polls
    later finds nothing.  So it matters which entries of its list a monitor
    polls, in which order, and where it ends the search.

    Key ideas:

    1. Children start and end by themselves, at any time.  An operating system
       that *reaps once* takes away only a child that has ended, only when
       somebody waits for it, and tells how it ended (`ReapsOnce`).
    2. Of the tree of a search it is shown, whatever the replies are, which polls
       it makes (`Operation.Polls`).  So at any call it is known how far the
       search has come.
    3. What a search polls and reports is told by the replies alone (`Searched`), and
       what becomes of a child meanwhile by the polls of it (`Tended`). -/

namespace CallbackBridge

/-! ### Children -/

/-- A child that can still be waited for. -/
inductive Waitable where
  | running
  /-- It has ended and nobody has waited for it since. -/
  | ended (exit : HelperExit)
  deriving DecidableEq, Repr

/-- The children that can still be waited for, by their numbers. -/
abbrev Waitables := Int32 → Option Waitable

namespace Waitable

/-- What may become of a number while nobody waits for it. -/
inductive Ages : Option Waitable → Option Waitable → Prop
  | stays {c : Option Waitable} : Ages c c
  /-- A new child gets the number. -/
  | starts {c : Option Waitable} : Ages none c
  | ends {exit : HelperExit} : Ages (some .running) (some (.ended exit))

/-- A child that has ended stays for whoever waits for it. -/
theorem Ages.of_ended {exit : HelperExit} {c : Option Waitable}
    (h : Ages (some (.ended exit)) c) : c = some (.ended exit) := by
  cases h
  rfl

theorem Ages.trans {a b c : Option Waitable} (h : Ages a b) (h' : Ages b c) : Ages a c := by
  cases h with
  | stays => exact h'
  | starts => exact .starts
  | ends =>
    obtain rfl := h'.of_ended
    exact .ends

/-- What somebody who waits for a number without blocking is answered. -/
inductive Answers : Option Waitable → Except SystemError (Option HelperExit) → Prop
  | running : Answers (some .running) (.ok none)
  | ended {exit : HelperExit} : Answers (some (.ended exit)) (.ok (some exit))
  | refused {e : SystemError} : Answers none (.error e)

/-- What is left of a number once somebody has waited for it. -/
def left : Option Waitable → Option Waitable
  | some (.ended _) => none
  | c => c

/-- Who is told of no exit leaves everything as it is. -/
theorem Answers.left_eq {now : Option Waitable} {reply : Except SystemError (Option HelperExit)}
    (h : Answers now reply) (hr : ∀ exit, reply ≠ .ok (some exit)) : left now = now := by
  cases h with
  | running | refused => rfl
  | ended => exact absurd rfl (hr _)

end Waitable

open Waitable

/-- The operating system takes away a child only once it has ended, and only
    when somebody waits for it; `children` are those in the surroundings. -/
structure ReapsOnce {ε : Type} (behaviour : (call : Call) → State → ε → call.Reply × State × ε)
    (children : ε → Waitables) : Prop where
  /-- Whoever waits for a number is told how it is by then. -/
  waited : ∀ pid s e, ∃ now, Ages (children e pid) now ∧
    Answers now (behaviour (.system (.wait pid)) s e).1 ∧
    Ages (left now) (children (behaviour (.system (.wait pid)) s e).2.2 pid)
  /-- Neither the log nor a request about anything else takes it away. -/
  spared : ∀ call s e pid, call.mayReenter = false → call ≠ .system (.wait pid) →
    Ages (children e pid) (children (behaviour call s e).2.2 pid)

/-! ### Polls -/

namespace Monitor

namespace Poll

/-- A poll that finds a running child. -/
def running (pid : Int32) : Poll := ⟨pid, .ok none⟩

/-- The child that a poll reaps, if it does, and how that has ended. -/
def reaped? (poll : Poll) : Option (Int32 × HelperExit) :=
  match poll.reply with
  | .ok (some exit) => some (poll.pid, exit)
  | .ok none | .error _ => none

theorem ofCall?_cases (call : Call) :
    (∃ pid, call = .system (.wait pid)) ∨ ∀ reply, ofCall? call reply = none := by
  cases call with
  | system call =>
    cases call with
    | wait pid => exact .inl ⟨pid, rfl⟩
    | clock | spawn | signal | print => exact .inr fun _ => rfl
  | host | engine | library | log => exact .inr fun _ => rfl

end Poll

end Monitor

open Monitor

/-! ### The polls of an operation -/

/-- However it is answered, `p` calls only the log and the operating system from
    here on, and ends as `post` says of all polls, those before included. -/
def Progress.Polls {α : Type} (post : List Poll → α → Prop) : List Poll → Progress α → Prop
  | polls, .finished a _ => post polls a
  | polls, .calling call _ resume => call.mayReenter = false ∧
      ∀ reply s', (resume reply s').Polls post (polls ++ (Poll.ofCall? call reply).toList)

namespace Progress.Polls

variable {α β : Type} {p : Progress α} {polls : List Poll} {post : List Poll → α → Prop}

theorem mono {post' : List Poll → α → Prop} (hp : p.Polls post polls)
    (h : ∀ polls a, post polls a → post' polls a) : p.Polls post' polls := by
  induction p generalizing polls with
  | finished a s => exact h _ _ hp
  | calling call s resume ih => exact ⟨hp.1, fun reply s' => ih reply s' (hp.2 reply s')⟩

theorem bind {f : α → State → Progress β} {post' : List Poll → β → Prop}
    (hp : p.Polls (fun polls a => ∀ s, (f a s).Polls post' polls) polls) :
    (p.bind f).Polls post' polls := by
  induction p generalizing polls with
  | finished a s => exact hp s
  | calling call s resume ih => exact ⟨hp.1, fun reply s' => ih reply s' (hp.2 reply s')⟩

end Progress.Polls

/-- Wherever it starts and however it is answered, `m` calls only the log and the
    operating system, and `post` tells its polls and its result. -/
def Operation.Polls {α : Type} (m : Operation α) (post : List Poll → α → Prop) : Prop :=
  ∀ thread s before, (m thread s).Polls
    (fun polls a => ∃ more, polls = before ++ more ∧ post more a) before

namespace Operation.Polls

variable {α β : Type} {m : Operation α} {post : List Poll → α → Prop}

theorem mono {post' : List Poll → α → Prop} (hm : m.Polls post)
    (h : ∀ polls a, post polls a → post' polls a) : m.Polls post' := by
  intro thread s before
  refine (hm thread s before).mono ?_
  rintro _ a ⟨more, rfl, ha⟩
  exact ⟨more, rfl, h more a ha⟩

theorem pure {a : α} (h : post [] a) : (Pure.pure a : Operation α).Polls post :=
  fun _ _ before => ⟨[], (List.append_nil before).symm, h⟩

theorem bind {f : α → Operation β} {post' : List Poll → β → Prop} (hm : m.Polls post)
    (hf : ∀ polls a, post polls a → (f a).Polls fun more b => post' (polls ++ more) b) :
    (m >>= f).Polls post' := by
  intro thread s before
  refine Progress.Polls.bind ((hm thread s before).mono ?_)
  rintro _ a ⟨polls, rfl, ha⟩ s'
  refine (hf polls a ha thread s' _).mono ?_
  rintro _ b ⟨more, rfl, hb⟩
  exact ⟨polls ++ more, List.append_assoc .., hb⟩

theorem call {c : Call} (hc : c.mayReenter = false) :
    (Operation.call c).Polls fun polls reply => polls = (Poll.ofCall? c reply).toList :=
  fun _ _ _ => ⟨hc, fun reply _ => ⟨(Poll.ofCall? c reply).toList, rfl, rfl⟩⟩

/-- The log makes no poll. -/
theorem emit {level : Log.Level} {b : Log.Breadcrumbs} {message : String} :
    (Log.emit level b message).Polls fun polls _ => polls = [] := by
  intro thread s before
  simp only [Log.emit, Operation.bind_apply, Operation.state_apply, Progress.bind]
  cases s.logger.line? level b message with
  | none => exact ⟨[], (List.append_nil before).symm, rfl⟩
  | some line => exact call (c := .log line) rfl thread s before

theorem breadcrumb {area : Log.Area} {message : String} :
    (Log.breadcrumb area message).Polls fun polls _ => polls = [] := by
  unfold Log.breadcrumb Log.detail
  split
  · exact pure rfl
  · exact emit

/-- A poll waits for a number above zero, and answers with the reply. -/
theorem poll (pid : Int32) : (Helper.poll pid).Polls fun polls answer =>
    pid ≤ 0 ∧ polls = [] ∧ answer = .error .invalidInput ∨
      0 < pid ∧ ∃ reply, polls = [⟨pid, reply⟩] ∧ answer = reply.mapError .system := by
  unfold Helper.poll
  split
  · next invalid => exact pure (.inl ⟨invalid, rfl, rfl⟩)
  · next valid =>
    have valid : 0 < pid := Int32.not_le.mp valid
    refine bind (call (c := .system (.wait pid)) rfl) fun polls reply waited => ?_
    subst waited
    match reply with
    | .error e => exact pure (.inr ⟨valid, .error e, rfl, rfl⟩)
    | .ok none => exact pure (.inr ⟨valid, .ok none, rfl, rfl⟩)
    | .ok (some exit) =>
      refine bind breadcrumb fun polls _ logged => pure ?_
      subst logged
      exact .inr ⟨valid, .ok (some exit), rfl, rfl⟩

end Operation.Polls

namespace Monitor

/-! ### The search of a tick -/

/-- An entry of the list that is not found running: the poll of it, if there is
    one, and what is reported of its exit. -/
inductive NotRunning (pid : Int32) : List Poll → Option HelperExit → Prop
  /-- No process has such a number, so nobody is asked. -/
  | invalid : pid ≤ 0 → NotRunning pid [] none
  | refused {e : SystemError} : 0 < pid → NotRunning pid [⟨pid, .error e⟩] none
  | ended {exit : HelperExit} : 0 < pid → NotRunning pid [⟨pid, .ok (some exit)⟩] (some exit)

/-- The polls of a search through a list, and what it reports. -/
inductive Searched (pids : List Int32) : List Poll → Option HelperDeath → Prop
  /-- Every entry is found running. -/
  | quiet : (∀ pid ∈ pids, 0 < pid) → Searched pids (pids.map .running) none
  /-- The entries before `pid` are found running, `pid` is not, and nobody asks for
      the entries after it. -/
  | death (earlier later : List Int32) {pid : Int32} {last : List Poll}
    {exit : Option HelperExit} :
    pids = earlier ++ pid :: later → (∀ pid ∈ earlier, 0 < pid) → NotRunning pid last exit →
    Searched pids (earlier.map .running ++ last) (some ⟨pid, exit⟩)

namespace Searched

variable {pid : Int32} {pids : List Int32} {polls : List Poll} {report : Option HelperDeath}

/-- One more entry, in front, is found running. -/
theorem cons (valid : 0 < pid) (h : Searched pids polls report) :
    Searched (pid :: pids) (.running pid :: polls) report := by
  cases h with
  | quiet all => exact .quiet (List.forall_mem_cons.mpr ⟨valid, all⟩)
  | death earlier later split before found =>
    exact .death (pid :: earlier) later (by rw [split]; rfl)
      (List.forall_mem_cons.mpr ⟨valid, before⟩) found

/-- The first entry is not found running. -/
theorem of_head {last : List Poll} {exit : Option HelperExit} (h : NotRunning pid last exit) :
    Searched (pid :: pids) last (some ⟨pid, exit⟩) :=
  .death [] _ rfl (by simp) h

/-- A search reaps the child whose exit it reports, and no other. -/
theorem reaped (h : Searched pids polls report) :
    polls.filterMap Poll.reaped? =
      report.toList.filterMap fun death => death.exit.map (death.pid, ·) := by
  have none : ∀ pids : List Int32, (pids.map Poll.running).filterMap Poll.reaped? = [] := by
    intro pids
    simp [List.filterMap_map, Poll.running, Poll.reaped?, Function.comp_def]
  cases h with
  | quiet => exact none pids
  | death earlier later _ _ found =>
    rw [List.filterMap_append, none]
    cases found <;> rfl

/-- Nobody but the child whose exit is reported is reaped. -/
theorem spares (h : Searched pids polls report) (hp : ∀ exit, report ≠ some ⟨pid, some exit⟩) :
    ∀ poll ∈ polls, ∀ exit, poll.reaped? ≠ some (pid, exit) := by
  intro poll hm exit reaps
  have reported : (pid, exit) ∈ polls.filterMap Poll.reaped? :=
    List.mem_filterMap.mpr ⟨poll, hm, reaps⟩
  rw [h.reaped] at reported
  obtain ⟨death, hd, same⟩ := List.mem_filterMap.mp reported
  obtain ⟨last, hl, same⟩ := Option.map_eq_some_iff.mp same
  obtain ⟨rfl, rfl⟩ := Prod.mk.inj same
  exact hp _ ((Option.mem_toList.mp hd).trans (by rw [← hl]))

/-- All polls but the last one find a running child. -/
theorem running_of_mem_dropLast (h : Searched pids polls report) :
    ∀ poll ∈ polls.dropLast, poll.reaped? = none := by
  have running : ∀ pids : List Int32, ∀ poll ∈ pids.map Poll.running, poll.reaped? = none := by
    simp [Poll.running, Poll.reaped?]
  cases h with
  | quiet => exact fun poll hm => running _ _ (List.dropLast_subset _ hm)
  | death earlier later _ _ found =>
    intro poll hm
    refine running earlier poll ?_
    cases found with
    | invalid =>
      rw [List.append_nil] at hm
      exact List.dropLast_subset _ hm
    | refused | ended => rwa [List.dropLast_concat] at hm

end Searched

/-- A tick searches its list. -/
theorem polls_firstDeath (pids : List Int32) : (firstDeath pids).Polls (Searched pids) := by
  -- the rest of the list is searched in whatever state the first poll has left
  induction pids with
  | nil => exact .pure (.quiet (by simp))
  | cons pid rest ih =>
    rw [firstDeath]
    refine .bind (.poll pid) fun polls answer polled => ?_
    obtain ⟨invalid, rfl, rfl⟩ | ⟨valid, reply, rfl, rfl⟩ := polled
    · exact .pure (.of_head (.invalid invalid))
    · rcases reply with error | none | exit
      · exact .pure (.of_head (.refused valid))
      · exact ih.mono fun polls report searched => searched.cons valid
      · exact .pure (.of_head (.ended valid))

theorem polls_search (m : Monitor) : m.search.Polls (Searched m.pids) := by
  refine .bind (polls_firstDeath m.pids) fun polls report searched => ?_
  cases report with
  | none => exact .pure (by rwa [List.append_nil])
  | some death =>
    refine .bind .emit fun none _ logged => .pure ?_
    subst logged
    simpa using searched

/-! ### Children during polls -/

/-- What becomes of a number while polls are made. -/
inductive Tended (pid : Int32) : Option Waitable → List Poll → Option Waitable → Prop
  | aged {a b : Option Waitable} : Ages a b → Tended pid a [] b
  /-- Another number is polled. -/
  | spared {a b : Option Waitable} {poll : Poll} {rest : List Poll} :
    poll.pid ≠ pid → Tended pid a rest b → Tended pid a (poll :: rest) b
  | polled {a now b : Option Waitable} {reply : Except SystemError (Option HelperExit)}
    {rest : List Poll} : Ages a now → Answers now reply → Tended pid (left now) rest b →
    Tended pid a (⟨pid, reply⟩ :: rest) b

namespace Tended

variable {pid : Int32} {a b c : Option Waitable} {polls more : List Poll} {poll : Poll}

theorem of_ages (h : Ages a b) (h' : Tended pid b polls c) : Tended pid a polls c := by
  induction h' with
  | aged h' => exact .aged (h.trans h')
  | spared other _ ih => exact .spared other (ih h)
  | polled h' answer rest => exact .polled (h.trans h') answer rest

theorem append (h : Tended pid a polls b) (h' : Tended pid b more c) :
    Tended pid a (polls ++ more) c := by
  induction h with
  | aged h => exact h'.of_ages h
  | spared other _ ih => exact .spared other (ih h')
  | polled h answer _ ih => exact .polled h answer (ih h')

/-- A child that no poll reaps can still be waited for. -/
theorem kept (h : Tended pid a polls b)
    (spared : ∀ poll ∈ polls, ∀ exit, poll.reaped? ≠ some (pid, exit)) : Ages a b := by
  induction h with
  | aged h => exact h
  | spared _ _ ih => exact ih (List.forall_mem_cons.mp spared).2
  | polled h answer _ ih =>
    obtain ⟨first, rest⟩ := List.forall_mem_cons.mp spared
    rw [answer.left_eq fun exit reaps => first exit (by rw [reaps]; rfl)] at ih
    exact h.trans (ih rest)

/-- A poll is answered as the child is by then, where the polls before it reap
    nobody. -/
theorem seen (h : Tended pid a polls b) (spared : ∀ poll ∈ polls.dropLast, poll.reaped? = none)
    (hm : poll ∈ polls) (hp : poll.pid = pid) : ∃ now, Ages a now ∧ Answers now poll.reply := by
  induction h with
  | aged => cases hm
  | spared other _ ih =>
    rcases List.mem_cons.mp hm with rfl | hm
    · exact absurd hp other
    · rw [List.dropLast_cons_of_ne_nil (List.ne_nil_of_mem hm)] at spared
      exact ih (List.forall_mem_cons.mp spared).2 hm
  | polled h answer _ ih =>
    rcases List.mem_cons.mp hm with rfl | hm
    · exact ⟨_, h, answer⟩
    · rw [List.dropLast_cons_of_ne_nil (List.ne_nil_of_mem hm)] at spared
      obtain ⟨first, rest⟩ := List.forall_mem_cons.mp spared
      -- this poll reaps nobody, so the child is still there for the later one
      rw [answer.left_eq fun exit reaps => by rw [reaps] at first; cases first] at ih
      obtain ⟨now, later, answer⟩ := ih rest hm
      exact ⟨now, h.trans later, answer⟩

end Tended

section

variable {ε : Type} {behaviour : (call : Call) → State → ε → call.Reply × State × ε}
  {children : ε → Waitables}

/-- A call of the log or of the operating system reaps a child only by a poll. -/
theorem tended_call (hr : ReapsOnce behaviour children) {call : Call}
    (quiet : call.mayReenter = false) (s : State) (e : ε) (pid : Int32) :
    Tended pid (children e pid) (Poll.ofCall? call (behaviour call s e).1).toList
      (children (behaviour call s e).2.2 pid) := by
  by_cases waits : call = .system (.wait pid)
  · subst waits
    obtain ⟨now, before, answer, after⟩ := hr.waited pid s e
    exact .polled before answer (.aged after)
  · -- the call may still be a poll, but of another number
    have ages : Tended pid _ [] _ := .aged (hr.spared call s e pid quiet waits)
    obtain ⟨other, rfl⟩ | none := Poll.ofCall?_cases call
    · exact .spared (by rintro rfl; exact waits rfl) ages
    · rw [none]
      exact ages

/-- What polls that begin a search do to the children: nobody is taken away whom
    they do not reap, and each one is answered as the child is by then. -/
theorem Searched.spared {pids : List Int32} {polls more : List Poll}
    {report : Option HelperDeath} {before after : Waitables}
    (h : Searched pids (polls ++ more) report)
    (tended : ∀ pid, Tended pid (before pid) polls (after pid)) :
    (∀ pid, (∀ poll ∈ polls, ∀ exit, poll.reaped? ≠ some (pid, exit)) →
      Ages (before pid) (after pid)) ∧
    ∀ poll ∈ polls, ∃ now, Ages (before poll.pid) now ∧ Answers now poll.reply := by
  refine ⟨fun pid unreaped => (tended pid).kept unreaped, fun poll hm => ?_⟩
  refine (tended poll.pid).seen (fun poll hm => ?_) hm rfl
  refine h.running_of_mem_dropLast poll ?_
  cases more with
  | nil => rwa [List.append_nil]
  | cons next later =>
    rw [List.dropLast_append_of_ne_nil (List.cons_ne_nil next later)]
    exact List.mem_append_left _ (List.dropLast_subset _ hm)

end

end Monitor

/-! ### Scripted children -/

namespace Scenario.Children

/-- Waits for scripted children, and answers everything else by fixed rules. -/
def waiting (answer : (call : Call) → call.Reply) :
    (call : Call) → State → Children → call.Reply × State × Children
  | .system (.wait pid), s, c => ((c.wait pid).1, s, (c.wait pid).2)
  | call, s, c => (answer call, s, c)

variable {c : Children} {pid other : Int32}

end Scenario.Children

end CallbackBridge
