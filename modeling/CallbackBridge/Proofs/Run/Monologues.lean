import CallbackBridge.Proofs.Run.Plans

/-! # Operations that only speak to the log

    Some operations call nothing but the log sink, which starts nothing and
    leaves the state alone.  So nothing comes between such an operation and its
    end, and all of it can be told from the state in which it begins.

    Key ideas:

    1. `Progress.Speaks` lists the lines of such an operation with the states
       in which they are handed over, and says how it ends.
    2. In a run these are the next moments, as far as the sink has taken the
       lines (`Reaches.unfolds`). -/

namespace CallbackBridge

open Run

/-! ### Speaking -/

/-- An operation hands the lines `said` to the sink, each in its state, and
    then ends with `result` in `s`. -/
inductive Progress.Speaks {α : Type} (result : α) (s : State) :
    Progress α → List (Log.Line × State) → Prop
  | ends : Speaks result s (.finished result s) []
  | line {line : Log.Line} {t : State} {resume : (Call.log line).Reply → State → Progress α}
      {said : List (Log.Line × State)} :
    Speaks result s (resume () t) said →
    Speaks result s (.calling (.log line) t resume) ((line, t) :: said)

/-- A sequence says what its parts say. -/
theorem Progress.Speaks.bind {α β : Type} {p : Progress α} {f : α → State → Progress β} {a : α}
    {b : β} {s s' : State} {said more : List (Log.Line × State)} (hp : p.Speaks a s said)
    (hf : (f a s).Speaks b s' more) : (p.bind f).Speaks b s' (said ++ more) := by
  induction hp with
  | ends => exact hf
  | line _ ih => exact .line ih

theorem Progress.Speaks.then_ends {α β : Type} {p : Progress α} {f : α → State → Progress β}
    {a : α} {b : β} {s s' : State} {said : List (Log.Line × State)} (hp : p.Speaks a s said)
    (hf : f a s = .finished b s') : (p.bind f).Speaks b s' said := by
  have more : (f a s).Speaks b s' [] := hf ▸ .ends
  simpa using hp.bind more

/-- Its result is planned. -/
theorem Progress.Speaks.follows {α : Type} {p : Progress α} {a : α} {s : State}
    {said : List (Log.Line × State)} {told : List Exchange} (hp : p.Speaks a s said) :
    p.Follows ⟨fun _ _ _ => True, fun _ result s' => result = a ∧ s' = s⟩ told := by
  induction hp with
  | ends => exact ⟨rfl, rfl⟩
  | line _ ih =>
    refine ⟨trivial, fun reply s' hq => ?_⟩
    obtain rfl := hq rfl
    exact ih

/-- The line that reaches the sink in a state, if one does, with that state. -/
def Log.said (s : State) (level : Log.Level) (b : Log.Breadcrumbs) (message : String) :
    List (Log.Line × State) :=
  ((s.logger.line? level b message).map (·, s)).toList

theorem Log.state_of_mem_said {level : Log.Level} {b : Log.Breadcrumbs} {message : String}
    {s : State} {x : Log.Line × State} (hx : x ∈ Log.said s level b message) : x.2 = s := by
  obtain ⟨_, -, rfl⟩ := Option.map_eq_some_iff.mp (Option.mem_toList.mp hx)
  rfl

theorem Log.emit_speaks {level : Log.Level} {b : Log.Breadcrumbs} {message : String}
    {thread : Thread} {s : State} :
    (Log.emit level b message thread s).Speaks () s (Log.said s level b message) := by
  simp only [Log.emit, Operation.bind_apply, Operation.state_apply, Progress.bind, Log.said]
  cases s.logger.line? level b message with
  | none => exact .ends
  | some line => exact .line .ends

namespace Run

/-! ### Monologues -/

/-- The moments at which `op` hands lines to the sink, first one first. -/
def speech (op : Nat) (thread : Thread) (said : List (Log.Line × State)) : List Moment :=
  said.flatMap fun x =>
    [⟨.calls op thread (.log x.1), x.2⟩, ⟨.replies op thread (.log x.1) () none, x.2⟩]

/-- All moments of an operation that only speaks, but for its beginning. -/
def monologue (op : Nat) (thread : Thread) (q : Request) (said : List (Log.Line × State))
    (result : q.Result) (s : State) : List Moment :=
  speech op thread said ++ [⟨.ends op thread q result, s⟩]

variable {op : Nat} {thread : Thread} {q : Request} {result : q.Result} {s : State}

@[simp] theorem speech_append {said more : List (Log.Line × State)} :
    speech op thread (said ++ more) = speech op thread said ++ speech op thread more :=
  List.flatMap_append

@[simp] theorem speech_cons {line : Log.Line} {more : List (Log.Line × State)} :
    speech op thread ((line, s) :: more) =
      ⟨.calls op thread (.log line), s⟩ :: ⟨.replies op thread (.log line) () none, s⟩ ::
        speech op thread more := rfl

/-- Nothing begins in a monologue, and all of it belongs to its operation. -/
theorem of_mem_monologue {said : List (Log.Line × State)} {m : Moment}
    (hm : m ∈ monologue op thread q said result s) :
    m.event.isBegin = false ∧ m.event.op = op := by
  rcases List.mem_append.mp hm with hm | hm
  · obtain ⟨x, -, hm⟩ := List.mem_flatMap.mp hm
    simp only [List.mem_cons, List.not_mem_nil, or_false] at hm
    rcases hm with rfl | rfl <;> exact ⟨rfl, rfl⟩
  · obtain rfl := List.mem_singleton.mp hm
    exact ⟨rfl, rfl⟩

/-- What came `later` than the beginning of `op` begins with `block`, as far as
    the sink has taken the lines of `op`. -/
def Situation.Unfolds (c : Situation) (op : Nat) (later : History) (block : List Moment) :
    Prop :=
  block <+: later.reverse ∨
    later.reverse <+: block ∧ ∃ f ∈ c.stack.head?, f.op = op ∧ ∃ line, f.call = .log line

/-- What came `later` than the beginning of `op` is its whole monologue, and
    maybe more, or `op` waits for the sink to take one of its lines. -/
inductive Speaking (c : Situation) (op : Nat) (thread : Thread) (q : Request)
    (result : q.Result) (s : State) (said : List (Log.Line × State)) (later : History) : Prop
  | ended : monologue op thread q said result s <+: later.reverse →
    Speaking c op thread q result s said later
  | waits {before more : List (Log.Line × State)} {line : Log.Line}
      {resume : (Call.log line).Reply → State → Progress q.Result} :
    said = before ++ (line, c.state) :: more →
    c.stack.head? = some ⟨op, thread, q, .log line, resume⟩ →
    later.reverse = speech op thread before ++ [⟨.calls op thread (.log line), c.state⟩] →
    (resume () c.state).Speaks result s more →
    Speaking c op thread q result s said later

namespace Speaking

variable {c : Situation} {later : History} {said : List (Log.Line × State)}

theorem unfolds (h : Speaking c op thread q result s said later) :
    c.Unfolds op later (monologue op thread q said result s) := by
  cases h with
  | ended h => exact .inl h
  | @waits before more line resume hsaid hf hl _ =>
    refine .inr ⟨?_, _, hf, rfl, line, rfl⟩
    rw [hl, hsaid, monologue, speech_append, speech_cons, List.append_assoc]
    exact (List.prefix_append_right_inj _).mpr ⟨_, rfl⟩

/-- An operation has said `before` and goes on with `p`: now it has ended, or it
    waits for the sink again. -/
theorem proceed (later : History) (before : List (Log.Line × State)) {earlier : History}
    {more : List (Log.Line × State)} {p : Progress q.Result} (hp : p.Speaks result s more)
    (hc : c.history = later ++ earlier)
    (hl : later.reverse = speech op thread before) :
    ∃ later', (c.proceed op thread q p).history = later' ++ earlier ∧
      Speaking (c.proceed op thread q p) op thread q result s (before ++ more) later' := by
  cases hp with
  | ends =>
    refine ⟨⟨.ends op thread q result, s⟩ :: later, congrArg (_ :: ·) hc, .ended ?_⟩
    simp [monologue, hl]
  | @line line t resume rest hs =>
    refine ⟨⟨.calls op thread (.log line), t⟩ :: later, congrArg (_ :: ·) hc, ?_⟩
    exact .waits rfl rfl (by rw [List.reverse_cons, hl]; rfl) hs

/-- What has been said in full has been said for good. -/
theorem of_ended {d : Situation} (new : History)
    (h : monologue op thread q said result s <+: later.reverse) :
    Speaking d op thread q result s said (new ++ later) := by
  refine .ended ?_
  rw [List.reverse_append]
  exact h.trans (List.prefix_append ..)

end Speaking

/-- Every operation of a history that only speaks is speaking, or it has
    ended. -/
def Uttered (c : Situation) : Prop :=
  ∀ {op thread q s₀ earlier said} {result : q.Result} {s : State},
    ⟨.begins op thread q, s₀⟩ :: earlier <:+ c.history →
    (q.operation thread s₀).Speaks result s said →
    ∃ later, c.history = later ++ ⟨.begins op thread q, s₀⟩ :: earlier ∧
      Speaking c op thread q result s said later

namespace Uttered

variable {c : Situation}

theorem history_proceed (c : Situation) (op : Nat) (thread : Thread) (p : Progress q.Result) :
    ∃ m, (c.proceed op thread q p).history = m :: c.history ∧ m.event.isBegin = false := by
  cases p <;> exact ⟨_, rfl, rfl⟩

theorem start (hc : Uttered c) (ha : c.Admits) : Uttered (c.start thread q) := by
  intro op' thread' q' s₀ earlier said result s hsuffix hsp
  let begun : Moment := ⟨.begins c.history.begun thread q, c.state⟩
  obtain ⟨m, hm, hb⟩ := history_proceed (c.note begun.event) c.history.begun thread
    (q.operation thread c.state)
  rw [Situation.start, hm] at hsuffix
  -- the operation is the one that has just begun, or an older one
  rcases List.suffix_cons_iff.mp hsuffix with heq | hsuffix
  · rw [← (List.cons.inj heq).1] at hb
    cases hb
  rcases List.suffix_cons_iff.mp hsuffix with heq | hsuffix
  · cases heq
    exact Speaking.proceed (c := c.note begun.event) [] [] hsp rfl rfl
  · obtain ⟨later, hlater, hspeaking⟩ := hc hsuffix hsp
    refine ⟨m :: begun :: later, by rw [Situation.start, hm, Situation.note, hlater]; rfl, ?_⟩
    cases hspeaking with
    | ended h => exact .of_ended [m, begun] h
    | waits _ hf _ _ =>
      -- nothing starts while the sink is called
      have quiet := ha _ hf
      cases quiet

theorem reply {f : Frame} {r : f.call.Reply} (hc : Uttered c) (hf : f ∈ c.stack.head?) :
    Uttered (c.reply f r) := by
  intro op' thread' q' s₀ earlier said result s hsuffix hsp
  obtain ⟨m, hm, hb⟩ := history_proceed (c.answered f r) f.op f.thread (f.resume r c.state)
  let replied : Moment :=
    replyMoment f.op f.thread (fun _ _ => none) f.call f.resume r c.state
  rw [Situation.reply, hm] at hsuffix
  rcases List.suffix_cons_iff.mp hsuffix with heq | hsuffix
  · rw [← (List.cons.inj heq).1] at hb
    cases hb
  rcases List.suffix_cons_iff.mp hsuffix with heq | hsuffix
  · cases heq
  obtain ⟨later, hlater, hspeaking⟩ := hc hsuffix hsp
  cases hspeaking with
  | ended h =>
    refine ⟨m :: replied :: later, by rw [Situation.reply, hm, Situation.answered, hlater]; rfl, ?_⟩
    exact .of_ended [m, replied] h
  | @waits before more line resume hsaid hf' hl hmore =>
    obtain rfl := Option.some.inj (hf'.symm.trans hf)
    -- the sink has taken the line
    rw [hsaid, List.append_cons]
    refine Speaking.proceed (replied :: later) _ hmore ?_ ?_
    · rw [Situation.answered, hlater]
      rfl
    · rw [List.reverse_cons, hl, speech_append, List.append_assoc]
      rfl

end Uttered

/-- What an operation that only speaks does is what happens next. -/
theorem Reaches.unfolds {root : State} {c : Situation} (h : Reaches (.initial root) c)
    {later earlier : History} {s₀ : State} {said : List (Log.Line × State)}
    (heq : c.history = later ++ ⟨.begins op thread q, s₀⟩ :: earlier)
    (hsp : (q.operation thread s₀).Speaks result s said) :
    c.Unfolds op later (monologue op thread q said result s) := by
  have uttered : Uttered c := by
    refine h.invariant (p := Uttered) (fun hsuffix => ?_) ?_
    · cases List.suffix_nil.mp hsuffix
    · intro d e move hd step
      cases step with
      | start ha => exact hd.start ha
      | reply hf => exact hd.reply hf
  obtain ⟨later', heq', hspeaking⟩ := uttered (heq ▸ List.suffix_append ..) hsp
  obtain rfl : later' = later := List.append_cancel_right (heq'.symm.trans heq)
  exact hspeaking.unfolds

end Run

end CallbackBridge
