import CallbackBridge.Run.History

/-! # Situations

    Between two moves of the outside world the bridge is in a situation: a
    state, the operations that wait in a call, and the history so far.

    Key ideas:

    1. The outside world has two moves.  It starts a request, or it replies to
       the call that was made last.  The bridge then runs on by itself to its
       next call, or to the end of the operation.
    2. While a call is open, only the foreign code that was called can start
       requests, on its own thread or by way of another one that it waits for,
       and only where it may use the bridge again: not while a line is with the log
       sink, nor during a request to the operating system.
    3. A path is a list of moves, and the moves decide what happens.  What the
       outside world has to keep to is said of the history.
    4. An operation attaches its thread in order to do something with it.
       Where that is to give back a last reference and the host refuses, the
       reference is lost, and the history says so. -/

namespace CallbackBridge.Run

/-! ### Situations -/

/-- An operation that waits in a call. -/
structure Frame where
  /-- Its number. -/
  op : Nat
  /-- The thread that it runs on. -/
  thread : Thread
  /-- What it was asked to do. -/
  request : Request
  /-- The call it waits in. -/
  call : Call
  /-- How it goes on. -/
  resume : call.Reply → State → Progress request.Result

/-- The reference that an operation gives back with its next call.  Where it
    finishes without one, `after` goes on. -/
def upcoming? {α : Type} (after : α → State → Option HostObject) :
    Progress α → Option HostObject
  | .finished a s => after a s
  | .calling call _ _ => History.unpinned? call

/-- The reference that a reply leaves pinned for good: the host refuses to
    attach the thread, and `next` is what the operation would have given back
    next had the thread been attached. -/
def lostBy? : (call : Call) → (next : call.Reply → State → Option HostObject) →
    call.Reply → State → Option HostObject
  | .host .attach, next, status, s =>
    match AttachState.ofStatus status with
    | .ok _ => none
    | .error _ => next 0 s
  | _, _, _, _ => none

/-- The moment of a reply. -/
def replyMoment {α : Type} (op : Nat) (thread : Thread) (after : α → State → Option HostObject)
    (call : Call) (resume : call.Reply → State → Progress α) (r : call.Reply) (s : State) :
    Moment :=
  ⟨.replies op thread call r (lostBy? call (fun r s => upcoming? after (resume r s)) r s), s⟩

/-- Where a run has come to. -/
structure Situation where
  /-- The state of the bridge. -/
  state : State
  /-- The operations that wait in a call, innermost first. -/
  stack : List Frame
  /-- What has happened. -/
  history : History

namespace Situation

/-- A situation in which nothing has happened yet. -/
def initial (s : State) : Situation := ⟨s, [], []⟩

/-- No operation is in progress. -/
def AtRest (c : Situation) : Prop := c.stack = []

/-- A request may be started. -/
def Admits (c : Situation) : Prop :=
  ∀ f ∈ c.stack.head?, f.call.mayReenter = true

/-- Adds an event, in the state that the bridge is in. -/
def note (c : Situation) (e : Event) : Situation :=
  { c with history := ⟨e, c.state⟩ :: c.history }

/-- Runs an operation on, to its next call or to its end. -/
def proceed (c : Situation) (op : Nat) (thread : Thread) (q : Request) :
    Progress q.Result → Situation
  | .finished result s => { c with state := s }.note (.ends op thread q result)
  | .calling call s resume =>
    { c with state := s, stack := ⟨op, thread, q, call, resume⟩ :: c.stack }.note
      (.calls op thread call)

/-- A request is started. -/
def start (c : Situation) (thread : Thread) (q : Request) : Situation :=
  let op := c.history.begun
  (c.note (.begins op thread q)).proceed op thread q (q.operation thread c.state)

/-- The reply `r` to the call of `f`, the innermost one, has come in. -/
def answered (c : Situation) (f : Frame) (r : f.call.Reply) : Situation :=
  { c with
    stack := c.stack.tail
    history :=
      replyMoment f.op f.thread (fun _ _ => none) f.call f.resume r c.state :: c.history }

/-- The call of `f`, the innermost one, is replied to. -/
def reply (c : Situation) (f : Frame) (r : f.call.Reply) : Situation :=
  (c.answered f r).proceed f.op f.thread f.request (f.resume r c.state)

theorem AtRest.admits {c : Situation} (rest : c.AtRest) : c.Admits := by
  rw [AtRest] at rest
  simp [Admits, rest]

end Situation

/-! ### Paths -/

/-- A move of the outside world. -/
inductive Move where
  | start (thread : Thread) (request : Request)
  | reply (call : Call) (reply : call.Reply)

/-- What a move leads to. -/
inductive Step : Situation → Move → Situation → Prop
  | start {c : Situation} {thread : Thread} {q : Request} :
    c.Admits → Step c (.start thread q) (c.start thread q)
  | reply {c : Situation} {f : Frame} {r : f.call.Reply} :
    f ∈ c.stack.head? → Step c (.reply f.call r) (c.reply f r)

/-- What a list of moves leads to, first one first. -/
inductive Path (c : Situation) : List Move → Situation → Prop
  | refl : Path c [] c
  | snoc {moves : List Move} {move : Move} {d e : Situation} :
    Path c moves d → Step d move e → Path c (moves ++ [move]) e

theorem Step.path {c d : Situation} {move : Move} (h : Step c move d) : Path c [move] d :=
  Path.refl.snoc h

/-- What a move leads to is decided. -/
theorem Step.unique {c d d' : Situation} {move : Move} (h : Step c move d)
    (h' : Step c move d') : d = d' := by
  cases h with
  | start => cases h' with | start => rfl
  | @reply f r hf =>
    generalize hm : Move.reply f.call r = move at h'
    cases h' with
    | start => cases hm
    | @reply f' r' hf' =>
      obtain rfl : f = f' := Option.some.inj (hf.symm.trans hf')
      cases hm
      rfl

namespace Path

variable {c d d' e : Situation} {moves moves' : List Move} {move : Move}

theorem append (h : Path c moves d) (h' : Path d moves' e) : Path c (moves ++ moves') e := by
  induction h' with
  | refl => rwa [List.append_nil]
  | snoc _ step ih =>
    rw [← List.append_assoc]
    exact ih.snoc step

theorem eq_of_nil (h : Path c [] d) : d = c := by
  generalize hm : [] = moves at h
  cases h with
  | refl => rfl
  | snoc => simp at hm

theorem of_snoc (h : Path c (moves ++ [move]) e) : ∃ d, Path c moves d ∧ Step d move e := by
  generalize hm : moves ++ [move] = all at h
  cases h with
  | refl => simp at hm
  | snoc path step =>
    obtain ⟨rfl, heq⟩ := List.append_inj' hm rfl
    cases heq
    exact ⟨_, path, step⟩

/-- So is what a list of moves leads to. -/
theorem unique (h : Path c moves d) (h' : Path c moves d') : d = d' := by
  induction h generalizing d' with
  | refl => exact h'.eq_of_nil.symm
  | snoc _ step ih =>
    obtain ⟨e, path, step'⟩ := h'.of_snoc
    obtain rfl := ih path
    exact step.unique step'

end Path

/-- Some moves lead from `c` to `d`. -/
def Reaches (c d : Situation) : Prop :=
  ∃ moves, Path c moves d

namespace Reaches

theorem refl (c : Situation) : Reaches c c := ⟨[], .refl⟩

theorem tail {c d e : Situation} {move : Move} (h : Reaches c d) (s : Step d move e) :
    Reaches c e :=
  h.elim fun moves path => ⟨moves ++ [move], path.snoc s⟩

theorem trans {c d e : Situation} (h : Reaches c d) (k : Reaches d e) : Reaches c e := by
  obtain ⟨moves, path⟩ := h
  obtain ⟨moves', path'⟩ := k
  exact ⟨moves ++ moves', path.append path'⟩

/-- `p` holds wherever moves lead from `c`, if it holds there and each step
    keeps it. -/
theorem invariant {c d : Situation} {p : Situation → Prop} (h : Reaches c d) (base : p c)
    (step : ∀ {d e : Situation} {move : Move}, p d → Step d move e → p e) : p d := by
  obtain ⟨moves, path⟩ := h
  induction path with
  | refl => exact base
  | snoc _ s ih => exact step ih s

end Reaches

/-! ### Playing moves -/

namespace Situation

instance (c : Situation) : Decidable c.Admits :=
  inferInstanceAs (Decidable (∀ f ∈ c.stack.head?, f.call.mayReenter = true))

/-- Makes a move, where it can be made. -/
def move? (c : Situation) : Move → Option Situation
  | .start thread q => if c.Admits then some (c.start thread q) else none
  | .reply call r =>
    match c.stack.head? with
    | none => none
    | some f => if h : f.call = call then some (c.reply f (h ▸ r)) else none

/-- Makes some moves, first one first. -/
def play? (c : Situation) : List Move → Option Situation
  | [] => some c
  | move :: rest => (c.move? move).bind (·.play? rest)

theorem step_of_move? {c d : Situation} {move : Move} (h : c.move? move = some d) :
    Step c move d := by
  cases move with
  | start thread q =>
    simp only [move?, Option.ite_none_right_eq_some, Option.some.injEq] at h
    obtain ⟨ha, rfl⟩ := h
    exact .start ha
  | reply call r =>
    unfold move? at h
    cases hf : c.stack.head? with
    | none => simp [hf] at h
    | some f =>
      simp only [hf, Option.dite_none_right_eq_some, Option.some.injEq] at h
      obtain ⟨rfl, rfl⟩ := h
      exact .reply hf

theorem path_of_play? {c d : Situation} {moves : List Move} (h : c.play? moves = some d) :
    Path c moves d := by
  induction moves generalizing c with
  | nil =>
    obtain rfl := Option.some.inj h
    exact .refl
  | cons move rest ih =>
    obtain ⟨e, hm, hr⟩ := Option.bind_eq_some_iff.mp h
    exact (step_of_move? hm).path.append (ih hr)

theorem reaches_of_play? {c d : Situation} {moves : List Move} (h : c.play? moves = some d) :
    Reaches c d :=
  ⟨moves, path_of_play? h⟩

theorem path_get_play? {c : Situation} {moves : List Move} (h : (c.play? moves).isSome) :
    Path c moves ((c.play? moves).get h) :=
  path_of_play? (Option.some_get h).symm

theorem reaches_get_play? {c : Situation} {moves : List Move} (h : (c.play? moves).isSome) :
    Reaches c ((c.play? moves).get h) :=
  reaches_of_play? (Option.some_get h).symm

end Situation

/-! ### Foreign code that only replies -/

/-- Where foreign code only replies, an operation that has come to `p` goes
    the way of its run: to the same result in the same state, with nothing
    more in progress than before it began.  What each reply keeps true of the
    surroundings and the history, `I`, is true in the end. -/
theorem reaches_of_run {ε : Type} (answer : (c : Call) → State → ε → c.Reply × ε)
    (I : ε → History → Prop) (op : Nat) (thread : Thread) (q : Request) (p : Progress q.Result)
    (c : Situation) (e : ε)
    (replies : ∀ call s e h lost, I e h → I (answer call s e).2
      (⟨.replies op thread call (answer call s e).1 lost, s⟩ :: ⟨.calls op thread call, s⟩ :: h))
    (ends : ∀ result s e h, I e h → I e (⟨.ends op thread q result, s⟩ :: h))
    (holds : I e c.history) :
    let (result, s, e') :=
      p.run (fun call s e => ((answer call s e).1, s, (answer call s e).2)) e
    ∃ d, Reaches (c.proceed op thread q p) d ∧ d.state = s ∧ d.stack = c.stack ∧
      d.history.head? = some ⟨.ends op thread q result, s⟩ ∧ I e' d.history := by
  induction p generalizing c e with
  | finished result s => exact ⟨_, .refl _, rfl, rfl, rfl, ends _ _ _ _ holds⟩
  | calling call s resume ih =>
    let waiting := c.proceed op thread q (.calling call s resume)
    let f : Frame := ⟨op, thread, q, call, resume⟩
    let r := (answer call s e).1
    have replied : Step waiting (.reply call r) (waiting.reply f r) :=
      @Step.reply waiting f r rfl
    obtain ⟨d, path, state, stack, last, kept⟩ :=
      ih r s (waiting.answered f r) (answer call s e).2 (replies call s e _ _ holds)
    exact ⟨d, ((Reaches.refl _).tail replied).trans path, state, stack, last, kept⟩

end CallbackBridge.Run
