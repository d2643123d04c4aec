import CallbackBridge.Proofs.Run.Plans

/-! # What prompts an operation

    An operation is prompted when it begins and each time a call of it is
    replied to.  It then runs on at once, so whatever it does next is the very
    next moment of the history, and in between nobody else changes the state.

    Key ideas:

    1. A `Cue` is what prompted an operation last.  A `Manner` relates it to
       the next call or to the end, and knows nothing of what was before.
    2. `Progress.Heeds` checks a manner along the tree of an operation, and
       `Reaches.prompted` carries it over to adjacent moments of a run.
    3. A `Habit` is a manner that sequences of operations have as soon as
       their parts do.
    4. Calls of the log and of the operating system are replied to before anything
       else happens (`Reaches.replies_at_once`). -/

namespace CallbackBridge

open Run

/-! ### Cues -/

/-- What prompts an operation. -/
inductive Cue where
  /-- It begins. -/
  | begun (state : State)
  /-- Its call is replied to. -/
  | told (exchange : Exchange)

/-- The state at a cue. -/
def Cue.state : Cue → State
  | .begun s => s
  | .told x => x.state

/-- How an operation goes on from a cue. -/
structure Manner (α : Type) where
  /-- What it may call, and in which state. -/
  calls : Cue → Call → State → Prop
  /-- What it may result in. -/
  ends : Cue → α → State → Prop

/-- The operation that goes on after `cue` does so in a manner, now and after
    each reply.  The log and the operating system leave the state alone. -/
def Progress.Heeds {α : Type} (μ : Manner α) : Cue → Progress α → Prop
  | cue, .finished a s => μ.ends cue a s
  | cue, .calling call s resume =>
    μ.calls cue call s ∧ ∀ reply s', (call.mayReenter = false → s' = s) →
      (resume reply s').Heeds μ (.told ⟨call, reply, s'⟩)

namespace Progress.Heeds

variable {α β : Type} {p : Progress α} {cue : Cue}

theorem mono {μ ν : Manner α} (hp : p.Heeds μ cue)
    (hc : ∀ cue call s, μ.calls cue call s → ν.calls cue call s)
    (he : ∀ cue a s, μ.ends cue a s → ν.ends cue a s) : p.Heeds ν cue := by
  induction p generalizing cue with
  | finished a s => exact he _ _ _ hp
  | calling call s resume ih =>
    exact ⟨hc _ _ _ hp.1, fun reply s' hs => ih reply s' (hp.2 reply s' hs)⟩

/-- A sequence goes on in a manner if its second part does from wherever the
    first one ends. -/
theorem bind {μ : Manner β} {f : α → State → Progress β}
    (hp : p.Heeds ⟨μ.calls, fun cue a s => (f a s).Heeds μ cue⟩ cue) :
    (p.bind f).Heeds μ cue := by
  induction p generalizing cue with
  | finished a s => exact hp
  | calling call s resume ih =>
    exact ⟨hp.1, fun reply s' hs => ih reply s' (hp.2 reply s' hs)⟩

end Progress.Heeds

/-! ### Habits -/

/-- A manner that is the same for operations of all types. -/
structure Habit where
  /-- What holds from a cue to what it prompts. -/
  between : Cue → State → Prop
  /-- What an operation may call, and in which state. -/
  calls : Cue → Call → State → Prop

/-- The manner of an operation with a habit. -/
def Habit.manner (η : Habit) (α : Type) : Manner α where
  calls := η.calls
  ends cue _ s := η.between cue s

/-- `η` is a habit of `m`. -/
def Habit.Of (η : Habit) {α : Type} (m : Operation α) : Prop :=
  ∀ thread s cue, η.between cue s → (m thread s).Heeds (η.manner α) cue

namespace Habit.Of

variable {α β : Type} {η : Habit}

theorem pure (a : α) : η.Of (Pure.pure a : Operation α) :=
  fun _ _ _ h => h

theorem bind {m : Operation α} {f : α → Operation β} (hm : η.Of m) (hf : ∀ a, η.Of (f a)) :
    η.Of (m >>= f) := by
  intro thread s cue h
  refine Progress.Heeds.bind ((hm thread s cue h).mono (fun _ _ _ hc => hc) ?_)
  exact fun cue a s' h' => hf a thread s' cue h'

theorem state : η.Of Operation.state :=
  fun _ _ _ h => h

theorem thread : η.Of Operation.thread :=
  fun _ _ _ h => h

theorem modifyGet {f : State → α × State}
    (hf : ∀ cue s, η.between cue s → η.between cue (f s).2) : η.Of (Operation.modifyGet f) :=
  fun _ s cue h => hf cue s h

theorem call {c : Call} (hc : ∀ cue s, η.between cue s → η.calls cue c s)
    (hr : ∀ cue s reply s', η.between cue s → (c.mayReenter = false → s' = s) →
      η.between (.told ⟨c, reply, s'⟩) s') : η.Of (Operation.call c) :=
  fun _ s cue h => ⟨hc cue s h, fun reply s' hq => hr cue s reply s' h hq⟩

end Habit.Of

namespace Run

/-! ### Adjacent moments -/

namespace History

/-- The operation that the latest moment prompts, its thread, and the cue. -/
def cue? : History → Option (Nat × Thread × Cue)
  | ⟨.begins op thread _, s⟩ :: _ => some (op, thread, .begun s)
  | ⟨.replies op thread call reply _, s⟩ :: _ => some (op, thread, .told ⟨call, reply, s⟩)
  | _ => none

/-- The state at the latest moment of a history that goes on from `root`. -/
def lastState (root : State) (h : History) : State :=
  (h.head?.map (·.state)).getD root

theorem lastState_of_cue? {h : History} {op : Nat} {thread : Thread} {cue : Cue} {root : State}
    (hc : h.cue? = some (op, thread, cue)) : h.lastState root = cue.state := by
  unfold cue? at hc
  split at hc
  · cases hc
    rfl
  · cases hc
    rfl
  · cases hc

/-- Whoever is prompted goes on at once, in the manner of the request; the
    outside world moves only where nobody is. -/
def Prompted (μ : (q : Request) → Manner q.Result) (root : State) (m : Moment)
    (before : History) : Prop :=
  match m.event with
  | .begins .. | .replies .. => before.cue? = none ∧ m.state = before.lastState root
  | .calls op thread call => ∃ cue q s, before.cue? = some (op, thread, cue) ∧
      ⟨.begins op thread q, s⟩ ∈ before ∧ (μ q).calls cue call m.state
  | .ends op thread q result => ∃ cue s, before.cue? = some (op, thread, cue) ∧
      ⟨.begins op thread q, s⟩ ∈ before ∧ (μ q).ends cue result m.state

end History

open History

variable {μ : (q : Request) → Manner q.Result} {root : State}

/-- An operation waits that goes on in its manner whatever the reply is. -/
structure Attends (μ : (q : Request) → Manner q.Result) (h : History) (s : State) (f : Frame) :
    Prop where
  begun : ∃ s₀, ⟨.begins f.op f.thread f.request, s₀⟩ ∈ h
  ready : ∀ reply s', (f.call.mayReenter = false → s' = s) →
    (f.resume reply s').Heeds (μ f.request) (.told ⟨f.call, reply, s'⟩)

namespace Attends

variable {h : History} {s s' : State} {f : Frame} {m : Moment}

theorem later (ha : Attends μ h s f) : Attends μ (m :: h) s f :=
  ⟨ha.begun.imp fun _ hm => List.mem_cons_of_mem _ hm, ha.ready⟩

/-- A state does not matter to code that may change it. -/
theorem elsewhere (ha : Attends μ h s f) (hf : f.call.mayReenter = true) : Attends μ h s' f :=
  ⟨ha.begun, fun reply t _ => ha.ready reply t fun hq => by simp [hf] at hq⟩

end Attends

/-- All that was prompted has gone on, and the rest waits. -/
structure Prompt (μ : (q : Request) → Manner q.Result) (root : State) (c : Situation) : Prop where
  always : c.history.Always (Prompted μ root)
  idle : c.history.cue? = none
  state_eq : c.state = c.history.lastState root
  waits : ∀ f ∈ c.stack, Attends μ c.history c.state f
  loud : ∀ f ∈ c.stack.tail, f.call.mayReenter = true

/-- An operation that was prompted goes on. -/
theorem Prompt.proceed {c : Situation} {op : Nat} {thread : Thread} {q : Request}
    {p : Progress q.Result} {cue : Cue} {s₀ : State}
    (always : c.history.Always (Prompted μ root)) (hc : c.history.cue? = some (op, thread, cue))
    (hb : ⟨.begins op thread q, s₀⟩ ∈ c.history) (hp : p.Heeds (μ q) cue)
    (waits : ∀ f ∈ c.stack, Attends μ c.history c.state f)
    (loud : ∀ f ∈ c.stack, f.call.mayReenter = true) :
    Prompt μ root (c.proceed op thread q p) := by
  have older : ∀ m s f, f ∈ c.stack → Attends μ (m :: c.history) s f :=
    fun m s f hf => ((waits f hf).elsewhere (loud f hf)).later
  cases p with
  | finished result s =>
    exact ⟨⟨⟨cue, s₀, hc, hb, hp⟩, always⟩, rfl, rfl, older _ s,
      fun f hf => loud f (List.mem_of_mem_tail hf)⟩
  | calling call s resume =>
    refine ⟨⟨⟨cue, q, s₀, hc, hb, hp.1⟩, always⟩, rfl, rfl, ?_, loud⟩
    intro f hf
    rcases List.mem_cons.mp hf with rfl | hf
    · exact ⟨⟨s₀, List.mem_cons_of_mem _ hb⟩, hp.2⟩
    · exact older _ s f hf

/-- Where the tree of each request heeds its manner, all that was prompted has
    gone on whenever the outside world may move. -/
theorem Reaches.prompt {c : Situation}
    (hμ : ∀ (q : Request) thread s, (q.operation thread s).Heeds (μ q) (.begun s))
    (h : Reaches (.initial root) c) : Prompt μ root c := by
  apply h.invariant (p := Prompt μ root)
  · exact ⟨trivial, rfl, rfl, by simp [Situation.initial], by simp [Situation.initial]⟩
  · intro d e move hd step
    cases step with
    | @start thread q ha =>
      have loud : ∀ f ∈ d.stack, f.call.mayReenter = true := by
        intro f hf
        cases hs : d.stack with
        | nil => simp [hs] at hf
        | cons g below =>
          rcases List.mem_cons.mp (hs ▸ hf) with rfl | hf
          · exact ha f (by simp [hs])
          · exact hd.loud f (by simp [hs, hf])
      exact Prompt.proceed (c := d.note (.begins d.history.begun thread q))
        ⟨⟨hd.idle, hd.state_eq⟩, hd.always⟩ rfl (List.mem_cons_self ..) (hμ q thread d.state)
        (fun f hf => (hd.waits f hf).later) loud
    | @reply f r hf =>
      have waiting := hd.waits f (List.mem_of_mem_head? hf)
      obtain ⟨s₀, hb⟩ := waiting.begun
      exact Prompt.proceed (c := d.answered f r) ⟨⟨hd.idle, hd.state_eq⟩, hd.always⟩ rfl
        (List.mem_cons_of_mem _ hb) (waiting.ready r d.state fun _ => rfl)
        (fun g hg => (hd.waits g (List.mem_of_mem_tail hg)).later) hd.loud

/-- Adjacent moments of a run heed the manner, too. -/
theorem Reaches.prompted {c : Situation}
    (hμ : ∀ (q : Request) thread s, (q.operation thread s).Heeds (μ q) (.begun s))
    (h : Reaches (.initial root) c) : c.history.Always (Prompted μ root) :=
  (h.prompt hμ).always

/-- The habits of requests show in adjacent moments. -/
theorem Reaches.habitual {c : Situation} {η : Request → Habit}
    (hη : ∀ q, (η q).Of q.operation) (hs : ∀ q s, (η q).between (.begun s) s)
    (h : Reaches (.initial root) c) :
    c.history.Always (Prompted (fun q => (η q).manner q.Result) root) :=
  h.prompted fun q thread s => hη q thread s _ (hs q s)

/-! ### Calls that are replied to at once -/

/-- If the last thing that has happened is a call, the innermost operation waits
    in it. -/
def Situation.Waits (c : Situation) : Prop :=
  ∀ op thread call s, c.history.head? = some ⟨.calls op thread call, s⟩ →
    ∃ f ∈ c.stack.head?, f.op = op ∧ f.thread = thread ∧ f.call = call

theorem Situation.proceed_waits {c : Situation} {op : Nat} {thread : Thread} {q : Request}
    {p : Progress q.Result} (atOnce : c.history.RepliesAtOnce)
    (prompted : ∀ op thread call s, c.history.head? ≠ some ⟨.calls op thread call, s⟩) :
    (c.proceed op thread q p).history.RepliesAtOnce ∧ (c.proceed op thread q p).Waits := by
  cases p with
  | finished result s =>
    refine ⟨⟨fun _ _ _ _ hd => (prompted _ _ _ _ hd).elim, atOnce⟩, fun _ _ _ _ hd => ?_⟩
    cases hd
  | calling call s resume =>
    refine ⟨⟨fun _ _ _ _ hd => (prompted _ _ _ _ hd).elim, atOnce⟩, fun _ _ _ _ hd => ?_⟩
    cases hd
    exact ⟨_, rfl, rfl, rfl, rfl⟩

/-- Nobody uses the bridge while a line is with the log sink, nor during a request to
    the operating system: that is what is assumed of all runs. -/
theorem Reaches.replies_at_once {c : Situation} (h : Reaches (.initial root) c) :
    c.history.RepliesAtOnce := by
  suffices all : c.history.RepliesAtOnce ∧ c.Waits from all.1
  refine h.invariant (p := fun c => c.history.RepliesAtOnce ∧ c.Waits)
    ⟨trivial, fun _ _ _ _ hd => by cases hd⟩ fun {d _ _} ⟨atOnce, waits⟩ step => ?_
  cases step with
  | @start thread q admits =>
    refine Situation.proceed_waits (c := d.note (.begins _ thread q))
      ⟨fun op thread call s hd quiet => ?_, atOnce⟩ fun _ _ _ _ hd => by cases hd
    obtain ⟨f, hf, -, -, rfl⟩ := waits op thread call s hd
    simp [admits f hf] at quiet
  | @reply f r hf =>
    refine Situation.proceed_waits (c := d.answered f r)
      ⟨fun op thread call s hd _ => ?_, atOnce⟩ fun _ _ _ _ hd => by cases hd
    obtain ⟨f', hf', rfl, rfl, rfl⟩ := waits op thread call s hd
    obtain rfl : f = f' := Option.some.inj (hf.symm.trans hf')
    exact ⟨r, _, rfl⟩

end Run

end CallbackBridge
