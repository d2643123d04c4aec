import CallbackBridge.Proofs.Run.Plans

/-! # Operations nested in calls

    While an operation waits in a call, only operations that are nested in the
    call run, and all of them have ended by the reply.  What every operation
    brings about from its beginning to its end may therefore be relied on from
    a call to its reply.

    Key ideas:

    1. A `Nesting` says what holds whenever operations may begin, what an
       operation brings about as a whole, and which law each moment keeps to.
    2. `Nests` follows one operation from call to call.  At a reply it knows
       what the operations in between have brought about, and that none of the
       events in between is its own.
    3. `Nested` says the same of a stack: each operation is nested in the call
       that the one below it waits in.  `Reaches.nested` is the induction over
       moves. -/

namespace CallbackBridge.Run

open History

/-! ### Stretches of a history -/

/-- What a function of the history reads off the events of one operation is not
    changed by later events of others. -/
theorem History.unchanged {α : Type} {f : History → α} {op : Nat} {later h : History}
    (hf : ∀ m before, m.event.op ≠ op → f (m :: before) = f before)
    (hl : ∀ m ∈ later, m.event.op ≠ op) : f (later ++ h) = f h := by
  induction later with
  | nil => rfl
  | cons m later ih =>
    obtain ⟨hm, hl⟩ := List.forall_mem_cons.mp hl
    rw [List.cons_append, hf m _ hm, ih hl]

/-- `h` goes on from `k` with events of operations from number `op` on. -/
def Since (op : Nat) (k h : History) : Prop :=
  ∃ later, h = later ++ k ∧ ∀ m ∈ later, op ≤ m.event.op

namespace Since

variable {op op' : Nat} {k h h' : History} {m : Moment}

theorem refl (op : Nat) (h : History) : Since op h h := ⟨[], rfl, by simp⟩

theorem trans (hk : Since op k h) (hh : Since op h h') : Since op k h' := by
  obtain ⟨later, rfl, hl⟩ := hk
  obtain ⟨later', rfl, hl'⟩ := hh
  exact ⟨later' ++ later, (List.append_assoc ..).symm, fun m hm =>
    (List.mem_append.mp hm).elim (hl' m) (hl m)⟩

theorem mono (hle : op' ≤ op) (hk : Since op k h) : Since op' k h :=
  hk.imp fun _ hx => ⟨hx.1, fun m hm => Nat.le_trans hle (hx.2 m hm)⟩

theorem cons (hk : Since op k h) (hm : op ≤ m.event.op) : Since op k (m :: h) := by
  obtain ⟨later, rfl, hl⟩ := hk
  exact ⟨m :: later, rfl, List.forall_mem_cons.mpr ⟨hm, hl⟩⟩

theorem suffix (hk : Since op k h) : k <:+ h := by
  obtain ⟨later, rfl, -⟩ := hk
  exact List.suffix_append ..

theorem begun_le (hk : Since op k h) : k.begun ≤ h.begun := by
  obtain ⟨later, rfl, -⟩ := hk
  rw [History.begun, History.begun, List.countP_append]
  exact Nat.le_add_left ..

/-- Nor is it changed by operations that began after that one. -/
theorem unchanged {α : Type} {f : History → α} (hk : Since (op + 1) k h)
    (hf : ∀ m before, m.event.op ≠ op → f (m :: before) = f before) : f h = f k := by
  obtain ⟨later, rfl, hl⟩ := hk
  exact History.unchanged hf fun m hm => Nat.ne_of_gt (hl m hm)

end Since

/-! ### Nestings -/

/-- What operations rely on and what they bring about. -/
structure Nesting where
  /-- What holds whenever an operation may begin. -/
  holds : State → History → Prop
  /-- What an operation brings about from its beginning to its end. -/
  spans : State → History → State → History → Prop
  /-- What the outside world keeps to at a moment. -/
  conduct : Moment → History → Prop
  /-- What each moment keeps to. -/
  law : Moment → History → Prop
  spans_refl : ∀ s h, spans s h s h
  spans_trans : ∀ {s h s' h' s'' h''}, spans s h s' h' → spans s' h' s'' h'' → spans s h s'' h''

namespace Nesting

/-- What may have happened while operation `op` waited in `call`, from the
    moment of the call on. -/
structure Open (ν : Nesting) (op : Nat) (call : Call) (s : State) (h : History) (s' : State)
    (h' : History) : Prop where
  since : Since (op + 1) h h'
  spans : ν.spans s h s' h'
  /-- The log and the operating system start nothing. -/
  quiet : call.mayReenter = false → s' = s ∧ h' = h
  holds : call.mayReenter = true → ν.holds s' h'

end Nesting

variable {α β : Type} {ν : Nesting} {op : Nat} {thread : Thread}

/-- Operation `op` goes on by the law and lets others begin only where they may;
    `post` holds where it finishes. -/
def Nests (ν : Nesting) (op : Nat) (thread : Thread) (post : α → State → History → Prop) :
    Progress α → History → Prop
  | .finished a s, h => post a s h
  | .calling call s resume, h =>
    ν.law ⟨.calls op thread call, s⟩ h ∧
    (call.mayReenter = true → ν.holds s (⟨.calls op thread call, s⟩ :: h)) ∧
    ∀ r s' h' lost, ν.Open op call s (⟨.calls op thread call, s⟩ :: h) s' h' →
      ν.conduct ⟨.replies op thread call r lost, s'⟩ h' →
      ν.law ⟨.replies op thread call r lost, s'⟩ h' ∧
      Nests ν op thread post (resume r s') (⟨.replies op thread call r lost, s'⟩ :: h')

namespace Nests

variable {post post' : α → State → History → Prop} {p : Progress α} {h : History}

theorem mono (hp : Nests ν op thread post p h)
    (himp : ∀ a s h', post a s h' → post' a s h') : Nests ν op thread post' p h := by
  induction p generalizing h with
  | finished a s => exact himp _ _ _ hp
  | calling call s resume ih =>
    obtain ⟨hlaw, hholds, hr⟩ := hp
    refine ⟨hlaw, hholds, fun r s' h' lost ho hc => ?_⟩
    exact (hr r s' h' lost ho hc).imp_right (ih r s')

theorem and (hp : Nests ν op thread post p h) (hp' : Nests ν op thread post' p h) :
    Nests ν op thread (fun a s h' => post a s h' ∧ post' a s h') p h := by
  induction p generalizing h with
  | finished a s => exact ⟨hp, hp'⟩
  | calling call s resume ih =>
    obtain ⟨hlaw, hholds, hr⟩ := hp
    refine ⟨hlaw, hholds, fun r s' h' lost ho hc => ?_⟩
    obtain ⟨hlaw', rest⟩ := hr r s' h' lost ho hc
    exact ⟨hlaw', ih r s' rest (hp'.2.2 r s' h' lost ho hc).2⟩

theorem each {ι : Type} (i : ι) {post : ι → α → State → History → Prop}
    (hp : ∀ i, Nests ν op thread (post i) p h) :
    Nests ν op thread (fun a s h' => ∀ i, post i a s h') p h := by
  induction p generalizing h with
  | finished a s => exact hp
  | calling call s resume ih =>
    refine ⟨(hp i).1, (hp i).2.1, fun r s' h' lost ho hc => ?_⟩
    exact ⟨((hp i).2.2 r s' h' lost ho hc).1, ih r s' fun j => ((hp j).2.2 r s' h' lost ho hc).2⟩

/-- The history at the end goes on from the one at the start. -/
theorem grown (hp : Nests ν op thread post p h) :
    Nests ν op thread (fun a s h' => post a s h' ∧ h <:+ h') p h := by
  induction p generalizing h with
  | finished a s => exact ⟨hp, List.suffix_refl h⟩
  | calling call s resume ih =>
    obtain ⟨hlaw, hholds, hr⟩ := hp
    refine ⟨hlaw, hholds, fun r s' h' lost ho hc => ?_⟩
    refine (hr r s' h' lost ho hc).imp_right fun rest => (ih r s' rest).mono ?_
    rintro a s₂ h₂ ⟨hpost, hs⟩
    have before : h <:+ h' := (List.suffix_cons ..).trans ho.since.suffix
    exact ⟨hpost, before.trans ((List.suffix_cons ..).trans hs)⟩

/-- Where an operation also follows a plan, it was told what the plan has it
    told. -/
theorem told {plan : Plan α} (hp : Nests ν op thread post p h) (hf : p.Follows plan []) :
    Nests ν op thread (fun a s h' => post a s h' ∧
      ∃ more, exchanges op h' = more ++ exchanges op h ∧ plan.ends more a s) p h := by
  suffices hm : ∀ {more k}, Nests ν op thread post p k → p.Follows plan more →
      exchanges op k = more ++ exchanges op h →
      Nests ν op thread (fun a s h' => post a s h' ∧
        ∃ more, exchanges op h' = more ++ exchanges op h ∧ plan.ends more a s) p k from
    hm hp hf rfl
  clear hp hf
  induction p with
  | finished a s => exact fun hp hf hk => ⟨hp, _, hk, hf⟩
  | calling call s resume ih =>
    intro more k hp hf hk
    obtain ⟨hlaw, hholds, hr⟩ := hp
    refine ⟨hlaw, hholds, fun r s' h' lost ho hc => (hr r s' h' lost ho hc).imp_right fun rest => ?_⟩
    refine ih r s' rest (hf.2 r s' fun hq => (ho.quiet hq).1) ?_
    -- what is nested in the call is told to others
    have same : exchanges op h' = more ++ exchanges op h :=
      (ho.since.unchanged fun _ _ hm => exchanges_of_ne hm).trans hk
    show (if op = op then Exchange.add call r s' (exchanges op h') else exchanges op h') = _
    rw [if_pos rfl, same]
    unfold Exchange.add
    split <;> rfl

/-- A sequence nests if its second part does from wherever the first one
    ends. -/
theorem bind {post : β → State → History → Prop} {f : α → State → Progress β}
    (hp : Nests ν op thread (fun a s h' => Nests ν op thread post (f a s) h') p h) :
    Nests ν op thread post (p.bind f) h := by
  induction p generalizing h with
  | finished a s => exact hp
  | calling call s resume ih =>
    obtain ⟨hlaw, hholds, hr⟩ := hp
    refine ⟨hlaw, hholds, fun r s' h' lost ho hc => ?_⟩
    exact (hr r s' h' lost ho hc).imp_right (ih r s')

end Nests

namespace Nesting

/-- Where `I` holds `m` nests, and `I` holds again where it finishes.  `I` may
    know the operation and its thread. -/
def Carries (ν : Nesting) (I : Nat → Thread → State → History → Prop) (m : Operation α) : Prop :=
  ∀ op thread s h, I op thread s h → Nests ν op thread (fun _ => I op thread) (m thread s) h

namespace Carries

variable {I : Nat → Thread → State → History → Prop}

theorem pure (a : α) : ν.Carries I (Pure.pure a : Operation α) :=
  fun _ _ _ _ h => h

theorem bind {m : Operation α} {f : α → Operation β} (hm : ν.Carries I m)
    (hf : ∀ a, ν.Carries I (f a)) : ν.Carries I (m >>= f) :=
  fun op thread s h hi => Nests.bind ((hm op thread s h hi).mono fun a s' h' => hf a op thread s' h')

theorem and {J : Nat → Thread → State → History → Prop} {m : Operation α}
    (hm : ν.Carries I m) (hm' : ν.Carries J m) :
    ν.Carries (fun op thread s h => I op thread s h ∧ J op thread s h) m :=
  fun op thread s h hi => (hm op thread s h hi.1).and (hm' op thread s h hi.2)

theorem state : ν.Carries I Operation.state :=
  fun _ _ _ _ h => h

theorem readThread : ν.Carries I Operation.thread :=
  fun _ _ _ _ h => h

theorem modifyGet {f : State → α × State}
    (hf : ∀ op thread s h, I op thread s h → I op thread (f s).2 h) :
    ν.Carries I (Operation.modifyGet f) :=
  fun op thread s h hi => hf op thread s h hi

end Carries

/-- What is to be shown where an operation ends that began in `s` after `h`. -/
def ends (ν : Nesting) (op : Nat) (thread : Thread) (q : Request) (s : State) (h : History)
    (result : q.Result) (s' : State) (h' : History) : Prop :=
  ν.law ⟨.ends op thread q result, s'⟩ h' ∧
  ν.holds s' (⟨.ends op thread q result, s'⟩ :: h') ∧
  ν.spans s h s' (⟨.ends op thread q result, s'⟩ :: h')

/-- Every way to run a request nests. -/
def Kept (ν : Nesting) (q : Request) : Prop :=
  ∀ thread s h, (∀ m ∈ h, m.event.op < h.begun) → ν.holds s h →
    ν.conduct ⟨.begins h.begun thread q, s⟩ h →
    ν.law ⟨.begins h.begun thread q, s⟩ h ∧
    Nests ν h.begun thread (ν.ends h.begun thread q s h) (q.operation thread s)
      (⟨.begins h.begun thread q, s⟩ :: h)

/-- Operation `f` began in `s₀` after `h₀`, and has waited since `h₁` and `s₁`. -/
structure Waits (ν : Nesting) (f : Frame) (s₀ : State) (h₀ : History) (s₁ : State)
    (h₁ : History) : Prop where
  numbered : h₀.begun ≤ f.op
  begun : f.op < h₁.begun
  since : Since f.op h₀ h₁
  ready : ∀ r s h lost, ν.Open f.op f.call s₁ h₁ s h →
    ν.conduct ⟨.replies f.op f.thread f.call r lost, s⟩ h →
    ν.law ⟨.replies f.op f.thread f.call r lost, s⟩ h ∧
    Nests ν f.op f.thread (ν.ends f.op f.thread f.request s₀ h₀) (f.resume r s)
      (⟨.replies f.op f.thread f.call r lost, s⟩ :: h)

end Nesting

/-! ### Stacks -/

/-- Each operation of a stack is nested in the call that the one below it waits
    in, and the lowest one in the run that began in `root`.  The state and the
    history are those that the innermost call has led to. -/
inductive Nested (ν : Nesting) (root : State) : State → History → List Frame → Prop
  | nil {s : State} {h : History} : ν.spans root [] s h → Nested ν root s h []
  | cons {f : Frame} {below : List Frame} {s₀ s₁ s : State} {h₀ h₁ h : History} :
    Nested ν root s₀ h₀ below → (∀ g ∈ below.head?, g.call.mayReenter = true) →
    ν.Waits f s₀ h₀ s₁ h₁ → Since (f.op + 1) h₁ h → ν.spans s₁ h₁ s h →
    (f.call.mayReenter = false → s = s₁ ∧ h = h₁) →
    Nested ν root s h (f :: below)

namespace Nested

variable {root s s' : State} {h h' : History} {stack : List Frame}

/-- The innermost operation waits while a whole operation runs. -/
theorem later (hn : Nested ν root s h stack) (hr : ∀ f ∈ stack.head?, f.call.mayReenter = true)
    (hs : Since h.begun h h') (hspans : ν.spans s h s' h') : Nested ν root s' h' stack := by
  cases hn with
  | nil whole => exact .nil (ν.spans_trans whole hspans)
  | @cons f below _ _ _ _ _ _ hbelow hloud waits since spans quiet =>
    have younger : f.op + 1 ≤ h.begun := Nat.lt_of_lt_of_le waits.begun since.begun_le
    refine .cons hbelow hloud waits (since.trans (hs.mono younger))
      (ν.spans_trans spans hspans) fun hq => ?_
    rw [hr f rfl] at hq
    cases hq

end Nested

/-! ### Runs -/

/-- A situation that a run by the nesting has come to, from `root`. -/
structure Nesting.Stands (ν : Nesting) (root : State) (c : Situation) : Prop where
  nested : Nested ν root c.state c.history c.stack
  holds : c.Admits → ν.holds c.state c.history
  always : c.history.Always ν.law

/-- An operation that began in `s₀` after `h₀` has run on. -/
theorem Nested.proceed {c : Situation} {root s₀ : State} {h₀ : History} {q : Request}
    {p : Progress q.Result} (hbelow : Nested ν root s₀ h₀ c.stack)
    (hr : ∀ f ∈ c.stack.head?, f.call.mayReenter = true) (hop : h₀.begun ≤ op)
    (hbegun : op < c.history.begun) (hs : Since op h₀ c.history)
    (hp : Nests ν op thread (ν.ends op thread q s₀ h₀) p c.history)
    (always : c.history.Always ν.law) : ν.Stands root (c.proceed op thread q p) := by
  cases p with
  | finished result s =>
    obtain ⟨hlaw, hholds, hspans⟩ := hp
    have whole : Since h₀.begun h₀ (⟨.ends op thread q result, s⟩ :: c.history) :=
      (hs.mono hop).cons hop
    exact ⟨hbelow.later hr whole hspans, fun _ => hholds, hlaw, always⟩
  | calling call s resume =>
    obtain ⟨hlaw, hholds, ready⟩ := hp
    let f : Frame := ⟨op, thread, q, call, resume⟩
    have waits : ν.Waits f s₀ h₀ s (⟨.calls op thread call, s⟩ :: c.history) :=
      ⟨hop, hbegun, hs.cons (Nat.le_refl _), ready⟩
    refine ⟨.cons hbelow hr waits (.refl ..) (ν.spans_refl ..) fun _ => ⟨rfl, rfl⟩, ?_, hlaw, always⟩
    exact fun admits => hholds (admits f rfl)

namespace Nesting.Stands

variable {root : State} {c : Situation}

/-- At rest the run as a whole has brought about what each operation does. -/
theorem at_rest (hc : ν.Stands root c) (rest : c.AtRest) :
    ν.holds c.state c.history ∧ ν.spans root [] c.state c.history := by
  obtain ⟨nested, holds, -⟩ := hc
  rw [show c.stack = [] from rest] at nested
  refine ⟨holds rest.admits, ?_⟩
  cases nested with
  | nil whole => exact whole

theorem start {q : Request} (hc : ν.Stands root c) (hq : ν.Kept q)
    (numbered : ∀ m ∈ c.history, m.event.op < c.history.begun) (ha : c.Admits)
    (hb : ν.conduct ⟨.begins c.history.begun thread q, c.state⟩ c.history) :
    ν.Stands root (c.start thread q) := by
  obtain ⟨hlaw, hp⟩ := hq thread c.state c.history numbered (hc.holds ha) hb
  have counted : c.history.begun < (c.note (.begins c.history.begun thread q)).history.begun := by
    rw [Situation.note, History.begun_cons]
    exact Nat.lt_succ_self _
  exact Nested.proceed (c := c.note _) hc.nested ha (Nat.le_refl _) counted
    ((Since.refl ..).cons (Nat.le_refl _)) hp ⟨hlaw, hc.always⟩

theorem reply {f : Frame} {r : f.call.Reply} (hc : ν.Stands root c) (hf : f ∈ c.stack.head?)
    (hb : ν.conduct (replyMoment f.op f.thread (fun _ _ => none) f.call f.resume r c.state)
      c.history) :
    ν.Stands root (c.reply f r) := by
  obtain ⟨nested, holds, always⟩ := hc
  obtain ⟨s, stack, h⟩ := c
  simp only at nested holds always hf hb
  cases nested with
  | nil => cases hf
  | @cons g below s₀ s₁ _ h₀ h₁ _ hbelow hloud waits since spans quiet =>
    obtain rfl : g = f := Option.some.inj hf
    have admitted : g.call.mayReenter = true → ν.holds s h := by
      intro hloud
      refine holds fun f' hf' => ?_
      obtain rfl : g = f' := Option.some.inj hf'
      exact hloud
    obtain ⟨hlaw, hp⟩ := waits.ready r s h _ ⟨since, spans, quiet, admitted⟩ hb
    -- the innermost operation leaves the stack and runs on
    refine Nested.proceed (c := Situation.answered ⟨s, g :: below, h⟩ g r) hbelow hloud
      waits.numbered ?_ ?_ hp ⟨hlaw, always⟩
    · refine Nat.lt_of_lt_of_le waits.begun (since.begun_le.trans ?_)
      rw [Situation.answered, History.begun_cons]
      exact Nat.le_add_right ..
    · exact (waits.since.trans (since.mono (Nat.le_succ _))).cons (Nat.le_refl _)

end Nesting.Stands

/-- What each request keeps to, a run keeps to. -/
theorem Reaches.nested (hq : ∀ q, ν.Kept q) {s : State} {c : Situation}
    (h : Reaches (.initial s) c) (hs : ν.holds s []) (hc : c.history.Always ν.conduct) :
    ν.Stands s c := by
  -- by induction on the moves; conduct so far is part of conduct altogether
  have all : Reaches (.initial s) c ∧ (c.history.Always ν.conduct → ν.Stands s c) := by
    refine h.invariant (p := fun c => Reaches (.initial s) c ∧
      (c.history.Always ν.conduct → ν.Stands s c))
      ⟨.refl _, fun _ => ⟨.nil (ν.spans_refl ..), fun _ => hs, trivial⟩⟩ ?_
    intro d e move ⟨reaches, ih⟩ step
    refine ⟨reaches.tail step, fun he => ?_⟩
    have stands : ν.Stands s d := ih (he.of_suffix step.suffix)
    cases step with
    | @start thread q ha =>
      exact stands.start (hq q) reaches.op_lt ha (he.of_suffix (d.suffix_start thread q)).1
    | @reply f r hf =>
      exact stands.reply hf (he.of_suffix (d.suffix_reply f r)).1
  exact all.2 hc

end CallbackBridge.Run
