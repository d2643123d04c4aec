import CallbackBridge.Run.Conduct
import Mathlib.Algebra.Group.Defs

/-! # Rules that a run keeps

    A host that is called may start further operations, and those may call it
    again.  A fact about all runs is therefore proved one operation at a time,
    against foreign code that may do anything the rules allow.

    Key ideas:

    1. `Rules` say what holds of the state, of the history, and of what the
       operations in progress have in hand, all of it added up.
    2. `Keeps` follows one operation from call to call.  At a call it names what
       it has in hand; the rules hold there, and it goes on from any later
       state in which they hold and in which its own share was not touched.
    3. `Standing` says the same of a whole stack.  `Rules.stands` is the
       induction over moves: if each request keeps the rules, so does a run.
    4. The log sink and the operating system cannot use the bridge.  After
       such a call nothing has changed. -/

namespace CallbackBridge.Run

/-! ### Histories grow -/

namespace History

theorem Always.of_suffix {p : Moment → History → Prop} {h k : History} (hs : k <:+ h)
    (ha : Always p h) : Always p k := by
  induction h with
  | nil => rwa [List.suffix_nil.mp hs]
  | cons m before ih =>
    rcases List.suffix_cons_iff.mp hs with rfl | hs
    · exact ha
    · exact ih hs ha.2

theorem Always.imp {p p' : Moment → History → Prop} (hp : ∀ m before, p m before → p' m before)
    {h : History} (ha : Always p h) : Always p' h := by
  induction h with
  | nil => trivial
  | cons m before ih => exact ⟨hp m before ha.1, ih ha.2⟩

theorem Always.and {p p' : Moment → History → Prop} {h : History} (ha : Always p h)
    (ha' : Always p' h) : Always (fun m before => p m before ∧ p' m before) h := by
  induction h with
  | nil => trivial
  | cons m before ih => exact ⟨⟨ha.1, ha'.1⟩, ih ha.2 ha'.2⟩

theorem always_iff {p : Moment → Prop} {h : History} :
    h.Always (fun m _ => p m) ↔ ∀ m ∈ h, p m := by
  induction h with
  | nil => simp [Always]
  | cons m before ih => simp [Always, ih]

/-- At no two moments of a history does `p` hold. -/
def AtMostOnce (p : Moment → Prop) : History → Prop :=
  Always fun m before => p m → ∀ m' ∈ before, ¬ p m'

/-- What always holds, holds of each moment and of what came before it. -/
theorem Always.split {p : Moment → History → Prop} {later before : History} {m : Moment}
    (ha : Always p (later ++ m :: before)) : p m before :=
  (ha.of_suffix (List.suffix_append later (m :: before))).1

theorem suffix_of_split {h later before : History} {m : Moment}
    (heq : h = later ++ m :: before) : before <:+ h := by
  rw [heq, List.append_cons]
  exact List.suffix_append ..

theorem always_of_split {p : Moment → History → Prop} {h : History}
    (hp : ∀ later m before, h = later ++ m :: before → p m before) : Always p h := by
  induction h with
  | nil => trivial
  | cons m before ih =>
    refine ⟨hp [] m before rfl, ih fun later m' before' heq => ?_⟩
    exact hp (m :: later) m' before' (congrArg (m :: ·) heq)

theorem AtMostOnce.of_imp {p p' : Moment → Prop} {h : History} (ha : AtMostOnce p h)
    (hp : ∀ m ∈ h, p' m → p m) : AtMostOnce p' h := by
  induction h with
  | nil => trivial
  | cons m before ih =>
    refine ⟨fun hm m' hm' hx => ?_, ih ha.2 fun m hm => hp m (List.mem_cons_of_mem _ hm)⟩
    exact ha.1 (hp m (List.mem_cons_self ..) hm) m' hm' (hp m' (List.mem_cons_of_mem _ hm') hx)

/-- There is one earliest moment of a sort. -/
theorem first_unique {p : Moment → Prop} {later later' before before' : History} {m m' : Moment}
    (heq : later ++ m :: before = later' ++ m' :: before') (hm : p m) (hm' : p m')
    (hf : ∀ x ∈ before, ¬ p x) (hf' : ∀ x ∈ before', ¬ p x) : m = m' := by
  rcases List.append_eq_append_iff.mp heq with ⟨front, -, htail⟩ | ⟨front, -, htail⟩
  · cases front with
    | nil => exact (List.cons.inj htail).1
    | cons x front =>
      obtain ⟨-, rfl⟩ := List.cons.inj htail
      exact absurd hm' (hf m' (by simp))
  · cases front with
    | nil => exact (List.cons.inj htail).1.symm
    | cons x front =>
      obtain ⟨-, rfl⟩ := List.cons.inj htail
      exact absurd hm (hf' m (by simp))

end History

namespace Situation

theorem suffix_proceed (c : Situation) (op : Nat) (thread : Thread) (q : Request)
    (p : Progress q.Result) : c.history <:+ (c.proceed op thread q p).history := by
  cases p <;> exact List.suffix_cons ..

end Situation

/-! ### Rules -/

/-- What a run keeps to. -/
structure Rules (R : Type) where
  /-- What holds of the state, the history and all that is in hand. -/
  holds : State → History → R → Prop
  /-- What an operation needs in hand while it waits in a call. -/
  permits : Call → R → Prop
  /-- What the outside world keeps to at a moment. -/
  conduct : Moment → History → Prop

namespace Situation

theorem suffix_start (c : Situation) (thread : Thread) (q : Request) :
    ⟨.begins c.history.begun thread q, c.state⟩ :: c.history <:+ (c.start thread q).history :=
  suffix_proceed (c.note (.begins c.history.begun thread q)) ..

theorem suffix_reply (c : Situation) (f : Frame) (r : f.call.Reply) :
    replyMoment f.op f.thread (fun _ _ => none) f.call f.resume r c.state :: c.history <:+
      (c.reply f r).history :=
  suffix_proceed (c.answered f r) ..

end Situation

/-- A move adds to the history and changes nothing in it. -/
theorem Step.suffix {c d : Situation} {move : Move} (h : Step c move d) :
    c.history <:+ d.history := by
  cases h with
  | start => exact (List.suffix_cons ..).trans (c.suffix_start ..)
  | reply => exact (List.suffix_cons ..).trans (c.suffix_reply ..)

/-- The last moment shows the state that the bridge is in. -/
theorem Reaches.last {s : State} {c : Situation} (h : Reaches (.initial s) c) :
    c = .initial s ∨ ∃ m ∈ c.history.head?, m.state = c.state := by
  have proceeded : ∀ (d : Situation) op thread (q : Request) (p : Progress q.Result),
      ∃ m ∈ (d.proceed op thread q p).history.head?, m.state = (d.proceed op thread q p).state := by
    intro d op thread q p
    cases p <;> exact ⟨_, rfl, rfl⟩
  refine h.invariant (p := fun c => c = .initial s ∨ ∃ m ∈ c.history.head?, m.state = c.state)
    (.inl rfl) fun _ step => ?_
  cases step with
  | start => exact .inr (proceeded ..)
  | reply => exact .inr (proceeded ..)

variable {R : Type} [AddCommMonoid R] {α β : Type} {ρ : Rules R} {op : Nat} {thread : Thread}

/-- Operation `op` keeps the rules from here on, and `post` holds where it
    finishes.  `rest` is what the other operations have in hand, and `after`
    is what `op` gives back next where this part of it makes no call. -/
def Keeps (ρ : Rules R) (op : Nat) (thread : Thread) (after : α → State → Option HostObject)
    (post : α → State → History → R → Prop) : Progress α → History → R → Prop
  | .finished a s, h, rest => post a s h rest
  | .calling call s resume, h, rest =>
    ∃ own, ρ.permits call own ∧ ρ.holds s (⟨.calls op thread call, s⟩ :: h) (rest + own) ∧
      ∀ r s' h' rest', ρ.holds s' h' (rest' + own) →
        (⟨.calls op thread call, s⟩ :: h) <:+ h' →
        (call.mayReenter = false →
          s' = s ∧ h' = ⟨.calls op thread call, s⟩ :: h ∧ rest' = rest) →
        ρ.conduct (replyMoment op thread after call resume r s') h' →
        Keeps ρ op thread after post (resume r s')
          (replyMoment op thread after call resume r s' :: h') rest'

namespace Keeps

variable {after : α → State → Option HostObject} {post post' : α → State → History → R → Prop}

theorem mono {p : Progress α} {h : History} {rest : R} (hk : Keeps ρ op thread after post p h rest)
    (hp : ∀ a s h' rest', post a s h' rest' → post' a s h' rest') :
    Keeps ρ op thread after post' p h rest := by
  induction p generalizing h rest with
  | finished a s => exact hp _ _ _ _ hk
  | calling call s resume ih =>
    obtain ⟨own, permitted, holds, hr⟩ := hk
    refine ⟨own, permitted, holds, fun r s' h' rest' hh hs hq hc => ?_⟩
    exact ih r s' (hr r s' h' rest' hh hs hq hc)

/-- What is in hand of operations may include more than `op` needs. -/
theorem frame {p : Progress α} {h : History} {rest more : R}
    (hm : ∀ call own, ρ.permits call own → ρ.permits call (more + own))
    (hk : Keeps ρ op thread after post p h (rest + more)) :
    Keeps ρ op thread after (fun a s h' rest' => post a s h' (rest' + more)) p h rest := by
  induction p generalizing h rest with
  | finished a s => exact hk
  | calling call s resume ih =>
    obtain ⟨own, permitted, holds, hr⟩ := hk
    -- while the call is open, `more` waits together with `own`
    refine ⟨more + own, hm _ _ permitted, by rwa [← add_assoc], fun r s' h' rest' hh hs hq hc => ?_⟩
    refine ih r s' (hr r s' h' (rest' + more) (by rwa [add_assoc]) hs (fun hf => ?_) hc)
    obtain ⟨rfl, rfl, rfl⟩ := hq hf
    exact ⟨rfl, rfl, rfl⟩

/-- The history at the end goes on from the one at the start. -/
theorem grown {p : Progress α} {h : History} {rest : R}
    (hk : Keeps ρ op thread after post p h rest) :
    Keeps ρ op thread after (fun a s h' rest' => post a s h' rest' ∧ h <:+ h') p h rest := by
  induction p generalizing h rest with
  | finished a s => exact ⟨hk, List.suffix_refl h⟩
  | calling call s resume ih =>
    obtain ⟨own, permitted, holds, hr⟩ := hk
    refine ⟨own, permitted, holds, fun r s' h' rest' hh hs hq hc => ?_⟩
    refine (ih r s' (hr r s' h' rest' hh hs hq hc)).mono fun a s₂ h₂ rest₂ ⟨hp, hs₂⟩ => ⟨hp, ?_⟩
    exact (List.suffix_cons _ h).trans (hs.trans ((List.suffix_cons _ h').trans hs₂))

theorem upcoming?_bind {after : β → State → Option HostObject} (p : Progress α)
    (f : α → State → Progress β) :
    upcoming? after (p.bind f) = upcoming? (fun a s => upcoming? after (f a s)) p := by
  cases p <;> rfl

/-- A sequence keeps the rules if its parts do. -/
theorem bind {after : β → State → Option HostObject} {post : β → State → History → R → Prop}
    {p : Progress α} {f : α → State → Progress β} {h : History} {rest : R}
    (hk : Keeps ρ op thread (fun a s => upcoming? after (f a s))
      (fun a s h' rest' => Keeps ρ op thread after post (f a s) h' rest') p h rest) :
    Keeps ρ op thread after post (p.bind f) h rest := by
  induction p generalizing h rest with
  | finished a s => exact hk
  | calling call s resume ih =>
    obtain ⟨own, permitted, holds, hr⟩ := hk
    refine ⟨own, permitted, holds, fun r s' h' rest' hh hs hq hc => ?_⟩
    -- what comes next after a refusal may be in the second part
    have same : replyMoment op thread after call (fun r s => (resume r s).bind f) r s' =
        replyMoment op thread (fun a s => upcoming? after (f a s)) call resume r s' := by
      simp only [replyMoment, upcoming?_bind]
    rw [same] at hc ⊢
    exact ih r s' (hr r s' h' rest' hh hs hq hc)

end Keeps

/-! ### Stacks -/

/-- What holds when an operation has ended. -/
def Rules.ends (ρ : Rules R) (op : Nat) (thread : Thread) (q : Request) :
    q.Result → State → History → R → Prop :=
  fun result s h rest => ρ.holds s (⟨.ends op thread q result, s⟩ :: h) rest

/-- Every way to run a request keeps the rules. -/
def Rules.Kept (ρ : Rules R) (q : Request) : Prop :=
  ∀ thread s h rest, ρ.holds s h rest → ρ.conduct ⟨.begins h.begun thread q, s⟩ h →
    Keeps ρ h.begun thread (fun _ _ => none) (ρ.ends h.begun thread q) (q.operation thread s)
      (⟨.begins h.begun thread q, s⟩ :: h) rest

/-- Whatever the reply, the operation that waits in `f` goes on by the rules. -/
def Ready (ρ : Rules R) (f : Frame) (own : R) (s : State) (h : History) (rest : R) : Prop :=
  ∀ r, ρ.holds s h (rest + own) →
    ρ.conduct (replyMoment f.op f.thread (fun _ _ => none) f.call f.resume r s) h →
    Keeps ρ f.op f.thread (fun _ _ => none) (ρ.ends f.op f.thread f.request) (f.resume r s)
      (replyMoment f.op f.thread (fun _ _ => none) f.call f.resume r s :: h) rest

/-- Each operation of a stack is ready for its reply, now or later; together
    they have `total` in hand. -/
inductive Standing (ρ : Rules R) (s : State) (h : History) : List Frame → R → Prop
  | nil : Standing ρ s h [] 0
  | cons {f : Frame} {below : List Frame} {own rest : R} :
    Standing ρ s h below rest → (∀ g ∈ below, g.call.mayReenter = true) →
    ρ.permits f.call own →
    (∀ s' h' rest', h <:+ h' →
      (f.call.mayReenter = false → s' = s ∧ h' = h ∧ rest' = rest) →
      Ready ρ f own s' h' rest') →
    Standing ρ s h (f :: below) (rest + own)

/-- The rules hold in a situation. -/
def Rules.Stands (ρ : Rules R) (c : Situation) : Prop :=
  ∃ total, Standing ρ c.state c.history c.stack total ∧ ρ.holds c.state c.history total

namespace Standing

variable {s s' : State} {h h' : History} {stack : List Frame} {total : R}

/-- A stack that waits for foreign code stands however long that takes. -/
theorem later (hst : Standing ρ s h stack total)
    (hr : ∀ f ∈ stack, f.call.mayReenter = true) (hs : h <:+ h') :
    Standing ρ s' h' stack total := by
  induction hst with
  | nil => exact .nil
  | @cons f below own rest _ hbelow permitted ready ih =>
    refine .cons (ih hbelow) hbelow permitted fun s₂ h₂ rest₂ hs₂ _ => ?_
    exact ready s₂ h₂ rest₂ (hs.trans hs₂) fun hf => by simp [hr f] at hf

/-- The rules hold when an operation has run on. -/
theorem proceed {c : Situation} {q : Request} {p : Progress q.Result} {rest : R}
    (hst : Standing ρ c.state c.history c.stack rest)
    (hr : ∀ f ∈ c.stack, f.call.mayReenter = true)
    (hk : Keeps ρ op thread (fun _ _ => none) (ρ.ends op thread q) p c.history rest) :
    ρ.Stands (c.proceed op thread q p) := by
  cases p with
  | finished result s => exact ⟨rest, hst.later hr (List.suffix_cons ..), hk⟩
  | calling call s resume =>
    obtain ⟨own, permitted, holds, ready⟩ := hk
    refine ⟨rest + own, .cons (hst.later hr (List.suffix_cons ..)) hr permitted ?_, holds⟩
    intro s' h' rest' hs hq r hh hc
    exact ready r s' h' rest' hh hs hq hc

/-- Each operation of a stack is ready for its reply as things are, with
    whatever the others have in hand. -/
theorem ready (hst : Standing ρ s h stack total) {f : Frame} (hf : f ∈ stack) :
    ∃ own rest, total = rest + own ∧
      ∀ rest', (f.call.mayReenter = false → rest' = rest) → Ready ρ f own s h rest' := by
  induction hst with
  | nil => cases hf
  | @cons g below own rest _ hbelow _ ready ih =>
    rcases List.mem_cons.mp hf with rfl | hf
    · exact ⟨own, rest, rfl, fun rest' hq =>
        ready s h rest' (List.suffix_refl h) fun hf => ⟨rfl, rfl, hq hf⟩⟩
    · obtain ⟨own', rest', rfl, ready'⟩ := ih hf
      refine ⟨own', rest' + own, by rw [add_assoc, add_comm own', ← add_assoc], fun rest₂ _ => ready' rest₂ fun hq => ?_⟩
      rw [hbelow f hf] at hq
      cases hq

end Standing

/-! ### Runs -/

namespace Rules.Stands

variable {c d : Situation}

theorem start {q : Request} (hc : ρ.Stands c) (hq : ρ.Kept q) (ha : c.Admits)
    (hb : ρ.conduct ⟨.begins c.history.begun thread q, c.state⟩ c.history) :
    ρ.Stands (c.start thread q) := by
  obtain ⟨total, hst, holds⟩ := hc
  -- whoever waits below the innermost call was interrupted there, so it may be again
  have hr : ∀ f ∈ c.stack, f.call.mayReenter = true := by
    unfold Situation.Admits at ha
    generalize hk : c.stack = stack at hst ha
    cases hst with
    | nil => simp
    | @cons f below _ _ _ hbelow _ _ => simpa using ⟨ha f rfl, hbelow⟩
  apply Standing.proceed (c := c.note _) (hst.later hr (List.suffix_cons ..)) hr
  exact hq thread c.state c.history total holds hb

theorem reply {f : Frame} {r : f.call.Reply} (hc : ρ.Stands c) (hf : f ∈ c.stack.head?)
    (hb : ρ.conduct (replyMoment f.op f.thread (fun _ _ => none) f.call f.resume r c.state)
      c.history) :
    ρ.Stands (c.reply f r) := by
  obtain ⟨total, hst, holds⟩ := hc
  obtain ⟨s, stack, h⟩ := c
  simp only at hst holds hf hb
  cases hst with
  | nil => simp at hf
  | @cons g below own rest hbelow hr permitted ready =>
    obtain rfl : g = f := by simpa using hf
    -- the innermost operation leaves the stack, and goes on with its own share
    refine Standing.proceed (c := Situation.answered ⟨s, g :: below, h⟩ g r)
      (hbelow.later hr (List.suffix_cons ..)) hr ?_
    exact ready s h rest (List.suffix_refl h) (fun _ => ⟨rfl, rfl, rfl⟩) r holds hb

end Rules.Stands

/-- What holds of the reply to a call holds of it already while the call is
    open. -/
theorem Rules.Stands.law_of_reply {law : Moment → History → Prop} {c : Situation} {f : Frame}
    (hlaw : ∀ s h total, ρ.holds s h total → h.Always law) (hc : ρ.Stands c) (hf : f ∈ c.stack)
    (r : f.call.Reply)
    (hb : ρ.conduct (replyMoment f.op f.thread (fun _ _ => none) f.call f.resume r c.state)
      c.history) :
    law (replyMoment f.op f.thread (fun _ _ => none) f.call f.resume r c.state) c.history := by
  obtain ⟨total, hst, holds⟩ := hc
  obtain ⟨own, rest, rfl, ready⟩ := hst.ready hf
  have hk := ready rest (fun _ => rfl) r holds hb
  -- the operation goes on to its next call or to its end, and the law holds up to there
  generalize f.resume r c.state = p at hk
  cases p with
  | finished result s => exact (hlaw _ _ _ hk).2.1
  | calling call s resume =>
    obtain ⟨_, _, called, _⟩ := hk
    exact (hlaw _ _ _ called).2.1

/-- What each request keeps, a run keeps. -/
theorem Rules.stands (hq : ∀ q, ρ.Kept q) {c d : Situation} (h : Reaches c d)
    (hc : ρ.Stands c) (hd : d.history.Always ρ.conduct) : ρ.Stands d := by
  -- by induction on the moves; conduct so far is part of conduct altogether
  refine h.invariant (p := fun d => d.history.Always ρ.conduct → ρ.Stands d) (fun _ => hc) ?_ hd
  intro d e move ih step he
  have hstands : ρ.Stands d := ih (he.of_suffix step.suffix)
  cases step with
  | @start thread q ha =>
    exact hstands.start (hq q) ha (he.of_suffix (d.suffix_start thread q)).1
  | @reply f r hf =>
    exact hstands.reply hf (he.of_suffix (d.suffix_reply f r)).1

end CallbackBridge.Run
