import CallbackBridge.Proofs.Run.Nesting

/-! # Two runs side by side

    A second run may go along with a first one, request by request and call by
    call, where the two differ in something that nobody is to notice.

    Key ideas:

    1. A `Pairing` says which states, calls and replies go together, and which
       calls of the first run the second one goes without.
    2. `Mirrors` follows two operations from call to call.  What a sequence does
       is mirrored as soon as its parts are.
    3. While the first run waits in a call that the second one goes without, the
       second one is ahead of it, and nothing else can happen.  `Trails` is the
       relation that every move keeps. -/

namespace CallbackBridge.Run

open History

/-- How a second run goes along with a first one. -/
structure Pairing where
  /-- The states that the two may be in at a time. -/
  alike : State → State → Prop
  /-- What the second run goes without. -/
  skips : Call → Bool
  /-- The calls of the second run. -/
  makes : Call → Bool
  /-- What the first run calls where the second one makes a call. -/
  call : Call → Call
  /-- The replies to the first run and to the second one that go together. -/
  answers : (c : Call) → (call c).Reply → c.Reply → Prop
  /-- What is asked of the second run. -/
  request : Request → Request
  /-- The results that go together. -/
  results : (q : Request) → q.Result → (request q).Result → Prop
  mayReenter_eq : ∀ c, (call c).mayReenter = c.mayReenter
  exists_answer : ∀ c r, ∃ r', answers c r r'

/-- Nothing is nested in what the second run goes without. -/
def Pairing.Quiet (ρ : Pairing) : Prop :=
  ∀ c, ρ.skips c = true → c.mayReenter = false

variable {α β γ δ : Type} {ρ : Pairing}

/-! ### Operations -/

/-- The second operation goes along with the first one, and ends with a result
    that goes together with its result. -/
inductive Mirrors (ρ : Pairing) (post : α → β → Prop) : Progress α → Progress β → Prop
  | finished {a : α} {b : β} {s s' : State} :
    ρ.alike s s' → post a b → Mirrors ρ post (.finished a s) (.finished b s')
  | calling {c : Call} {s s' : State} {resume : (ρ.call c).Reply → State → Progress α}
    {resume' : c.Reply → State → Progress β} :
    ρ.makes c = true → ρ.alike s s' →
    (∀ r r' t t', ρ.answers c r r' → ρ.alike t t' →
      Mirrors ρ post (resume r t) (resume' r' t')) →
    Mirrors ρ post (.calling (ρ.call c) s resume) (.calling c s' resume')
  | skipping {c : Call} {s : State} {resume : c.Reply → State → Progress α} {p : Progress β} :
    ρ.skips c = true → (∀ r, Mirrors ρ post (resume r s) p) →
    Mirrors ρ post (.calling c s resume) p

theorem Mirrors.mono {post post₂ : α → β → Prop} {p : Progress α} {p' : Progress β}
    (hm : Mirrors ρ post p p') (hp : ∀ a b, post a b → post₂ a b) : Mirrors ρ post₂ p p' := by
  induction hm with
  | finished hs hab => exact .finished hs (hp _ _ hab)
  | calling hc hs _ ih => exact .calling hc hs ih
  | skipping hc _ ih => exact .skipping hc ih

theorem Mirrors.bind {post : α → β → Prop} {post' : γ → δ → Prop} {p : Progress α}
    {p' : Progress β} {f : α → State → Progress γ} {f' : β → State → Progress δ}
    (hp : Mirrors ρ post p p')
    (hf : ∀ a b s s', post a b → ρ.alike s s' → Mirrors ρ post' (f a s) (f' b s')) :
    Mirrors ρ post' (p.bind f) (p'.bind f') := by
  induction hp with
  | finished hs hab => exact hf _ _ _ _ hab hs
  | calling hc hs _ ih => exact .calling hc hs ih
  | skipping hc _ ih => exact .skipping hc ih

/-- From any two states that go together. -/
def Mirrored (ρ : Pairing) (post : α → β → Prop) (m : Operation α) (m' : Operation β) : Prop :=
  ∀ thread s s', ρ.alike s s' → Mirrors ρ post (m thread s) (m' thread s')

namespace Mirrored

variable {post : α → β → Prop} {post' : γ → δ → Prop} {m : Operation α} {m' : Operation β}

theorem pure {a : α} {b : β} (hab : post a b) :
    Mirrored ρ post (Pure.pure a : Operation α) (Pure.pure b : Operation β) :=
  fun _ _ _ hs => .finished hs hab

theorem bind {f : α → Operation γ} {f' : β → Operation δ} (hm : Mirrored ρ post m m')
    (hf : ∀ a b, post a b → Mirrored ρ post' (f a) (f' b)) :
    Mirrored ρ post' (m >>= f) (m' >>= f') :=
  fun thread s s' hs => (hm thread s s' hs).bind fun a b t t' hab ht => hf a b hab thread t t' ht

/-- Where the results are the same. -/
theorem bind_eq {m m' : Operation α} {f : α → Operation γ} {f' : α → Operation δ}
    (hm : Mirrored ρ Eq m m') (hf : ∀ a, Mirrored ρ post' (f a) (f' a)) :
    Mirrored ρ post' (m >>= f) (m' >>= f') :=
  hm.bind fun a _ hab => hab ▸ hf a

theorem mono {post₂ : α → β → Prop} (hm : Mirrored ρ post m m')
    (hp : ∀ a b, post a b → post₂ a b) : Mirrored ρ post₂ m m' :=
  fun thread s s' hs => (hm thread s s' hs).mono hp

theorem call {c : Call} (hc : ρ.makes c = true) :
    Mirrored ρ (ρ.answers c) (Operation.call (ρ.call c)) (Operation.call c) :=
  fun _ _ _ hs => .calling hc hs fun _ _ _ _ hr ht => .finished ht hr

theorem state : Mirrored ρ ρ.alike Operation.state Operation.state :=
  fun _ _ _ hs => .finished hs hs

theorem thread : Mirrored ρ Eq Operation.thread Operation.thread :=
  fun _ _ _ hs => .finished hs rfl

theorem modifyGet {f : State → α × State} {f' : State → β × State}
    (hf : ∀ s s', ρ.alike s s' → post (f s).1 (f' s').1 ∧ ρ.alike (f s).2 (f' s').2) :
    Mirrored ρ post (Operation.modifyGet f) (Operation.modifyGet f') :=
  fun _ s s' hs => .finished (hf s s' hs).2 (hf s s' hs).1

/-- The first operation begins with a part that has no counterpart. -/
theorem unmatched {m : Operation Unit} {f : Unit → Operation α}
    (hm : Mirrored ρ Eq m (Pure.pure ())) (hf : Mirrored ρ post (f ()) m') :
    Mirrored ρ post (m >>= f) m' := by
  have goesOn : Mirrored ρ post (m >>= f) (Pure.pure () >>= fun _ => m') :=
    hm.bind fun _ _ _ => hf
  exact goesOn

end Mirrored

/-! ### Situations -/

namespace Pairing

/-- Two operations wait in calls that go together. -/
inductive Frames (ρ : Pairing) : Frame → Frame → Prop
  | mk {op : Nat} {thread : Thread} {q : Request} {c : Call}
    {resume : (ρ.call c).Reply → State → Progress q.Result}
    {resume' : c.Reply → State → Progress (ρ.request q).Result} :
    (∀ r r' t t', ρ.answers c r r' → ρ.alike t t' →
      Mirrors ρ (ρ.results q) (resume r t) (resume' r' t')) →
    Frames ρ ⟨op, thread, q, ρ.call c, resume⟩ ⟨op, thread, ρ.request q, c, resume'⟩

/-- Two moments go together.  What is lost on the way is not looked at. -/
inductive Moments (ρ : Pairing) : Moment → Moment → Prop
  | begins {op : Nat} {thread : Thread} {q : Request} {s s' : State} :
    ρ.alike s s' → Moments ρ ⟨.begins op thread q, s⟩ ⟨.begins op thread (ρ.request q), s'⟩
  | calls {op : Nat} {thread : Thread} {c : Call} {s s' : State} :
    ρ.makes c = true → ρ.alike s s' →
    Moments ρ ⟨.calls op thread (ρ.call c), s⟩ ⟨.calls op thread c, s'⟩
  | replies {op : Nat} {thread : Thread} {c : Call} {r : (ρ.call c).Reply} {r' : c.Reply}
    {lost lost' : Option HostObject} {s s' : State} :
    ρ.answers c r r' → ρ.alike s s' →
    Moments ρ ⟨.replies op thread (ρ.call c) r lost, s⟩ ⟨.replies op thread c r' lost', s'⟩
  | ends {op : Nat} {thread : Thread} {q : Request} {result : q.Result}
    {result' : (ρ.request q).Result} {s s' : State} :
    ρ.results q result result' → ρ.alike s s' →
    Moments ρ ⟨.ends op thread q result, s⟩ ⟨.ends op thread (ρ.request q) result', s'⟩

/-- The second run goes without this event. -/
def omits (ρ : Pairing) : Event → Bool
  | .calls _ _ c | .replies _ _ c _ _ => ρ.skips c
  | .begins .. | .ends .. => false

/-- Two histories go together. -/
inductive Histories (ρ : Pairing) : History → History → Prop
  | nil : Histories ρ [] []
  | cons {m m' : Moment} {h h' : History} :
    ρ.Moments m m' → Histories ρ h h' → Histories ρ (m :: h) (m' :: h')
  | alone {m : Moment} {h h' : History} :
    ρ.omits m.event = true → Histories ρ h h' → Histories ρ (m :: h) h'

theorem Histories.begun_eq {h h' : History} (hh : ρ.Histories h h') : h'.begun = h.begun := by
  induction hh with
  | nil => rfl
  | cons hm _ ih =>
    rw [History.begun_cons, History.begun_cons, ih]
    cases hm <;> rfl
  | @alone m _ _ hm _ ih =>
    rw [History.begun_cons, ih]
    obtain ⟨e, s⟩ := m
    cases e <;> first | rfl | cases hm

/-- Two runs have come equally far. -/
structure Beside (ρ : Pairing) (c d : Situation) : Prop where
  state : ρ.alike c.state d.state
  stack : List.Forall₂ ρ.Frames c.stack d.stack
  history : ρ.Histories c.history d.history

/-- The second run goes along with the first one, or is ahead of it. -/
inductive Trails (ρ : Pairing) : Situation → Situation → Prop
  | beside {c d : Situation} : ρ.Beside c d → Trails ρ c d
  /-- The first one waits in a call that the second one goes without. -/
  | ahead {s : State} {f : Frame} {below : List Frame} {h : History} {d : Situation}
    {p : Progress (ρ.request f.request).Result} :
    ρ.skips f.call = true → List.Forall₂ ρ.Frames below d.stack → ρ.Histories h d.history →
    (∀ r, Mirrors ρ (ρ.results f.request) (f.resume r s) p) →
    Trails ρ ⟨s, f :: below, h⟩ (d.proceed f.op f.thread (ρ.request f.request) p)

namespace Trails

variable {c d : Situation}

/-- Wherever something else may happen, the two have come equally far. -/
theorem beside_of_admits (ht : ρ.Trails c d) (ha : c.Admits) (quiet : ρ.Quiet) :
    ρ.Beside c d := by
  cases ht with
  | beside hb => exact hb
  | @ahead s f below h d p hs hstack hh hp =>
    have loud : f.call.mayReenter = true := ha f rfl
    rw [quiet _ hs] at loud
    cases loud

/-- Two operations run on. -/
theorem proceed {op : Nat} {thread : Thread} {q : Request} {p : Progress q.Result}
    {p' : Progress (ρ.request q).Result} (hp : Mirrors ρ (ρ.results q) p p')
    (hstack : List.Forall₂ ρ.Frames c.stack d.stack) (hh : ρ.Histories c.history d.history) :
    ρ.Trails (c.proceed op thread q p) (d.proceed op thread (ρ.request q) p') := by
  cases hp with
  | finished hs hab => exact .beside ⟨hs, hstack, .cons (.ends hab hs) hh⟩
  | calling hc hs hresume =>
    exact .beside ⟨hs, .cons (.mk hresume) hstack, .cons (.calls hc hs) hh⟩
  | @skipping call s resume _ hc hresume =>
    have omitted : ρ.Histories (⟨.calls op thread call, s⟩ :: c.history) d.history :=
      .alone hc hh
    exact .ahead (f := ⟨op, thread, q, call, resume⟩) hc hstack omitted hresume

/-- The call of the first run is replied to. -/
theorem reply {f : Frame} {r : f.call.Reply} (ht : ρ.Trails c d) (hf : f ∈ c.stack.head?) :
    ∃ e, Reaches d e ∧ ρ.Trails (c.reply f r) e := by
  cases ht with
  | beside hb =>
    obtain ⟨s, stack, h⟩ := c
    obtain ⟨s', stack', h'⟩ := d
    obtain ⟨hs, hstack, hh⟩ := hb
    cases hstack with
    | nil => cases hf
    | @cons g g' below below' hframe hbelow =>
      obtain rfl : g = f := Option.some.inj hf
      cases hframe with
      | @mk op thread q call resume resume' hresume =>
        obtain ⟨r', hr⟩ := ρ.exists_answer call r
        let f' : Frame := ⟨op, thread, ρ.request q, call, resume'⟩
        have step : Step ⟨s', f' :: below', h'⟩ (.reply call r') _ := @Step.reply _ f' r' rfl
        exact ⟨_, (Reaches.refl _).tail step, .proceed (hresume r r' s s' hr hs) hbelow
          (.cons (.replies hr hs) hh)⟩
  | @ahead s g below h d p hc hbelow hh hp =>
    obtain rfl : g = f := Option.some.inj hf
    exact ⟨_, .refl _, .proceed (hp r) hbelow (.alone hc hh)⟩

end Trails

namespace Beside

variable {c d : Situation}

theorem admits (hb : ρ.Beside c d) (ha : c.Admits) : d.Admits := by
  obtain ⟨s, stack, h⟩ := c
  obtain ⟨s', stack', h'⟩ := d
  obtain ⟨-, hstack, -⟩ := hb
  cases hstack with
  | nil => exact fun f hf => by cases hf
  | cons hframe _ =>
    cases hframe with
    | mk _ =>
      intro f hf
      obtain rfl := Option.some.inj hf
      exact (ρ.mayReenter_eq _).symm.trans (ha _ rfl)

/-- A request is started in both runs. -/
theorem start {thread : Thread} {q : Request} (hb : ρ.Beside c d)
    (hq : Mirrored ρ (ρ.results q) q.operation (ρ.request q).operation) :
    ρ.Trails (c.start thread q) (d.start thread (ρ.request q)) := by
  obtain ⟨hs, hstack, hh⟩ := hb
  have op_eq : d.history.begun = c.history.begun := hh.begun_eq
  rw [Situation.start, Situation.start, op_eq]
  exact .proceed (hq thread _ _ hs) hstack (.cons (.begins hs) hh)

end Beside

end Pairing

/-! ### Runs -/

/-- Along with each run, a second one goes from any state that is like the one
    that the first has started from. -/
theorem Reaches.mirrored {sort : Request → Bool} {s s' : State} {c : Situation}
    (quiet : ρ.Quiet)
    (hq : ∀ q, sort q = true → Mirrored ρ (ρ.results q) q.operation (ρ.request q).operation)
    (hs : ρ.alike s s') (h : Reaches (.initial s) c) (only : c.history.Only sort) :
    ∃ d, Reaches (.initial s') d ∧ ρ.Trails c d := by
  -- by induction on the moves of the first run
  have all : c.history.Only sort → ∃ d, Reaches (.initial s') d ∧ ρ.Trails c d := by
    refine h.invariant (p := fun c => c.history.Only sort →
      ∃ d, Reaches (.initial s') d ∧ ρ.Trails c d)
      (fun _ => ⟨.initial s', .refl _, .beside ⟨hs, .nil, .nil⟩⟩) ?_
    intro c e move ih step only
    obtain ⟨d, reaches, trails⟩ := ih (only.of_suffix step.suffix)
    cases step with
    | @start thread q ha =>
      have sorted : sort q = true := (only.of_suffix (c.suffix_start thread q)).1 _ _ _ rfl
      have beside := trails.beside_of_admits ha quiet
      exact ⟨_, reaches.tail (.start (beside.admits ha)), beside.start (hq q sorted)⟩
    | reply hf =>
      obtain ⟨e, further, trails⟩ := trails.reply hf
      exact ⟨e, reaches.trans further, trails⟩
  exact all only

end CallbackBridge.Run
