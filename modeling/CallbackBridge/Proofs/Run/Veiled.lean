import CallbackBridge.Proofs.Run.Veils

/-! # Runs behind a veil

    Whatever is behind the veil, a run shows what a bare run shows in which the
    outside world makes the same moves.  Two runs with the same moves in front
    of the veil therefore show the same.

    Key ideas:

    1. A run and its histories are seen without what is behind the veil:
       hushed requests and hidden calls are left out, and replies say what they
       say in front of it.  As operations behind the veil count as well, events
       are seen without the number of their operation.
    2. While a run waits in a hidden call the bare run is ahead of it, or the
       whole operation is one that the bare run goes without.
    3. The moves decide what happens, so there is one bare run for all. -/

namespace CallbackBridge

open Run Run.History

/-! ### What is to be seen -/

namespace Veil

/-- What is to be seen of a move. -/
def move? (v : Veil) : Move → Option Move
  | .start thread q => if q.setsLog then none else some (.start thread q)
  | .reply c r => if v.hides c then none else some (.reply c (v.tells c r))

/-- A move that may be made in front of the veil, or behind it. -/
def permitsMove (v : Veil) : Move → Bool
  | .start _ q => v.permits q
  | .reply .. => true

/-- What is to be seen of an event.  What is lost by it is not part of that. -/
def event? (v : Veil) : Event → Option Event
  | .begins _ thread q => if q.setsLog then none else some (.begins 0 thread q)
  | .calls _ thread c => if v.hides c then none else some (.calls 0 thread c)
  | .replies _ thread c r _ =>
    if v.hides c then none else some (.replies 0 thread c (v.tells c r) none)
  | .ends _ thread q result => if q.setsLog then none else some (.ends 0 thread q result)

/-- What is to be seen of a moment. -/
def moment? (v : Veil) (m : Moment) : Option Moment :=
  (v.event? m.event).map fun e => ⟨e, v.plain m.state⟩

/-- What is to be seen of a history. -/
def shown (v : Veil) (h : History) : History :=
  h.filterMap v.moment?

/-- No operation waits in a call that is behind the veil. -/
def Awake (v : Veil) (c : Situation) : Prop :=
  ∀ f ∈ c.stack.head?, v.hides f.call = false

theorem awake_of_atRest {v : Veil} {c : Situation} (rest : c.AtRest) : v.Awake c := by
  have none : c.stack = [] := rest
  simp [Awake, none]

end Veil

/-- What an operation waits in: its thread, what it was asked to do, and its
    call. -/
def Run.Frame.waiting (f : Frame) : Thread × Request × Call :=
  (f.thread, f.request, f.call)

/-- Two runs have come equally far, and look the same: the same requests with the
    same results, the same calls with the same replies, and the same tables and
    counters at each. -/
structure Veil.Same (v : Veil) (c c' : Situation) : Prop where
  state : v.plain c'.state = v.plain c.state
  waiting : c'.stack.map Frame.waiting = c.stack.map Frame.waiting
  history : v.shown c'.history = v.shown c.history

/-- A thread is detached. -/
def Run.Event.isDetach : Event → Bool
  | .calls _ _ (.host .detach) => true
  | _ => false

/-- While the host detaches a thread, it performs no operation. -/
def Run.History.Undisturbed : History → Prop :=
  Always fun m before => m.event.isBegin = true → ∀ last ∈ before.head?, last.event.isDetach = false

instance (h : History) : Decidable h.Undisturbed :=
  inferInstanceAs (Decidable (Always (fun m before => m.event.isBegin = true →
    ∀ last ∈ before.head?, last.event.isDetach = false) h))

namespace Veil

variable {v : Veil} {c d e : Situation} {op op' : Nat} {thread : Thread} {q : Request}

/-! ### A run and a bare one -/

/-- Two operations wait in the same call. -/
inductive Frames (v : Veil) : Frame → Frame → Prop
  | mk {op op' : Nat} {thread : Thread} {q : Request} {c : Call}
    {resume resume' : c.Reply → State → Progress q.Result} :
    v.hides c = false →
    (∀ r s s', v.Alike s s' → Mirrors v.pairing Eq (resume r s) (resume' (v.tells c r) s')) →
    Frames v ⟨op, thread, q, c, resume⟩ ⟨op', thread, q, c, resume'⟩

/-- A run and a bare one have come equally far. -/
structure Beside (v : Veil) (c d : Situation) : Prop where
  state : v.Alike c.state d.state
  stack : List.Forall₂ v.Frames c.stack d.stack
  history : v.shown d.history = v.shown c.history

/-- A bare run goes along with another run, or is ahead of it. -/
inductive Trails (v : Veil) : Situation → Situation → Prop
  | beside {c d : Situation} : v.Beside c d → Trails v c d
  /-- The run waits in a call that is behind the veil. -/
  | ahead {op op' : Nat} {thread : Thread} {q : Request} {call : Call} {s : State}
    {resume : call.Reply → State → Progress q.Result} {below : List Frame} {h : History}
    {d : Situation} {p : Progress q.Result} :
    v.hides call = true → List.Forall₂ v.Frames below d.stack →
    v.shown d.history = v.shown h → (∀ r, Mirrors v.pairing Eq (resume r s) p) →
    Trails v ⟨s, ⟨op, thread, q, call, resume⟩ :: below, ⟨.calls op thread call, s⟩ :: h⟩
      (d.proceed op' thread q p)
  /-- So it does in an operation that is behind the veil as a whole. -/
  | aside {op : Nat} {thread : Thread} {q : Request} {call : Call} {s : State}
    {resume : call.Reply → State → Progress q.Result} {below : List Frame} {h : History}
    {d : Situation} :
    v.hides call = true → q.setsLog = true → List.Forall₂ v.Frames below d.stack →
    v.shown d.history = v.shown h →
    (∀ r, Mirrors v.pairing (fun _ (_ : Unit) => True) (resume r s) (.finished () d.state)) →
    Trails v ⟨s, ⟨op, thread, q, call, resume⟩ :: below, ⟨.calls op thread call, s⟩ :: h⟩ d

theorem shown_cons {m m' : Moment} {h h' : History} (hm : v.moment? m' = v.moment? m)
    (hh : v.shown h' = v.shown h) : v.shown (m' :: h') = v.shown (m :: h) := by
  rw [shown, shown, List.filterMap_cons, List.filterMap_cons, hm]
  rw [shown, shown] at hh
  rw [hh]

theorem shown_of_hidden {m : Moment} {h : History} (hm : v.event? m.event = none) :
    v.shown (m :: h) = v.shown h := by
  simp [shown, moment?, hm]

/-- A hidden call that was replied to is not shown. -/
theorem shown_replied {α : Type} {call : Call} {resume : call.Reply → State → Progress α}
    {r : call.Reply} {s : State} {h : History} (hc : v.hides call = true) :
    v.shown (replyMoment op thread (fun _ _ => none) call resume r s ::
      ⟨.calls op thread call, s⟩ :: h) = v.shown h := by
  rw [shown_of_hidden, shown_of_hidden]
  · exact if_pos hc
  · exact if_pos hc

theorem move?_hidden {call : Call} {r : call.Reply} (hc : v.hides call = true) :
    v.move? (.reply call r) = none :=
  if_pos hc

namespace Beside

/-- Both operations end. -/
theorem ends {s s' : State} {result : q.Result} (hs : v.Alike s s')
    (hstack : List.Forall₂ v.Frames c.stack d.stack)
    (hh : v.shown d.history = v.shown c.history) :
    v.Beside (c.proceed op thread q (.finished result s))
      (d.proceed op' thread q (.finished result s')) := by
  refine ⟨hs, hstack, shown_cons ?_ hh⟩
  simp [moment?, event?, hs.plain_eq]

/-- Both operations make the same call. -/
theorem calls {call : Call} {s s' : State} {resume resume' : call.Reply → State → Progress q.Result}
    (hc : v.pairing.makes call = true) (hs : v.Alike s s')
    (hresume : ∀ r r' t t', v.pairing.answers call r r' → v.Alike t t' →
      Mirrors v.pairing Eq (resume r t) (resume' r' t'))
    (hstack : List.Forall₂ v.Frames c.stack d.stack)
    (hh : v.shown d.history = v.shown c.history) :
    v.Beside (c.proceed op thread q (.calling call s resume))
      (d.proceed op' thread q (.calling call s' resume')) := by
  have seen : v.hides call = false := by simpa [pairing] using hc
  have frames : v.Frames ⟨op, thread, q, call, resume⟩ ⟨op', thread, q, call, resume'⟩ :=
    .mk seen fun r t t' ht => hresume r _ t t' rfl ht
  refine ⟨hs, .cons frames hstack, shown_cons ?_ hh⟩
  simp [moment?, event?, hs.plain_eq]

end Beside

namespace Trails

/-- Two operations run on. -/
theorem proceed {p p' : Progress q.Result} (hp : Mirrors v.pairing Eq p p')
    (hstack : List.Forall₂ v.Frames c.stack d.stack)
    (hh : v.shown d.history = v.shown c.history) :
    v.Trails (c.proceed op thread q p) (d.proceed op' thread q p') := by
  cases hp with
  | finished hs hab => exact .beside (hab ▸ .ends hs hstack hh)
  | calling hc hs hresume => exact .beside (.calls hc hs hresume hstack hh)
  | skipping hc hresume => exact .ahead hc hstack hh hresume

/-- An operation runs on that is behind the veil. -/
theorem proceed_aside {p : Progress q.Result} (hl : q.setsLog = true)
    (hp : Mirrors v.pairing (fun _ (_ : Unit) => True) p (.finished () d.state))
    (hstack : List.Forall₂ v.Frames c.stack d.stack)
    (hh : v.shown d.history = v.shown c.history) :
    v.Trails (c.proceed op thread q p) d := by
  cases hp with
  | finished hs _ =>
    refine .beside ⟨hs, hstack, hh.trans (shown_of_hidden ?_).symm⟩
    exact if_pos hl
  | skipping hc hresume => exact .aside hc hl hstack hh hresume

/-- A request is started only where the two have come equally far, as nothing
    begins in a hidden call. -/
theorem beside_of_admits (ht : v.Trails c d) (ha : c.Admits)
    (calm : v = .attachments → ∀ last ∈ c.history.head?, last.event.isDetach = false) :
    v.Beside c d := by
  have quiet : ∀ {call : Call} {op thread s} {h : History}, v.hides call = true →
      call.mayReenter = true → c.history = ⟨.calls op thread call, s⟩ :: h → False := by
    intro call op thread s h hides loud heq
    cases call with
    | log | system => cases loud
    | engine | library => cases hides
    | host call =>
      cases call with
      | detach =>
        have veil : v = .attachments := by simpa [Veil.hides] using hides
        have last := calm veil ⟨.calls op thread (.host .detach), s⟩ (by simp [heq])
        cases last
      | _ => cases hides
  cases ht with
  | beside hb => exact hb
  | ahead hc _ _ _ => exact (quiet hc (ha _ rfl) rfl).elim
  | aside hc _ _ _ _ => exact (quiet hc (ha _ rfl) rfl).elim

/-- Nor does the bare run ever wait in one. -/
theorem beside_of_awake (ht : v.Trails c d) (ha : v.Awake c) : v.Beside c d := by
  have wakes : ∀ {f : Frame}, f ∈ c.stack.head? → v.hides f.call = true → False := by
    intro f hf hides
    rw [ha f hf] at hides
    cases hides
  cases ht with
  | beside hb => exact hb
  | ahead hc _ _ _ => exact (wakes rfl hc).elim
  | aside hc _ _ _ _ => exact (wakes rfl hc).elim

/-- A call is replied to. -/
theorem reply {f : Frame} {r : f.call.Reply} (ht : v.Trails c d) (hf : f ∈ c.stack.head?) :
    ∃ e, Run.Path d (v.move? (.reply f.call r)).toList e ∧ v.Trails (c.reply f r) e := by
  cases ht with
  | @beside c d hb =>
    obtain ⟨s, stack, h⟩ := c
    obtain ⟨s', stack', h'⟩ := d
    obtain ⟨hs, hstack, hh⟩ := hb
    cases hstack with
    | nil => cases hf
    | @cons g g' below below' hframe hbelow =>
      obtain rfl : g = f := Option.some.inj hf
      cases hframe with
      | @mk op op' thread q call resume resume' hc hresume =>
        let f' : Frame := ⟨op', thread, q, call, resume'⟩
        let d : Situation := ⟨s', f' :: below', h'⟩
        have step : Step d (.reply call (v.tells call r)) (d.reply f' (v.tells call r)) :=
          @Step.reply d f' (v.tells call r) rfl
        have seen : v.move? (.reply call r) = some (.reply call (v.tells call r)) := by
          simp [move?, hc]
        have answered : v.shown (d.answered f' (v.tells call r)).history =
            v.shown (Situation.answered ⟨s, ⟨op, thread, q, call, resume⟩ :: below, h⟩
              ⟨op, thread, q, call, resume⟩ r).history := by
          refine shown_cons ?_ hh
          simp [moment?, event?, hc, replyMoment, tells_tells, hs.plain_eq, f', d]
        refine ⟨_, by rw [seen]; exact step.path, ?_⟩
        exact .proceed (hresume r s s' hs) hbelow answered
  | ahead hc hbelow hh hp =>
    obtain rfl := Option.some.inj hf
    exact ⟨_, by rw [move?_hidden hc]; exact .refl,
      .proceed (hp r) hbelow (hh.trans (shown_replied hc).symm)⟩
  | aside hc hl hbelow hh hp =>
    obtain rfl := Option.some.inj hf
    exact ⟨_, by rw [move?_hidden hc]; exact .refl,
      .proceed_aside hl (hp r) hbelow (hh.trans (shown_replied hc).symm)⟩

end Trails

namespace Beside

theorem admits_iff (hb : v.Beside c d) : d.Admits ↔ c.Admits := by
  obtain ⟨s, stack, h⟩ := c
  obtain ⟨s', stack', h'⟩ := d
  obtain ⟨-, hstack, -⟩ := hb
  cases hstack with
  | nil => exact ⟨fun _ f hf => (by cases hf), fun _ f hf => (by cases hf)⟩
  | cons hframe _ => cases hframe with | mk _ _ => simp [Situation.Admits]

/-- A request is started, in both runs or behind the veil. -/
theorem start (hb : v.Beside c d) (hq : v.permits q = true) (ha : c.Admits) :
    ∃ e, Run.Path d (v.move? (.start thread q)).toList e ∧ v.Trails (c.start thread q) e := by
  obtain ⟨hs, hstack, hh⟩ := id hb
  cases hl : q.setsLog with
  | true =>
    have hidden : v.move? (.start thread q) = none := if_pos hl
    refine ⟨d, by rw [hidden]; exact .refl, ?_⟩
    refine .proceed_aside hl (silent hq hl thread _ _ hs) hstack ?_
    exact hh.trans (shown_of_hidden (by exact if_pos hl)).symm
  | false =>
    have seen : v.move? (.start thread q) = some (.start thread q) := by simp [move?, hl]
    refine ⟨d.start thread q, ?_, ?_⟩
    · rw [seen]
      exact Step.path (.start (hb.admits_iff.mpr ha))
    · refine .proceed (request hq hl thread _ _ hs) hstack (shown_cons ?_ hh)
      simp [moment?, event?, hs.plain_eq]

end Beside

/-- Each move is one of the bare run as well, or is behind the veil. -/
theorem Trails.step {move : Move} (ht : v.Trails c d) (hstep : Step c move e)
    (permitted : v.permitsMove move = true) (calm : v = .attachments → e.history.Undisturbed) :
    ∃ e', Run.Path d (v.move? move).toList e' ∧ v.Trails e e' := by
  cases hstep with
  | @start thread q ha =>
    have beside : v.Beside c d := ht.beside_of_admits ha fun veil =>
      ((calm veil).of_suffix (c.suffix_start thread q)).1 rfl
    exact beside.start permitted ha
  | reply hf => exact ht.reply hf

/-! ### From a bare run to another one -/

/-- Hidden calls are replied to, until the operation has come to where the bare
    run is. -/
theorem wake (op op' : Nat) {p p' : Progress q.Result} (hp : Mirrors v.pairing Eq p p')
    (hstack : List.Forall₂ v.Frames c.stack d.stack)
    (hh : v.shown d.history = v.shown c.history) :
    ∃ moves e, Run.Path (c.proceed op thread q p) moves e ∧ moves.filterMap v.move? = [] ∧
      v.Beside e (d.proceed op' thread q p') := by
  induction hp generalizing c with
  | finished hs hab => exact ⟨[], _, .refl, rfl, hab ▸ .ends hs hstack hh⟩
  | calling hc hs hresume _ => exact ⟨[], _, .refl, rfl, .calls hc hs hresume hstack hh⟩
  | @skipping call s resume p' hc _ ih =>
    have replies : Nonempty call.Reply := by
      cases call with
      | log => exact ⟨()⟩
      | engine | library | system => cases hc
      | host call => cases call <;> first | exact ⟨()⟩ | cases hc
    obtain ⟨r⟩ := replies
    let f : Frame := ⟨op, thread, q, call, resume⟩
    let waiting := c.proceed op thread q (.calling call s resume)
    have step : Step waiting (.reply call r) (waiting.reply f r) := @Step.reply _ f r rfl
    obtain ⟨moves, e, path, hidden, beside⟩ := ih r (c := waiting.answered f r) hstack
      (hh.trans (shown_replied hc).symm)
    refine ⟨[.reply call r] ++ moves, e, step.path.append path, ?_, beside⟩
    simp [move?_hidden hc, hidden]

/-- A move of the bare run is one of the other run as well. -/
theorem Beside.follow {move : Move} (hb : v.Beside c d) (hstep : Step d move e)
    (permitted : v.permitsMove move = true) (seen : v.move? move = some move) :
    ∃ moves e', Run.Path c moves e' ∧ moves.filterMap v.move? = [move] ∧ v.Beside e' e := by
  cases hstep with
  | @start thread q ha =>
    have hl : q.setsLog = false := by
      cases hl : q.setsLog with
      | true => simp [move?, hl] at seen
      | false => rfl
    have begins : Step c (.start thread q) (c.start thread q) := .start (hb.admits_iff.mp ha)
    have shown_eq : v.shown (d.note (.begins d.history.begun thread q)).history =
        v.shown (c.note (.begins c.history.begun thread q)).history := by
      refine shown_cons ?_ hb.history
      simp [moment?, event?, hb.state.plain_eq]
    obtain ⟨moves, e, path, hidden, beside⟩ := wake c.history.begun d.history.begun
      (c := c.note (.begins c.history.begun thread q))
      (d := d.note (.begins d.history.begun thread q))
      (request permitted hl thread _ _ hb.state) hb.stack shown_eq
    refine ⟨[.start thread q] ++ moves, e, begins.path.append path, ?_, beside⟩
    simp [seen, hidden]
  | @reply f' r hf' =>
    obtain ⟨s, stack, h⟩ := c
    obtain ⟨s', stack', h'⟩ := d
    obtain ⟨hs, hstack, hh⟩ := hb
    cases hstack with
    | nil => cases hf'
    | @cons f g' below below' hframe hbelow =>
      obtain rfl : g' = f' := Option.some.inj hf'
      cases hframe with
      | @mk op op' thread q call resume resume' hc hresume =>
        have told : v.tells call r = r := by simpa [move?, hc] using seen
        let f : Frame := ⟨op, thread, q, call, resume⟩
        let f' : Frame := ⟨op', thread, q, call, resume'⟩
        let c : Situation := ⟨s, f :: below, h⟩
        let d : Situation := ⟨s', f' :: below', h'⟩
        have step : Step c (.reply call r) (c.reply f r) := @Step.reply c f r rfl
        have goesOn : Mirrors v.pairing Eq (resume r s) (resume' r s') := by
          have along := hresume r s s' hs
          rwa [told] at along
        have shown_eq : v.shown (d.answered f' r).history = v.shown (c.answered f r).history := by
          refine shown_cons ?_ hh
          simp [moment?, event?, replyMoment, hs.plain_eq, f, f', c, d]
        obtain ⟨moves, e, path, hidden, beside⟩ := wake op op'
          (c := c.answered f r) (d := d.answered f' r) goesOn hbelow shown_eq
        refine ⟨[.reply call r] ++ moves, e, step.path.append path, ?_, beside⟩
        rw [List.filterMap_append, hidden, List.append_nil]
        simp [seen]

/-- From any state that looks like the one that a bare run has started from, a
    run goes that looks like it. -/
theorem exists_beside {s s' : State} {moves : List Move} (bare : Run.Path (.initial s') moves d)
    (hs : v.Alike s s') (permitted : ∀ move ∈ moves, v.permitsMove move = true)
    (seen : ∀ move ∈ moves, v.move? move = some move) :
    ∃ moves' c, Run.Path (.initial s) moves' c ∧ moves'.filterMap v.move? = moves ∧
      v.Beside c d := by
  induction bare with
  | refl => exact ⟨[], _, .refl, rfl, hs, .nil, rfl⟩
  | @snoc moves move d e path step ih =>
    obtain ⟨moves', c, path', seen', beside⟩ :=
      ih (fun m hm => permitted m (List.mem_append_left _ hm))
        fun m hm => seen m (List.mem_append_left _ hm)
    obtain ⟨more, c', further, added, beside'⟩ :=
      beside.follow step (permitted move (by simp)) (seen move (by simp))
    refine ⟨moves' ++ more, c', path'.append further, ?_, beside'⟩
    rw [List.filterMap_append, seen', added]

/-! ### Two runs -/

/-- A run of requests that may be in front of a veil or behind it. -/
structure Run (v : Veil) (s : State) (moves : List Move) (c : Situation) : Prop where
  path : Run.Path (.initial s) moves c
  permitted : ∀ move ∈ moves, v.permitsMove move = true
  /-- The host performs no operation while it detaches a thread. -/
  undisturbed : v = .attachments → c.history.Undisturbed

/-- Along with a run goes a bare one, with the moves that are in front of the
    veil. -/
theorem Run.bare {s : State} {moves : List Move} (run : v.Run s moves c) :
    ∃ d, Run.Path (.initial (v.plain s)) (moves.filterMap v.move?) d ∧ v.Trails c d := by
  obtain ⟨path, permitted, undisturbed⟩ := run
  -- by induction on the moves
  induction path with
  | refl => exact ⟨_, .refl, .beside ⟨alike_plain s, .nil, rfl⟩⟩
  | @snoc moves move d e path step ih =>
    obtain ⟨d', bare, trails⟩ := ih (fun m hm => permitted m (List.mem_append_left _ hm))
      fun veil => (undisturbed veil).of_suffix step.suffix
    obtain ⟨e', further, trails⟩ := trails.step step (permitted move (by simp)) undisturbed
    refine ⟨e', ?_, trails⟩
    have moves_eq : (moves ++ [move]).filterMap v.move? =
        moves.filterMap v.move? ++ (v.move? move).toList := by
      rw [List.filterMap_append]
      cases hm : v.move? move <;> simp [hm]
    rw [moves_eq]
    exact bare.append further

theorem Beside.waiting_eq (hb : v.Beside c d) :
    d.stack.map Frame.waiting = c.stack.map Frame.waiting := by
  have same : ∀ {below below' : List Frame}, List.Forall₂ v.Frames below below' →
      below'.map Frame.waiting = below.map Frame.waiting := by
    intro below below' hstack
    induction hstack with
    | nil => rfl
    | cons hframe _ ih =>
      rw [List.map_cons, List.map_cons, ih]
      cases hframe with | mk _ _ => rfl
  exact same hb.stack

/-- Two runs look the same that look like the same bare one. -/
theorem Beside.same {c' : Situation} (hb : v.Beside c d) (hb' : v.Beside c' d) : v.Same c c' where
  state := hb'.state.plain_eq.symm.trans hb.state.plain_eq
  waiting := hb'.waiting_eq.symm.trans hb.waiting_eq
  history := hb'.history.symm.trans hb.history

/-- What is to be seen of a move is permitted, and all of it is to be seen. -/
theorem move?_move? {move seen : Move} (hm : v.move? move = some seen) :
    v.permitsMove seen = v.permitsMove move ∧ v.move? seen = some seen := by
  cases move with
  | start thread q =>
    simp only [move?, Option.ite_none_left_eq_some, Option.some.injEq] at hm
    obtain ⟨hl, rfl⟩ := hm
    exact ⟨rfl, if_neg hl⟩
  | reply c r =>
    simp only [move?, Option.ite_none_left_eq_some, Option.some.injEq] at hm
    obtain ⟨hc, rfl⟩ := hm
    refine ⟨rfl, ?_⟩
    simp [move?, hc, tells_tells]

/-- Each run has a counterpart from any state that looks the same. -/
theorem Run.counterpart {s s' : State} {moves : List Move} {c : Situation} (run : v.Run s moves c)
    (plain : v.plain s' = v.plain s) (awake : v.Awake c) :
    ∃ moves' c', Run.Path (.initial s') moves' c' ∧
      moves'.filterMap v.move? = moves.filterMap v.move? ∧ v.Same c c' := by
  obtain ⟨d, bare, trails⟩ := run.bare
  have alike : v.Alike s' (v.plain s) := plain ▸ alike_plain s'
  have front : ∀ move ∈ moves.filterMap v.move?,
      v.permitsMove move = true ∧ v.move? move = some move := by
    intro seen hseen
    obtain ⟨move, hm, heq⟩ := List.mem_filterMap.mp hseen
    obtain ⟨permitted, again⟩ := move?_move? heq
    exact ⟨permitted.trans (run.permitted move hm), again⟩
  obtain ⟨moves', c', path, seen, beside⟩ :=
    exists_beside bare alike (fun m hm => (front m hm).1) fun m hm => (front m hm).2
  exact ⟨moves', c', path, seen, (trails.beside_of_awake awake).same beside⟩

/-- Where the moves in front of the veil are the same, two runs look the same. -/
theorem Run.same {s s' : State} {moves moves' : List Move} {c c' : Situation}
    (run : v.Run s moves c) (run' : v.Run s' moves' c') (plain : v.plain s' = v.plain s)
    (seen : moves'.filterMap v.move? = moves.filterMap v.move?) (awake : v.Awake c)
    (awake' : v.Awake c') : v.Same c c' := by
  obtain ⟨d, bare, trails⟩ := run.bare
  obtain ⟨d', bare', trails'⟩ := run'.bare
  rw [plain, seen] at bare'
  -- the two bare runs are one
  obtain rfl := bare.unique bare'
  exact (trails.beside_of_awake awake).same (trails'.beside_of_awake awake')

end Veil

end CallbackBridge
