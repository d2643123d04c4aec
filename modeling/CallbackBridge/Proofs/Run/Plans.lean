import CallbackBridge.Proofs.Run.Keeping
import Mathlib.Algebra.Order.Group.Multiset

/-! # Plans of operations

    What one operation does depends on the state in which it began and on what
    the foreign code told it since.  A plan speaks about just that; whatever is
    nested in its calls does not matter to it.

    Key ideas:

    1. An `Exchange` is a call with its reply and with the state at that time.
       The log and the operating system leave the state alone, so exchanges
       with them are left out.
    2. `Progress.Follows` checks a plan along the tree of an operation.
    3. `Reaches.accounted` carries it over to runs: where the tree of each
       request follows a plan, each event of a run is as planned. -/

namespace CallbackBridge

open Run

/-- A call that was replied to, and the state at the reply. -/
structure Exchange where
  call : Call
  reply : call.Reply
  state : State

/-- Adds an exchange, newest first.  The log and the operating system do not
    count. -/
def Exchange.add (call : Call) (reply : call.Reply) (s : State) (told : List Exchange) :
    List Exchange :=
  if call.mayReenter then ⟨call, reply, s⟩ :: told else told

/-- What an operation keeps to. -/
structure Plan (α : Type) where
  /-- What it may call, after some exchanges and in a state. -/
  calls : List Exchange → Call → State → Prop
  /-- What it may result in. -/
  ends : List Exchange → α → State → Prop

/-- After the exchanges `told` the operation goes on by the plan. -/
def Progress.Follows {α : Type} (plan : Plan α) : List Exchange → Progress α → Prop
  | told, .finished a s => plan.ends told a s
  | told, .calling call s resume =>
    plan.calls told call s ∧ ∀ reply s', (call.mayReenter = false → s' = s) →
      (resume reply s').Follows plan (Exchange.add call reply s' told)

namespace Progress.Follows

variable {α β : Type} {plan : Plan α} {p : Progress α} {told : List Exchange}

theorem mono {plan' : Plan α} (hp : p.Follows plan told)
    (hc : ∀ told call s, plan.calls told call s → plan'.calls told call s)
    (he : ∀ told a s, plan.ends told a s → plan'.ends told a s) : p.Follows plan' told := by
  induction p generalizing told with
  | finished a s => exact he _ _ _ hp
  | calling call s resume ih =>
    exact ⟨hc _ _ _ hp.1, fun reply s' hs => ih reply s' (hp.2 reply s' hs)⟩

theorem and {plan' : Plan α} (hp : p.Follows plan told) (hp' : p.Follows plan' told) :
    p.Follows ⟨fun told call s => plan.calls told call s ∧ plan'.calls told call s,
      fun told a s => plan.ends told a s ∧ plan'.ends told a s⟩ told := by
  induction p generalizing told with
  | finished a s => exact ⟨hp, hp'⟩
  | calling call s resume ih =>
    exact ⟨⟨hp.1, hp'.1⟩, fun reply s' hs => ih reply s' (hp.2 reply s' hs) (hp'.2 reply s' hs)⟩

/-- An operation that has been told something may be followed from there. -/
theorem shift {told₀ : List Exchange}
    (hp : p.Follows ⟨fun told => plan.calls (told ++ told₀), fun told => plan.ends (told ++ told₀)⟩
      told) : p.Follows plan (told ++ told₀) := by
  induction p generalizing told with
  | finished a s => exact hp
  | calling call s resume ih =>
    refine ⟨hp.1, fun reply s' hs => ?_⟩
    have later : Exchange.add call reply s' (told ++ told₀) =
        Exchange.add call reply s' told ++ told₀ := by
      unfold Exchange.add
      split <;> rfl
    rw [later]
    exact ih reply s' (hp.2 reply s' hs)

/-- The plan that asks for nothing. -/
theorem anything (p : Progress α) (told : List Exchange) :
    p.Follows ⟨fun _ _ _ => True, fun _ _ _ => True⟩ told := by
  induction p generalizing told with
  | finished a s => trivial
  | calling call s resume ih => exact ⟨trivial, fun reply s' _ => ih reply s' _⟩

/-- A sequence follows a plan if its second part does from wherever the first
    one ends. -/
theorem bind {plan : Plan β} {f : α → State → Progress β}
    (hp : p.Follows ⟨plan.calls, fun told a s => (f a s).Follows plan told⟩ told) :
    (p.bind f).Follows plan told := by
  induction p generalizing told with
  | finished a s => exact hp
  | calling call s resume ih =>
    exact ⟨hp.1, fun reply s' hs => ih reply s' (hp.2 reply s' hs)⟩

end Progress.Follows

namespace Run

/-! ### Events of one operation -/

/-- The operation that an event belongs to. -/
def Event.op : Event → Nat
  | .begins op .. | .calls op .. | .replies op .. | .ends op .. => op

namespace History

/-- The exchange that an event adds to those of operation `op`. -/
def exchanges (op : Nat) : History → List Exchange
  | [] => []
  | m :: before =>
    match m.event with
    | .replies op' _ call reply _ =>
      if op' = op then Exchange.add call reply m.state (exchanges op before)
      else exchanges op before
    | _ => exchanges op before

/-- Adds a call, newest first.  The log and the operating system do not
    count. -/
def addCall (call : Call) (made : List Call) : List Call :=
  if call.mayReenter then call :: made else made

/-- The calls of operation `op`, newest first. -/
def made (op : Nat) : History → List Call
  | [] => []
  | m :: before =>
    match m.event with
    | .calls op' _ call => if op' = op then addCall call (made op before) else made op before
    | _ => made op before

/-- A moment is as every plan of its operation has it, and an operation goes
    on only when its last call was replied to. -/
def Accounted (m : Moment) (before : History) : Prop :=
  match m.event with
  | .begins op _ _ => op = before.begun
  | .calls op thread call =>
    made op before = (exchanges op before).map (·.call) ∧
    ∃ q s, ⟨.begins op thread q, s⟩ ∈ before ∧ ∀ plan, (q.operation thread s).Follows plan [] →
      plan.calls (exchanges op before) call m.state
  | .replies .. => True
  | .ends op thread q result =>
    made op before = (exchanges op before).map (·.call) ∧
    ∃ s, ⟨.begins op thread q, s⟩ ∈ before ∧ ∀ plan, (q.operation thread s).Follows plan [] →
      plan.ends (exchanges op before) result m.state

theorem exchanges_of_ne {op : Nat} {m : Moment} {before : History} (h : m.event.op ≠ op) :
    exchanges op (m :: before) = exchanges op before := by
  obtain ⟨e, s⟩ := m
  cases e with
  | replies op' thread call reply lost => exact if_neg h
  | _ => rfl

theorem made_of_ne {op : Nat} {m : Moment} {before : History} (h : m.event.op ≠ op) :
    made op (m :: before) = made op before := by
  obtain ⟨e, s⟩ := m
  cases e with
  | calls op' thread call => exact if_neg h
  | _ => rfl

theorem exchanges_cons_suffix (op : Nat) (m : Moment) (before : History) :
    exchanges op before <:+ exchanges op (m :: before) := by
  obtain ⟨e, s⟩ := m
  cases e with
  | replies op' thread call reply lost =>
    show _ <:+ if op' = op then Exchange.add call reply s (exchanges op before) else _
    unfold Exchange.add
    split
    · split
      · exact List.suffix_cons ..
      · exact List.suffix_refl _
    · exact List.suffix_refl _
  | _ => exact List.suffix_refl _

/-- What an operation was told first stays first. -/
theorem exchanges_suffix {k h : History} (hs : k <:+ h) (op : Nat) :
    exchanges op k <:+ exchanges op h := by
  induction h with
  | nil =>
    obtain rfl := List.suffix_nil.mp hs
    exact List.suffix_refl _
  | cons m before ih =>
    rcases List.suffix_cons_iff.mp hs with rfl | hs
    · exact List.suffix_refl _
    · exact (ih hs).trans (exchanges_cons_suffix op m before)

/-- An operation that has not begun has no part in a history. -/
theorem untold {op : Nat} {h : History} (hn : ∀ m ∈ h, m.event.op ≠ op) :
    exchanges op h = [] ∧ made op h = [] := by
  induction h with
  | nil => exact ⟨rfl, rfl⟩
  | cons m before ih =>
    have here := hn m (List.mem_cons_self ..)
    rw [exchanges_of_ne here, made_of_ne here]
    exact ih fun m hm => hn m (List.mem_cons_of_mem _ hm)

theorem mem_made {h : History} {op : Nat} {thread : Thread} {call : Call} {s : State}
    (hm : ⟨.calls op thread call, s⟩ ∈ h) (hc : call.mayReenter = true) : call ∈ made op h := by
  induction h with
  | nil => cases hm
  | cons m before ih =>
    rcases List.mem_cons.mp hm with rfl | hm
    · simp [made, addCall, hc]
    · have older := ih hm
      unfold made
      split
      · split
        · unfold addCall
          split
          · exact List.mem_cons_of_mem _ older
          · exact older
        · exact older
      · exact older

/-- Operation `op` calls `call`. -/
def Calls (h : History) (op : Nat) (call : Call) : Prop :=
  ∃ thread s, ⟨.calls op thread call, s⟩ ∈ h

theorem calls_of_mem_made {h : History} {op : Nat} {call : Call} (hc : call ∈ made op h) :
    h.Calls op call := by
  induction h with
  | nil => cases hc
  | cons m before ih =>
    have older : call ∈ made op before → Calls (m :: before) op call := by
      intro hc
      obtain ⟨thread, s, hm⟩ := ih hc
      exact ⟨thread, s, List.mem_cons_of_mem _ hm⟩
    obtain ⟨e, s⟩ := m
    cases e with
    | calls op' thread call' =>
      simp only [made, addCall] at hc
      split at hc
      · next hop =>
        subst hop
        split at hc
        · rcases List.mem_cons.mp hc with rfl | hc
          · exact ⟨thread, s, List.mem_cons_self ..⟩
          · exact older hc
        · exact older hc
      · exact older hc
    | _ => exact older hc

end History

open History

/-! ### The rules -/

/-- What an operation in progress has called and was told. -/
structure Talk where
  op : Nat
  told : List Exchange
  made : List Call

/-- Each operation in progress has its talk in hand. -/
structure Told (h : History) (talks : Multiset Talk) : Prop where
  /-- Events belong to operations that have begun. -/
  numbered : ∀ m ∈ h, m.event.op < h.begun
  begun : ∀ x ∈ talks, x.op < h.begun
  told : ∀ x ∈ talks, exchanges x.op h = x.told
  made : ∀ x ∈ talks, made x.op h = x.made
  distinct : (talks.map (·.op)).Nodup
  accounted : h.Always Accounted

/-- Operations go by their plans. -/
def planned : Rules (Multiset Talk) where
  holds _ h talks := Told h talks
  permits _ _ := True
  conduct _ _ := True

theorem History.begun_cons (m : Moment) (h : History) :
    History.begun (m :: h) = h.begun + if m.event.isBegin then 1 else 0 := by
  simp [History.begun, List.countP_cons]

namespace Told

variable {h : History} {talks : Multiset Talk} {thread : Thread} {q : Request} {s : State}
  {x y : Talk}

theorem of_mem (ht : Told h (talks + {x})) :
    exchanges x.op h = x.told ∧ History.made x.op h = x.made :=
  ⟨ht.told x (by simp), ht.made x (by simp)⟩

theorem ne_of_mem (ht : Told h (talks + {x})) (hy : y ∈ talks) : x.op ≠ y.op := by
  have hd := ht.distinct
  rw [add_comm, Multiset.singleton_add, Multiset.map_cons, Multiset.nodup_cons] at hd
  intro heq
  exact hd.1 (Multiset.mem_map.mpr ⟨y, hy, heq.symm⟩)

/-- An operation begins with nothing told. -/
theorem begin (ht : Told h talks) :
    Told (⟨.begins h.begun thread q, s⟩ :: h) (talks + {⟨h.begun, [], []⟩}) := by
  have more : History.begun (⟨.begins h.begun thread q, s⟩ :: h) = h.begun + 1 := by
    rw [History.begun_cons]
    rfl
  -- the number is new, so no event before belongs to it
  have none := untold fun m hm => Nat.ne_of_lt (ht.numbered m hm)
  refine ⟨?_, ?_, ?_, ?_, ?_, rfl, ht.accounted⟩
  · rw [more]
    intro m hm
    rcases List.mem_cons.mp hm with rfl | hm
    · exact Nat.lt_succ_self _
    · exact Nat.lt_succ_of_lt (ht.numbered m hm)
  · rw [more]
    intro y hy
    rcases Multiset.mem_add.mp hy with hy | hy
    · exact Nat.lt_succ_of_lt (ht.begun y hy)
    · obtain rfl := Multiset.mem_singleton.mp hy
      exact Nat.lt_succ_self _
  · intro y hy
    rcases Multiset.mem_add.mp hy with hy | hy
    · exact ht.told y hy
    · obtain rfl := Multiset.mem_singleton.mp hy
      exact none.1
  · intro y hy
    rcases Multiset.mem_add.mp hy with hy | hy
    · exact ht.made y hy
    · obtain rfl := Multiset.mem_singleton.mp hy
      exact none.2
  · rw [add_comm, Multiset.singleton_add, Multiset.map_cons, Multiset.nodup_cons]
    refine ⟨fun hm => ?_, ht.distinct⟩
    obtain ⟨y, hy, heq⟩ := Multiset.mem_map.mp hm
    exact Nat.ne_of_lt (ht.begun y hy) heq

/-- Another event of an operation in progress. -/
theorem event {e : Event} {told : List Exchange} {made' : List Call} (ht : Told h (talks + {x}))
    (hop : e.op = x.op) (hb : e.isBegin = false) (htold : exchanges x.op (⟨e, s⟩ :: h) = told)
    (hmade : History.made x.op (⟨e, s⟩ :: h) = made') (ha : Accounted ⟨e, s⟩ h) :
    Told (⟨e, s⟩ :: h) (talks + {⟨x.op, told, made'⟩}) := by
  have same : History.begun (⟨e, s⟩ :: h) = h.begun := by
    rw [History.begun_cons]
    simp [hb]
  have here : x.op < h.begun := ht.begun x (by simp)
  -- what the others were told does not change
  have others : ∀ y ∈ talks, (⟨e, s⟩ : Moment).event.op ≠ y.op :=
    fun y hy => hop ▸ ht.ne_of_mem hy
  refine ⟨?_, ?_, ?_, ?_, by simpa using ht.distinct, ha, ht.accounted⟩
  · rw [same]
    refine List.forall_mem_cons.mpr ⟨?_, ht.numbered⟩
    show e.op < h.begun
    rwa [hop]
  · rw [same]
    intro y hy
    rcases Multiset.mem_add.mp hy with hy | hy
    · exact ht.begun y (Multiset.mem_add.mpr (.inl hy))
    · obtain rfl := Multiset.mem_singleton.mp hy
      exact here
  · intro y hy
    rcases Multiset.mem_add.mp hy with hy | hy
    · rw [exchanges_of_ne (others y hy)]
      exact ht.told y (Multiset.mem_add.mpr (.inl hy))
    · obtain rfl := Multiset.mem_singleton.mp hy
      exact htold
  · intro y hy
    rcases Multiset.mem_add.mp hy with hy | hy
    · rw [made_of_ne (others y hy)]
      exact ht.made y (Multiset.mem_add.mpr (.inl hy))
    · obtain rfl := Multiset.mem_singleton.mp hy
      exact hmade

/-- An operation ends, and what it was told does not matter any more. -/
theorem drop (ht : Told h (talks + {x})) : Told h talks := by
  have sub : ∀ y ∈ talks, y ∈ talks + {x} := fun y hy => Multiset.mem_add.mpr (.inl hy)
  refine ⟨ht.numbered, fun y hy => ht.begun y (sub y hy), fun y hy => ht.told y (sub y hy),
    fun y hy => ht.made y (sub y hy), ?_, ht.accounted⟩
  exact Multiset.nodup_of_le (Multiset.map_le_map (Multiset.le_add_right ..)) ht.distinct

end Told

theorem map_add_exchange (call : Call) (reply : call.Reply) (s : State) (told : List Exchange) :
    (Exchange.add call reply s told).map (·.call) = addCall call (told.map (·.call)) := by
  unfold Exchange.add addCall
  split <;> rfl

/-- An operation that has come to `p` goes on as each plan has it. -/
theorem keeps_planned {op : Nat} {thread : Thread} {q : Request} {s₀ : State}
    (p : Progress q.Result) {h : History} {rest : Multiset Talk} {told : List Exchange}
    (hb : ⟨.begins op thread q, s₀⟩ ∈ h)
    (hp : ∀ plan, (q.operation thread s₀).Follows plan [] → p.Follows plan told)
    (ht : Told h (rest + {⟨op, told, told.map (·.call)⟩})) :
    Keeps planned op thread (fun _ _ => none) (planned.ends op thread q) p h rest := by
  induction p generalizing h rest told with
  | finished result s =>
    obtain ⟨same, answered⟩ : exchanges op h = told ∧ made op h = told.map (·.call) := ht.of_mem
    have ended : Accounted ⟨.ends op thread q result, s⟩ h := by
      refine ⟨by rw [same, answered], s₀, hb, fun plan hf => ?_⟩
      rw [same]
      exact hp plan hf
    have told' : exchanges op (⟨.ends op thread q result, s⟩ :: h) = told := same
    have made' : made op (⟨.ends op thread q result, s⟩ :: h) = told.map (·.call) := answered
    exact (ht.event rfl rfl told' made' ended).drop
  | calling call s resume ih =>
    obtain ⟨same, answered⟩ : exchanges op h = told ∧ made op h = told.map (·.call) := ht.of_mem
    have called : Accounted ⟨.calls op thread call, s⟩ h := by
      refine ⟨by rw [same, answered], q, s₀, hb, fun plan hf => ?_⟩
      rw [same]
      exact (hp plan hf).1
    have told' : exchanges op (⟨.calls op thread call, s⟩ :: h) = told := same
    have made' : made op (⟨.calls op thread call, s⟩ :: h) =
        addCall call (told.map (·.call)) := by
      show (if op = op then addCall call (made op h) else made op h) = _
      rw [if_pos rfl, answered]
    have waiting : Told (⟨.calls op thread call, s⟩ :: h)
        (rest + {⟨op, told, addCall call (told.map (·.call))⟩}) :=
      ht.event rfl rfl told' made' called
    refine ⟨_, trivial, waiting, ?_⟩
    -- whatever happened meanwhile, this operation was told just this reply
    intro r s' h' rest' ht' hs hq _
    have ht' : Told h' (rest' + {⟨op, told, addCall call (told.map (·.call))⟩}) := ht'
    have told' : ∀ lost, exchanges op (⟨.replies op thread call r lost, s'⟩ :: h') =
        Exchange.add call r s' told := fun lost => by
      show (if op = op then Exchange.add call r s' (exchanges op h') else exchanges op h') = _
      rw [if_pos rfl, ht'.of_mem.1]
    have made' : ∀ lost, made op (⟨.replies op thread call r lost, s'⟩ :: h') =
        (Exchange.add call r s' told).map (·.call) := fun lost => by
      rw [map_add_exchange]
      exact ht'.of_mem.2
    refine ih r s' ?_ (fun plan hf => ?_) (ht'.event rfl rfl (told' _) (made' _) trivial)
    · exact List.mem_cons_of_mem _ (hs.subset (List.mem_cons_of_mem _ hb))
    · exact (hp plan hf).2 r s' fun hr => (hq hr).1

theorem planned_kept (q : Request) : planned.Kept q :=
  fun _ _ _ _ ht _ => keeps_planned _ (List.mem_cons_self ..) (fun _ hf => hf) ht.begin

/-! ### Runs -/

namespace Reaches

variable {s : State} {c d : Situation}

theorem planned_stands (h : Reaches (.initial s) c) : planned.Stands c := by
  have initially : planned.Stands (.initial s) :=
    ⟨0, .nil, by simp [Situation.initial], by simp, by simp, by simp, by simp, trivial⟩
  apply Rules.stands planned_kept h initially
  generalize c.history = history
  induction history with
  | nil => trivial
  | cons m before ih => exact ⟨trivial, ih⟩

/-- Every event of a run is as the plans of its operation have it. -/
theorem accounted (h : Reaches (.initial s) c) : c.history.Always Accounted := by
  obtain ⟨_, _, ht⟩ := h.planned_stands
  exact ht.accounted

theorem op_lt (h : Reaches (.initial s) c) : ∀ m ∈ c.history, m.event.op < c.history.begun := by
  obtain ⟨_, _, ht⟩ := h.planned_stands
  exact ht.numbered

end Reaches

namespace History

variable {h : History} {op : Nat} {thread thread' : Thread} {q q' : Request} {s s' : State}

theorem op_lt_of_begins (ha : h.Always Accounted) (hm : ⟨.begins op thread q, s⟩ ∈ h) :
    op < h.begun := by
  induction h with
  | nil => cases hm
  | cons m before ih =>
    rw [begun_cons]
    rcases List.mem_cons.mp hm with rfl | hm
    · have : op = History.begun before := ha.1
      simp [Event.isBegin, this]
    · exact Nat.lt_add_right _ (ih ha.2 hm)

/-- Each operation begins once. -/
theorem begins_unique (ha : h.Always Accounted) (hm : ⟨.begins op thread q, s⟩ ∈ h)
    (hm' : ⟨.begins op thread' q', s'⟩ ∈ h) : thread = thread' ∧ q = q' ∧ s = s' := by
  induction h with
  | nil => cases hm
  | cons m before ih =>
    rcases List.mem_cons.mp hm with rfl | older
    · rcases List.mem_cons.mp hm' with heq | older'
      · cases heq
        exact ⟨rfl, rfl, rfl⟩
      · have : op = History.begun before := ha.1
        have := op_lt_of_begins ha.2 older'
        omega
    · rcases List.mem_cons.mp hm' with rfl | older'
      · have : op = History.begun before := ha.1
        have := op_lt_of_begins ha.2 older
        omega
      · exact ih ha.2 older older'

/-- Where an operation follows a plan, so does each of its calls. -/
theorem calls_of_follows (ha : h.Always Accounted) (hb : ⟨.begins op thread q, s⟩ ∈ h)
    {plan : Plan q.Result} (hp : (q.operation thread s).Follows plan []) {call : Call}
    {before later : History} (heq : h = later ++ ⟨.calls op thread' call, s'⟩ :: before) :
    made op before = (exchanges op before).map (·.call) ∧
      plan.calls (exchanges op before) call s' := by
  obtain ⟨answered, q', s'', hb', hplan⟩ := (heq ▸ ha).split
  have began : ⟨.begins op thread' q', s''⟩ ∈ h := by simp [heq, hb']
  obtain ⟨rfl, rfl, rfl⟩ := begins_unique ha hb began
  exact ⟨answered, hplan plan hp⟩

/-- Where an operation follows a plan, so does its end. -/
theorem ends_of_follows (ha : h.Always Accounted) (hb : ⟨.begins op thread q, s⟩ ∈ h)
    {plan : Plan q.Result} (hp : (q.operation thread s).Follows plan []) {result : q.Result}
    {before later : History} (heq : h = later ++ ⟨.ends op thread' q result, s'⟩ :: before) :
    made op before = (exchanges op before).map (·.call) ∧
      plan.ends (exchanges op before) result s' := by
  obtain ⟨answered, s'', hb', hplan⟩ := (heq ▸ ha).split
  have began : ⟨.begins op thread' q, s''⟩ ∈ h := by simp [heq, hb']
  obtain ⟨rfl, -, rfl⟩ := begins_unique ha hb began
  exact ⟨answered, hplan plan hp⟩

/-- An operation ends with a result of the request that it began with. -/
theorem request_of_ends (ha : h.Always Accounted) (hb : ⟨.begins op thread q, s⟩ ∈ h)
    {result : q'.Result} (he : ⟨.ends op thread' q' result, s'⟩ ∈ h) : q = q' := by
  obtain ⟨later, before, heq⟩ := List.append_of_mem he
  obtain ⟨-, s'', hb', -⟩ := (heq ▸ ha).split
  have began : ⟨.begins op thread' q', s''⟩ ∈ h := by simp [heq, hb']
  exact (begins_unique ha hb began).2.1

end History

/-! ### After a rest -/

/-- What follows on `k` belongs to operations that began after `k`. -/
def Follow (k : History) (d : Situation) : Prop :=
  (∃ later, d.history = later ++ k ∧ ∀ m ∈ later, k.begun ≤ m.event.op) ∧
    ∀ f ∈ d.stack, k.begun ≤ f.op

namespace Follow

variable {k : History} {d : Situation} {op : Nat} {thread : Thread} {q : Request}

theorem begun_le (h : Follow k d) : k.begun ≤ d.history.begun := by
  obtain ⟨later, heq, -⟩ := h.1
  rw [heq, History.begun, History.begun, List.countP_append]
  exact Nat.le_add_left ..

theorem note (h : Follow k d) (e : Event) (he : k.begun ≤ e.op) : Follow k (d.note e) := by
  obtain ⟨⟨later, heq, hl⟩, hf⟩ := h
  refine ⟨⟨⟨e, d.state⟩ :: later, ?_, List.forall_mem_cons.mpr ⟨he, hl⟩⟩, hf⟩
  simp [Situation.note, heq]

theorem proceed (h : Follow k d) (p : Progress q.Result) (hop : k.begun ≤ op) :
    Follow k (d.proceed op thread q p) := by
  cases p with
  | finished result s => exact note (d := { d with state := s }) h _ hop
  | calling call s resume =>
    exact note (d := ⟨s, ⟨op, thread, q, call, resume⟩ :: d.stack, d.history⟩)
      ⟨h.1, List.forall_mem_cons.mpr ⟨hop, h.2⟩⟩ _ hop

end Follow

/-- What happens after a rest belongs to operations that begin after it. -/
theorem Reaches.follow {c d : Situation} (h : Reaches c d) (hc : c.AtRest) :
    Follow c.history d := by
  apply h.invariant (p := Follow c.history)
  · exact ⟨⟨[], rfl, by simp⟩, by simp [show c.stack = [] from hc]⟩
  · intro d e move h step
    cases step with
    | @start thread q _ => exact (h.note (.begins _ thread q) h.begun_le).proceed _ h.begun_le
    | @reply f r hm =>
      have hop : c.history.begun ≤ f.op := h.2 f (List.mem_of_mem_head? hm)
      refine Follow.proceed (d := d.answered f r) ?_ _ hop
      obtain ⟨⟨later, heq, hl⟩, hf⟩ := h
      refine ⟨⟨_ :: later, congrArg (_ :: ·) heq, ?_⟩, fun g hg => ?_⟩
      · exact List.forall_mem_cons.mpr ⟨hop, hl⟩
      · exact hf g (List.mem_of_mem_tail hg)

end Run

end CallbackBridge
