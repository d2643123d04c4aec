import CallbackBridge.Proofs.Run.Nesting
import Mathlib.Algebra.BigOperators.Group.Finset.Piecewise
import Mathlib.Data.UInt

/-! # What is an operation's own

    The history mixes the events of operations that are nested in each other.
    This tells apart what one of them has done by itself, and adds up what all
    of them have.

    Key ideas:

    1. The state changes only where an operation arrives at its next call or at
       its end.  Such a change is the operation's own.
    2. What is nested in a call belongs to others, so what an operation has
       done by itself is the same after the reply.
    3. Every event and every change belongs to one operation.  So the shares of
       all operations add up to what the whole run has brought about. -/

namespace CallbackBridge.Run

/-- Operation `op` has come to a call or to its end by itself, from the moment
    before on. -/
def Event.arrives (e : Event) (op : Nat) : Prop :=
  match e with
  | .calls op' .. | .ends op' .. => op' = op
  | .begins .. | .replies .. => False

theorem Event.arrives.op_eq {op : Nat} {e : Event} (ha : e.arrives op) : e.op = op := by
  cases e with
  | calls | ends => exact ha
  | begins | replies => cases ha

instance (e : Event) (op : Nat) : Decidable (e.arrives op) :=
  match e with
  | .calls op' .. | .ends op' .. => inferInstanceAs (Decidable (op' = op))
  | .begins .. | .replies .. => inferInstanceAs (Decidable False)

/-- The event of another operation, or one at which the state stays as it is. -/
theorem Event.not_arrives {op : Nat} {e : Event} (hop : e.op ≠ op) : ¬ e.arrives op :=
  fun ha => hop ha.op_eq

namespace History

/-- Each change that operation `op` makes by itself, from one moment to the
    next, is as `p` says. -/
def Own (op : Nat) (p : State → State → History → Prop) : History → Prop :=
  Always fun m before => m.event.arrives op → ∀ m₀ ∈ before.head?, p m₀.state m.state before

/-- How many events of one sort belong to operation `op`. -/
def countBy (op : Nat) (sort : Event → Bool) (h : History) : Nat :=
  h.countP fun m => m.event.op = op && sort m.event

/-- By how much a counter has risen since the last moment. -/
def risen (k : Counter) (s : State) : History → UInt64
  | [] => 0
  | m :: _ => s.counters.get k - m.state.counters.get k

/-- What operation `op` has added to a counter by itself, up to its last call or
    to its end. -/
def added (op : Nat) (k : Counter) : History → UInt64
  | [] => 0
  | m :: before => added op k before + if m.event.arrives op then risen k m.state before else 0

/-- What operation `op` has added to a counter by itself up to now, where it is
    the one that runs. -/
def spent (op : Nat) (k : Counter) (s : State) (h : History) : UInt64 :=
  added op k h + risen k s h

variable {h h' : History} {op : Nat} {thread : Thread} {s s' : State} {c : Call} {k : Counter}
  {sort : Event → Bool}

/-! ### Changes -/

namespace Own

variable {p p' : State → State → History → Prop}

theorem imp (ho : Own op p h) (hp : ∀ s s' before, p s s' before → p' s s' before) :
    Own op p' h :=
  Always.imp (fun _ _ hx ha m₀ hm₀ => hp _ _ _ (hx ha m₀ hm₀)) ho

/-- What holds of every stretch of the history holds before each change. -/
theorem and_before {p'' : History → Prop} (ho : Own op p h) (hp : ∀ k, k <:+ h → p'' k) :
    Own op (fun s s' before => p s s' before ∧ p'' before) h := by
  induction h with
  | nil => trivial
  | cons m before ih =>
    have older : ∀ k, k <:+ before → p'' k := fun k hk => hp k (hk.trans (List.suffix_cons ..))
    exact ⟨fun ha m₀ hm₀ => ⟨ho.1 ha m₀ hm₀, older before (List.suffix_refl _)⟩, ih ho.2 older⟩

/-- An operation that has not begun has changed nothing. -/
theorem of_ne (hn : ∀ m ∈ h, m.event.op ≠ op) : Own op p h := by
  induction h with
  | nil => trivial
  | cons m before ih =>
    exact ⟨fun ha => absurd ha.op_eq (hn m (List.mem_cons_self ..)),
      ih fun m hm => hn m (List.mem_cons_of_mem _ hm)⟩

theorem begins (hn : ∀ m ∈ h, m.event.op ≠ op) {q : Request} :
    Own op p (⟨.begins op thread q, s⟩ :: h) := by
  have before : Own op p h := of_ne hn
  exact ⟨fun ha => ha.elim, before⟩

/-- What is nested in a call is not the operation's own. -/
theorem reply (ho : Own op p h) (hs : Since (op + 1) h h') {r : c.Reply}
    {lost : Option HostObject} : Own op p (⟨.replies op thread c r lost, s⟩ :: h') := by
  refine ⟨fun ha => ha.elim, ?_⟩
  obtain ⟨later, rfl, hl⟩ := hs
  induction later with
  | nil => exact ho
  | cons m later ih =>
    obtain ⟨hm, hl⟩ := List.forall_mem_cons.mp hl
    refine ⟨fun ha => ?_, ih hl⟩
    have own : m.event.op = op := ha.op_eq
    omega

/-- The operation has come to a call or to its end. -/
theorem arrive (ho : Own op p h) {e : Event} (hp : ∀ m ∈ h.head?, p m.state s h) :
    Own op p (⟨e, s⟩ :: h) :=
  ⟨fun _ => hp, ho⟩

end Own

/-! ### Counts -/

theorem countBy_cons {m : Moment} : countBy op sort (m :: h) =
    countBy op sort h + if m.event.op = op && sort m.event then 1 else 0 :=
  List.countP_cons

theorem countBy_of_ne {m : Moment} (hm : m.event.op ≠ op) :
    countBy op sort (m :: h) = countBy op sort h := by
  rw [countBy_cons]
  simp [hm]

/-- Another event of the operation. -/
theorem countBy_of_own {e : Event} (he : e.op = op) :
    countBy op sort (⟨e, s⟩ :: h) = countBy op sort h + if sort e then 1 else 0 := by
  rw [countBy_cons]
  simp [he]

/-- An operation that has not begun has no events. -/
theorem countBy_eq_zero (hn : ∀ m ∈ h, m.event.op ≠ op) : countBy op sort h = 0 := by
  refine List.countP_eq_zero.mpr fun m hm => ?_
  simp [hn m hm]

/-! ### Counters -/

theorem added_of_ne {m : Moment} (hm : m.event.op ≠ op) : added op k (m :: h) = added op k h := by
  rw [added, if_neg (Event.not_arrives hm), add_zero]

/-- An operation that has not begun has added nothing. -/
theorem added_eq_zero (hn : ∀ m ∈ h, m.event.op ≠ op) : added op k h = 0 := by
  induction h with
  | nil => rfl
  | cons m before ih =>
    rw [added_of_ne (hn m (List.mem_cons_self ..))]
    exact ih fun m hm => hn m (List.mem_cons_of_mem _ hm)

theorem added_arrive {e : Event} (ha : e.arrives op) :
    added op k (⟨e, s⟩ :: h) = spent op k s h := by
  rw [added, if_pos ha, spent]

theorem added_stay {e : Event} (ha : ¬ e.arrives op) : added op k (⟨e, s⟩ :: h) = added op k h := by
  rw [added, if_neg ha, add_zero]

theorem spent_cons {e : Event} : spent op k s (⟨e, s⟩ :: h) = added op k (⟨e, s⟩ :: h) := by
  rw [spent, risen, sub_self, add_zero]

/-- What the counter changes by is the operation's own. -/
theorem spent_change (s s' : State) (hne : h ≠ []) :
    spent op k s' h = spent op k s h + (s'.counters.get k - s.counters.get k) := by
  cases h with
  | nil => exact absurd rfl hne
  | cons m before =>
    simp only [spent, risen]
    grind

/-- What is nested in a call makes no difference. -/
theorem spent_reply {r : c.Reply} {lost : Option HostObject}
    (hs : Since (op + 1) (⟨.calls op thread c, s⟩ :: h) h') :
    spent op k s' (⟨.replies op thread c r lost, s'⟩ :: h') = spent op k s h := by
  have same : added op k h' = added op k (⟨.calls op thread c, s⟩ :: h) :=
    hs.unchanged fun _ _ => added_of_ne
  have own : Event.arrives (.calls op thread c) op := rfl
  rw [spent_cons, added_stay id, same, added_arrive own]

/-! ### Sums -/

/-- Each event belongs to one operation. -/
theorem sum_countBy {n : Nat} (hn : ∀ m ∈ h, m.event.op < n) :
    ∑ op ∈ Finset.range n, countBy op sort h = h.countP (sort ·.event) := by
  induction h with
  | nil => exact Finset.sum_eq_zero fun _ _ => rfl
  | cons m before ih =>
    obtain ⟨here, hn⟩ := List.forall_mem_cons.mp hn
    rw [List.countP_cons, ← ih hn]
    simp only [countBy_cons, Finset.sum_add_distrib]
    congr 1
    rw [Finset.sum_eq_single_of_mem m.event.op (Finset.mem_range.mpr here)]
    · simp
    · intro op _ hop
      simp [hop.symm]

/-- The state changes only where an operation arrives. -/
def Still (m : Moment) (before : History) : Prop :=
  ¬ m.event.arrives m.event.op → ∀ m₀ ∈ before.head?, m.state = m₀.state

/-- What all operations have added is what the counter has risen by. -/
theorem sum_added {n : Nat} (hn : ∀ m ∈ h, m.event.op < n) (still : h.Always Still) :
    ∀ last ∈ h.head?, ∀ first ∈ h.getLast?, ∑ op ∈ Finset.range n, added op k h =
      last.state.counters.get k - first.state.counters.get k := by
  induction h with
  | nil => exact fun _ hl => by cases hl
  | cons m before ih =>
    intro last hlast first hfirst
    obtain rfl : m = last := Option.some.inj hlast
    obtain ⟨here, hn⟩ := List.forall_mem_cons.mp hn
    -- only the operation of the last moment has added something there
    have share : ∑ op ∈ Finset.range n, (if m.event.arrives op then risen k m.state before else 0) =
        if m.event.arrives m.event.op then risen k m.state before else 0 := by
      refine Finset.sum_eq_single_of_mem _ (Finset.mem_range.mpr here) fun op _ hop => ?_
      exact if_neg (Event.not_arrives hop.symm)
    simp only [added, Finset.sum_add_distrib, share]
    cases before with
    | nil =>
      obtain rfl : m = first := Option.some.inj hfirst
      simp [added, risen]
    | cons m₀ before =>
      rw [ih hn still.2 m₀ rfl first hfirst]
      by_cases ha : m.event.arrives m.event.op
      · rw [if_pos ha, risen]
        grind
      · rw [if_neg ha, add_zero, still.1 ha m₀ rfl]

end History

/-! ### Runs -/

/-- What the states of a history have to do with each other. -/
structure Situation.Traced (s : State) (c : Situation) : Prop where
  still : c.history.Always History.Still
  first : ∀ m ∈ c.history.getLast?, m.state = s
  last : ∀ m ∈ c.history.head?, m.state = c.state
  none : c.history = [] → c.state = s

namespace Situation.Traced

variable {s : State} {c : Situation}

theorem cons (hc : Traced s c) {m : Moment} {c' : Situation} (hh : c'.history = m :: c.history)
    (hm : m.state = c'.state)
    (hs : m.event.arrives m.event.op ∧ c.history ≠ [] ∨ c'.state = c.state) : Traced s c' where
  still := by
    rw [hh]
    refine ⟨fun stays m₀ hm₀ => ?_, hc.still⟩
    rcases hs with ⟨ha, -⟩ | hs
    · exact absurd ha stays
    · rw [hm, hs, hc.last m₀ hm₀]
  first := by
    rw [hh]
    intro first hf
    cases heq : c.history with
    | nil =>
      rw [heq] at hf
      obtain rfl : m = first := Option.some.inj hf
      rcases hs with ⟨-, hne⟩ | hs
      · exact absurd heq hne
      · rw [hm, hs, hc.none heq]
    | cons m' before =>
      rw [heq, List.getLast?_cons_cons, ← heq] at hf
      exact hc.first first hf
  last := by
    rw [hh]
    intro last hl
    obtain rfl : m = last := Option.some.inj hl
    exact hm
  none h := by
    rw [hh] at h
    cases h

/-- An operation has run on. -/
theorem proceed (hc : Traced s c) (hne : c.history ≠ []) (op : Nat) (thread : Thread)
    (q : Request) (p : Progress q.Result) : Traced s (c.proceed op thread q p) := by
  cases p with
  | finished result s' => exact hc.cons rfl rfl (.inl ⟨rfl, hne⟩)
  | calling call s' resume => exact hc.cons rfl rfl (.inl ⟨rfl, hne⟩)

end Situation.Traced

/-- In a run the state changes only where an operation arrives. -/
theorem Reaches.traced {s : State} {c : Situation} (h : Reaches (.initial s) c) : c.Traced s := by
  have initially : (Situation.initial s).Traced s :=
    ⟨trivial, fun m hm => (by cases hm), fun m hm => (by cases hm), fun _ => rfl⟩
  refine h.invariant initially ?_
  intro d e move hd step
  cases step with
  | @start thread q =>
    have begun : (d.note (.begins d.history.begun thread q)).Traced s := hd.cons rfl rfl (.inr rfl)
    exact begun.proceed (fun hn => by cases hn) _ _ _ _
  | @reply f r =>
    have replied : (d.answered f r).Traced s := hd.cons rfl rfl (.inr rfl)
    exact replied.proceed (fun hn => by cases hn) _ _ _ _

/-- Operation `op` has ended, and there is no event of it after that. -/
def History.Ended (op : Nat) (h : History) : Prop :=
  ∃ later thread q result s before, h = later ++ ⟨.ends op thread q result, s⟩ :: before ∧
    ∀ m ∈ later, m.event.op ≠ op

theorem History.Ended.cons {op : Nat} {h : History} {m : Moment} (he : h.Ended op)
    (hm : m.event.op ≠ op) : History.Ended op (m :: h) := by
  obtain ⟨later, thread, q, result, s, before, rfl, hl⟩ := he
  exact ⟨m :: later, thread, q, result, s, before, rfl, List.forall_mem_cons.mpr ⟨hm, hl⟩⟩

/-- Operation `op` waits in a call, or it has ended. -/
def Situation.Settles (c : Situation) (op : Nat) : Prop :=
  (∃ f ∈ c.stack, f.op = op) ∨ c.history.Ended op

theorem Situation.settles_proceed (c : Situation) (op : Nat) (thread : Thread) (q : Request)
    (p : Progress q.Result) : (c.proceed op thread q p).Settles op := by
  cases p with
  | finished result s =>
    exact .inr ⟨[], thread, q, result, s, c.history, rfl, fun _ hm => by cases hm⟩
  | calling call s resume => exact .inl ⟨_, List.mem_cons_self .., rfl⟩

/-- Other operations are not affected. -/
theorem Situation.Settles.proceed {c : Situation} {op op' : Nat} (hc : c.Settles op')
    (hne : op ≠ op') (thread : Thread) (q : Request) (p : Progress q.Result) :
    (c.proceed op thread q p).Settles op' := by
  cases p with
  | finished result s => exact hc.imp_right fun he => he.cons hne
  | calling call s resume =>
    rcases hc with ⟨f, hf, hop⟩ | he
    · exact .inl ⟨f, List.mem_cons_of_mem _ hf, hop⟩
    · exact .inr (he.cons hne)

/-- Whatever has begun waits in a call or has ended. -/
theorem Reaches.settles {s : State} {c : Situation} (h : Reaches (.initial s) c) :
    ∀ op < c.history.begun, c.Settles op := by
  refine h.invariant (p := fun c => ∀ op < c.history.begun, c.Settles op)
    (fun op hop => by cases hop) ?_
  intro d e move ih step
  have more : ∀ (d : Situation) op thread (q : Request) (p : Progress q.Result),
      (d.proceed op thread q p).history.begun = d.history.begun := by
    intro d op thread q p
    cases p <;> exact History.begun_cons ..
  cases step with
  | @start thread q =>
    intro op hop
    by_cases hnew : d.history.begun = op
    · exact hnew ▸ Situation.settles_proceed ..
    · have older : op < d.history.begun := by
        rw [Situation.start, more, Situation.note, History.begun_cons] at hop
        simp only [Event.isBegin, if_true] at hop
        omega
      have noted : (d.note (.begins d.history.begun thread q)).Settles op :=
        (ih op older).imp_right fun he => he.cons hnew
      exact noted.proceed hnew ..
  | @reply f r hf =>
    intro op hop
    by_cases htop : f.op = op
    · exact htop ▸ Situation.settles_proceed ..
    · have older : op < d.history.begun := by
        rw [Situation.reply, more, Situation.answered, History.begun_cons] at hop
        exact hop
      obtain ⟨below, hstack⟩ := List.head?_eq_some_iff.mp hf
      have answered : (d.answered f r).Settles op := by
        rcases ih op older with ⟨g, hg, hgop⟩ | he
        · rw [hstack] at hg
          rcases List.mem_cons.mp hg with rfl | hg
          · exact absurd hgop htop
          · exact .inl ⟨g, by rw [Situation.answered, hstack]; exact hg, hgop⟩
        · exact .inr (he.cons htop)
      exact answered.proceed htop ..

/-- When no operation is in progress, whatever has begun has ended. -/
theorem Reaches.ended {s : State} {c : Situation} (h : Reaches (.initial s) c) (rest : c.AtRest)
    {op : Nat} (hop : op < c.history.begun) : c.history.Ended op := by
  rcases h.settles op hop with ⟨f, hf, -⟩ | he
  · rw [rest] at hf
    cases hf
  · exact he

end CallbackBridge.Run
