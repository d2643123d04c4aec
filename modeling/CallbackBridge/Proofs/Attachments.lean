import CallbackBridge.Proofs.Run.Parts
import CallbackBridge.Proofs.Ledger.Runs

/-! # Scoped attachment

    An operation attaches its thread while it calls the host, and operations
    that are nested in such a call attach theirs.  Under the policy that
    detaches, each of them detaches what it attached itself and nothing else.

    Key ideas:

    1. `marks` lists what an operation has heard of its attachments, `guards`
       lists the guards that are alive in all operations.
    2. An operation relies on the threads of its guards staying attached while
       it is called out, and brings about the same for others: as a whole it
       leaves the guards alone, and the attached threads as well if it
       detaches.
    3. A thread that an operation has newly attached had no guard before, so
       detaching it takes it from nobody. -/

namespace CallbackBridge.Run

open History

/-! ### Marks and guards -/

/-- What an operation hears of its attachments. -/
inductive Mark where
  /-- The thread is attached. -/
  | accepted (state : AttachState)
  /-- The thread was not attached. -/
  | refused
  /-- The operation detaches its thread. -/
  | detached
  deriving DecidableEq

/-- Events that leave no mark and no guard. -/
def Event.unmarked : Event → Prop
  | .begins .. => True
  | .calls _ _ c => c ≠ .host .detach
  | .replies _ _ c _ _ => c ≠ .host .attach
  | .ends .. => False

namespace History

/-- The mark that an answer to an attachment leaves. -/
def answer (status : Int32) : Mark :=
  match AttachState.ofStatus status with
  | .ok a => .accepted a
  | .error _ => .refused

/-- The marks of operation `op`, newest first. -/
def marks (op : Nat) : History → List Mark
  | [] => []
  | m :: before =>
    match m.event with
    | .replies op' _ (.host .attach) status _ =>
      if op' = op then answer status :: marks op before else marks op before
    | .calls op' _ (.host .detach) =>
      if op' = op then .detached :: marks op before else marks op before
    | _ => marks op before

/-- The guards that are alive, newest first, each with its operation and its
    thread.  A guard lives from the attachment on, until its operation detaches
    the thread or ends. -/
def guards : History → List (Nat × Thread)
  | [] => []
  | m :: before =>
    match m.event with
    | .replies op thread (.host .attach) status _ =>
      match AttachState.ofStatus status with
      | .ok _ => (op, thread) :: guards before
      | .error _ => guards before
    | .calls op _ (.host .detach) | .ends op .. => (guards before).filter (·.1 ≠ op)
    | _ => guards before

variable {first : List Thread} {h : History} {op : Nat} {thread : Thread} {s : State}

theorem attached_eq {e : Event} (he : e.unmarked) :
    attached first (⟨e, s⟩ :: h) = attached first h := by
  cases e with
  | calls op thread c | replies op thread c =>
    cases c with
    | host c => cases c <;> first | rfl | exact absurd rfl he
    | _ => rfl
  | _ => rfl

theorem guards_eq {e : Event} (he : e.unmarked) : guards (⟨e, s⟩ :: h) = guards h := by
  cases e with
  | calls op thread c | replies op thread c =>
    cases c with
    | host c => cases c <;> first | rfl | exact absurd rfl he
    | _ => rfl
  | begins => rfl
  | ends => exact he.elim

theorem marks_eq {e : Event} (he : e.unmarked) : marks op (⟨e, s⟩ :: h) = marks op h := by
  cases e with
  | calls op thread c | replies op thread c =>
    cases c with
    | host c => cases c <;> first | rfl | exact absurd rfl he
    | _ => rfl
  | _ => rfl

/-- Other operations leave no mark. -/
theorem marks_of_ne {m : Moment} (hne : m.event.op ≠ op) : marks op (m :: h) = marks op h := by
  obtain ⟨e, s⟩ := m
  cases e with
  | calls op' thread c | replies op' thread c =>
    have other : op' ≠ op := hne
    cases c with
    | host c => cases c <;> simp [marks, other]
    | _ => rfl
  | _ => rfl

theorem marks_eq_nil (hn : ∀ m ∈ h, m.event.op ≠ op) : marks op h = [] := by
  induction h with
  | nil => rfl
  | cons m before ih =>
    rw [marks_of_ne (hn m (List.mem_cons_self ..))]
    exact ih fun m' hm' => hn m' (List.mem_cons_of_mem _ hm')

/-- A guard belongs to an operation that has had a part in the history. -/
theorem exists_of_mem_guards {x : Nat × Thread} (hx : x ∈ guards h) :
    ∃ m ∈ h, m.event.op = x.1 := by
  induction h with
  | nil => cases hx
  | cons m before ih =>
    have older : x ∈ guards before → ∃ m' ∈ m :: before, m'.event.op = x.1 :=
      fun hx => (ih hx).imp fun _ h => h.imp_left (List.mem_cons_of_mem _)
    obtain ⟨e, s⟩ := m
    unfold guards at hx
    split at hx
    · next op thread status lost heq =>
      split at hx
      · rcases List.mem_cons.mp hx with rfl | hx
        · exact ⟨⟨e, s⟩, List.mem_cons_self .., congrArg Event.op heq⟩
        · exact older hx
      · exact older hx
    · exact older (List.mem_filter.mp hx).1
    · exact older (List.mem_filter.mp hx).1
    · exact older hx

/-- Operation `op` began after `k`, on this thread. -/
def Began (op : Nat) (thread : Thread) (k h : History) : Prop :=
  ∃ q s later, h = later ++ ⟨.begins op thread q, s⟩ :: k

theorem Began.of_suffix {k h' : History} (hb : Began op thread k h) (hs : h <:+ h') :
    Began op thread k h' := by
  obtain ⟨q, s, later, rfl⟩ := hb
  obtain ⟨front, rfl⟩ := hs
  exact ⟨q, s, front ++ later, (List.append_assoc ..).symm⟩

end History

/-! ### The law -/

/-- What attachments keep to at a moment.  `first` lists the threads that were
    attached to begin with. -/
structure Moment.Scoped (policy : DetachPolicy) (first : List Thread) (m : Moment)
    (before : History) : Prop where
  /-- The host is called on an attached thread, and where the operation was last
      told that it is attached. -/
  guarded : ∀ op thread c, m.event = .calls op thread (.host c) → c.guarded = true →
    thread ∈ attached first before ∧ ∃ a, (marks op before).head? = some (.accepted a)
  /-- While a guard is alive its thread is attached. -/
  alive : ∀ x ∈ guards (m :: before), x.2 ∈ attached first (m :: before)
  /-- An operation detaches a thread only if the policy asks for that, right after
      it has attached it, and not one that was attached before. -/
  detaches : ∀ op thread, m.event = .calls op thread (.host .detach) →
    policy = .detachOnExit ∧ thread ∈ attached first before ∧
    (marks op before).head? = some (.accepted .newlyAttached) ∧
    ∃ k, Began op thread k before ∧ thread ∉ attached first k
  /-- An operation that ends has detached what it attached, and leaves the
      attached threads as they were. -/
  restores : ∀ op thread q result, m.event = .ends op thread q result →
    policy = .detachOnExit →
    (marks op before).count (.accepted .newlyAttached) = (marks op before).count .detached ∧
    ∃ k, Began op thread k before ∧
      ∀ t, t ∈ attached first (m :: before) ↔ t ∈ attached first k

variable {policy : DetachPolicy} {first : List Thread} {k h h' : History} {s s' : State}
  {op : Nat} {thread : Thread} {pending : Bool}

/-- The threads of all guards that are alive are attached. -/
def History.Held (first : List Thread) (h : History) : Prop :=
  ∀ x ∈ guards h, x.2 ∈ attached first h

/-- Attachments are scoped. -/
def attachments (policy : DetachPolicy) (first : List Thread) : Nesting where
  holds s h := s.registry.policy = policy ∧ h.Held first
  spans _ h _ h' := guards h' = guards h ∧ (∀ t ∈ attached first h, t ∈ attached first h') ∧
    (policy = .detachOnExit → ∀ t ∈ attached first h', t ∈ attached first h)
  conduct m before := (∀ op thread q, m.event = .begins op thread q → q.isCoreOrClose = true) ∧
    tellsAttached first before m.event = true
  law := Moment.Scoped policy first
  spans_refl _ _ := ⟨rfl, fun _ h => h, fun _ _ h => h⟩
  spans_trans h h' := ⟨h'.1.trans h.1, fun t ht => h'.2.1 t (h.2.1 t ht),
    fun hp t ht => h.2.2 hp t (h'.2.2 hp t ht)⟩

/-! ### Levels -/

/-- What operation `op`, which began after `k`, has made of the attachments.
    `pending` tells that it still has to detach its thread. -/
structure Level (policy : DetachPolicy) (first : List Thread) (k : History) (pending : Bool)
    (op : Nat) (thread : Thread) (s : State) (h : History) : Prop where
  policy_eq : s.registry.policy = policy
  began : Began op thread k h
  older : ∀ x ∈ guards k, x.1 ≠ op
  heldBefore : k.Held first
  own : ∃ own, guards h = own ++ guards k ∧ ∀ x ∈ own, x = (op, thread)
  held : h.Held first
  keeps : ∀ t ∈ attached first k, t ∈ attached first h
  adds : policy = .detachOnExit → ∀ t ∈ attached first h,
    t ∈ attached first k ∨ (pending = true ∧ t = thread)
  paired : policy = .detachOnExit → (marks op h).count (.accepted .newlyAttached) =
    (marks op h).count .detached + pending.toNat

/-- What it knows while its own guard is alive. -/
structure Inside (policy : DetachPolicy) (first : List Thread) (k : History) (pending : Bool)
    (op : Nat) (thread : Thread) (s : State) (h : History) : Prop
    extends Level policy first k pending op thread s h where
  on : thread ∈ attached first h
  last : ∃ a, (marks op h).head? = some (.accepted a) ∧ (pending = true → a = .newlyAttached)
  fresh : pending = true → policy = .detachOnExit ∧ thread ∉ attached first k

namespace Level

/-- An event without a mark changes nothing here. -/
theorem unmarked (hl : Level policy first k pending op thread s h) {m : Moment}
    (he : m.event.unmarked) : Level policy first k pending op thread s (m :: h) where
  policy_eq := hl.policy_eq
  began := hl.began.of_suffix (List.suffix_cons ..)
  older := hl.older
  heldBefore := hl.heldBefore
  own := by
    rw [guards_eq he]
    exact hl.own
  held := by
    rw [History.Held, guards_eq he, attached_eq he]
    exact hl.held
  keeps := by
    rw [attached_eq he]
    exact hl.keeps
  adds := by
    rw [attached_eq he]
    exact hl.adds
  paired := by
    rw [marks_eq he]
    exact hl.paired

/-- Nor do the operations that are nested in a call. -/
theorem later (hl : Level policy first k pending op thread s h) {c : Call}
    (ho : (attachments policy first).Open op c s h s' h') :
    Level policy first k pending op thread s' h' := by
  obtain ⟨sameGuards, kept, back⟩ := ho.spans
  have sameMarks : marks op h' = marks op h := ho.since.unchanged fun _ _ => marks_of_ne
  have settled : s'.registry.policy = policy ∧ h'.Held first := by
    cases hc : c.mayReenter with
    | true => exact ho.holds hc
    | false =>
      obtain ⟨rfl, rfl⟩ := ho.quiet hc
      exact ⟨hl.policy_eq, hl.held⟩
  exact {
    policy_eq := settled.1
    began := hl.began.of_suffix ho.since.suffix
    older := hl.older
    heldBefore := hl.heldBefore
    own := by
      rw [sameGuards]
      exact hl.own
    held := settled.2
    keeps := fun t ht => kept t (hl.keeps t ht)
    adds := fun hp t ht => hl.adds hp t (back hp t ht)
    paired := by
      rw [sameMarks]
      exact hl.paired }

/-- Without the guards of the operation, there are those that it found. -/
theorem others (hl : Level policy first k pending op thread s h) :
    (guards h).filter (·.1 ≠ op) = guards k := by
  obtain ⟨own, heq, hown⟩ := hl.own
  rw [heq, List.filter_append, List.filter_eq_nil_iff.mpr, List.nil_append]
  · exact List.filter_eq_self.mpr fun x hx => by simpa using hl.older x hx
  · intro x hx
    simp [hown x hx]

end Level

namespace Inside

theorem unmarked (hi : Inside policy first k pending op thread s h) {m : Moment}
    (he : m.event.unmarked) : Inside policy first k pending op thread s (m :: h) where
  toLevel := hi.toLevel.unmarked he
  on := by
    rw [attached_eq he]
    exact hi.on
  last := by
    rw [marks_eq he]
    exact hi.last
  fresh := hi.fresh

theorem later (hi : Inside policy first k pending op thread s h) {c : Call}
    (ho : (attachments policy first).Open op c s h s' h') :
    Inside policy first k pending op thread s' h' where
  toLevel := hi.toLevel.later ho
  on := ho.spans.2.1 thread hi.on
  last := by
    have sameMarks : marks op h' = marks op h := ho.since.unchanged fun _ _ => marks_of_ne
    rw [sameMarks]
    exact hi.last
  fresh := hi.fresh

end Inside

/-! ### Attaching and detaching -/

section Answers

variable {status : Int32} {lost : Option HostObject}

namespace Level

/-- Where the host refuses, nothing has changed. -/
theorem refused (hl : Level policy first k false op thread s h) {e : AttachError}
    (ha : AttachState.ofStatus status = .error e) :
    Level policy first k false op thread s
      (⟨.replies op thread (.host .attach) status lost, s'⟩ :: h) := by
  have sameThreads : attached first
      (⟨.replies op thread (.host .attach) status lost, s'⟩ :: h) = attached first h := by
    simp only [attached, ha]
  have sameGuards : guards (⟨.replies op thread (.host .attach) status lost, s'⟩ :: h) =
      guards h := by
    simp only [guards, ha]
  have marked : marks op (⟨.replies op thread (.host .attach) status lost, s'⟩ :: h) =
      .refused :: marks op h := by
    simp [marks, answer, ha]
  exact {
    policy_eq := hl.policy_eq
    began := hl.began.of_suffix (List.suffix_cons ..)
    older := hl.older
    heldBefore := hl.heldBefore
    own := sameGuards ▸ hl.own
    held := by
      rw [History.Held, sameGuards, sameThreads]
      exact hl.held
    keeps := sameThreads ▸ hl.keeps
    adds := sameThreads ▸ hl.adds
    paired := by
      rw [marked]
      simpa using hl.paired }

/-- The thread was attached before: there is nothing to detach. -/
theorem already (hl : Level policy first k false op thread s h)
    (ha : AttachState.ofStatus status = .ok .attached) (hon : thread ∈ attached first h) :
    Inside policy first k false op thread s
      (⟨.replies op thread (.host .attach) status lost, s'⟩ :: h) := by
  have sameThreads : attached first
      (⟨.replies op thread (.host .attach) status lost, s'⟩ :: h) = attached first h := by
    simp only [attached, ha]
  have guarded : guards (⟨.replies op thread (.host .attach) status lost, s'⟩ :: h) =
      (op, thread) :: guards h := by
    simp only [guards, ha]
  have marked : marks op (⟨.replies op thread (.host .attach) status lost, s'⟩ :: h) =
      .accepted .attached :: marks op h := by
    simp [marks, answer, ha]
  exact {
    policy_eq := hl.policy_eq
    began := hl.began.of_suffix (List.suffix_cons ..)
    older := hl.older
    heldBefore := hl.heldBefore
    own := by
      obtain ⟨own, heq, hown⟩ := hl.own
      exact ⟨(op, thread) :: own, by rw [guarded, heq]; rfl,
        List.forall_mem_cons.mpr ⟨rfl, hown⟩⟩
    held := by
      rw [History.Held, guarded, sameThreads]
      exact List.forall_mem_cons.mpr ⟨hon, hl.held⟩
    keeps := sameThreads ▸ hl.keeps
    adds := sameThreads ▸ hl.adds
    paired := by
      rw [marked]
      simpa using hl.paired
    on := sameThreads ▸ hon
    last := ⟨.attached, by rw [marked]; rfl, fun hp => by cases hp⟩
    fresh := fun hp => by cases hp }

/-- The thread was not attached before: whether it is detached again depends on
    the policy. -/
theorem newly (hl : Level policy first k false op thread s h)
    (ha : AttachState.ofStatus status = .ok .newlyAttached)
    (hoff : thread ∉ attached first h) :
    Inside policy first k (policy = .detachOnExit) op thread s
      (⟨.replies op thread (.host .attach) status lost, s'⟩ :: h) := by
  have threads : attached first
      (⟨.replies op thread (.host .attach) status lost, s'⟩ :: h) =
        thread :: attached first h := by
    simp only [attached, ha]
  have guarded : guards (⟨.replies op thread (.host .attach) status lost, s'⟩ :: h) =
      (op, thread) :: guards h := by
    simp only [guards, ha]
  have marked : marks op (⟨.replies op thread (.host .attach) status lost, s'⟩ :: h) =
      .accepted .newlyAttached :: marks op h := by
    simp [marks, answer, ha]
  exact {
    policy_eq := hl.policy_eq
    began := hl.began.of_suffix (List.suffix_cons ..)
    older := hl.older
    heldBefore := hl.heldBefore
    own := by
      obtain ⟨own, heq, hown⟩ := hl.own
      exact ⟨(op, thread) :: own, by rw [guarded, heq]; rfl,
        List.forall_mem_cons.mpr ⟨rfl, hown⟩⟩
    held := by
      rw [History.Held, guarded, threads]
      exact List.forall_mem_cons.mpr ⟨List.mem_cons_self ..,
        fun x hx => List.mem_cons_of_mem _ (hl.held x hx)⟩
    keeps := fun t ht => threads ▸ List.mem_cons_of_mem _ (hl.keeps t ht)
    adds := by
      intro hp t ht
      rw [threads] at ht
      rcases List.mem_cons.mp ht with rfl | ht
      · exact .inr ⟨decide_eq_true hp, rfl⟩
      · exact .inl ((hl.adds hp t ht).resolve_right (by simp))
    paired := by
      intro hp
      have paired := hl.paired hp
      rw [marked]
      simp [hp] at paired ⊢
      omega
    on := threads ▸ List.mem_cons_self ..
    last := ⟨.newlyAttached, by rw [marked]; rfl, fun _ => rfl⟩
    fresh := fun hp => ⟨of_decide_eq_true hp, fun ht => hoff (hl.keeps thread ht)⟩ }

end Level

end Answers

/-- Detaching takes the thread from nobody else. -/
theorem Inside.detach (hi : Inside policy first k true op thread s h) :
    Level policy first k false op thread s
      (⟨.calls op thread (.host .detach), s'⟩ :: h) := by
  obtain ⟨hpolicy, hfresh⟩ := hi.fresh rfl
  have threads : attached first (⟨.calls op thread (.host .detach), s'⟩ :: h) =
      (attached first h).filter (· ≠ thread) := rfl
  have marked : marks op (⟨.calls op thread (.host .detach), s'⟩ :: h) =
      .detached :: marks op h := if_pos rfl
  have guarded : guards (⟨.calls op thread (.host .detach), s'⟩ :: h) = guards k := hi.others
  have kept : ∀ t ∈ attached first k,
      t ∈ attached first (⟨.calls op thread (.host .detach), s'⟩ :: h) := by
    intro t ht
    rw [threads, List.mem_filter]
    refine ⟨hi.keeps t ht, decide_eq_true ?_⟩
    rintro rfl
    exact hfresh ht
  exact {
    policy_eq := hi.policy_eq
    began := hi.began.of_suffix (List.suffix_cons ..)
    older := hi.older
    heldBefore := hi.heldBefore
    own := ⟨[], guarded, by simp⟩
    held := by
      rw [History.Held, guarded]
      exact fun x hx => kept x.2 (hi.heldBefore x hx)
    keeps := kept
    adds := by
      intro hp t ht
      rw [threads, List.mem_filter] at ht
      obtain ⟨ht, hne⟩ := ht
      refine .inl ((hi.adds hp t ht).resolve_right ?_)
      exact fun h => of_decide_eq_true hne h.2
    paired := by
      intro hp
      have paired := hi.paired hp
      rw [marked]
      simp at paired ⊢
      omega }

/-! ### Moments -/

theorem ne_of_quiet {c : Call} (hc : c.mayReenter = false) (c' : HostCall) : c ≠ .host c' := by
  rintro rfl
  cases hc

theorem ne_of_guarded {c : HostCall} (hc : c.guarded = true) :
    Call.host c ≠ .host .attach ∧ Call.host c ≠ .host .detach := by
  constructor <;> rintro ⟨⟩ <;> cases hc

/-- An event that is no call on an attached thread, and no end. -/
theorem Moment.Scoped.of_held {e : Event} (hh : History.Held first (⟨e, s⟩ :: h))
    (hcalls : ∀ op thread c, e = .calls op thread (.host c) → c = .attach)
    (hends : ∀ op thread q result, e ≠ .ends op thread q result) :
    Moment.Scoped policy first ⟨e, s⟩ h where
  guarded op thread c he hc := by
    obtain rfl := hcalls op thread c he
    cases hc
  alive := hh
  detaches op thread he := by cases hcalls op thread .detach he
  restores op thread q result he := absurd he (hends op thread q result)

theorem Moment.Scoped.of_reply {c : Call} {r : c.Reply} {lost : Option HostObject}
    (hh : History.Held first (⟨.replies op thread c r lost, s⟩ :: h)) :
    Moment.Scoped policy first ⟨.replies op thread c r lost, s⟩ h :=
  .of_held hh (fun _ _ _ h => by cases h) fun _ _ _ _ h => by cases h

theorem Moment.Scoped.of_quiet {c : Call} (hc : c.mayReenter = false)
    (hh : History.Held first (⟨.calls op thread c, s⟩ :: h)) :
    Moment.Scoped policy first ⟨.calls op thread c, s⟩ h := by
  refine .of_held hh (fun op' thread' c' he => ?_) fun _ _ _ _ h => by cases h
  cases he
  cases hc

theorem Inside.called (hi : Inside policy first k pending op thread s h) {c : HostCall}
    (hc : c.guarded = true) :
    Moment.Scoped policy first ⟨.calls op thread (.host c), s'⟩ h where
  guarded op' thread' c' he _ := by
    cases he
    exact ⟨hi.on, hi.last.imp fun _ h => h.1⟩
  alive := (hi.toLevel.unmarked (m := ⟨.calls op thread (.host c), s'⟩) (ne_of_guarded hc).2).held
  detaches op' thread' he := by
    cases he
    cases hc
  restores _ _ _ _ he := by cases he

theorem Inside.detaching (hi : Inside policy first k true op thread s h) :
    Moment.Scoped policy first ⟨.calls op thread (.host .detach), s'⟩ h where
  guarded op' thread' c he hc := by
    cases he
    cases hc
  alive := hi.detach.held
  detaches op' thread' he := by
    cases he
    obtain ⟨hpolicy, hfresh⟩ := hi.fresh rfl
    obtain ⟨a, hlast, hnew⟩ := hi.last
    exact ⟨hpolicy, hi.on, hnew rfl ▸ hlast, k, hi.began, hfresh⟩
  restores _ _ _ _ he := by cases he

/-! ### Visits -/

variable {α : Type}

theorem level_basics : Basics (fun m =>
    (attachments policy first).Carries (Level policy first k pending) m) := by
  refine Nesting.Carries.basics fun op thread s h c hc hl => ?_
  have called := hl.unmarked (m := ⟨.calls op thread c, s⟩) (ne_of_quiet hc _)
  refine ⟨.of_quiet hc called.held, fun r lost => ?_⟩
  have replied := called.unmarked (m := ⟨.replies op thread c r lost, s⟩) (ne_of_quiet hc _)
  exact ⟨.of_reply replied.held, replied⟩

theorem inside_basics : Basics (fun m =>
    (attachments policy first).Carries (Inside policy first k pending) m) := by
  refine Nesting.Carries.basics fun op thread s h c hc hi => ?_
  have called := hi.unmarked (m := ⟨.calls op thread c, s⟩) (ne_of_quiet hc _)
  refine ⟨.of_quiet hc called.held, fun r lost => ?_⟩
  have replied := called.unmarked (m := ⟨.replies op thread c r lost, s⟩) (ne_of_quiet hc _)
  exact ⟨.of_reply replied.held, replied⟩

/-- The host is called while the guard is alive. -/
theorem guarded_carries {c : HostCall} (hc : c.guarded = true) :
    (attachments policy first).Carries (Inside policy first k pending)
      (Operation.call (.host c)) := by
  obtain ⟨notAttach, notDetach⟩ := ne_of_guarded hc
  intro op thread s h hi
  have called := hi.unmarked (m := ⟨.calls op thread (.host c), s⟩) notDetach
  refine ⟨hi.called hc, fun _ => ⟨called.policy_eq, called.held⟩, fun r s' h' lost ho _ => ?_⟩
  have replied := (called.later ho).unmarked (m := ⟨.replies op thread (.host c) r lost, s'⟩)
    notAttach
  exact ⟨.of_reply replied.held, replied⟩

theorem acquire_nests (hl : Level policy first k false op thread s h) :
    Nests (attachments policy first) op thread (fun r s' h' => match r with
      | .error _ => Level policy first k false op thread s' h'
      | .ok g => Inside policy first k g.detachOnDrop op thread s' h')
      (AttachGuard.acquire policy thread s) h := by
  have called := hl.unmarked (m := ⟨.calls op thread (.host .attach), s⟩) (by rintro ⟨⟩)
  have law : Moment.Scoped policy first ⟨.calls op thread (.host .attach), s⟩ h := by
    refine .of_held called.held (fun _ _ c he => ?_) fun _ _ _ _ h => by cases h
    cases he
    rfl
  refine ⟨law, fun _ => ⟨called.policy_eq, called.held⟩, fun status s' h' lost ho hc => ?_⟩
  have back := called.later ho
  have honest : tellsAttached first h' (.replies op thread (.host .attach) status lost) = true :=
    hc.2
  cases ha : AttachState.ofStatus status with
  | error e =>
    have refused : Level policy first k false op thread s'
        (⟨.replies op thread (.host .attach) status lost, s'⟩ :: h') := back.refused ha
    refine ⟨.of_reply refused.held, ?_⟩
    simp only [ha, Progress.bind, Operation.pure_apply]
    exact refused
  | ok a =>
    cases a with
    | attached =>
      simp only [tellsAttached, ha, decide_eq_true_eq] at honest
      have inside : Inside policy first k false op thread s'
          (⟨.replies op thread (.host .attach) status lost, s'⟩ :: h') :=
        back.already ha honest
      refine ⟨.of_reply inside.held, ?_⟩
      simp only [ha, Progress.bind, Operation.pure_apply]
      exact inside
    | newlyAttached =>
      simp only [tellsAttached, ha, decide_eq_true_eq] at honest
      have inside : Inside policy first k (policy = .detachOnExit) op thread s'
          (⟨.replies op thread (.host .attach) status lost, s'⟩ :: h') :=
        back.newly ha honest
      refine ⟨.of_reply inside.held, ?_⟩
      simp only [ha, Progress.bind, Operation.bind_apply, Operation.thread_apply]
      -- that the thread is new is logged while the guard is alive
      exact Nests.bind (inside_basics.breadcrumb op thread s' _ inside)

theorem drop_nests {g : AttachGuard}
    (hi : Inside policy first k g.detachOnDrop op thread s h) :
    Nests (attachments policy first) op thread
      (fun _ => Level policy first k false op thread) (g.drop thread s) h := by
  obtain ⟨detachOnDrop⟩ := g
  cases detachOnDrop with
  | false => exact hi.toLevel
  | true =>
    have left : Level policy first k false op thread s
        (⟨.calls op thread (.host .detach), s⟩ :: h) := hi.detach
    refine ⟨hi.detaching, fun _ => ⟨left.policy_eq, left.held⟩, fun r s' h' lost ho _ => ?_⟩
    have replied := (left.later ho).unmarked (m := ⟨.replies op thread (.host .detach) r lost, s'⟩)
      (by rintro ⟨⟩)
    refine ⟨.of_reply replied.held, ?_⟩
    simp only [Progress.bind, Operation.bind_apply, Operation.thread_apply]
    exact level_basics.breadcrumb op thread s' _ replied

/-- A visit attaches the thread, and puts things back as they were. -/
theorem visit_carries {body : Operation α}
    (hb : ∀ pending, (attachments policy first).Carries (Inside policy first k pending) body) :
    (attachments policy first).Carries (Level policy first k false) (visit body) := by
  intro op thread s h hl
  show Nests _ op thread _ (onHostThread s.registry.policy body thread s) h
  rw [hl.policy_eq]
  refine Nests.bind ((acquire_nests hl).mono fun r s' h' acquired => ?_)
  cases r with
  | error e => exact acquired
  | ok g =>
    refine Nests.bind ((hb _ op thread s' h' acquired).mono fun a s₂ h₂ inside => ?_)
    exact Nests.bind ((drop_nests inside).mono fun _ _ _ level => level)

/-! ### Operations -/

theorem Level.change (hl : Level policy first k pending op thread s h)
    (hs : s'.registry.policy = s.registry.policy) :
    Level policy first k pending op thread s' h :=
  { hl with policy_eq := hs.trans hl.policy_eq }

/-- Whatever part of an operation runs between its visits, the attachments are
    level. -/
theorem level_parts : TableParts (fun m =>
    (attachments policy first).Carries (Level policy first k false) m) where
  toBasics := level_basics
  touch hf := .modifyGet fun _ _ s _ hl => hl.change (hf s).policy_eq
  visit hc _ := visit_carries fun _ => guarded_carries hc
  ask := visit_carries fun _ =>
    inside_basics.askOwner fun ht => guarded_carries (HostCall.guarded_of_textless ht)
  enter := .modifyGet fun _ _ s _ hl => hl.change <| by
    unfold Registry.entering
    split
    · rfl
    · next he => exact (Registry.Rises.enlist he).policy
  strike := .modifyGet fun _ _ s _ hl => hl.change <| by
    unfold Registry.striking
    split <;> rfl
  miss := fun _ _ _ _ hl => hl.change rfl

theorem attachments_kept (q : Request) : (attachments policy first).Kept q := by
  intro thread s h numbered hs hc
  obtain ⟨hpolicy, held⟩ := hs
  have fresh : ∀ m ∈ h, m.event.op ≠ h.begun := fun m hm => Nat.ne_of_lt (numbered m hm)
  have older : ∀ x ∈ guards h, x.1 ≠ h.begun := by
    intro x hx
    obtain ⟨m, hm, hop⟩ := exists_of_mem_guards hx
    exact hop ▸ fresh m hm
  have begins : Level policy first h false h.begun thread s
      (⟨.begins h.begun thread q, s⟩ :: h) := {
    policy_eq := hpolicy
    began := ⟨q, s, [], rfl⟩
    older := older
    heldBefore := held
    own := ⟨[], rfl, by simp⟩
    held := held
    keeps := fun _ ht => ht
    adds := fun _ _ ht => .inl ht
    paired := fun _ => by
      have none : marks h.begun (⟨.begins h.begun thread q, s⟩ :: h) = [] :=
        marks_eq_nil (h := h) fresh
      simp [none] }
  refine ⟨.of_held held (fun _ _ _ h => (by cases h)) fun _ _ _ _ h => (by cases h), ?_⟩
  have carried : (attachments policy first).Carries (Level policy first h false) q.operation :=
    level_parts.coreOrClose (.modifyGet fun _ _ _ _ hl => hl.change rfl) (hc.1 _ _ _ rfl)
  refine (carried h.begun thread s _ begins).mono fun result s' h' hl => ?_
  have guarded : guards (⟨.ends h.begun thread q result, s'⟩ :: h') = guards h := hl.others
  have heldAfter : History.Held first (⟨.ends h.begun thread q result, s'⟩ :: h') := by
    intro x hx
    rw [guarded] at hx
    exact hl.keeps x.2 (held x hx)
  have back : policy = .detachOnExit → ∀ t ∈ attached first h', t ∈ attached first h :=
    fun hp t ht => (hl.adds hp t ht).resolve_right (by simp)
  refine ⟨⟨fun _ _ _ h => (by cases h), heldAfter, fun _ _ h => (by cases h), ?_⟩,
    ⟨hl.policy_eq, heldAfter⟩, guarded, hl.keeps, back⟩
  intro op' thread' q' result' he hp
  cases he
  exact ⟨by simpa using hl.paired hp, h, hl.began, fun t => ⟨back hp t, hl.keeps t⟩⟩

/-! ### Runs -/

/-- In every run of the registry and the dispatcher attachments are scoped,
    whoever was attached before and however operations are nested. -/
theorem attachments_scoped {c : Situation} (reaches : Reaches (.initial s) c)
    (core : c.history.Only Request.isCoreOrClose) (honest : c.history.HonestAttach first) :
    c.history.Always (Moment.Scoped s.registry.policy first) := by
  have initially : (attachments s.registry.policy first).holds s [] :=
    ⟨rfl, fun x hx => by cases hx⟩
  exact (reaches.nested attachments_kept initially (core.and honest)).always

/-- A process that detaches its threads. -/
def detaching : State :=
  { State.initial 0 with registry := .new .detachOnExit 0 }

/-- While a descriptor is being protected on a thread of the engine, the handle
    is released there and another one is unpinned; the last reference is given
    back after that.  Then the host refuses a thread. -/
def releasedWhileAttached : Situation :=
  ((Situation.initial detaching).play?
    [.start ⟨"host"⟩ (.registry (.register Sample.object .tunnel)),
     .reply (.host .attach) (0 : Int32),
     .reply (.host (.pin Sample.object)) (some Sample.reference),
     .start ⟨"host"⟩ (.registry (.register Sample.object .invoke)),
     .reply (.host .attach) (0 : Int32),
     .reply (.host (.pin Sample.object)) (some Sample.reference'),
     .start ⟨"engine"⟩ (.dispatch (.protect ⟨1⟩ 3)),
     .reply (.host .attach) (1 : Int32),
     .start ⟨"engine"⟩ (.registry (.releaseRaw ⟨1⟩)),
     .start ⟨"engine"⟩ (.registry (.releaseRaw ⟨2⟩)),
     .reply (.host .attach) (0 : Int32),
     .reply (.host (.unpin Sample.reference')) (),
     .reply (.host (.protect Sample.reference 3)) (),
     .reply (.host .detach) (),
     .reply (.host .attach) (1 : Int32),
     .reply (.host (.unpin Sample.reference)) (),
     .reply (.host .detach) (),
     .start ⟨"engine"⟩ (.registry (.register Sample.object .tunnel)),
     .reply (.host .attach) (7 : Int32)]).get rfl

set_option maxRecDepth 4096 in
theorem attachments_scoped_releasedWhileAttached :
    Reaches (.initial detaching) releasedWhileAttached ∧
    releasedWhileAttached.history.Only Request.isCoreOrClose ∧
    releasedWhileAttached.history.HonestAttach [⟨"host"⟩] ∧
    marks 2 releasedWhileAttached.history = [.detached, .accepted .newlyAttached,
      .detached, .accepted .newlyAttached] ∧
    releasedWhileAttached.history.Always (Moment.Scoped .detachOnExit [⟨"host"⟩]) := by
  have reaches : Reaches (.initial detaching) releasedWhileAttached :=
    Situation.reaches_get_play? _
  have core : releasedWhileAttached.history.Only Request.isCoreOrClose := by decide
  have honest : releasedWhileAttached.history.HonestAttach [⟨"host"⟩] := by decide
  exact ⟨reaches, core, honest, rfl, attachments_scoped reaches core honest⟩

end CallbackBridge.Run
