import CallbackBridge.Proofs.Run.Bridges
import CallbackBridge.Proofs.Run.Own

/-! # What an operation adds to the counters

    Each operation adds to the counters by itself, and so does whatever is
    nested in its calls.  A `Tally` follows what one operation adds.

    Key ideas:

    1. A refusal to attach the thread is counted right after the host has
       replied.  In between one is owed.
    2. Handles are counted as they enter and leave the table, which is told
       elsewhere.  A tally leaves these two counters out.
    3. Parts that count nothing else keep the tally. -/

namespace CallbackBridge

open Run Run.History

/-- A counter that goes with the table. -/
def Counter.ofTable : Counter → Bool
  | .handlesRegistered | .handlesReleased => true
  | .duplicateReleases | .staleLookups | .callbacksDispatched | .callbacksDropped
  | .attachFailures | .resultsRejected | .helpersLaunched => false

/-- The host refuses to attach the thread. -/
def Call.refused : (c : Call) → c.Reply → Bool
  | .host .attach, status =>
    match AttachState.ofStatus status with
    | .ok _ => false
    | .error _ => true
  | _, _ => false

namespace Run

/-- A host object is called. -/
def Event.isUse : Event → Bool
  | .calls _ _ c => (target? c).isSome
  | .begins .. | .replies .. | .ends .. => false

theorem Event.isRefusal_replies {op : Nat} {thread : Thread} {c : Call} {r : c.Reply}
    {lost : Option HostObject} : isRefusal (.replies op thread c r lost) = c.refused r := by
  cases c with
  | host c => cases c <;> rfl
  | _ => rfl

/-- A nesting whose law is about the ends of operations.  `H` holds of the state
    whenever one may begin. -/
def Nesting.closing (H : State → Prop) (conduct : Moment → History → Prop)
    (law : (op : Nat) → Thread → (q : Request) → q.Result → State → History → Prop) : Nesting where
  holds s _ := H s
  spans _ _ _ _ := True
  conduct := conduct
  law m before := ∀ op thread q result, m.event = .ends op thread q result →
    law op thread q result m.state before
  spans_refl _ _ := trivial
  spans_trans _ _ := trivial

/-- Where anything may be nested, an operation ends by its plan. -/
theorem Nests.of_follows {α : Type} {op : Nat} {thread : Thread} {h : History}
    {conduct : Moment → History → Prop}
    {law : (op : Nat) → Thread → (q : Request) → q.Result → State → History → Prop}
    {p : Progress α} {told : List Exchange} {post : α → State → Prop}
    (hp : p.Follows ⟨fun _ _ _ => True, fun _ => post⟩ told) :
    Nests (.closing (fun _ => True) conduct law) op thread (fun a s _ => post a s) p h := by
  induction p generalizing told h with
  | finished a s => exact hp
  | calling call s resume ih =>
    refine ⟨fun _ _ _ _ he => (by cases he), fun _ => trivial, fun r s' h' lost ho _ => ?_⟩
    refine ⟨fun _ _ _ _ he => (by cases he), ih r s' (hp.2 r s' fun hq => ?_)⟩
    exact (ho.quiet hq).1

/-- While a line is logged, the state stays as it is. -/
theorem Nesting.closing_logs {H P : State → Prop} {conduct : Moment → History → Prop}
    {law : (op : Nat) → Thread → (q : Request) → q.Result → State → History → Prop} :
    Basics fun m => (Nesting.closing H conduct law).Carries (fun _ _ s _ => P s) m := by
  refine Nesting.Carries.basics fun op thread s h c hc hp => ?_
  exact ⟨fun _ _ _ _ he => (by cases he), fun r lost => ⟨fun _ _ _ _ he => (by cases he), hp⟩⟩

/-- `H` is about the registry and the engine only. -/
def Lasts (H : State → Prop) : Prop :=
  ∀ s s' : State, (s.registry.Sound → s'.registry.Sound) → s'.engine = s.engine → H s → H s'

/-- A change that a tally leaves out. -/
structure Steady (s s' : State) : Prop where
  sound : s.registry.Sound → s'.registry.Sound
  engine_eq : s'.engine = s.engine
  counters : ∀ k, k.ofTable = false → s'.counters.get k = s.counters.get k

namespace Steady

variable {s s' : State}

theorem mild (ht : Touch s s') (hc : s'.counters = s.counters) : Steady s s' where
  sound := ht.sound
  engine_eq := ht.engine_eq
  counters _ _ := by rw [hc]

/-- Handles are counted apart. -/
theorem counted {r : Registry} {k : Counter} (hk : k.ofTable = true)
    (hr : s.registry.Sound → r.Sound) :
    Steady s { s with registry := r, counters := s.counters.bump k } where
  sound := hr
  engine_eq := rfl
  counters l hl := by
    refine Counters.get_bump_ne _ _ _ ?_
    rintro rfl
    rw [hk] at hl
    cases hl

theorem entering (o : HostObject) (k : HandleKind) : Steady s (Registry.entering o k s).2 := by
  rcases he : Registry.entering o k s with ⟨err | id, s'⟩
  · obtain rfl := Registry.entering_error he
    exact .mild .none rfl
  · obtain ⟨r, henlist, rfl⟩ := Registry.entering_ok he
    exact .counted rfl fun hr => hr.enlist henlist

theorem striking (id : HandleId) : Steady s (Registry.striking id s).2 := by
  unfold Registry.striking
  split
  · exact .mild .none rfl
  · exact .counted rfl fun hr => hr.delist

theorem clearing : Steady s (Registry.clearing s).2 where
  sound hr := hr.clear rfl
  engine_eq := rfl
  counters _ _ := rfl

end Steady

/-! ### Tallies -/

/-- Operation `op` has added what `ks` lists, by itself, and has called `n` host
    objects.  It has yet to count `owed` refusals. -/
structure Tally (H : State → Prop) (ks : List Counter) (n owed : Nat) (op : Nat) (s : State)
    (h : History) : Prop where
  holds : H s
  began : h ≠ []
  uses : h.countBy op Event.isUse = n
  spent : ∀ k, k.ofTable = false → k ≠ .attachFailures → h.spent op k s = .ofNat (ks.count k)
  failures : h.spent op .attachFailures s + .ofNat owed = .ofNat (h.countBy op isRefusal)

namespace Tally

variable {H : State → Prop} {conduct : Moment → History → Prop}
  {law : (op : Nat) → Thread → (q : Request) → q.Result → State → History → Prop}
  {ks : List Counter} {n owed op : Nat} {thread : Thread} {s s' : State} {h : History}
  {c : Call} {α : Type}

/-- An operation begins with nothing added. -/
theorem begins {q : Request} (hs : H s) (hn : ∀ m ∈ h, m.event.op ≠ op) :
    Tally H [] 0 0 op s (⟨.begins op thread q, s⟩ :: h) := by
  have own : (Event.begins op thread q).op = op := rfl
  have counted : ∀ sort, sort (.begins op thread q) = false →
      countBy op sort (⟨.begins op thread q, s⟩ :: h) = 0 := by
    intro sort hsort
    rw [countBy_of_own own, countBy_eq_zero hn, hsort]
    rfl
  have added : ∀ k, History.spent op k s (⟨.begins op thread q, s⟩ :: h) = 0 := by
    intro k
    rw [spent_cons, added_stay id, added_eq_zero hn]
  refine ⟨hs, List.cons_ne_nil _ _, counted _ rfl, fun k _ _ => added k, ?_⟩
  rw [added, counted _ rfl]
  rfl

theorem change (hH : Lasts H) (ht : Tally H ks n owed op s h) (hs : Steady s s') :
    Tally H ks n owed op s' h where
  holds := hH s _ hs.sound hs.engine_eq ht.holds
  began := ht.began
  uses := ht.uses
  spent k hk hne := by
    rw [spent_change s _ ht.began, hs.counters k hk, sub_self, add_zero]
    exact ht.spent k hk hne
  failures := by
    rw [spent_change s _ ht.began, hs.counters _ rfl, sub_self, add_zero]
    exact ht.failures

/-- What the operation counts is added to the list. -/
theorem bump (hH : Lasts H) (ht : Tally H ks n owed op s h) {k : Counter}
    (hne : k ≠ .attachFailures) :
    Tally H (k :: ks) n owed op { s with counters := s.counters.bump k } h where
  holds := hH s _ (fun hr => hr) rfl ht.holds
  began := ht.began
  uses := ht.uses
  spent l hl hlne := by
    rw [spent_change s _ ht.began, ht.spent l hl hlne]
    by_cases heq : l = k
    · subst heq
      rw [Counters.get_bump_self, List.count_cons_self, UInt64.ofNat_add]
      grind
    · rw [Counters.get_bump_ne _ _ _ heq, List.count_cons_of_ne (Ne.symm heq), sub_self, add_zero]
  failures := by
    rw [spent_change s _ ht.began, Counters.get_bump_ne _ _ _ (Ne.symm hne), sub_self, add_zero]
    exact ht.failures

/-- A refusal is counted that was owed. -/
theorem pay (hH : Lasts H) (ht : Tally H ks n (owed + 1) op s h) :
    Tally H ks n owed op { s with counters := s.counters.bump .attachFailures } h where
  holds := hH s _ (fun hr => hr) rfl ht.holds
  began := ht.began
  uses := ht.uses
  spent l hl hlne := by
    rw [spent_change s _ ht.began, Counters.get_bump_ne _ _ _ hlne, sub_self, add_zero]
    exact ht.spent l hl hlne
  failures := by
    rw [spent_change s _ ht.began, Counters.get_bump_self, ← ht.failures, UInt64.ofNat_add]
    grind

/-- The operation makes a call.  What is nested in it is others'. -/
theorem call (ht : Tally H ks n owed op s h) :
    Nests (.closing H conduct law) op thread (fun r s' h' =>
      Tally H ks (n + if (target? c).isSome then 1 else 0) (owed + if c.refused r then 1 else 0)
        op s' h') (Operation.call c thread s) h := by
  refine ⟨fun _ _ _ _ he => (by cases he), fun _ => ht.holds, fun r s' h' lost ho _ => ?_⟩
  refine ⟨fun _ _ _ _ he => (by cases he), ?_⟩
  have back : H s' := by
    cases hq : c.mayReenter with
    | true => exact ho.holds hq
    | false =>
      obtain ⟨rfl, -⟩ := ho.quiet hq
      exact ht.holds
  have called : (Event.calls op thread c).op = op := rfl
  have replied : (Event.replies op thread c r lost).op = op := rfl
  have counted : ∀ sort, countBy op sort h' = countBy op sort h +
      if sort (.calls op thread c) then 1 else 0 := by
    intro sort
    have same : countBy op sort h' = countBy op sort (⟨.calls op thread c, s⟩ :: h) :=
      ho.since.unchanged fun _ _ => countBy_of_ne
    rw [same, countBy_of_own called]
  exact {
    holds := back
    began := List.cons_ne_nil _ _
    uses := by
      rw [countBy_of_own replied, counted, ht.uses]
      rfl
    spent := fun k hk hne => by rw [spent_reply ho.since]; exact ht.spent k hk hne
    failures := by
      have silent : isRefusal (.calls op thread c) = false := rfl
      rw [spent_reply ho.since, countBy_of_own replied, counted, silent, Event.isRefusal_replies,
        UInt64.ofNat_add, UInt64.ofNat_add, ← add_assoc, ht.failures]
      rfl }

/-- A call that uses no object and attaches no thread. -/
theorem carries_call (hc : target? c = none) (hr : ∀ r, c.refused r = false) :
    (Nesting.closing H conduct law).Carries (fun op _ s h => Tally H ks n owed op s h)
      (Operation.call c) := by
  intro op thread s h ht
  refine ht.call.mono fun r s' h' hx => ?_
  rwa [hc, hr] at hx

theorem basics : Basics fun m =>
    (Nesting.closing H conduct law).Carries (fun op _ s h => Tally H ks n owed op s h) m := by
  refine Nesting.Carries.basics_of_calls fun {c} hc => ?_
  cases c with
  | log | system => exact carries_call rfl fun _ => rfl
  | host | engine | library => cases hc

/-- A refusal is owed from the reply on. -/
theorem acquire (policy : DetachPolicy) (ht : Tally H ks n owed op s h) :
    Nests (.closing H conduct law) op thread (fun r s' h' => match r with
      | .ok _ => Tally H ks n owed op s' h'
      | .error _ => Tally H ks n (owed + 1) op s' h') (AttachGuard.acquire policy thread s) h := by
  refine Nests.bind (ht.call.mono fun status s' h' hx => ?_)
  have answered : Tally H ks n (owed + if Call.refused (.host .attach) status then 1 else 0)
      op s' h' := hx
  cases ha : AttachState.ofStatus status with
  | error e =>
    rw [Call.refused, ha] at answered
    simp only [ha]
    exact answered
  | ok a =>
    rw [Call.refused, ha] at answered
    simp only [ha]
    cases a with
    | attached => exact answered
    | newlyAttached =>
      -- that the thread is new is logged
      refine Nests.bind (p := Log.breadcrumb _ _ thread s') ?_
      exact basics.breadcrumb op thread s' h' answered

theorem carries_drop {g : AttachGuard} :
    (Nesting.closing H conduct law).Carries (fun op _ s h => Tally H ks n owed op s h) g.drop :=
  basics.drop (carries_call rfl fun _ => rfl)

/-- What is done on a visit to the host is done once the thread is attached. -/
theorem onHostThread {n' : Nat} {body : Operation α} (policy : DetachPolicy)
    (ht : Tally H ks n 0 op s h)
    (hb : ∀ s h, Tally H ks n 0 op s h → Nests (.closing H conduct law) op thread
      (fun _ s' h' => Tally H ks n' 0 op s' h') (body thread s) h) :
    Nests (.closing H conduct law) op thread (fun r s' h' => match r with
      | .ok _ => Tally H ks n' 0 op s' h'
      | .error _ => Tally H ks n 1 op s' h') (onHostThread policy body thread s) h := by
  refine Nests.bind ((ht.acquire policy).mono fun r s₁ h₁ hx => ?_)
  cases r with
  | error e => exact hx
  | ok g =>
    refine Nests.bind ((hb s₁ h₁ hx).mono fun a s₂ h₂ hy => ?_)
    exact Nests.bind ((carries_drop op thread s₂ h₂ hy).mono fun _ _ _ hz => hz)

theorem carries_bump (hH : Lasts H) {k : Counter} (hne : k ≠ .attachFailures) {op : Nat}
    {thread : Thread} {s : State} {h : History} (ht : Tally H ks n owed op s h) :
    Nests (.closing H conduct law) op thread (fun _ s' h' => Tally H (k :: ks) n owed op s' h')
      (CallbackBridge.bump k thread s) h :=
  ht.bump hH hne

theorem carries_change (hH : Lasts H) {f : State → α × State} (hf : ∀ s, Steady s (f s).2) :
    (Nesting.closing H conduct law).Carries (fun op _ s h => Tally H ks n owed op s h)
      (Operation.modifyGet f) :=
  .modifyGet fun _ _ s _ ht => ht.change hH (hf s)

theorem carries_limitedError (hH : Lasts H) {category : Log.Category} {text : String} :
    (Nesting.closing H conduct law).Carries (fun op _ s h => Tally H ks n owed op s h)
      (Log.limitedError category text) := by
  refine basics.limitedError fun hf => carries_change hH fun s => ?_
  obtain ⟨limiter, hl⟩ := hf s
  rw [hl]
  exact .mild (.limit limiter) rfl

/-- An object is unpinned, or that it could not be is counted. -/
theorem carries_unpin (hH : Lasts H) {o : HostObject} :
    (Nesting.closing H conduct law).Carries (fun op _ s h => Tally H ks n 0 op s h)
      (Registry.unpin o) := by
  intro op thread s h ht
  have body : ∀ s h, Tally H ks n 0 op s h → Nests (.closing H conduct law) op thread
      (fun _ s' h' => Tally H ks n 0 op s' h') (Operation.call (.host (.unpin o)) thread s) h :=
    fun s h ht => carries_call rfl (fun _ => rfl) op thread s h ht
  simp only [Registry.unpin, Operation.bind_apply, Operation.state_apply, Progress.bind]
  refine Nests.bind ((ht.onHostThread s.registry.policy body).mono fun r s' h' hx => ?_)
  cases r with
  | ok _ => exact hx
  | error e =>
    exact basics.bind (carries_limitedError hH) (fun _ => basics.pure ()) op thread _ h' (hx.pay hH)

/-- An object is pinned, or that it could not be is counted. -/
theorem carries_pin (hH : Lasts H) {o : HostObject} :
    (Nesting.closing H conduct law).Carries (fun op _ s h => Tally H ks n 0 op s h)
      (Registry.pin o) := by
  intro op thread s h ht
  have body : ∀ s h, Tally H ks n 0 op s h → Nests (.closing H conduct law) op thread
      (fun _ s' h' => Tally H ks n 0 op s' h') (Operation.call (.host (.pin o)) thread s) h :=
    fun s h ht => carries_call rfl (fun _ => rfl) op thread s h ht
  simp only [Registry.pin, Operation.bind_apply, Operation.state_apply, Progress.bind]
  refine Nests.bind ((ht.onHostThread s.registry.policy body).mono fun r s' h' hx => ?_)
  cases r with
  | ok found => cases found <;> exact hx
  | error e => exact basics.bind basics.emit (fun _ => basics.pure _) op thread _ h' (hx.pay hH)

/-- Parts that count nothing but refusals keep a tally. -/
theorem pinning (hH : Lasts H) : PinningParts fun m =>
    (Nesting.closing H conduct law).Carries (fun op _ s h => Tally H ks n 0 op s h) m where
  toBasics := basics
  mild hf := carries_change hH fun s => .mild (hf s).1 (hf s).2
  pin := carries_pin hH
  unpin := carries_unpin hH

/-- So do calls of an engine. -/
theorem passing : PassingParts fun m =>
    (Nesting.closing H conduct law).Carries (fun op _ s h => Tally H ks n owed op s h) m where
  toBasics := basics
  engine {c} hc _ := by
    cases c with
    | engine | library => exact carries_call rfl fun _ => rfl
    | host | log | system => cases hc

end Tally

end Run

end CallbackBridge
