import CallbackBridge.Proofs.Run.Calls
import CallbackBridge.Proofs.Run.Parts

/-! # What a registration is told

    A registration visits the host once to pin its object.  What it was told on
    that visit decides how it ends.

    Key ideas:

    1. `Visited` is what a visit to the host was told from its attachment to its
       end, so the last exchange shows the state in which the visit was over.
    2. Room is looked for as the registration begins, and once more in the state
       in which the pin was over.
    3. A registration that succeeds puts the pinned reference at the head of the
       table. -/

namespace CallbackBridge

theorem Registry.enlist_full {r r' : Registry} {o : HostObject} {k : HandleKind} {n : UInt64}
    (h : r.enlist o k = (.error (.capacityExceeded n), r')) :
    n = r.capacity ∧ r.atCapacity = true := by
  unfold enlist at h
  split at h
  · next full =>
    cases h
    exact ⟨rfl, full⟩
  · split at h <;> cases h

/-- What an operation was told, it was told at a moment of the history. -/
theorem Run.History.replies_of_mem_exchanges {h : History} {op : Nat} {x : Exchange}
    (hx : x ∈ exchanges op h) :
    ∃ thread lost, ⟨.replies op thread x.call x.reply lost, x.state⟩ ∈ h := by
  induction h with
  | nil => cases hx
  | cons m before ih =>
    have older : x ∈ exchanges op before →
        ∃ thread lost, ⟨.replies op thread x.call x.reply lost, x.state⟩ ∈ m :: before := by
      intro hx
      obtain ⟨thread, lost, hm⟩ := ih hx
      exact ⟨thread, lost, List.mem_cons_of_mem _ hm⟩
    obtain ⟨e, s⟩ := m
    cases e with
    | replies op' thread call reply lost =>
      simp only [exchanges, Exchange.add] at hx
      split at hx
      · next hop =>
        subst hop
        split at hx
        · rcases List.mem_cons.mp hx with rfl | hx
          · exact ⟨thread, lost, List.mem_cons_self ..⟩
          · exact older hx
        · exact older hx
      · exact older hx
    | _ => exact older hx

theorem Run.History.mem_exchanges {h : History} {op : Nat} {thread : Thread} {call : Call}
    {reply : call.Reply} {lost : Option HostObject} {s : State}
    (hm : ⟨.replies op thread call reply lost, s⟩ ∈ h) (hc : call.mayReenter = true) :
    ⟨call, reply, s⟩ ∈ exchanges op h := by
  induction h with
  | nil => cases hm
  | cons m before ih =>
    rcases List.mem_cons.mp hm with rfl | hm
    · simp [exchanges, Exchange.add, hc]
    · exact (exchanges_cons_suffix op m before).subset (ih hm)

/-! ### Visits -/

/-- What was told on a visit to the host that ends in `s`: the reply to `c`
    after the one to the attachment, and then the one to the end of it, where
    the visit had attached the thread and the policy asks for that. -/
inductive Visited (policy : DetachPolicy) (c : Call) (reply : c.Reply) (s : State) :
    List Exchange → Prop
  | stays {status : Int32} {a : AttachState} {s₁ : State} :
    AttachState.ofStatus status = .ok a → (a = .newlyAttached → policy = .keepAttached) →
    Visited policy c reply s [⟨c, reply, s⟩, ⟨.host .attach, status, s₁⟩]
  | leaves {status : Int32} {s₁ s₂ : State} :
    AttachState.ofStatus status = .ok .newlyAttached → policy = .detachOnExit →
    Visited policy c reply s
      [⟨.host .detach, (), s⟩, ⟨c, reply, s₂⟩, ⟨.host .attach, status, s₁⟩]

namespace Visited

variable {policy : DetachPolicy} {c : Call} {reply : c.Reply} {s : State} {told : List Exchange}

/-- A visit ends with the last exchange on it. -/
theorem exists_last (h : Visited policy c reply s told) : ∃ x ∈ told, x.state = s := by
  cases h <;> exact ⟨_, List.mem_cons_self .., rfl⟩

/-- On a visit the call was replied to. -/
theorem exists_reply (h : Visited policy c reply s told) : ∃ s', ⟨c, reply, s'⟩ ∈ told := by
  cases h with
  | stays => exact ⟨s, List.mem_cons_self ..⟩
  | @leaves _ _ s₂ => exact ⟨s₂, List.mem_cons_of_mem _ (List.mem_cons_self ..)⟩

/-- On a visit the call was made once. -/
theorem reply_unique {reply' : c.Reply} {s' : State} (h : Visited policy c reply s told)
    (hm : ⟨c, reply', s'⟩ ∈ told) (ha : c ≠ .host .attach) (hd : c ≠ .host .detach) :
    reply' = reply := by
  cases h with
  | stays =>
    rcases List.mem_cons.mp hm with heq | hm
    · cases heq
      rfl
    · cases List.mem_singleton.mp hm
      exact absurd rfl ha
  | leaves =>
    rcases List.mem_cons.mp hm with heq | hm
    · cases heq
      exact absurd rfl hd
    rcases List.mem_cons.mp hm with heq | hm
    · cases heq
      rfl
    · cases List.mem_singleton.mp hm
      exact absurd rfl ha

end Visited

open Operation Run

variable {thread : Thread} {s : State} {o : HostObject} {k : HandleKind}

/-- The host has refused to attach the thread, and nothing else was told. -/
def Refused (err : AttachError) (s : State) (told : List Exchange) : Prop :=
  ∃ status, told = [⟨.host .attach, status, s⟩] ∧ AttachState.ofStatus status = .error err

theorem drop_follows {g : AttachGuard} (told : List Exchange) :
    (g.drop thread s).Follows
      ⟨fun _ _ _ => True, fun told' _ s' =>
        if g.detachOnDrop then told' = ⟨.host .detach, (), s'⟩ :: told else told' = told ∧ s' = s⟩
      told := by
  unfold AttachGuard.drop
  split
  · refine ⟨trivial, fun _ s₁ _ => ?_⟩
    simp only [Operation.bind_apply, Operation.thread_apply, Progress.bind]
    refine (Quiet.breadcrumb _).mono (fun _ _ _ _ => trivial) ?_
    rintro _ _ s₂ ⟨rfl, rfl⟩
    rfl
  · exact ⟨rfl, rfl⟩

theorem onHostThread_follows {policy : DetachPolicy} {c : Call} (hc : c.mayReenter = true) :
    (onHostThread policy (Operation.call c) thread s).Follows
      ⟨fun _ _ _ => True, fun told r s' => match r with
        | .ok reply => Visited policy c reply s' told
        | .error err => Refused err s' told⟩ [] := by
  refine Progress.Follows.bind (AttachGuard.acquire_follows trivial (fun _ _ _ _ _ => trivial)
    (fun status s₁ e ha => ⟨status, rfl, ha⟩) fun status s₁ a g ha hg => ?_)
  refine ⟨trivial, fun reply s₂ _ => ?_⟩
  have called : Exchange.add c reply s₂ [⟨.host .attach, status, s₁⟩] =
      [⟨c, reply, s₂⟩, ⟨.host .attach, status, s₁⟩] := if_pos hc
  rw [called]
  simp only [Progress.bind, Operation.bind_apply]
  refine Progress.Follows.bind ((drop_follows _).mono (fun _ _ _ _ => trivial) ?_)
  intro told' _ s₃ hdrop
  show Visited policy c reply s₃ told'
  split at hdrop
  · next hd =>
    obtain ⟨rfl, leaving⟩ := hg.mp hd
    subst hdrop
    exact .leaves ha leaving
  · next hd =>
    obtain ⟨rfl, rfl⟩ := hdrop
    refine .stays ha fun hnew => ?_
    cases policy with
    | keepAttached => rfl
    | detachOnExit => exact absurd (hg.mpr ⟨hnew, rfl⟩) hd

/-! ### Registrations -/

/-- The host has refused to attach the thread, or to pin the object. -/
def Unpinnable (o : HostObject) (policy : DetachPolicy) (told : List Exchange) : Prop :=
  (∃ err s, Refused err s told) ∨ ∃ s, Visited policy (.host (.pin o)) none s told

theorem pin_follows :
    (Registry.pin o thread s).Follows
      ⟨fun _ _ _ => True, fun told r s' => match r with
        | .ok pinned => Visited s.registry.policy (.host (.pin o)) (some pinned) s' told
        | .error e => e = .pinFailed ∧ Unpinnable o s.registry.policy told⟩ [] := by
  simp only [Registry.pin, Operation.bind_apply, Operation.state_apply, Progress.bind]
  refine Progress.Follows.bind ((onHostThread_follows rfl).mono (fun _ _ _ _ => trivial) ?_)
  intro told r s₁ h
  cases r with
  | ok found =>
    cases found with
    | some pinned => exact h
    | none => exact ⟨rfl, .inr ⟨s₁, h⟩⟩
  | error e =>
    have fails : (do
        bump .attachFailures
        Log.warn s!"register: {e.message}"
        pure (.error .pinFailed) : Operation (Except HandleError HostObject)).Quiet thread s₁
          fun r _ => r = .error .pinFailed := by
      refine .bind .bump fun _ s₂ _ => ?_
      exact .bind .emit fun _ s₃ _ => .of_eq rfl rfl
    refine (fails told).mono (fun _ _ _ _ => trivial) ?_
    intro _ _ s₂ hr
    obtain ⟨rfl, rfl⟩ := hr
    exact ⟨rfl, .inl ⟨e, s₁, h⟩⟩

/-- How a registration that began in `s` ends in `s'`, after what it was told. -/
def Registry.Outcome (o : HostObject) (k : HandleKind) (s : State) (told : List Exchange)
    (r : Except HandleError Handle) (s' : State) : Prop :=
  match r with
  | .ok handle => handle.kind = k ∧ ∃ pinned s₁,
    Visited s.registry.policy (.host (.pin o)) (some pinned) s₁ told ∧
    s'.registry.entries.head? = some (.fresh handle.id pinned k)
  | .error (.capacityExceeded n) =>
    (n = s.registry.capacity ∧ s.registry.atCapacity = true) ∨
    ∃ pinned s₁ later told', told = later ++ told' ∧
      Visited s.registry.policy (.host (.pin o)) (some pinned) s₁ told' ∧
      n = s₁.registry.capacity ∧ s₁.registry.atCapacity = true
  | .error _ => True

theorem register_follows :
    (Registry.register o k thread s).Follows
      ⟨fun _ _ _ => True, Registry.Outcome o k s⟩ [] := by
  rw [Registry.register_eq]
  simp only [Operation.bind_apply, Operation.state_apply, Progress.bind]
  split
  · next full => exact .inl ⟨rfl, full⟩
  refine Progress.Follows.bind (pin_follows.mono (fun _ _ _ _ => trivial) ?_)
  rintro told (e | pinned) s₁ visited
  · obtain rfl := visited.1
    exact trivial
  simp only [Registry.enter, Registry.entering, Operation.bind_apply,
    Operation.modifyGet_apply, Progress.bind]
  rcases he : s₁.registry.enlist pinned k with ⟨e | id, r⟩
  · -- the pin is given back, and the error is as the table had it
    have fails : Makes Upkeep (do
        Registry.unpin pinned
        pure (.error e)) (· = (.error e : Except HandleError Handle)) :=
      .bind .unpin fun _ _ => .pure rfl
    refine (fails thread s₁ told).mono (fun _ _ _ _ => trivial) ?_
    rintro _ _ s₂ ⟨⟨later, rfl, -⟩, rfl⟩
    cases e with
    | capacityExceeded n =>
      exact .inr ⟨pinned, s₁, later, told, rfl, visited, Registry.enlist_full he⟩
    | _ => trivial
  · obtain ⟨-, -, -, rfl⟩ := Registry.enlist_ok he
    refine Progress.Follows.bind ((Quiet.breadcrumb _).mono (fun _ _ _ _ => trivial) ?_)
    rintro _ _ s₂ ⟨rfl, rfl⟩
    exact ⟨rfl, pinned, s₁, visited, rfl⟩

end CallbackBridge
