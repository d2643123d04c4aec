import CallbackBridge.Proofs.Run.Dispatching
import CallbackBridge.Proofs.Run.Spending

/-! # What an operation strikes off the table

    An operation may find an id gone that it had not struck off by itself: the
    host is called in between, and may have released it.  A `Watch` follows one
    id through an operation.

    Key ideas:

    1. Only what the table listed at the moment before, and does not list at the
       next call, was struck off by the operation itself.
    2. From the first call on that is made on the way, the moment before shows
       the table as it is. -/

namespace CallbackBridge

open Run Run.History

namespace Run

/-- Operation `op` has taken `id` off the table by itself. -/
def History.struckBy (op : Nat) (id : HandleId) : History → Bool
  | [] => false
  | m :: before => struckBy op id before ||
    (decide (m.event.arrives op) && before.head?.any (·.state.registry.contains id) &&
      !m.state.registry.contains id)

variable {e : Engine} {op : Nat} {thread : Thread} {s s' : State} {h h' : History} {c : Call}
  {id : HandleId} {o : HostObject} {α : Type}
  {conduct : Moment → History → Prop}
  {law : (op : Nat) → Thread → (q : Request) → q.Result → State → History → Prop}

namespace History

theorem struckBy_of_ne {m : Moment} (hm : m.event.op ≠ op) :
    struckBy op id (m :: h) = struckBy op id h := by
  simp [struckBy, Event.not_arrives hm]

theorem struckBy_stay {event : Event} (ha : ¬ event.arrives op) :
    struckBy op id (⟨event, s⟩ :: h) = struckBy op id h := by
  simp [struckBy, ha]

/-- An operation that has not begun has struck nothing off. -/
theorem struckBy_eq_false (hn : ∀ m ∈ h, m.event.op ≠ op) : struckBy op id h = false := by
  induction h with
  | nil => rfl
  | cons m before ih =>
    rw [struckBy_of_ne (hn m (List.mem_cons_self ..))]
    exact ih fun m hm => hn m (List.mem_cons_of_mem _ hm)

theorem struckBy_arrive {event : Event} {m : Moment} (ha : event.arrives op) (hm : m ∈ h.head?) :
    struckBy op id (⟨event, s⟩ :: h) =
      (struckBy op id h || (m.state.registry.contains id && !s.registry.contains id)) := by
  have head : h.head? = some m := hm
  simp [struckBy, ha, head]

/-- What is nested in a call makes no difference. -/
theorem struckBy_reply {r : c.Reply} {lost : Option HostObject}
    (hs : Since (op + 1) (⟨.calls op thread c, s⟩ :: h) h') :
    struckBy op id (⟨.replies op thread c r lost, s'⟩ :: h') =
      struckBy op id (⟨.calls op thread c, s⟩ :: h) := by
  have same : struckBy op id h' = struckBy op id (⟨.calls op thread c, s⟩ :: h) :=
    hs.unchanged fun _ _ => struckBy_of_ne
  rw [← same]
  exact struckBy_stay fun ha => ha

end History

/-- The registry is sound, and the engine is `e`. -/
def Serves (e : Engine) (s : State) : Prop :=
  s.registry.Sound ∧ s.engine = e

theorem Serves.lasts : Lasts (Serves e) :=
  fun _ _ sound engine_eq hs => ⟨sound hs.1, engine_eq.trans hs.2⟩

/-- `R` relates whether operation `op` has struck `id` off the table by itself,
    whether the table listed it at the last moment, and whether it does now. -/
structure Watch (e : Engine) (R : Bool → Bool → Bool → Prop) (id : HandleId) (op : Nat)
    (s : State) (h : History) : Prop where
  serves : Serves e s
  related : ∃ m ∈ h.head?,
    R (h.struckBy op id) (m.state.registry.contains id) (s.registry.contains id)

/-- The operation has taken nothing off the table. -/
def Spared (struck before now : Bool) : Prop :=
  struck = false ∧ (before = true → now = true)

/-- Nor has it brought anything in since the last moment. -/
def Steadied (struck before now : Bool) : Prop :=
  struck = false ∧ before = now

/-- The operation has taken the id off the table. -/
def StruckOff (struck before now : Bool) : Prop :=
  struck = true ∨ before = true ∧ now = false

/-! What each of them says once the operation has come to its next moment. -/

theorem Spared.arrives {struck before now : Bool} (hs : Spared struck before now) :
    (struck || (before && !now)) = false := by
  obtain ⟨rfl, himp⟩ := hs
  cases before with
  | false => rfl
  | true =>
    rw [himp rfl]
    rfl

theorem Steadied.arrives {struck before now : Bool} (hs : Steadied struck before now) :
    (struck || (before && !now)) = false := by
  obtain ⟨rfl, rfl⟩ := hs
  exact Spared.arrives ⟨rfl, fun hb => hb⟩

theorem StruckOff.arrives {struck before now : Bool} (hs : StruckOff struck before now) :
    (struck || (before && !now)) = true := by
  rcases hs with rfl | ⟨rfl, rfl⟩
  · rfl
  · exact Bool.or_true struck

namespace Watch

variable {R R' : Bool → Bool → Bool → Prop}

/-- An operation begins with nothing struck off. -/
theorem begins {q : Request} (hs : Serves e s) (hn : ∀ m ∈ h, m.event.op ≠ op) :
    Watch e Spared id op s (⟨.begins op thread q, s⟩ :: h) := by
  have stays : ¬ Event.arrives (.begins op thread q) op := fun ha => ha
  refine ⟨hs, _, rfl, ?_, fun hc => hc⟩
  rw [struckBy_stay stays]
  exact struckBy_eq_false hn

theorem change (hw : Watch e R id op s h) (hs : Serves e s → Serves e s')
    (hc : s'.registry.contains id = s.registry.contains id) : Watch e R id op s' h := by
  obtain ⟨serves, m, hm, related⟩ := hw
  exact ⟨hs serves, m, hm, by rwa [hc]⟩

/-- At a call it shows what the operation has done since the last moment.  What
    is nested in the call belongs to others. -/
theorem call (hw : Watch e R id op s h) (hR : ∀ b x y z, R b x y → R' (b || (x && !y)) z z) :
    Nests (.closing (Serves e) conduct law) op thread (fun _ s' h' => Watch e R' id op s' h')
      (Operation.call c thread s) h := by
  obtain ⟨serves, m, hm, related⟩ := hw
  refine ⟨fun _ _ _ _ he => (by cases he), fun _ => serves, fun r s' h' lost ho _ => ?_⟩
  refine ⟨fun _ _ _ _ he => (by cases he), ?_⟩
  have back : Serves e s' := by
    cases hq : c.mayReenter with
    | true => exact ho.holds hq
    | false =>
      obtain ⟨rfl, -⟩ := ho.quiet hq
      exact serves
  have called : Event.arrives (.calls op thread c) op := rfl
  refine ⟨back, _, rfl, ?_⟩
  rw [struckBy_reply ho.since, struckBy_arrive called hm]
  exact hR _ _ _ _ related

/-- Whatever lists nothing and delists nothing goes on with the watch. -/
theorem parts (hR : ∀ b x y z, R b x y → R (b || (x && !y)) z z) : Parts fun m =>
    (Nesting.closing (Serves e) conduct law).Carries (fun op _ s h => Watch e R id op s h) m := by
  have calls : ∀ {c : Call}, (Nesting.closing (Serves e) conduct law).Carries
      (fun op _ s h => Watch e R id op s h) (Operation.call c) :=
    fun {_} _ _ _ _ hw => hw.call hR
  refine Basics.parts (Nesting.Carries.basics_of_calls fun _ => calls) calls ?_
  intro α f hf
  refine .modifyGet fun op thread s h hw => ?_
  have same : Serves e s → Serves e (f s).2 :=
    fun hs => ⟨(hf s).sound hs.1, (hf s).engine_eq.trans hs.2⟩
  exact hw.change same ((hf s).contains_eq hw.serves.1)

theorem spared : ∀ b x y z, Spared b x y → Spared (b || (x && !y)) z z :=
  fun _ _ _ _ hs => ⟨hs.arrives, fun hz => hz⟩

theorem steadied_of_spared : ∀ b x y z, Spared b x y → Steadied (b || (x && !y)) z z :=
  fun _ _ _ _ hs => ⟨hs.arrives, rfl⟩

theorem steadied : ∀ b x y z, Steadied b x y → Steadied (b || (x && !y)) z z :=
  fun _ _ _ _ hs => ⟨hs.arrives, rfl⟩

theorem struckOff : ∀ b x y z, StruckOff b x y → StruckOff (b || (x && !y)) z z :=
  fun _ _ _ _ hs => .inl hs.arrives

/-- Where an operation ends, it shows whether it has struck the id off. -/
theorem ends {q : Request} {result : q.Result} (hw : Watch e R id op s h) {struck : Bool}
    (hR : ∀ b x y, R b x y → (b || (x && !y)) = struck) :
    History.struckBy op id (⟨.ends op thread q result, s⟩ :: h) = struck := by
  obtain ⟨-, m, hm, related⟩ := hw
  have ended : Event.arrives (.ends op thread q result) op := rfl
  rw [struckBy_arrive ended hm]
  exact hR _ _ _ related

/-- From the attachment on, the last moment shows the table as it is. -/
theorem attached {body : Operation α} (hw : Watch e Spared id op s h)
    (hb : (Nesting.closing (Serves e) conduct law).Carries
      (fun op _ s h => Watch e Steadied id op s h) body) :
    Nests (.closing (Serves e) conduct law) op thread
      (fun _ s' h' => Watch e Steadied id op s' h') (Dispatch.attached body thread s) h := by
  have parts : Parts (fun m => (Nesting.closing (Serves e) conduct law).Carries
      (fun op _ s h => Watch e Steadied id op s h) m) := parts steadied
  have detaches : (Nesting.closing (Serves e) conduct law).Carries
      (fun op _ s h => Watch e Steadied id op s h) (Operation.call (.host .detach)) :=
    fun _ _ _ _ hw => hw.call steadied
  have visited : Nests (.closing (Serves e) conduct law) op thread
      (fun _ s' h' => Watch e Steadied id op s' h')
      (onHostThread s.registry.policy body thread s) h := by
    have attempted : Nests (.closing (Serves e) conduct law) op thread
        (fun _ s' h' => Watch e Steadied id op s' h') (Operation.call (.host .attach) thread s) h :=
      hw.call steadied_of_spared
    have rest : ∀ g : AttachGuard, (Nesting.closing (Serves e) conduct law).Carries
        (fun op _ s h => Watch e Steadied id op s h) (do
          let result ← body
          g.drop
          pure (.ok result) : Operation (Except AttachError α)) :=
      fun g => parts.bind hb fun _ => parts.bind (parts.drop detaches) fun _ => parts.pure _
    refine Nests.bind (Nests.bind (attempted.mono fun status s₁ h₁ hw => ?_))
    cases ha : AttachState.ofStatus status with
    | error err =>
      simp only [ha]
      exact hw
    | ok a =>
      simp only [ha]
      cases a with
      | attached => exact rest ⟨false⟩ op thread s₁ h₁ hw
      | newlyAttached =>
        -- that the thread is new is logged
        refine Nests.bind (p := Log.breadcrumb _ _ thread s₁) ?_
        exact (parts.breadcrumb op thread s₁ h₁ hw).mono fun _ s₂ h₂ hw => rest _ op thread s₂ h₂ hw
  simp only [Dispatch.attached, Operation.bind_apply, Operation.state_apply, Progress.bind]
  refine Nests.bind (visited.mono fun r s₁ h₁ hw => ?_)
  cases r with
  | ok a => exact hw
  | error err => exact parts.bind (parts.bump rfl) (fun _ => parts.pure _) op thread s₁ h₁ hw

/-- As the one result of an invoke handle is delivered, the host is called. -/
theorem deliverResult {data : CString} {r : Registration} (hw : Watch e Spared id op s h)
    (hn : id.isNull = false) (hf : s.registry.listed? id = some r) (hk : r.kind = .invoke)
    (hd : r.delivered = false) :
    Nests (.closing (Serves e) conduct law) op thread
      (fun _ s' h' => Watch e Steadied id op s' h')
      (Dispatch.deliverResult id data thread s) h := by
  have parts : Parts (fun m => (Nesting.closing (Serves e) conduct law).Carries
      (fun op _ s h => Watch e Steadied id op s h) m) := parts steadied
  have claimed : Watch e Spared id op
      { s with registry := (s.registry.markDelivered id).lend id } h := by
    refine hw.change (fun hs => ⟨hs.1.markDelivered.lend, hs.2⟩) ?_
    rw [Registry.contains_lend, Registry.contains_markDelivered]
  have handed : Nests (.closing (Serves e) conduct law) op thread
      (fun _ s' h' => Watch e Steadied id op s' h')
      (Dispatch.handOver (Dispatch.claimResult r) r.object data thread
        { s with registry := s.registry.lend id }) h := by
    rw [Dispatch.handOver, Operation.bind_apply, Dispatch.claimResult_invoke hw.serves.1 hf hk, hd]
    exact claimed.attached fun _ _ _ _ hw => hw.call steadied
  rw [Dispatch.deliverResult_eq hn, Operation.bind_apply,
    Dispatch.withTarget_listed hn hf (by rw [hk]; rfl)]
  refine Nests.bind (Nests.bind (handed.mono fun result s₁ h₁ hw => ?_))
  refine Nests.bind ((parts.giveBack op thread s₁ h₁ hw).mono fun _ s₂ h₂ hw => ?_)
  exact parts.toDispatchParts.settle op thread s₂ h₂ hw

/-- What is struck off was listed at the last moment. -/
theorem strike (hw : Watch e Steadied id op s h) (hc : s.registry.contains id = true) :
    Watch e StruckOff id op (Registry.striking id s).2 h := by
  obtain ⟨serves, m, hm, -, same⟩ := hw
  have strikes : Steady s (Registry.striking id s).2 := .striking id
  refine ⟨⟨strikes.sound serves.1, strikes.engine_eq.trans serves.2⟩, m, hm, .inr ⟨?_, ?_⟩⟩
  · rw [same, hc]
  · exact Registry.contains_striking

/-- A release strikes off what is listed. -/
theorem releaseRaw (hw : Watch e Steadied id op s h) (hn : id.isNull = false) :
    Nests (.closing (Serves e) conduct law) op thread
      (fun _ s' h' => if s.registry.contains id then Watch e StruckOff id op s' h'
        else Watch e Steadied id op s' h') (Registry.releaseRaw id thread s) h := by
  have misses : ∀ {R : Bool → Bool → Bool → Prop}, (Nesting.closing (Serves e) conduct law).Carries
      (fun op _ s h => Watch e R id op s h) (CallbackBridge.bump .duplicateReleases) :=
    fun op _ s h hw => hw.change (fun hs => hs) rfl
  have removes : Registry.releaseRaw id = Registry.remove id := if_neg (by simp [hn])
  rw [removes]
  -- the host is called only after the id is struck off
  cases hc : s.registry.contains id with
  | true => exact (parts struckOff).remove_nests misses (hw.strike hc)
  | false =>
    have nothing : (Registry.striking id s).2 = s := by
      simp [Registry.striking, Registry.listed?_eq_none_iff.mpr hc]
    refine (parts steadied).remove_nests misses ?_
    rw [nothing]
    exact hw

end Watch

end Run

end CallbackBridge
