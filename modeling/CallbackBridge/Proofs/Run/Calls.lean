import CallbackBridge.Proofs.Run.Beginnings
import CallbackBridge.Proofs.Run.Parts
import CallbackBridge.Proofs.Run.Plans

/-! # What operations call

    Plans for the parts of operations.

    Key ideas:

    1. A part is `Quiet` if it calls nobody but the log and the operating
       system.  Nothing can happen meanwhile, so the state at its end is known.
    2. A part `Makes` only calls of one sort, whatever happens meanwhile.
    3. Most of what the bridge does is `Upkeep`: it attaches threads, pins,
       unpins and logs, and uses no host object. -/

namespace CallbackBridge

variable {α β : Type} {thread : Thread} {s : State}

/-! ### Quiet parts -/

/-- In this state `m` calls only the log and the operating system, and ends as
    `post` says. -/
def Operation.Quiet (m : Operation α) (thread : Thread) (s : State) (post : α → State → Prop) :
    Prop :=
  ∀ told, (m thread s).Follows
    ⟨fun told' call _ => told' = told ∧ call.mayReenter = false,
     fun told' a s' => told' = told ∧ post a s'⟩ told

namespace Operation.Quiet

variable {m : Operation α} {post : α → State → Prop}

theorem of_eq {a : α} {s' : State} (h : m thread s = .finished a s') (hp : post a s') :
    m.Quiet thread s post := by
  intro told
  rw [h]
  exact ⟨rfl, hp⟩

theorem congr {m' : Operation α} {s' : State} (h : m thread s = m' thread s')
    (hm : m'.Quiet thread s' post) : m.Quiet thread s post := by
  intro told
  rw [h]
  exact hm told

theorem mono {post' : α → State → Prop} (hm : m.Quiet thread s post)
    (hp : ∀ a s', post a s' → post' a s') : m.Quiet thread s post' :=
  fun told => (hm told).mono (fun _ _ _ h => h) fun _ _ _ h => ⟨h.1, hp _ _ h.2⟩

theorem bind {f : α → Operation β} {post' : β → State → Prop} (hm : m.Quiet thread s post)
    (hf : ∀ a s', post a s' → (f a).Quiet thread s' post') :
    (m >>= f).Quiet thread s post' := by
  intro told
  refine Progress.Follows.bind ((hm told).mono (fun _ _ _ h => h) ?_)
  rintro told' a s' ⟨rfl, ha⟩
  exact hf a s' ha told'

theorem call {c : Call} (hc : c.mayReenter = false) :
    (Operation.call c).Quiet thread s (fun _ s' => s' = s) := by
  intro told
  refine ⟨⟨rfl, hc⟩, fun reply s' hs => ?_⟩
  rw [Exchange.add, if_neg (by simp [hc])]
  exact ⟨rfl, hs hc⟩

theorem bump {c : Counter} :
    (CallbackBridge.bump c).Quiet thread s
      (fun _ s' => s' = { s with counters := s.counters.bump c }) :=
  of_eq rfl rfl

theorem modifyGet {f : State → α × State} :
    (Operation.modifyGet f).Quiet thread s (fun a s' => a = (f s).1 ∧ s' = (f s).2) :=
  of_eq rfl ⟨rfl, rfl⟩

theorem emit {level : Log.Level} {b : Log.Breadcrumbs} {message : String} :
    (Log.emit level b message).Quiet thread s (fun _ s' => s' = s) := by
  intro told
  simp only [Log.emit, Operation.bind_apply, Operation.state_apply, Progress.bind]
  cases s.logger.line? level b message with
  | none => exact ⟨rfl, rfl⟩
  | some line => exact call rfl told

theorem breadcrumb {area : Log.Area} {message : String} :
    (Log.breadcrumb area message).Quiet thread s (fun _ s' => s' = s) := by
  unfold Log.breadcrumb Log.detail
  split
  · exact of_eq rfl rfl
  · exact emit

theorem limitedError {c : Log.Category} {text : String} :
    (Log.limitedError c text).Quiet thread s (fun _ s' => ∃ limiter, s' = { s with limiter }) := by
  apply bind (call (c := .system .clock) rfl)
  intro now s₁ h₁
  subst h₁
  apply bind modifyGet
  intro admitted s₂ h₂
  obtain ⟨-, rfl⟩ := h₂
  cases admitted with
  | none => exact of_eq rfl ⟨_, rfl⟩
  | some suppressed =>
    apply bind emit
    intro _ s₃ h₃
    subst h₃
    exact of_eq rfl ⟨_, rfl⟩

/-- While the table lists an id, a loan of it is given back without a call. -/
theorem giveBack {id : HandleId} (hr : s.registry.Sound) (hc : s.registry.contains id = true) :
    (Registry.giveBack id).Quiet thread s (fun _ s' => s'.counters = s.counters) := by
  obtain ⟨e, he, rfl, hl⟩ := Registry.contains_iff.mp hc
  -- a listed registration keeps its reference
  have back : s.registry.returnLoan e.id =
      (none, s.registry.update e.id fun e => { e with loans := e.loans - 1 }) := by
    simp [Registry.returnLoan, hr.distinct.find?_eq he, hl]
  intro told
  simp only [Registry.giveBack, Operation.bind_apply, Operation.modifyGet_apply, back,
    Progress.bind, Operation.pure_apply]
  exact ⟨rfl, rfl⟩

end Operation.Quiet

/-- An attachment is one exchange.  That the thread is new is logged, which
    nobody hears and which changes nothing. -/
theorem AttachGuard.acquire_follows {policy : DetachPolicy}
    {plan : Plan (Except AttachError AttachGuard)} (attach : plan.calls [] (.host .attach) s)
    (quiet : ∀ status s₁ call s₂, call.mayReenter = false →
      plan.calls [⟨.host .attach, status, s₁⟩] call s₂)
    (refused : ∀ status s₁ e, AttachState.ofStatus status = .error e →
      plan.ends [⟨.host .attach, status, s₁⟩] (.error e) s₁)
    (accepted : ∀ status s₁ a g, AttachState.ofStatus status = .ok a →
      (g.detachOnDrop = true ↔ a = .newlyAttached ∧ policy = .detachOnExit) →
      plan.ends [⟨.host .attach, status, s₁⟩] (.ok g) s₁) :
    (acquire policy thread s).Follows plan [] := by
  refine ⟨attach, fun status s₁ _ => ?_⟩
  have told : Exchange.add (.host .attach) status s₁ [] = [⟨.host .attach, status, s₁⟩] := rfl
  rw [told]
  cases ha : AttachState.ofStatus status with
  | error e =>
    simp only [ha, Progress.bind, Operation.pure_apply]
    exact refused status s₁ e ha
  | ok a =>
    cases a with
    | attached =>
      simp only [ha, Progress.bind, Operation.pure_apply]
      exact accepted status s₁ _ ⟨false⟩ ha (by simp)
    | newlyAttached =>
      simp only [ha, Operation.bind_apply, Operation.thread_apply, Progress.bind]
      refine Progress.Follows.bind ((Operation.Quiet.breadcrumb _).mono ?_ ?_)
      · rintro _ call s₂ ⟨rfl, hq⟩
        exact quiet status s₁ call s₂ hq
      · rintro _ _ s₂ ⟨rfl, rfl⟩
        exact accepted status s₂ _ _ ha (by simp)

/-! ### Sorts of calls -/

/-- `told'` goes on from `told` with calls of one sort. -/
def More (p : Call → Prop) (told told' : List Exchange) : Prop :=
  ∃ more, told' = more ++ told ∧ ∀ x ∈ more, p x.call

namespace More

variable {p p' : Call → Prop} {told told' told'' : List Exchange}

theorem refl (told : List Exchange) : More p told told := ⟨[], rfl, by simp⟩

theorem trans (h : More p told told') (h' : More p told' told'') : More p told told'' := by
  obtain ⟨more, rfl, hm⟩ := h
  obtain ⟨more', rfl, hm'⟩ := h'
  exact ⟨more' ++ more, (List.append_assoc ..).symm, fun x hx =>
    (List.mem_append.mp hx).elim (hm' x) (hm x)⟩

theorem mono (h : More p told told') (hp : ∀ c, p c → p' c) : More p' told told' :=
  h.imp fun _ hx => ⟨hx.1, fun x hm => hp _ (hx.2 x hm)⟩

theorem add {call : Call} (hc : p call) {reply : call.Reply} {s : State} :
    More p told (Exchange.add call reply s told) := by
  unfold Exchange.add
  split
  · exact ⟨[⟨call, reply, s⟩], rfl, by simpa using hc⟩
  · exact refl told

end More

/-- Only calls of one sort are made, and the result is as `post` says. -/
def Plan.within (p : Call → Prop) (told : List Exchange) (post : α → Prop) : Plan α where
  calls told' call _ := More p told told' ∧ p call
  ends told' a _ := More p told told' ∧ post a

/-- Wherever it starts, `m` makes only calls of `p`, and its result is as
    `post` says. -/
def Operation.Makes (p : Call → Prop) (m : Operation α) (post : α → Prop) : Prop :=
  ∀ thread s told, (m thread s).Follows (.within p told post) told

/-- Calls that use no host object. -/
def Upkeep (call : Call) : Prop := Run.History.target? call = none

theorem Upkeep.of_quiet {call : Call} (h : call.mayReenter = false) : Upkeep call := by
  cases call with
  | log | system => rfl
  | host | engine | library => cases h

namespace Operation

variable {p p' : Call → Prop} {post : α → Prop}

/-- From `told` on, a part follows the plan of the whole. -/
theorem Makes.follows {m : Operation α} (hm : m.Makes p post) {told told₀ : List Exchange}
    (ht : More p told₀ told) : (m thread s).Follows (.within p told₀ post) told :=
  (hm thread s told).mono (fun _ _ _ h => ⟨ht.trans h.1, h.2⟩) fun _ _ _ h => ⟨ht.trans h.1, h.2⟩

/-- A part that makes only calls of one sort may follow. -/
theorem Makes.after {q : Progress α} {f : α → Operation β} {post' : β → Prop}
    {told : List Exchange} (hq : q.Follows (.within p told post) told)
    (hf : ∀ a, post a → (f a).Makes p post') :
    (q.bind fun a s => f a thread s).Follows (.within p told post') told := by
  refine Progress.Follows.bind (hq.mono (fun _ _ _ h => h) ?_)
  rintro told' a s' ⟨ht, ha⟩
  exact (hf a ha).follows ht

/-- A quiet part makes only calls that any sort of calls includes. -/
theorem Quiet.follows {m : Operation α} (hm : m.Quiet thread s fun a _ => post a)
    (hp : ∀ c, c.mayReenter = false → p c) {told : List Exchange} :
    (m thread s).Follows (.within p told post) told := by
  apply (hm told).mono
  · rintro _ call _ ⟨rfl, hc⟩
    exact ⟨.refl _, hp call hc⟩
  · rintro _ a _ ⟨rfl, ha⟩
    exact ⟨.refl _, ha⟩

namespace Makes

/-! ### Composition -/

theorem mono {m : Operation α} (hm : m.Makes p post) (hp : ∀ c, p c → p' c) :
    m.Makes p' post :=
  fun thread s told => (hm thread s told).mono (fun _ _ _ h => ⟨h.1.mono hp, hp _ h.2⟩)
    fun _ _ _ h => ⟨h.1.mono hp, h.2⟩

theorem imp {m : Operation α} {post' : α → Prop} (hm : m.Makes p post)
    (hp : ∀ a, post a → post' a) : m.Makes p post' :=
  fun thread s told => (hm thread s told).mono (fun _ _ _ h => h) fun _ _ _ h => ⟨h.1, hp _ h.2⟩

/-- Any calls at all may be of the sort. -/
theorem anything (m : Operation α) : m.Makes (fun _ => True) fun _ => True := by
  intro thread s told
  have follows : ∀ (p : Progress α) told', More (fun _ => True) told told' →
      p.Follows (.within (fun _ => True) told fun _ => True) told' := by
    intro p
    induction p with
    | finished a s => exact fun told' more => ⟨more, trivial⟩
    | calling call s resume ih =>
      intro told' more
      exact ⟨⟨more, trivial⟩, fun reply s' _ => ih reply s' _ (more.trans (.add trivial))⟩
  exact follows (m thread s) told (.refl told)

theorem pure {a : α} (ha : post a) : (Pure.pure a : Operation α).Makes p post :=
  fun _ _ told => ⟨.refl told, ha⟩

theorem bind {m : Operation α} {f : α → Operation β} {post' : β → Prop} (hm : m.Makes p post)
    (hf : ∀ a, post a → (f a).Makes p post') : (m >>= f).Makes p post' :=
  fun thread s told => Makes.after (hm thread s told) hf

theorem call {c : Call} (hc : p c) : (Operation.call c).Makes p fun _ => True := by
  intro thread s told
  exact ⟨⟨.refl told, hc⟩, fun reply s' _ => ⟨.add hc, trivial⟩⟩

theorem modifyGet {f : State → α × State} : (Operation.modifyGet f).Makes p fun _ => True :=
  fun _ _ told => ⟨.refl told, trivial⟩

theorem bump {c : Counter} : (CallbackBridge.bump c).Makes p fun _ => True :=
  fun _ _ told => ⟨.refl told, trivial⟩

theorem state : Operation.state.Makes p fun _ => True :=
  fun _ _ told => ⟨.refl told, trivial⟩

theorem readThread : Operation.thread.Makes p fun _ => True :=
  fun _ _ told => ⟨.refl told, trivial⟩

/-! ### Upkeep -/

theorem basics : Basics (fun m => m.Makes Upkeep fun _ => True) where
  pure _ := pure trivial
  bind hm hf := bind hm fun a _ => hf a
  state := state
  thread := readThread
  tell hc := call (Upkeep.of_quiet hc)

theorem breadcrumb {area : Log.Area} {message : String} :
    (Log.breadcrumb area message).Makes Upkeep fun _ => True :=
  basics.breadcrumb

theorem limitedError {c : Log.Category} {text : String} :
    (Log.limitedError c text).Makes Upkeep fun _ => True :=
  basics.limitedError fun _ => modifyGet

theorem drop {g : AttachGuard} : g.drop.Makes Upkeep fun _ => True :=
  basics.drop (call rfl)

theorem acquire {policy : DetachPolicy} :
    (AttachGuard.acquire policy).Makes Upkeep fun _ => True :=
  basics.acquire (call rfl)

theorem onHostThread {policy : DetachPolicy} {body : Operation α} (hu : ∀ c, Upkeep c → p c)
    (hb : body.Makes p post) :
    (onHostThread policy body).Makes p fun result => ∀ a, result = .ok a → post a := by
  apply bind (acquire.mono hu)
  intro acquired _
  cases acquired with
  | error e => exact pure fun a h => by cases h
  | ok g =>
    -- detaching afterwards does not change the result
    refine bind hb fun a ha => bind (drop.mono hu) fun _ _ => pure fun a' h => ?_
    cases h
    exact ha

/-! ### The registry -/

theorem pinningParts : PinningParts (fun m => m.Makes Upkeep fun _ => True) where
  toBasics := basics
  mild _ := modifyGet
  pin := basics.pin (basics.visit (call rfl) (call rfl) (call rfl)) bump
  unpin := basics.unpin (basics.visit (call rfl) (call rfl) (call rfl)) bump fun _ => modifyGet

theorem unpin {o : HostObject} : (Registry.unpin o).Makes Upkeep fun _ => True :=
  pinningParts.unpin

theorem giveBack {id : HandleId} : (Registry.giveBack id).Makes Upkeep fun _ => True :=
  pinningParts.giveBack

theorem look {id : HandleId} : (Registry.look id).Makes Upkeep fun _ => True := by
  unfold Registry.look
  split
  · exact pure trivial
  · apply bind modifyGet
    intro found _
    cases found with
    | some e => exact pure trivial
    | none => exact bind bump fun _ _ => pure trivial

theorem register {o : HostObject} {k : HandleKind} :
    (Registry.register o k).Makes Upkeep fun _ => True :=
  pinningParts.register modifyGet

/-- How a release goes on once the id is out of the table. -/
theorem released {id : HandleId} {e : Registration} :
    (do
      CallbackBridge.bump .handlesReleased
      Log.breadcrumb .handle s!"released {e.kind.name} handle {id.text}"
      Registry.giveBack id
      Pure.pure true : Operation Bool).Makes Upkeep (· = true) :=
  bind bump fun _ _ => bind breadcrumb fun _ _ => bind giveBack fun _ _ => pure rfl

theorem remove {id : HandleId} : (Registry.remove id).Makes Upkeep fun _ => True :=
  basics.remove (pinningParts.take modifyGet) bump limitedError

theorem release {handle : Handle} : (Registry.release handle).Makes Upkeep fun _ => True :=
  basics.release remove

theorem releaseRaw {id : HandleId} : (Registry.releaseRaw id).Makes Upkeep fun _ => True :=
  basics.releaseRaw remove

theorem releaseIfPresent {id : HandleId} :
    (Registry.releaseIfPresent id).Makes Upkeep fun _ => True :=
  pinningParts.releaseIfPresent modifyGet

theorem close : Registry.close.Makes Upkeep fun _ => True :=
  pinningParts.close modifyGet

end Makes

end Operation

/-! ### Runs -/

namespace Run.History

variable {h : History} {op : Nat} {thread thread' : Thread} {q : Request} {s s' : State}

/-- In a run, too, an operation makes only calls of its sort. -/
theorem calls_of_within (ha : h.Always Accounted) (hb : ⟨.begins op thread q, s⟩ ∈ h)
    {p : Call → Prop} {post : q.Result → Prop}
    (hp : (q.operation thread s).Follows (.within p [] post) []) {call : Call}
    (hm : ⟨.calls op thread' call, s'⟩ ∈ h) : p call := by
  obtain ⟨later, before, heq⟩ := List.append_of_mem hm
  exact (calls_of_follows ha hb hp heq).2.2

/-- In a run, too, an operation results in what is said of it. -/
theorem result_of_within (ha : h.Always Accounted) (hb : ⟨.begins op thread q, s⟩ ∈ h)
    {p : Call → Prop} {post : q.Result → Prop}
    (hp : (q.operation thread s).Follows (.within p [] post) []) {result : q.Result}
    (hm : ⟨.ends op thread' q result, s'⟩ ∈ h) : post result := by
  obtain ⟨later, before, heq⟩ := List.append_of_mem hm
  exact (ends_of_follows ha hb hp heq).2.2

end Run.History

/-! ### What the registry tells -/

namespace Registry

open Operation

variable {id : HandleId}

theorem look_follows (hn : id.isNull = false) (hc : s.registry.contains id = false) :
    (look id thread s).Follows (.within Upkeep [] (· = .error (.released id))) [] := by
  rw [look_released hn (listed?_eq_none_iff.mpr hc)]
  exact ⟨.refl [], rfl⟩

/-- A release tells whether the table listed the id as it began. -/
theorem take_follows :
    (take id thread s).Follows (.within Upkeep [] (· = s.registry.contains id)) [] := by
  cases hf : s.registry.listed? id with
  | none =>
    rw [take_released hf]
    exact ⟨.refl [], by simp [contains, hf]⟩
  | some e =>
    rw [take_listed hf]
    refine (Makes.released.imp fun found h => ?_) thread _ []
    simp [contains, hf, h]

theorem remove_follows :
    (remove id thread s).Follows (.within Upkeep [] (· = s.registry.contains id)) [] := by
  apply Makes.after take_follows
  intro found h
  split
  · next hf => exact .pure (h ▸ hf.symm)
  · next hf =>
    have missed : false = s.registry.contains id := by rw [← h, Bool.eq_false_of_not_eq_true hf]
    exact .bind .bump fun _ _ => .bind .limitedError fun _ _ => .pure missed

theorem releaseRaw_follows :
    (releaseRaw id thread s).Follows
      (.within Upkeep [] (· = (!id.isNull && s.registry.contains id))) [] := by
  unfold releaseRaw
  split
  · next hn => exact ⟨.refl [], by simp [hn]⟩
  · next hn =>
    have known : (!id.isNull) = true := by simpa using hn
    simp only [known, Bool.true_and]
    exact remove_follows

theorem releaseIfPresent_follows :
    (releaseIfPresent id thread s).Follows
      (.within Upkeep [] (· = (!id.isNull && s.registry.contains id))) [] := by
  unfold releaseIfPresent
  split
  · next hn => exact ⟨.refl [], by simp [hn]⟩
  · next hn =>
    have known : (!id.isNull) = true := by simpa using hn
    simp only [known, Bool.true_and]
    apply Makes.after take_follows
    intro found h
    split
    · next hf => exact .pure (h ▸ hf.symm)
    · next hf =>
      have missed : false = s.registry.contains id := by rw [← h, Bool.eq_false_of_not_eq_true hf]
      exact .bind .breadcrumb fun _ _ => .pure missed

end Registry

end CallbackBridge
