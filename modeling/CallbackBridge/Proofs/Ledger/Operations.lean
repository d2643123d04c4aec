import CallbackBridge.Proofs.Ledger.Balance
import CallbackBridge.Proofs.Run.Beginnings

/-! # Operations keep the books

    Key ideas:

    1. `Does` says of a part of an operation what it makes of what is in hand.
       There is one such lemma for each function, in the order in which the
       functions are defined.
    2. `books_kept` puts them together: every request to the registry or the
       dispatcher keeps the books, so every run does. -/

namespace CallbackBridge.Run

open History

/-! ### The rules -/

/-- The books are kept.  A host object is only called with a loan of it in
    hand, and callers give back loans that they hold. -/
def books (s₀ : State) : Rules (Multiset Token) where
  holds s h tokens := Booked s₀ s h tokens
  permits call own := ∀ o, target? call = some o → ∃ id, .loan id o ∈ own
  conduct m before :=
    (∀ op thread q, m.event = .begins op thread q → q.isCoreOrClose = true) ∧
    (∀ id, returned? m.event = some id → id ∈ held before)

variable {α β : Type} {s₀ : State} {m₀ : Moment} {op : Nat} {thread : Thread}

/-- As a part of operation `op`, which began in `m₀`, `m` turns `own` into what
    `gain` says of its result. -/
def Does (s₀ : State) (m₀ : Moment) (op : Nat) (thread : Thread) (own : Multiset Token)
    (m : Operation α) (gain : α → Multiset Token) : Prop :=
  ∀ after s h rest, m₀ ∈ h → Booked s₀ s h (rest + own) →
    Keeps (books s₀) op thread after (fun a s' h' rest' => Booked s₀ s' h' (rest' + gain a))
      (m thread s) h rest

namespace Does

variable {own : Multiset Token} {gain : α → Multiset Token}

/-! ### Composition -/

theorem pure {a : α} (ha : gain a = own) : Does s₀ m₀ op thread own (Pure.pure a) gain := by
  intro after s h rest _ hb
  show Booked s₀ s h (rest + gain a)
  rwa [ha]

theorem bind {m : Operation α} {f : α → Operation β} {gain' : β → Multiset Token}
    (hm : Does s₀ m₀ op thread own m gain)
    (hf : ∀ a, Does s₀ m₀ op thread (gain a) (f a) gain') :
    Does s₀ m₀ op thread own (m >>= f) gain' := by
  intro after s h rest h₀ hb
  -- the moment in which the operation began stays in the history
  apply Keeps.bind (p := m thread s) (f := fun a s => f a thread s)
  refine (hm _ s h rest h₀ hb).grown.mono fun a s' h' rest' ⟨hb', hs⟩ => ?_
  exact hf a after s' h' rest' (hs.subset h₀) hb'

/-- What is in hand may include more. -/
theorem frame {m : Operation α} (more : Multiset Token) (hm : Does s₀ m₀ op thread own m gain) :
    Does s₀ m₀ op thread (more + own) m (fun a => more + gain a) := by
  intro after s h rest h₀ hb
  rw [← add_assoc] at hb
  have hk := (hm after s h (rest + more) h₀ hb).frame fun call own' hp o ho =>
    (hp o ho).imp fun _ hl => Multiset.mem_add.mpr (.inr hl)
  apply hk.mono
  intro a s' h' rest' hb'
  rwa [add_assoc] at hb'

theorem state : Does s₀ m₀ op thread own Operation.state (fun _ => own) :=
  fun _ _ _ _ _ hb => hb

theorem readThread : Does s₀ m₀ op thread own Operation.thread (fun _ => own) :=
  fun _ _ _ _ _ hb => hb

/-! ### Calls -/

/-- A call that takes no part in pinning and attaching. -/
def Plain (c : Call) : Prop :=
  c ≠ .host .attach ∧ (∀ o, c ≠ .host (.pin o)) ∧ ∀ o, c ≠ .host (.unpin o)

theorem callWith (mid : Multiset Token) {c : Call} {gain : c.Reply → Multiset Token}
    (hp : ∀ o, target? c = some o → ∃ id, .loan id o ∈ mid)
    (hc : ∀ {s h rest}, Booked s₀ s h (rest + own) →
      Booked s₀ s (⟨.calls op thread c, s⟩ :: h) (rest + mid))
    (hr : ∀ {after r s h rest}, Booked s₀ s h (rest + mid) →
      Booked s₀ s (replyMoment op thread after c .finished r s :: h) (rest + gain r)) :
    Does s₀ m₀ op thread own (Operation.call c) gain := by
  intro after s h rest _ hb
  exact ⟨mid, hp, hc hb, fun r s' h' rest' hb' _ _ _ => hr hb'⟩

theorem lostBy?_eq_none {c : Call} (hc : c ≠ .host .attach)
    {next : c.Reply → State → Option HostObject} {r : c.Reply} {s : State} :
    lostBy? c next r s = none := by
  unfold lostBy?
  split
  · exact absurd rfl hc
  · rfl

theorem Plain.calls {c : Call} (hc : Plain c) : Note (.calls op thread c) 0 0 := by
  refine .rest rfl rfl ?_ rfl rfl rfl rfl
  show unpinned? c = none
  unfold unpinned?
  split
  · exact absurd rfl (hc.2.2 _)
  · rfl

theorem Plain.replies {c : Call} (hc : Plain c) {r : c.Reply} :
    Note (.replies op thread c r none) 0 0 := by
  refine .rest rfl ?_ rfl rfl ?_ rfl rfl
  · unfold handedOut?
    split
    · next heq =>
      cases heq
      exact absurd rfl (hc.2.1 _)
    · rfl
  · unfold isRefusal
    split
    · next heq =>
      cases heq
      exact absurd rfl hc.1
    · rfl

theorem call {c : Call} (hc : Plain c) (hp : ∀ o, target? c = some o → ∃ id, .loan id o ∈ own) :
    Does s₀ m₀ op thread own (Operation.call c) (fun _ => own) := by
  refine callWith own hp (fun {s h rest} hb => ?_) fun {after r s h rest} hb => ?_
  · rw [← add_zero (rest + own)] at hb ⊢
    exact hb.notes hc.calls
  · rw [← add_zero (rest + own)] at hb ⊢
    simp only [replyMoment, lostBy?_eq_none hc.1]
    exact hb.notes hc.replies

theorem unpinCall {o : HostObject} :
    Does s₀ m₀ op thread (own + {.last o}) (Operation.call (.host (.unpin o))) (fun _ => own) := by
  refine callWith own (by simp [target?]) (fun hb => ?_) fun {after r s h rest} hb => ?_
  · rw [← add_assoc] at hb
    simpa only [add_zero] using hb.notes .unpins
  · rw [← add_zero (rest + own)] at hb ⊢
    exact hb.notes (.silent rfl)

/-- What the host's answer to a pin adds to what is in hand. -/
def pinned (own : Multiset Token) : Option HostObject → Multiset Token
  | some reference => own + {.fresh reference}
  | none => own

theorem pinCall {o : HostObject} :
    Does s₀ m₀ op thread own (Operation.call (.host (.pin o))) (pinned own) := by
  refine callWith own (by simp [target?]) (fun {s h rest} hb => ?_)
    fun {after r s h rest} hb => ?_
  · rw [← add_zero (rest + own)] at hb ⊢
    exact hb.notes (.silent rfl)
  · rw [← add_zero (rest + own)] at hb
    cases r with
    | none =>
      rw [← add_zero (rest + pinned own none)]
      exact hb.notes (.silent rfl)
    | some reference =>
      rw [pinned, ← add_assoc]
      exact hb.notes .pins

/-! ### Steps without a call -/

/-- A change of the state, after which `gain` is in hand. -/
theorem modifyGet {f : State → α × State} (gain : α → Multiset Token)
    (hf : ∀ {s h rest}, m₀ ∈ h → Booked s₀ s h (rest + own) →
      Booked s₀ (f s).2 h (rest + gain (f s).1)) :
    Does s₀ m₀ op thread own (Operation.modifyGet f) gain :=
  fun _ _ _ _ h₀ hb => hf h₀ hb

theorem bump {c : Counter} (hc : c ≠ .attachFailures) :
    Does s₀ m₀ op thread own (bump c) (fun _ => own) :=
  fun _ _ _ _ _ hb => hb.tallies hc

theorem countRefusal :
    Does s₀ m₀ op thread (own + {.refusal}) (CallbackBridge.bump .attachFailures)
      (fun _ => own) := by
  intro after s h rest _ hb
  rw [← add_assoc] at hb
  exact hb.counts

/-! ### Logging -/

theorem log {line : Log.Line} :
    Does s₀ m₀ op thread own (Operation.call (.log line)) (fun _ => own) :=
  call ⟨by simp, by simp, by simp⟩ (by simp [target?])

theorem emit {level : Log.Level} {b : Log.Breadcrumbs} {message : String} :
    Does s₀ m₀ op thread own (Log.emit level b message) (fun _ => own) := by
  apply bind state
  intro s
  cases s.logger.line? level b message with
  | none => exact pure rfl
  | some line => exact log

theorem breadcrumb {area : Log.Area} {message : String} :
    Does s₀ m₀ op thread own (Log.breadcrumb area message) (fun _ => own) := by
  unfold Log.breadcrumb Log.detail
  split
  · exact pure rfl
  · exact emit

theorem limitedError {c : Log.Category} {text : String} :
    Does s₀ m₀ op thread own (Log.limitedError c text) (fun _ => own) := by
  refine bind (call (c := .system .clock) ⟨by simp, by simp, by simp⟩ (by simp [target?]))
    fun now => ?_
  apply bind (modifyGet (fun _ => own) fun _ hb => hb.limits)
  intro admitted
  cases admitted with
  | none => exact pure rfl
  | some suppressed => exact bind emit fun _ => pure rfl

/-! ### Attachment -/

theorem drop {g : AttachGuard} : Does s₀ m₀ op thread own g.drop (fun _ => own) := by
  unfold AttachGuard.drop
  split
  · refine bind (call (c := .host .detach) ⟨by simp, by simp, by simp⟩ (by simp [target?]))
      fun _ => ?_
    exact bind readThread fun _ => breadcrumb
  · exact pure rfl

/-- What is in hand where an attachment may have been refused. -/
def orRefused (own : Multiset Token) (gain : α → Multiset Token) :
    Except AttachError α → Multiset Token
  | .ok a => gain a
  | .error _ => own + {.refusal}

/-- Where the host refuses, what would have been given back next is lost. -/
theorem acquire {policy : DetachPolicy} {last : Option HostObject}
    {after : Except AttachError AttachGuard → State → Option HostObject} {s : State} {h : History}
    {rest : Multiset Token} (hlast : ∀ s, after (.ok ⟨false⟩) s = last) (h₀ : m₀ ∈ h)
    (hb : Booked s₀ s h (rest + (own + lastOf last))) :
    Keeps (books s₀) op thread after
      (fun a s' h' rest' => Booked s₀ s' h' (rest' + orRefused own (fun _ => own + lastOf last) a))
      (AttachGuard.acquire policy thread s) h rest := by
  have called : Booked s₀ s (⟨.calls op thread (.host .attach), s⟩ :: h)
      (rest + (own + lastOf last)) := by
    rw [← add_zero (rest + (own + lastOf last))] at hb ⊢
    exact hb.notes (.silent rfl)
  refine ⟨own + lastOf last, by simp [books, target?], called,
    fun status s' h' rest' hb' hs _ _ => ?_⟩
  have h₀' : m₀ ∈ h' := hs.subset (List.mem_cons_of_mem _ h₀)
  have hb' : Booked s₀ s' h' (rest' + (own + lastOf last)) := hb'
  -- the host accepts or refuses, and its answer says which
  cases ha : AttachState.ofStatus status with
  | error e =>
    have refused : Booked s₀ s' (⟨.replies op thread (.host .attach) status last, s'⟩ :: h')
        (rest' + (own + {.refusal})) := by
      rw [← add_assoc] at hb' ⊢
      exact hb'.notes (.refuses ha)
    -- what is lost is what would come next on a thread that is attached
    have zero : AttachState.ofStatus 0 = .ok .attached := rfl
    simp only [replyMoment, lostBy?, ha, Progress.bind, zero, Operation.pure_apply, upcoming?,
      hlast]
    exact refused
  | ok a =>
    have accepted : Booked s₀ s' (⟨.replies op thread (.host .attach) status none, s'⟩ :: h')
        (rest' + (own + lastOf last)) := by
      rw [← add_zero (rest' + (own + lastOf last))] at hb' ⊢
      exact hb'.notes (.rest rfl rfl rfl rfl (by simp [isRefusal, ha]) rfl rfl)
    simp only [replyMoment, lostBy?, ha, Progress.bind]
    cases a with
    | attached => exact accepted
    | newlyAttached =>
      have goesOn : ∀ message : Thread → String,
          Does s₀ m₀ op thread (own + lastOf last)
            (do
              let thread ← Operation.thread
              Log.breadcrumb .attachment (message thread)
              Pure.pure (.ok (AttachGuard.mk (policy = .detachOnExit))))
            (orRefused own fun _ => own + lastOf last) :=
        fun _ => bind readThread fun _ => bind breadcrumb fun _ => pure rfl
      exact goesOn _ after s' _ rest' (List.mem_cons_of_mem _ h₀') accepted

/-- `body` is run on an attached thread, with the call that it makes first. -/
theorem onHostThread {policy : DetachPolicy} (last : Option HostObject) {body : Operation α}
    (hfirst : ∀ s, ∃ call s' resume, body thread s = .calling call s' resume ∧
      unpinned? call = last)
    (hbody : Does s₀ m₀ op thread (own + lastOf last) body gain) :
    Does s₀ m₀ op thread (own + lastOf last) (onHostThread policy body) (orRefused own gain) := by
  intro after s h rest h₀ hb
  apply Keeps.bind (p := AttachGuard.acquire policy thread s)
  refine (acquire (fun s => ?_) h₀ hb).grown.mono fun a s' h' rest' ⟨hb', hs⟩ => ?_
  · obtain ⟨call, s', resume, heq, hcall⟩ := hfirst s
    simp only [Operation.bind_apply, heq, Progress.bind, upcoming?]
    exact hcall
  · cases a with
    | error e => exact hb'
    | ok g =>
      have goesOn : Does s₀ m₀ op thread (own + lastOf last)
          (do
            let result ← body
            g.drop
            Pure.pure (.ok result)) (orRefused own gain) :=
        bind hbody fun a =>
          bind (drop : Does s₀ m₀ op thread (gain a) g.drop fun _ => gain a) fun _ => pure rfl
      exact goesOn after s' h' rest' (hs.subset h₀) hb'

/-! ### References -/

theorem unpin {o : HostObject} :
    Does s₀ m₀ op thread {.last o} (Registry.unpin o) (fun _ => 0) := by
  apply bind state
  intro s
  have attempt : Does s₀ m₀ op thread {.last o}
      (CallbackBridge.onHostThread s.registry.policy (Operation.call (.host (.unpin o))))
      (orRefused 0 fun _ => 0) := by
    -- all that is in hand is the reference that the call gives back
    rw [← zero_add ({.last o} : Multiset Token)]
    exact onHostThread (some o) (fun s => ⟨_, s, _, rfl, rfl⟩) unpinCall
  apply bind attempt
  intro result
  cases result with
  | ok _ => exact pure rfl
  | error e =>
    apply bind countRefusal
    intro _
    exact bind limitedError fun _ => pure rfl

theorem giveBack {id : HandleId} {o : HostObject} :
    Does s₀ m₀ op thread {.loan id o} (Registry.giveBack id) (fun _ => 0) := by
  apply bind (modifyGet lastOf fun _ hb => hb.changes (.giveBack rfl))
  intro last
  cases last with
  | none => exact pure rfl
  | some o => exact unpin

/-- What is in hand where an id may have been found in the table. -/
def lentOf (id : HandleId) : Option Registration → Multiset Token
  | some e => {.loan id e.object}
  | none => 0

/-- What a look-up adds to what is in hand. -/
def borrowed (id : HandleId) : Except HandleError Registration → Multiset Token
  | .ok target => {.loan id target.object}
  | .error _ => 0

theorem look {id : HandleId} :
    Does s₀ m₀ op thread 0 (Registry.look id) (borrowed id) := by
  unfold Registry.look
  split
  · exact pure rfl
  · refine bind (modifyGet (lentOf id) fun {s h rest} _ hb => ?_) fun found => ?_
    · cases hf : s.registry.listed? id with
      | none => exact hb
      | some e => exact hb.changes (.lend hf)
    · cases found with
      | some e => exact pure rfl
      | none => exact bind (bump (by simp)) fun _ => pure rfl

/-! ### Registering -/

theorem discard {o : HostObject} {m : Operation α}
    (hm : Does s₀ m₀ op thread {.last o} m gain) : Does s₀ m₀ op thread {.fresh o} m gain :=
  fun after s h rest h₀ hb => hm after s h rest h₀ (hb.changes .discard)

/-- What a reference that may have been pinned adds to what is in hand. -/
def freshOf : Except HandleError HostObject → Multiset Token
  | .ok reference => {.fresh reference}
  | .error _ => 0

theorem pin {o : HostObject} : Does s₀ m₀ op thread 0 (Registry.pin o) freshOf := by
  apply bind state
  intro s
  have attempt : Does s₀ m₀ op thread (0 + lastOf none)
      (CallbackBridge.onHostThread s.registry.policy (Operation.call (.host (.pin o))))
      (orRefused 0 (pinned 0)) :=
    onHostThread none (fun s => ⟨_, s, _, rfl, rfl⟩) pinCall
  apply bind attempt
  intro result
  rcases result with e | (_ | reference)
  · apply bind countRefusal
    intro _
    exact bind emit fun _ => pure rfl
  · exact pure rfl
  · exact pure (zero_add _).symm

/-- What is in hand where a reference may have been listed. -/
def listedOf (op : Nat) (reference : HostObject) : Except HandleError HandleId → Multiset Token
  | .ok id => {.issued op id}
  | .error _ => {.fresh reference}

/-- What a registration leaves in hand until its caller is told. -/
def issuedOf (op : Nat) : Except HandleError Handle → Multiset Token
  | .ok handle => {.issued op handle.id}
  | .error _ => 0

theorem register {o : HostObject} {k : HandleKind}
    (h₀ : m₀.event = .begins op thread (.registry (.register o k))) :
    Does s₀ m₀ op thread 0 (Registry.register o k) (issuedOf op) := by
  apply bind state
  intro s
  split
  · exact pure rfl
  · apply bind pin
    intro attempt
    cases attempt with
    | error e => exact pure rfl
    | ok reference =>
      refine bind (modifyGet (listedOf op reference) fun {s h rest} hm hb => ?_) fun result => ?_
      · -- the table may have filled up while the host pinned the object
        rcases he : s.registry.enlist reference k with ⟨_ | id, r'⟩
        · obtain ⟨rfl, -⟩ := Registry.enlist_error he
          exact hb
        · exact hb.changes (.enlist hm h₀ he)
      · cases result with
        | error e => exact bind (discard unpin) fun _ => pure rfl
        | ok id =>
          apply bind (bump (by simp))
          intro _
          exact bind breadcrumb fun _ => pure rfl

/-! ### Releasing -/

/-- What is left of a release once the id is delisted. -/
theorem released {e : Registration} {id : HandleId} {o : HostObject} :
    Does s₀ m₀ op thread {.loan id o}
      (do
        CallbackBridge.bump .handlesReleased
        Log.breadcrumb .handle s!"released {e.kind.name} handle {id.text}"
        Registry.giveBack id
        Pure.pure true)
      (fun _ => 0) := by
  apply bind (bump (by simp))
  intro _
  apply bind breadcrumb
  intro _
  exact bind giveBack fun _ => pure rfl

theorem unpinAll (free : List HostObject) :
    Does s₀ m₀ op thread (Multiset.ofList (free.map .last)) (Registry.unpinAll free)
      (fun _ => 0) := by
  induction free with
  | nil => exact pure rfl
  | cons o rest ih =>
    have split : Multiset.ofList ((o :: rest).map Token.last) =
        Multiset.ofList (rest.map .last) + {.last o} := by
      rw [List.map_cons, ← Multiset.cons_coe, ← Multiset.singleton_add, add_comm]
    rw [split]
    apply bind (unpin.frame _)
    intro _
    rw [add_zero]
    exact ih

/-! ### Calls to host objects -/

/-- What is in hand where a call may have failed. -/
theorem attached {own : Multiset Token} {body : Operation α}
    (hfirst : ∀ s, ∃ call s' resume, body thread s = .calling call s' resume ∧
      unpinned? call = none)
    (hbody : Does s₀ m₀ op thread own body (fun _ => own)) :
    Does s₀ m₀ op thread own (Dispatch.attached body) (fun _ => own) := by
  apply bind state
  intro s
  have attempt : Does s₀ m₀ op thread (own + lastOf none)
      (CallbackBridge.onHostThread s.registry.policy body) (orRefused own fun _ => own) :=
    onHostThread none hfirst (by simpa [lastOf] using hbody)
  rw [lastOf, add_zero] at attempt
  apply bind attempt
  intro result
  cases result with
  | ok a => exact pure rfl
  | error e => exact bind countRefusal fun _ => pure rfl

theorem withTarget {shape : CallShape} {id : HandleId}
    {body : Registration → Operation (Except DispatchError α)}
    (hbody : ∀ target, Does s₀ m₀ op thread {.loan id target.object} (body target)
      (fun _ => {.loan id target.object})) :
    Does s₀ m₀ op thread 0 (Dispatch.withTarget shape id body) (fun _ => 0) := by
  apply bind look
  intro found
  cases found with
  | error e => exact pure rfl
  | ok target =>
    dsimp only
    split
    · apply bind (hbody target)
      intro result
      exact bind giveBack fun _ => pure rfl
    · -- a handle of another kind is given back at once
      exact bind giveBack fun _ => pure rfl

theorem reportDrop {shape : CallShape} {id : HandleId} {e : DispatchError} :
    Does s₀ m₀ op thread own (Dispatch.reportDrop shape id e) (fun _ => own) :=
  bind (bump (by simp)) fun _ => bind limitedError fun _ => pure rfl

theorem settle {shape : CallShape} {id : HandleId} {result : Except DispatchError Unit} :
    Does s₀ m₀ op thread own (Dispatch.settle shape id result) (fun _ => own) := by
  unfold Dispatch.settle
  cases result with
  | ok _ => exact bind (bump (by simp)) fun _ => bind breadcrumb fun _ => pure rfl
  | error e => exact bind reportDrop fun _ => pure rfl

/-- A call on the object that is borrowed. -/
theorem hostCall {id : HandleId} {o : HostObject} {c : HostCall}
    (hc : target? (.host c) = some o) :
    Does s₀ m₀ op thread {.loan id o} (Operation.call (.host c)) (fun _ => {.loan id o}) := by
  refine call ⟨?_, ?_, ?_⟩ fun o' ho => ⟨id, ?_⟩
  · rintro ⟨⟩
    simp [target?] at hc
  · rintro _ ⟨⟩
    simp [target?] at hc
  · rintro _ ⟨⟩
    simp [target?] at hc
  · rw [hc, Option.some.injEq] at ho
    simp [ho]

theorem protect {id : HandleId} {fd : Int32} :
    Does s₀ m₀ op thread 0 (Dispatch.protect id fd) (fun _ => 0) := by
  unfold Dispatch.protect
  split
  · exact pure rfl
  · refine bind (withTarget fun target => ?_) fun result => settle
    exact attached (fun s => ⟨_, s, _, rfl, rfl⟩) (hostCall rfl)

theorem notify {id : HandleId} {payload : CString} :
    Does s₀ m₀ op thread 0 (Dispatch.notify id payload) (fun _ => 0) := by
  unfold Dispatch.notify
  split
  · exact pure rfl
  · refine bind (withTarget fun target => ?_) fun result => settle
    exact attached (fun s => ⟨_, s, _, rfl, rfl⟩) (hostCall rfl)

theorem askOwner {id : HandleId} {o : HostObject} {query : OwnerQuery} :
    Does s₀ m₀ op thread {.loan id o} (Dispatch.askOwner o query) (fun _ => {.loan id o}) := by
  apply bind (hostCall rfl)
  intro answer
  cases answer with
  | none => exact pure rfl
  | some text =>
    apply bind (call ⟨by simp, by simp, by simp⟩ (by simp [target?]))
    intro copy
    apply bind (call ⟨by simp, by simp, by simp⟩ (by simp [target?]))
    intro _
    exact pure rfl

theorem resolveOwner {id : HandleId} {query : OwnerQuery} :
    Does s₀ m₀ op thread 0 (Dispatch.resolveOwner id query) (fun _ => 0) := by
  have asked : Does s₀ m₀ op thread 0
      (Dispatch.withTarget .query id fun target =>
        Dispatch.attached (Dispatch.askOwner target.object query)) (fun _ => 0) :=
    withTarget fun target => attached (fun s => ⟨_, s, _, rfl, rfl⟩) askOwner
  apply bind asked
  intro result
  rcases result with e | (_ | owner)
  · exact bind reportDrop fun _ => pure rfl
  · exact bind (bump (by simp)) fun _ => bind limitedError fun _ => pure rfl
  · exact bind (bump (by simp)) fun _ => pure rfl

/-- A delivery from its claim on. -/
theorem delivery (data : CString) {claim : Operation (Except DispatchError Unit)} {id : HandleId}
    {o : HostObject}
    (hclaim : Does s₀ m₀ op thread {.loan id o} claim fun _ => {.loan id o}) :
    Does s₀ m₀ op thread {.loan id o}
      (do
        let result ← Dispatch.handOver claim o data
        Registry.giveBack id
        Pure.pure result) (fun _ => 0) := by
  have made : Does s₀ m₀ op thread {.loan id o} (Dispatch.handOver claim o data)
      (fun _ => {.loan id o}) := by
    apply bind hclaim
    intro claimed
    cases claimed with
    | error e => exact pure rfl
    | ok _ => exact attached (fun s => ⟨_, s, _, rfl, rfl⟩) (hostCall rfl)
  exact bind made fun result => bind giveBack fun _ => pure rfl

end Does

/-! ### Beginnings -/

/-- `m` begins operation `op` in `m₀`, and turns nothing in hand into what
    `gain` says of its result. -/
def Starts (s₀ : State) (m₀ : Moment) (op : Nat) (thread : Thread) (h : History)
    (rest : Multiset Token) (m : Operation α) (gain : α → Multiset Token) : Prop :=
  ∃ s own, ∃ m' : Operation α, Booked s₀ s (m₀ :: h) (rest + own) ∧
    m thread m₀.state = m' thread s ∧ Does s₀ m₀ op thread own m' gain

namespace Starts

variable {h : History} {s : State} {rest : Multiset Token} {q : Request} {gain : α → Multiset Token}
  {id : HandleId}

theorem bind {m : Operation α} {f : α → Operation β} {gain' : β → Multiset Token}
    (hm : Starts s₀ m₀ op thread h rest m gain)
    (hf : ∀ a, Does s₀ m₀ op thread (gain a) (f a) gain') :
    Starts s₀ m₀ op thread h rest (m >>= f) gain' := by
  obtain ⟨s, own, m', hb, heq, hd⟩ := hm
  refine ⟨s, own, m' >>= f, hb, ?_, hd.bind hf⟩
  rw [Operation.bind_apply, heq, Operation.bind_apply]

theorem of_does (gain : α → Multiset Token) {m : Operation α} {s : State} (hb : Booked s₀ s h rest)
    (hr : q.released? = none) (hd : q.delivered? = none)
    (hg : ∀ id, q ≠ .registry (.giveBack id)) (hc : q ≠ .registry .close)
    (hm : Does s₀ ⟨.begins op thread q, s⟩ op thread 0 m gain) :
    Starts s₀ ⟨.begins op thread q, s⟩ op thread h rest m gain := by
  have opening : Opening h s.registry q s.registry 0 :=
    .rest (fun id h => by simp [hr] at h) (fun id _ h => by simp [hd] at h) hg hc
  exact ⟨s, 0, m, hb.begins opening, rfl, hm⟩

/-- A release delists its id as it begins. -/
theorem take {s : State} (hb : Booked s₀ s h rest) (hq : q.released? = some id) :
    Starts s₀ ⟨.begins op thread q, s⟩ op thread h rest (Registry.take id) (fun _ => 0) := by
  cases hf : s.registry.listed? id with
  | none =>
    -- nothing is released, so nothing changes
    have opening : Opening h s.registry q s.registry 0 := by
      refine .rest (fun id' hq' => ?_) (fun id' _ hq' => ?_) (fun id' hq' => ?_) fun hq' => ?_
      · rw [hq, Option.some.injEq] at hq'
        rw [← hq', ← Registry.listed?_eq_none_iff, hf]
      · simp [Request.delivered?_eq_none_of_released? hq] at hq'
      · simp [hq', Request.released?] at hq
      · simp [hq', Request.released?] at hq
    exact ⟨s, 0, Pure.pure false, hb.begins opening, Registry.take_released hf, .pure rfl⟩
  | some e =>
    exact ⟨_, _, _, hb.begins (.releases hq hf), Registry.take_listed hf, .released⟩

theorem remove {s : State} (hb : Booked s₀ s h rest) (hq : q.released? = some id) :
    Starts s₀ ⟨.begins op thread q, s⟩ op thread h rest (Registry.remove id) (fun _ => 0) := by
  apply (take hb hq).bind
  intro found
  cases found with
  | true => exact .pure rfl
  | false =>
    refine .bind (.bump (by simp)) fun _ => ?_
    exact .bind .limitedError fun _ => .pure rfl

/-- A delivery that claims the one result does so as it begins. -/
theorem deliverResult {s : State} {data : CString} (hb : Booked s₀ s h rest)
    (hq : q.delivered? = some id) (hn : id.isNull = false) :
    Starts s₀ ⟨.begins op thread q, s⟩ op thread h rest (Dispatch.deliverResult id data)
      (fun _ => 0) := by
  -- where there is no result to claim, nothing changes as it begins
  have quiet : (∀ e, s.registry.listed? id = some e → e.kind ≠ .invoke) →
      Booked s₀ s (⟨.begins op thread q, s⟩ :: h) rest := by
    intro hk
    rw [← add_zero rest]
    refine hb.begins
      (.rest (fun id' hq' => ?_) (fun id' e hq' hf => ?_) (fun id' hq' => ?_) fun hq' => ?_)
    · rw [Request.delivered?_eq_none_of_released? hq'] at hq
      cases hq
    · obtain rfl : id = id' := by simpa [hq] using hq'
      exact hk e hf
    · simp [hq', Request.delivered?] at hq
    · simp [hq', Request.delivered?] at hq
  rw [Dispatch.deliverResult_eq hn]
  suffices target : Starts s₀ ⟨.begins op thread q, s⟩ op thread h rest
      (Dispatch.withTarget .result id fun target =>
        Dispatch.handOver (Dispatch.claimResult target) target.object data)
      (fun _ => 0) from target.bind fun result => .settle
  cases hf : s.registry.listed? id with
  | none =>
    have stale : Does s₀ ⟨.begins op thread q, s⟩ op thread 0
        (do
          CallbackBridge.bump .staleLookups
          Pure.pure (.error (.handle (.released id)) : Except DispatchError Unit))
        (fun _ => 0) := .bind (.bump (by simp)) fun _ => .pure rfl
    refine ⟨s, 0, _, ?_, Dispatch.withTarget_released hn hf, stale⟩
    rw [add_zero]
    exact quiet (by simp [hf])
  | some e =>
    cases hk : e.kind with
    | tunnel =>
      have lent := (quiet (by simp [hf, hk])).lend hf
      refine ⟨_, _, _, lent, Dispatch.withTarget_wrongKind hn hf (by rw [hk]; rfl), ?_⟩
      exact .bind .giveBack fun _ => .pure rfl
    | listener =>
      have lent := (quiet (by simp [hf, hk])).lend hf
      refine ⟨_, _, _, lent, Dispatch.withTarget_listed hn hf (by rw [hk]; rfl),
        .delivery data ?_⟩
      rw [Dispatch.claimResult, if_neg (by simp [hk])]
      exact .pure rfl
    | invoke =>
      -- the claim is booked first, and the loan after it; they commute
      have claimed : Booked s₀ { s with registry := s.registry.markDelivered id }
          (⟨.begins op thread q, s⟩ :: h) rest := by
        rw [← add_zero rest]
        exact hb.begins (.claims hq hf hk)
      have hf' : (s.registry.markDelivered id).listed? id = some { e with delivered := true } := by
        obtain ⟨he, rfl, hl⟩ := Registry.mem_of_listed? hf
        have hm : { e with delivered := true } ∈ (s.registry.markDelivered e.id).entries :=
          Registry.mem_update.mpr ⟨e, he, by simp⟩
        exact hb.sound.markDelivered.distinct.listed?_eq hm hl
      have lent := claimed.lend hf'
      have claim : Does s₀ ⟨.begins op thread q, s⟩ op thread {.loan id e.object}
          (Dispatch.answerClaim id e.delivered) (fun _ => {.loan id e.object}) := by
        unfold Dispatch.answerClaim
        split
        · exact .bind (.bump (by simp)) fun _ => .bind .limitedError fun _ => .pure rfl
        · exact .pure rfl
      refine ⟨_, _, _, lent, ?_, .delivery data claim⟩
      rw [Dispatch.withTarget_listed hn hf (by rw [hk]; rfl)]
      simp only [Dispatch.handOver, Operation.bind_apply,
        Dispatch.claimResult_invoke hb.sound hf hk]

theorem releaseRaw {s : State} (hb : Booked s₀ s h rest)
    (hr : q.released? = if id.isNull then none else some id) (hd : q.delivered? = none)
    (hg : ∀ id, q ≠ .registry (.giveBack id)) (hc : q ≠ .registry .close) :
    Starts s₀ ⟨.begins op thread q, s⟩ op thread h rest (Registry.releaseRaw id)
      (fun _ => 0) := by
  unfold Registry.releaseRaw
  split
  · next hn => exact of_does _ hb (by simp [hr, hn]) hd hg hc (.pure rfl)
  · next hn => exact remove hb (by simp [hr, hn])

theorem releaseIfPresent {s : State} (hb : Booked s₀ s h rest) :
    Starts s₀ ⟨.begins op thread (.registry (.releaseIfPresent id)), s⟩ op thread h rest
      (Registry.releaseIfPresent id) (fun _ => 0) := by
  unfold Registry.releaseIfPresent
  split
  · next hn =>
    exact of_does _ hb (by simp [Request.released?, hn]) rfl (by simp) (by simp) (.pure rfl)
  · next hn =>
    apply (take hb (by simp [Request.released?, hn])).bind
    intro found
    cases found with
    | true => exact .pure rfl
    | false => exact .bind .breadcrumb fun _ => .pure rfl

/-- The null handle takes anything. -/
theorem deliverAny {s : State} {data : CString} (hb : Booked s₀ s h rest)
    (hd : q.delivered? = if id.isNull then none else some id) (hr : q.released? = none)
    (hg : ∀ id, q ≠ .registry (.giveBack id)) (hc : q ≠ .registry .close) :
    Starts s₀ ⟨.begins op thread q, s⟩ op thread h rest (Dispatch.deliverResult id data)
      (fun _ => 0) := by
  cases hn : id.isNull with
  | true =>
    apply of_does _ hb hr (by simp [hd, hn]) hg hc
    unfold Dispatch.deliverResult
    rw [if_pos hn]
    exact .pure rfl
  | false => exact deliverResult hb (by simp [hd, hn]) hn

theorem close {s : State} (hb : Booked s₀ s h rest) :
    Starts s₀ ⟨.begins op thread (.registry .close), s⟩ op thread h rest Registry.close
      (fun _ => 0) := by
  rcases hc : s.registry.clear with ⟨free, r⟩
  refine ⟨_, _, _, hb.begins (.closes hc), ?_, .unpinAll free⟩
  simp only [Registry.close, Operation.bind_apply, Operation.modifyGet_apply, hc, Progress.bind]

theorem giveBack {s : State} (hb : Booked s₀ s h rest) (hm : id ∈ held h) :
    Starts s₀ ⟨.begins op thread (.registry (.giveBack id)), s⟩ op thread h rest
      (Registry.giveBack id) (fun _ => 0) := by
  obtain ⟨e, he, rfl⟩ := hb.loansMatch.known id hm
  exact ⟨_, _, _, hb.begins (.returns hm (hb.sound.distinct.find?_eq he)), rfl, .giveBack⟩

/-- An operation that starts well keeps the books to its end. -/
theorem keeps {s : State} {gain : q.Result → Multiset Token}
    (hs : Starts s₀ ⟨.begins op thread q, s⟩ op thread h rest q.operation gain)
    (hn : ∀ result, Note (.ends op thread q result) (gain result) 0) :
    Keeps (books s₀) op thread (fun _ _ => none) ((books s₀).ends op thread q)
      (q.operation thread s) (⟨.begins op thread q, s⟩ :: h) rest := by
  obtain ⟨s', own, m, hb, heq, hd⟩ := hs
  rw [show q.operation thread s = m thread s' from heq]
  apply (hd _ s' _ rest (List.mem_cons_self ..) hb).mono
  intro result s₂ h₂ rest₂ hb₂
  show Booked s₀ s₂ (_ :: h₂) rest₂
  rw [← add_zero rest₂]
  exact hb₂.notes (hn result)

end Starts

/-! ### Requests -/

namespace Booked

variable {s : State} {h : History} {rest : Multiset Token} {op : Nat} {thread : Thread}

theorem registry_keeps (hb : Booked s₀ s h rest) (q : RegistryRequest)
    (hg : ∀ id, q = .giveBack id → id ∈ held h) :
    Keeps (books s₀) op thread (fun _ _ => none) ((books s₀).ends op thread (.registry q))
      (q.operation thread s) (⟨.begins op thread (.registry q), s⟩ :: h) rest := by
  cases q with
  | register o k =>
    refine Starts.keeps (Starts.of_does (Does.issuedOf op) hb rfl rfl (by simp) (by simp)
      (.register rfl)) fun result => ?_
    cases result with
    | ok handle => exact .issues
    | error e => exact .silent rfl
  | look id =>
    refine Starts.keeps (Starts.of_does (Does.borrowed id) hb rfl rfl (by simp) (by simp) .look)
      fun result => ?_
    cases result with
    | ok target => exact .lends
    | error e => exact .silent rfl
  | giveBack id =>
    exact (Starts.giveBack hb (hg id rfl)).keeps fun _ => .silent rfl
  | release handle =>
    have starts : Starts s₀ ⟨.begins op thread (.registry (.release handle)), s⟩ op thread h rest
        (Registry.release handle) (fun _ => 0) := by
      apply (Starts.remove hb rfl).bind
      intro found
      cases found with
      | true => exact .pure rfl
      | false => exact .emit
    exact starts.keeps fun _ => .silent rfl
  | releaseRaw id =>
    exact (Starts.releaseRaw hb rfl rfl (by simp) (by simp)).keeps fun _ => .silent rfl
  | releaseIfPresent id =>
    exact (Starts.releaseIfPresent hb).keeps fun _ => .silent rfl
  | close => exact (Starts.close hb).keeps fun _ => .silent rfl

theorem dispatch_keeps (hb : Booked s₀ s h rest) (q : DispatchRequest) :
    Keeps (books s₀) op thread (fun _ _ => none) ((books s₀).ends op thread (.dispatch q))
      (q.operation thread s) (⟨.begins op thread (.dispatch q), s⟩ :: h) rest := by
  have ends : ∀ result, Note (.ends op thread (.dispatch q) result) 0 0 :=
    fun _ => .silent rfl
  have starts : Starts s₀ ⟨.begins op thread (.dispatch q), s⟩ op thread h rest q.operation
      (fun _ => 0) := by
    cases q with
    | protect id fd =>
      exact .of_does _ hb rfl rfl (by simp) (by simp) .protect
    | notify id payload =>
      exact .of_does _ hb rfl rfl (by simp) (by simp) .notify
    | resolveOwner id query =>
      exact .of_does _ hb rfl rfl (by simp) (by simp) .resolveOwner
    | deliverResult id data => exact .deliverAny hb rfl rfl (by simp) (by simp)
  exact starts.keeps ends

theorem callback_keeps (hb : Booked s₀ s h rest) (table : CallbackTable) (q : EngineRequest) :
    Keeps (books s₀) op thread (fun _ _ => none) ((books s₀).ends op thread (.callback table q))
      (table.serve q thread s) (⟨.begins op thread (.callback table q), s⟩ :: h) rest := by
  have ends : ∀ result, Note (.ends op thread (.callback table q) result) 0 0 :=
    fun _ => .silent rfl
  have starts : Starts s₀ ⟨.begins op thread (.callback table q), s⟩ op thread h rest
      (table.serve q) (fun _ => 0) := by
    unfold CallbackTable.serve
    split
    · next hc =>
      cases q with
      | protect handle fd =>
        exact .of_does _ hb rfl rfl (by simp) (by simp) (.bind .protect fun _ => .pure rfl)
      | resolveOwner handle protocol source target uid =>
        exact .of_does _ hb rfl rfl (by simp) (by simp) (.bind .resolveOwner fun _ => .pure rfl)
      | onResult handle data =>
        refine (Starts.deliverAny hb ?_ rfl (by simp) (by simp)).bind fun _ => .pure rfl
        cases hn : (HandleId.mk handle).isNull <;> simp [Request.delivered?, hc, hn]
      | release handle =>
        refine (Starts.releaseRaw hb ?_ rfl (by simp) (by simp)).bind fun _ => .pure rfl
        cases hn : (HandleId.mk handle).isNull <;> simp [Request.released?, hc, hn]
    · next hc =>
      -- a table without functions serves nothing
      refine .of_does _ hb ?_ ?_ (by simp) (by simp) (.pure rfl)
      · cases q <;> simp [Request.released?, hc]
      · cases q <;> simp [Request.delivered?, hc]
  exact starts.keeps ends

end Booked

/-- Every request to the registry or the dispatcher keeps the books. -/
theorem books_kept (s₀ : State) (q : Request) : (books s₀).Kept q := by
  intro thread s h rest hb hc
  have core := hc.1 _ _ _ rfl
  match q with
  | .registry q =>
    refine Booked.registry_keeps hb q fun id hq => hc.2 id ?_
    rw [hq]
    rfl
  | .dispatch q => exact Booked.dispatch_keeps hb q
  | .callback table q => exact Booked.callback_keeps hb table q
  | .library _ | .bridge _ | .entry _ | .log _ => cases core

end CallbackBridge.Run
