import CallbackBridge.Proofs.Run.Dispatching
import CallbackBridge.Proofs.Run.Spending

/-! # What calls through a handle add to the counters

    This goes on from `Proofs.Run.Spending` with the parts that count more than
    refusals: look-ups, calls of the dispatcher, and releases.

    Key ideas:

    1. What is wrong with a handle shows in the table as the call begins.
    2. A call of the dispatcher is tried, and then it is settled: it went through
       to its object, or it was dropped.
    3. A release is counted only where the table does not list the id. -/

namespace CallbackBridge

open Run Run.History

/-- A look-up of `id` finds nothing.  The null handle is not looked up. -/
def Registry.misses (r : Registry) (id : HandleId) : Bool :=
  !id.isNull && !r.contains id

namespace DispatchRequest

/-- A request that is counted.  The null handle is ignored, but for a question,
    which has to be answered. -/
def counts : DispatchRequest → Bool
  | .resolveOwner .. => true
  | .protect id _ | .notify id _ | .deliverResult id _ => !id.isNull

/-- The request brings another result for an invoke handle that has got its
    one. -/
def repeats : DispatchRequest → Registry → Bool
  | .deliverResult id _, r =>
    !id.isNull && (r.listed? id).any fun e => e.kind = .invoke && e.delivered
  | .protect .., _ | .notify .., _ | .resolveOwner .., _ => false

/-- What is wrong with the handle of a request. -/
def faults (d : DispatchRequest) (r : Registry) : List Counter :=
  (if r.misses d.target then [.staleLookups] else []) ++
    if d.repeats r then [.resultsRejected] else []

/-- All that a request adds to the counters, by whether its object was
    called. -/
def charges (d : DispatchRequest) (r : Registry) (called : Bool) : List Counter :=
  (if d.counts then [if called then .callbacksDispatched else .callbacksDropped] else []) ++
    d.faults r

end DispatchRequest

namespace DispatchRequest

variable {r : Registry} {e : Registration}

/-- The null handle is ignored. -/
theorem faults_null (d : DispatchRequest) (hn : d.target.isNull = true) : d.faults r = [] := by
  have found : r.misses d.target = false := by simp [Registry.misses, hn]
  have once : d.repeats r = false := by
    cases d with
    | deliverResult id data =>
      have null : id.isNull = true := hn
      simp [repeats, null]
    | _ => rfl
  simp [faults, found, once]

theorem faults_released (d : DispatchRequest) (hn : d.target.isNull = false)
    (hf : r.listed? d.target = none) : d.faults r = [.staleLookups] := by
  have missed : r.misses d.target = true := by simp [Registry.misses, Registry.contains, hn, hf]
  have once : d.repeats r = false := by
    cases d with
    | deliverResult id data =>
      have gone : r.listed? id = none := hf
      simp [repeats, gone]
    | _ => rfl
  simp [faults, missed, once]

/-- Nothing is wrong with a handle that is listed, unless this is a second
    result. -/
theorem faults_listed (d : DispatchRequest) (hf : r.listed? d.target = some e)
    (once : d.repeats r = false) : d.faults r = [] := by
  have found : r.misses d.target = false := by simp [Registry.misses, Registry.contains, hf]
  simp [faults, found, once]

/-- A handle of the wrong kind is no second result. -/
theorem faults_unfit (d : DispatchRequest) (hf : r.listed? d.target = some e)
    (hk : d.shape.accepts e.kind = false) : d.faults r = [] := by
  refine d.faults_listed hf ?_
  cases d with
  | deliverResult id data =>
    have listed : r.listed? id = some e := hf
    have other : e.kind ≠ .invoke := by
      intro heq
      rw [heq] at hk
      cases hk
    simp [repeats, listed, other]
  | _ => rfl

end DispatchRequest

/-- What was found wrong before a call failed. -/
def Dispatch.blamed {α : Type} : Except DispatchError α → List Counter
  | .error (.handle (.released _)) => [.staleLookups]
  | .error (.alreadyDelivered _) => [.resultsRejected]
  | _ => []

theorem Dispatch.mem_blamed {α : Type} {r : Except DispatchError α} :
    .resultsRejected ∈ blamed r ↔ ∃ id, r = .error (.alreadyDelivered id) := by
  match r with
  | .error (.handle .null) | .error (.handle (.wrongKind ..)) | .error (.handle (.released _))
  | .error (.handle (.capacityExceeded _)) | .error (.handle .pinFailed)
  | .error (.handle .idSpaceExhausted) | .error (.attach _) | .error (.alreadyDelivered _)
  | .ok _ => simp [blamed]

theorem DispatchRequest.mem_faults {d : DispatchRequest} {r : Registry} :
    .resultsRejected ∈ d.faults r ↔ d.repeats r = true := by
  unfold faults
  split <;> split <;> simp_all

namespace Run

/-- A call was tried: what was wrong was counted, and where nothing was in the
    way its object was called. -/
structure Tried {α : Type} (H : State → Prop) (ks : List Counter) (n op : Nat)
    (faults : List Counter) (r : Except DispatchError α) (s : State) (h : History) : Prop where
  blamed : Dispatch.blamed r = faults
  tally : Tally H (faults ++ ks) (n + if r.isOk then 1 else 0) 0 op s h

/-- A request to the dispatcher was served: what was wrong, and how that went, is
    counted, and a second result is answered as one. -/
structure Served (H : State → Prop) (ks : List Counter) (n op : Nat) (d : DispatchRequest)
    (r : Registry) (result : d.Result) (s : State) (h : History) : Prop where
  charged : ∃ called : Bool, (called = true → d.counts = true) ∧
    Tally H (d.charges r called ++ ks) (n + if called then 1 else 0) 0 op s h
  answered : ∀ outcome, d.outcome? result = some outcome →
    (d.repeats r = true ↔ ∃ id, outcome = .error (.alreadyDelivered id))

namespace Tally

variable {H : State → Prop} {conduct : Moment → History → Prop}
  {law : (op : Nat) → Thread → (q : Request) → q.Result → State → History → Prop}
  {ks faults : List Counter} {n op : Nat} {thread : Thread} {s : State} {h : History}
  {c : Call} {α : Type} {id : HandleId} {shape : CallShape} {o : HostObject} {e : Registration}

/-- A host object is called. -/
theorem use (ht : Tally H ks n 0 op s h) (hc : (target? c).isSome = true)
    (hr : ∀ r, c.refused r = false) :
    Nests (.closing H conduct law) op thread (fun _ s' h' => Tally H ks (n + 1) 0 op s' h')
      (Operation.call c thread s) h := by
  refine ht.call.mono fun r s' h' hx => ?_
  rw [hc, hr] at hx
  exact hx

/-- The object is called on a visit, or the refusal is counted. -/
theorem attached (hH : Lasts H) {body : Operation α} (ht : Tally H ks n 0 op s h)
    (hb : ∀ s h, Tally H ks n 0 op s h → Nests (.closing H conduct law) op thread
      (fun _ s' h' => Tally H ks (n + 1) 0 op s' h') (body thread s) h) :
    Nests (.closing H conduct law) op thread (Tried H ks n op []) (Dispatch.attached body thread s)
      h := by
  simp only [Dispatch.attached, Operation.bind_apply, Operation.state_apply, Progress.bind]
  refine Nests.bind ((ht.onHostThread s.registry.policy hb).mono fun r s' h' hx => ?_)
  cases r with
  | ok a => exact ⟨rfl, hx⟩
  | error err => exact ⟨rfl, hx.pay hH⟩

/-- The owner of a connection is asked for, and the answer is given back. -/
theorem askOwner {query : OwnerQuery} (ht : Tally H ks n 0 op s h) :
    Nests (.closing H conduct law) op thread (fun _ s' h' => Tally H ks (n + 1) 0 op s' h')
      (Dispatch.askOwner o query thread s) h := by
  have asked : Nests (.closing H conduct law) op thread
      (fun _ s' h' => Tally H ks (n + 1) 0 op s' h')
      (Operation.call (.host (.resolve o query)) thread s) h := ht.use rfl fun _ => rfl
  refine Nests.bind (asked.mono fun answer s₁ h₁ hx => ?_)
  cases answer with
  | none => exact hx
  | some text =>
    have copied : (Nesting.closing H conduct law).Carries
        (fun op _ s h => Tally H ks (n + 1) 0 op s h) (Operation.call (.host (.readString text))) :=
      carries_call rfl fun _ => rfl
    have freed : (Nesting.closing H conduct law).Carries
        (fun op _ s h => Tally H ks (n + 1) 0 op s h) (Operation.call (.host (.freeString text))) :=
      carries_call rfl fun _ => rfl
    exact basics.bind copied (fun _ => basics.bind freed fun _ => basics.pure _) op thread s₁ h₁ hx

/-- A second result is counted and rejected. -/
theorem answerClaim (hH : Lasts H) (ht : Tally H ks n 0 op s h) (delivered : Bool) :
    Nests (.closing H conduct law) op thread (fun r s' h' =>
      r = (if delivered then .error (.alreadyDelivered id) else .ok ()) ∧
      Tally H ((if delivered then [.resultsRejected] else []) ++ ks) n 0 op s' h')
      (Dispatch.answerClaim id delivered thread s) h := by
  cases delivered with
  | false => exact ⟨rfl, ht⟩
  | true =>
    have logged : (Nesting.closing H conduct law).Carries
        (fun op _ s h => Tally H (.resultsRejected :: ks) n 0 op s h)
        (Log.limitedError .duplicateResult s!"dropping second result for handle {id.text}") :=
      carries_limitedError hH
    have counted : Nests (.closing H conduct law) op thread
        (fun _ s' h' => Tally H (.resultsRejected :: ks) n 0 op s' h')
        (CallbackBridge.bump .resultsRejected thread s) h := carries_bump hH (by decide) ht
    refine Nests.bind (counted.mono fun _ s₁ h₁ hx => ?_)
    exact Nests.bind ((logged op thread s₁ h₁ hx).mono fun _ s₂ h₂ hy => ⟨rfl, hy⟩)

/-- Once the claim is made, the data is handed over. -/
theorem handOver (hH : Lasts H) (sound : s.registry.Sound) {data : CString}
    (ht : Tally H ks n 0 op s h) (hn : id.isNull = false)
    (hf : s.registry.listed? id = some e) :
    Nests (.closing H conduct law) op thread
      (Tried H ks n op ((DispatchRequest.deliverResult id data).faults s.registry))
      (Dispatch.handOver (Dispatch.claimResult e) e.object data thread
        { s with registry := s.registry.lend id }) h := by
  have listed : s.registry.misses id = false := by simp [Registry.misses, Registry.contains, hf]
  have hands : ∀ s h, Tally H ks n 0 op s h → Nests (.closing H conduct law) op thread
      (Tried H ks n op []) (Dispatch.attached
        (Operation.call (.host (.onResult e.object data))) thread s) h :=
    fun s h ht => ht.attached hH fun s h ht => ht.use rfl fun _ => rfl
  by_cases hk : e.kind = .invoke
  · have claimed : Tally H ks n 0 op
        { s with registry := (s.registry.markDelivered id).lend id } h :=
      ht.change hH ⟨fun hr => hr.markDelivered.lend, rfl, fun _ _ => rfl⟩
    have same : (DispatchRequest.deliverResult id data).faults s.registry =
        if e.delivered then [.resultsRejected] else [] := by
      simp [DispatchRequest.faults, DispatchRequest.target, DispatchRequest.repeats, listed, hn,
        hf, hk]
    rw [Dispatch.handOver, Operation.bind_apply, Dispatch.claimResult_invoke sound hf hk, same]
    refine Nests.bind ((claimed.answerClaim hH e.delivered).mono fun r s₁ h₁ hx => ?_)
    obtain ⟨rfl, hx⟩ := hx
    cases hd : e.delivered with
    | false =>
      rw [hd] at hx
      exact hands s₁ h₁ hx
    | true =>
      rw [hd] at hx
      exact ⟨rfl, hx⟩
  · have free : Dispatch.claimResult e = pure (.ok ()) := if_neg hk
    have same : (DispatchRequest.deliverResult id data).faults s.registry = [] := by
      simp [DispatchRequest.faults, DispatchRequest.target, DispatchRequest.repeats, listed, hf, hk]
    rw [free, same]
    exact hands _ h (ht.change hH ⟨fun hr => hr.lend, rfl, fun _ _ => rfl⟩)

/-- What is wrong with a handle is counted as it is looked up, or by `body`. -/
theorem withTarget (hH : Lasts H) (d : DispatchRequest)
    {body : Registration → Operation (Except DispatchError α)} (ht : Tally H ks n 0 op s h)
    (hb : ∀ e, d.target.isNull = false → s.registry.listed? d.target = some e →
      Nests (.closing H conduct law) op thread (Tried H ks n op (d.faults s.registry))
        (body e thread { s with registry := s.registry.lend d.target }) h) :
    Nests (.closing H conduct law) op thread (Tried H ks n op (d.faults s.registry))
      (Dispatch.withTarget d.shape d.target body thread s) h := by
  cases hn : d.target.isNull with
  | true =>
    rw [Dispatch.withTarget_null hn, d.faults_null hn]
    exact ⟨rfl, ht⟩
  | false =>
    cases hf : s.registry.listed? d.target with
    | none =>
      rw [Dispatch.withTarget_released hn hf, d.faults_released hn hf]
      exact ⟨rfl, ht.bump hH (by decide)⟩
    | some e =>
      cases hk : d.shape.accepts e.kind with
      | false =>
        rw [Dispatch.withTarget_wrongKind hn hf hk, d.faults_unfit hf hk]
        have lent : Tally H ks n 0 op { s with registry := s.registry.lend d.target } h :=
          ht.change hH ⟨fun hr => hr.lend, rfl, fun _ _ => rfl⟩
        refine Nests.bind (((pinning hH).giveBack op thread _ h lent).mono ?_)
        exact fun _ s₁ h₁ hx => ⟨rfl, hx⟩
      | true =>
        rw [Dispatch.withTarget_listed hn hf hk]
        refine Nests.bind ((hb e hn hf).mono fun r s₁ h₁ tried => ?_)
        refine Nests.bind (((pinning hH).giveBack op thread s₁ h₁ tried.tally).mono ?_)
        exact fun _ s₂ h₂ hx => ⟨tried.blamed, hx⟩

/-- A call that did not reach its object is dropped. -/
theorem reportDrop (hH : Lasts H) {err : DispatchError} (ht : Tally H ks n 0 op s h) :
    Nests (.closing H conduct law) op thread
      (fun _ s' h' => Tally H (.callbacksDropped :: ks) n 0 op s' h')
      (Dispatch.reportDrop shape id err thread s) h := by
  have counted : Tally H (.callbacksDropped :: ks) n 0 op _ h := ht.bump hH (by decide)
  exact basics.bind (carries_limitedError hH) (fun _ => basics.pure ()) op thread _ h counted

/-- How a call went is counted, and it goes on to the caller. -/
theorem settle (hH : Lasts H) {r : Except DispatchError Unit} (ht : Tally H ks n 0 op s h) :
    Nests (.closing H conduct law) op thread (fun r' s' h' => r' = r ∧
      Tally H ((if r.isOk then .callbacksDispatched else .callbacksDropped) :: ks) n 0 op s' h')
      (Dispatch.settle shape id r thread s) h := by
  cases r with
  | ok _ =>
    have counted : Nests (.closing H conduct law) op thread
        (fun _ s' h' => Tally H (.callbacksDispatched :: ks) n 0 op s' h')
        (CallbackBridge.bump .callbacksDispatched thread s) h := carries_bump hH (by decide) ht
    refine Nests.bind (counted.mono fun _ s₁ h₁ hx => ?_)
    exact Nests.bind ((basics.breadcrumb op thread s₁ h₁ hx).mono fun _ s₂ h₂ hy => ⟨rfl, hy⟩)
  | error err => exact Nests.bind ((ht.reportDrop hH).mono fun _ s₁ h₁ hx => ⟨rfl, hx⟩)

/-- A request that is tried and settled is served. -/
theorem settled (hH : Lasts H) {d : DispatchRequest} {r : Registry} (hc : d.counts = true)
    {p : Progress (Except DispatchError Unit)}
    (hp : Nests (.closing H conduct law) op thread (Tried H ks n op (d.faults r)) p h) :
    Nests (.closing H conduct law) op thread (fun result s' h' =>
      (∃ called : Bool, (called = true → d.counts = true) ∧
        Tally H (d.charges r called ++ ks) (n + if called then 1 else 0) 0 op s' h') ∧
      (d.repeats r = true ↔ ∃ id, result = .error (.alreadyDelivered id)))
      (p.bind fun result s => Dispatch.settle shape id result thread s) h := by
  refine Nests.bind (hp.mono fun result s₁ h₁ tried => ?_)
  refine (tried.tally.settle hH).mono fun result' s₂ h₂ hx => ?_
  obtain ⟨rfl, hx⟩ := hx
  refine ⟨⟨result'.isOk, fun _ => hc, ?_⟩, ?_⟩
  · rw [DispatchRequest.charges, if_pos hc]
    exact hx
  · rw [← DispatchRequest.mem_faults, ← tried.blamed]
    exact Dispatch.mem_blamed

/-- The null handle is ignored. -/
theorem ignored {d : DispatchRequest} (ht : Tally H ks n 0 op s h) (hn : d.target.isNull = true)
    (hc : d.counts = false) :
    Nests (.closing H conduct law) op thread (Served H ks n op d s.registry)
      (d.operation thread s) h := by
  have free : d.charges s.registry false = [] := by
    rw [DispatchRequest.charges, d.faults_null hn, hc]
    rfl
  have once : d.repeats s.registry = false := by
    have faultless : .resultsRejected ∉ d.faults s.registry := by rw [d.faults_null hn]; simp
    rwa [DispatchRequest.mem_faults, Bool.not_eq_true] at faultless
  have unmoved : Tally H (d.charges s.registry false ++ ks) n 0 op s h := by rwa [free]
  cases d with
  | resolveOwner => cases hc
  | protect id fd =>
    have nothing : Dispatch.protect id fd = pure (.ok ()) := if_pos hn
    show Nests _ _ _ _ (Dispatch.protect id fd thread s) h
    rw [nothing]
    exact ⟨⟨false, nofun, unmoved⟩, fun outcome ho => by cases ho; simp [once]⟩
  | notify id payload =>
    have nothing : Dispatch.notify id payload = pure (.ok ()) := if_pos hn
    show Nests _ _ _ _ (Dispatch.notify id payload thread s) h
    rw [nothing]
    exact ⟨⟨false, nofun, unmoved⟩, fun outcome ho => by cases ho; simp [once]⟩
  | deliverResult id data =>
    have nothing : Dispatch.deliverResult id data = pure (.ok ()) := if_pos hn
    show Nests _ _ _ _ (Dispatch.deliverResult id data thread s) h
    rw [nothing]
    exact ⟨⟨false, nofun, unmoved⟩, fun outcome ho => by cases ho; simp [once]⟩

/-- Where the handle is listed, its object is called. -/
theorem callsObject (hH : Lasts H) (d : DispatchRequest) (body : HostObject → Operation α)
    (ht : Tally H ks n 0 op s h) (once : d.repeats s.registry = false)
    (hb : ∀ o s h, Tally H ks n 0 op s h → Nests (.closing H conduct law) op thread
      (fun _ s' h' => Tally H ks (n + 1) 0 op s' h') (body o thread s) h) :
    Nests (.closing H conduct law) op thread (Tried H ks n op (d.faults s.registry))
      (Dispatch.withTarget d.shape d.target (fun target =>
        Dispatch.attached (body target.object)) thread s) h := by
  refine ht.withTarget hH d fun e hn hf => ?_
  rw [d.faults_listed hf once]
  have lent : Tally H ks n 0 op { s with registry := s.registry.lend d.target } h :=
    ht.change hH ⟨fun hr => hr.lend, rfl, fun _ _ => rfl⟩
  exact lent.attached hH (hb e.object)

/-- A request to the dispatcher. -/
theorem dispatch (hH : Lasts H) (sound : s.registry.Sound) (d : DispatchRequest)
    (ht : Tally H ks n 0 op s h) :
    Nests (.closing H conduct law) op thread (Served H ks n op d s.registry)
      (d.operation thread s) h := by
  cases d with
  | protect id fd =>
    cases hn : id.isNull with
    | true => exact ht.ignored hn (by simp [DispatchRequest.counts, hn])
    | false =>
      show Nests _ _ _ _ (Dispatch.protect id fd thread s) h
      rw [Dispatch.protect_eq hn]
      refine (settled hH (by simp [DispatchRequest.counts, hn]) (ht.callsObject hH (.protect id fd)
        (fun o => Operation.call (.host (.protect o fd))) rfl ?_)).mono ?_
      · exact fun o s h ht => ht.use rfl fun _ => rfl
      · exact fun result s' h' hx => ⟨hx.1, fun outcome ho => by cases ho; exact hx.2⟩
  | notify id payload =>
    cases hn : id.isNull with
    | true => exact ht.ignored hn (by simp [DispatchRequest.counts, hn])
    | false =>
      show Nests _ _ _ _ (Dispatch.notify id payload thread s) h
      rw [Dispatch.notify_eq hn]
      refine (settled hH (by simp [DispatchRequest.counts, hn])
        (ht.callsObject hH (.notify id payload)
          (fun o => Operation.call (.host (.onResult o payload))) rfl ?_)).mono ?_
      · exact fun o s h ht => ht.use rfl fun _ => rfl
      · exact fun result s' h' hx => ⟨hx.1, fun outcome ho => by cases ho; exact hx.2⟩
  | deliverResult id data =>
    cases hn : id.isNull with
    | true => exact ht.ignored hn (by simp [DispatchRequest.counts, hn])
    | false =>
      show Nests _ _ _ _ (Dispatch.deliverResult id data thread s) h
      rw [Dispatch.deliverResult_eq hn]
      refine (settled hH (by simp [DispatchRequest.counts, hn])
        (ht.withTarget hH (.deliverResult id data) ?_)).mono ?_
      · exact fun e hn hf => ht.handOver hH sound hn hf
      · exact fun result s' h' hx => ⟨hx.1, fun outcome ho => by cases ho; exact hx.2⟩
  | resolveOwner id query =>
    -- the caller gets a text, whatever happens
    have answered : ∀ (owner : String) outcome, (DispatchRequest.resolveOwner id query).outcome?
        owner = some outcome → ((DispatchRequest.resolveOwner id query).repeats s.registry = true ↔
          ∃ id, outcome = .error (.alreadyDelivered id)) := fun _ _ ho => by cases ho
    refine Nests.bind ((ht.callsObject hH (.resolveOwner id query)
      (fun o => Dispatch.askOwner o query) rfl fun o s h ht => ht.askOwner).mono ?_)
    intro result s₁ h₁ tried
    cases result with
    | error err =>
      refine Nests.bind ((tried.tally.reportDrop hH).mono fun _ s₂ h₂ hx => ?_)
      exact ⟨⟨false, nofun, hx⟩, answered _⟩
    | ok owner =>
      have counted : Nests (.closing H conduct law) op thread
          (fun _ s' h' =>
            Tally H ((DispatchRequest.resolveOwner id query).charges s.registry true ++ ks) (n + 1) 0
              op s' h') (CallbackBridge.bump .callbacksDispatched thread s₁) h₁ :=
        carries_bump hH (by decide) tried.tally
      cases owner with
      | some owner =>
        exact Nests.bind (counted.mono fun _ s₂ h₂ hx => ⟨⟨true, fun _ => rfl, hx⟩, answered _⟩)
      | none =>
        refine Nests.bind (counted.mono fun _ s₂ h₂ hx => ?_)
        refine Nests.bind ((carries_limitedError hH op thread s₂ h₂ hx).mono fun _ s₃ h₃ hy => ?_)
        exact ⟨⟨true, fun _ => rfl, hy⟩, answered _⟩

/-! ### The registry -/

theorem look (hH : Lasts H) (ht : Tally H ks n 0 op s h) :
    Nests (.closing H conduct law) op thread (fun _ s' h' =>
      Tally H ((if s.registry.misses id then [.staleLookups] else []) ++ ks) n 0 op s' h')
      (Registry.look id thread s) h := by
  cases hn : id.isNull with
  | true =>
    have found : s.registry.misses id = false := by simp [Registry.misses, hn]
    rw [Registry.look_null hn, found]
    exact ht
  | false =>
    cases hf : s.registry.listed? id with
    | none =>
      have missed : s.registry.misses id = true := by
        simp [Registry.misses, Registry.contains, hn, hf]
      rw [Registry.look_released hn hf, missed]
      exact ht.bump hH (by decide)
    | some e =>
      have found : s.registry.misses id = false := by
        simp [Registry.misses, Registry.contains, hf]
      rw [Registry.look_listed hn hf, found]
      exact ht.change hH ⟨fun hr => hr.lend, rfl, fun _ _ => rfl⟩

theorem take (hH : Lasts H) (ht : Tally H ks n 0 op s h) :
    Nests (.closing H conduct law) op thread (fun found s' h' =>
      found = s.registry.contains id ∧ Tally H ks n 0 op s' h') (Registry.take id thread s) h := by
  cases hf : s.registry.listed? id with
  | none =>
    rw [Registry.take_released hf]
    exact ⟨by simp [Registry.contains, hf], ht⟩
  | some e =>
    have listed : true = s.registry.contains id := by simp [Registry.contains, hf]
    have struck : Nests (.closing H conduct law) op thread (fun _ s' h' => Tally H ks n 0 op s' h')
        (CallbackBridge.bump .handlesReleased thread
          { s with registry := s.registry.delist id }) h :=
      ht.change hH (.counted rfl fun hr => hr.delist)
    rw [Registry.take_listed hf]
    refine Nests.bind (struck.mono fun _ s₁ h₁ hx => ?_)
    refine Nests.bind ((basics.breadcrumb op thread s₁ h₁ hx).mono fun _ s₂ h₂ hx => ?_)
    exact Nests.bind (((pinning hH).giveBack op thread s₂ h₂ hx).mono fun _ _ _ hx => ⟨listed, hx⟩)

/-- A release that finds nothing is counted. -/
theorem remove (hH : Lasts H) (ht : Tally H ks n 0 op s h) :
    Nests (.closing H conduct law) op thread (fun _ s' h' =>
      Tally H ((if !s.registry.contains id then [.duplicateReleases] else []) ++ ks) n 0 op s' h')
      (Registry.remove id thread s) h := by
  refine Nests.bind ((ht.take hH).mono fun found s₁ h₁ hx => ?_)
  obtain ⟨rfl, hx⟩ := hx
  cases hc : s.registry.contains id with
  | true => exact hx
  | false =>
    have counted : Nests (.closing H conduct law) op thread
        (fun _ s' h' => Tally H (.duplicateReleases :: ks) n 0 op s' h')
        (CallbackBridge.bump .duplicateReleases thread s₁) h₁ := carries_bump hH (by decide) hx
    refine Nests.bind (counted.mono fun _ s₂ h₂ hx => ?_)
    exact Nests.bind ((carries_limitedError hH op thread s₂ h₂ hx).mono fun _ _ _ hx => hx)

theorem release (hH : Lasts H) (ht : Tally H ks n 0 op s h) {handle : Handle} :
    Nests (.closing H conduct law) op thread (fun _ s' h' =>
      Tally H ((if !s.registry.contains handle.id then [.duplicateReleases] else []) ++ ks) n 0
        op s' h') (Registry.release handle thread s) h := by
  refine Nests.bind ((ht.remove hH).mono fun found s₁ h₁ hx => ?_)
  cases found with
  | true => exact hx
  | false =>
    -- there is a warning as well, which counts nothing
    exact basics.emit op thread s₁ h₁ hx

theorem releaseRaw (hH : Lasts H) (ht : Tally H ks n 0 op s h) :
    Nests (.closing H conduct law) op thread (fun _ s' h' =>
      Tally H ((if s.registry.misses id then [.duplicateReleases] else []) ++ ks) n 0 op s' h')
      (Registry.releaseRaw id thread s) h := by
  cases hn : id.isNull with
  | true =>
    have nothing : Registry.releaseRaw id = pure false := if_pos hn
    have found : s.registry.misses id = false := by simp [Registry.misses, hn]
    rw [nothing, found]
    exact ht
  | false =>
    have removes : Registry.releaseRaw id = Registry.remove id := if_neg (by simp [hn])
    have same : s.registry.misses id = !s.registry.contains id := by simp [Registry.misses, hn]
    rw [removes, same]
    exact ht.remove hH

end Tally

end Run

end CallbackBridge
