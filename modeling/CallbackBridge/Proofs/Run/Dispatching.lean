import CallbackBridge.Proofs.Run.Beginnings
import CallbackBridge.Proofs.Run.Calls
import CallbackBridge.Proofs.Ledger.Books

/-! # Calls through a handle

    What an operation of the dispatcher does once it is known what the table
    lists under its id when it begins.

    Key ideas:

    1. Where the id is not listed, or has a kind that the call does not take,
       the operation is quiet and fails.
    2. Otherwise it uses the host object that is listed there, and no other.
    3. A result for an invoke handle is an errand: one attachment, and if the
       host accepts it one call.  A second result is quiet and is rejected. -/

namespace CallbackBridge

variable {α : Type} {thread : Thread} {s : State} {id : HandleId} {e : Registration}

/-! ### Requests to the dispatcher -/

namespace DispatchRequest

/-- The id of the host object that a request is meant for. -/
def target : DispatchRequest → HandleId
  | .protect id _ | .notify id _ | .resolveOwner id _ | .deliverResult id _ => id

/-- The shape of the call that is asked for. -/
def shape : DispatchRequest → CallShape
  | .protect .. => .protect
  | .notify .. => .event
  | .resolveOwner .. => .query
  | .deliverResult .. => .result

/-- What a request results in where its object was not called. -/
def failure : (d : DispatchRequest) → DispatchError → d.Result
  | .resolveOwner .., _ => ""
  | .protect .., e | .notify .., e | .deliverResult .., e => .error e

/-- How a call went, as its caller is told; the owner of a connection is no
    such answer. -/
def outcome? : (d : DispatchRequest) → d.Result → Option (Except DispatchError Unit)
  | .resolveOwner .., _ => none
  | .protect .., r | .notify .., r | .deliverResult .., r => some r

/-- A request was rejected because the one result had been delivered. -/
def Rejected : (d : DispatchRequest) → d.Result → Prop
  | .resolveOwner .., _ => False
  | .protect .., r | .notify .., r | .deliverResult .., r => ∃ id, r = .error (.alreadyDelivered id)

/-- A handle that cannot be used is no reason for a rejection. -/
theorem not_rejected_failure (d : DispatchRequest) {err : HandleError} :
    ¬ d.Rejected (d.failure (.handle err)) := by
  cases d with
  | resolveOwner => exact fun h => h
  | _ =>
    rintro ⟨id, h⟩
    cases h

end DispatchRequest

namespace Request

/-- The request to the dispatcher that a request amounts to. -/
def dispatched? : Request → Option DispatchRequest
  | .dispatch d => some d
  | .callback table q =>
    if table.connected then
      match q with
      | .protect handle fd => some (.protect ⟨handle⟩ fd)
      | .resolveOwner handle protocol source target uid =>
        some (.resolveOwner ⟨handle⟩ ⟨protocol, source.getD .empty, target.getD .empty, uid⟩)
      | .onResult handle data => some (.deliverResult ⟨handle⟩ (data.getD .empty))
      | .release _ => none
    else none
  | _ => none

/-- How a call went, as its caller is told; an engine is told nothing. -/
def outcome? : (q : Request) → q.Result → Option (Except DispatchError Unit)
  | .dispatch d, r => d.outcome? r
  | _, _ => none

theorem operation_of_dispatched? {q : Request} {d : DispatchRequest}
    (h : q.dispatched? = some d) :
    ∃ report : d.Result → q.Result, q.operation = (d.operation >>= fun r => pure (report r)) ∧
      ∀ r outcome, q.outcome? (report r) = some outcome → d.outcome? r = some outcome := by
  match q with
  | .dispatch d' =>
    cases h
    exact ⟨fun r => r, (bind_pure _).symm, fun _ _ h => h⟩
  | .callback table q =>
    simp only [dispatched?] at h
    split at h
    · next hc =>
      have served : Request.operation (.callback table q) = Dispatch.serve q := if_pos hc
      rw [served]
      cases q with
      | protect | onResult =>
        cases h
        exact ⟨fun _ => (), rfl, fun _ _ h => by cases h⟩
      | resolveOwner =>
        cases h
        exact ⟨fun owner => .ofTextCut owner, rfl, fun _ _ h => by cases h⟩
      | release => cases h
    · cases h

/-- A plan of a request to the dispatcher, for a request that amounts to it. -/
def reports {d : DispatchRequest} (plan : Plan d.Result) (q : Request) : Plan q.Result where
  calls := plan.calls
  ends told result s := ∃ r, plan.ends told r s ∧
    ∀ outcome, q.outcome? result = some outcome → d.outcome? r = some outcome

/-- A request goes by the plan of the request to the dispatcher. -/
theorem follows_of_dispatched? {q : Request} {d : DispatchRequest} (h : q.dispatched? = some d)
    {plan : Plan d.Result} (hd : (d.operation thread s).Follows plan []) :
    (q.operation thread s).Follows (reports plan q) [] := by
  obtain ⟨report, heq, hout⟩ := operation_of_dispatched? h
  rw [heq]
  refine Progress.Follows.bind (hd.mono (fun _ _ _ h => h) fun told r s' hr => ?_)
  exact ⟨r, hr, hout r⟩

/-- A request calls what the request to the dispatcher calls. -/
theorem within_of_dispatched? {q : Request} {d : DispatchRequest} (h : q.dispatched? = some d)
    {p : Call → Prop} {post : d.Result → Prop}
    (hd : (d.operation thread s).Follows (.within p [] post) []) :
    (q.operation thread s).Follows (.within p [] fun _ => True) [] :=
  (follows_of_dispatched? h hd).mono (fun _ _ _ h => h) fun _ _ _ ⟨_, h, _⟩ => ⟨h.1, trivial⟩

theorem dispatched?_of_delivered? {q : Request} {id : HandleId} (h : q.delivered? = some id) :
    id.isNull = false ∧ ∃ data, q.dispatched? = some (.deliverResult id data) := by
  unfold delivered? at h
  split at h
  · split at h
    · cases h
    · next data hn =>
      cases h
      exact ⟨by simpa using hn, data, rfl⟩
  · split at h
    · next hc =>
      cases h
      rw [Bool.and_eq_true, Bool.not_eq_true'] at hc
      exact ⟨hc.2, _, if_pos hc.1⟩
    · cases h
  · cases h

theorem delivered?_of_dispatched? {q : Request} {id : HandleId} {data : CString}
    (h : q.dispatched? = some (.deliverResult id data)) (hn : id.isNull = false) :
    q.delivered? = some id := by
  match q with
  | .dispatch d =>
    cases h
    exact if_neg (by simp [hn])
  | .callback table q =>
    simp only [dispatched?] at h
    split at h
    · next hc =>
      cases q with
      | onResult handle data' =>
        obtain ⟨rfl, -⟩ : HandleId.mk handle = id ∧ _ := by simpa using h
        simp [delivered?, hc, hn]
      | _ => cases h
    · cases h

/-- Other requests to the registry or from an engine use no host object. -/
theorem upkeep_of_dispatched? {q : Request} (hc : q.isCoreOrClose = true)
    (h : q.dispatched? = none) : q.operation.Makes Upkeep fun _ => True := by
  match q with
  | .registry q =>
    cases q with
    | register => exact .register
    | look => exact .look
    | giveBack => exact .giveBack
    | release => exact .release
    | releaseRaw => exact .releaseRaw
    | releaseIfPresent => exact .releaseIfPresent
    | close => exact .close
  | .dispatch d => cases h
  | .callback table q =>
    show (table.serve q).Makes Upkeep fun _ => True
    unfold CallbackTable.serve
    split
    · next hc =>
      simp only [dispatched?, hc, if_true] at h
      cases q with
      | release => exact .bind .releaseRaw fun _ _ => .pure trivial
      | _ => cases h
    · exact .pure trivial
  | .library _ | .bridge _ | .entry _ | .log _ => cases hc

end Request

/-! ### Refused calls -/

namespace Dispatch

/-- Why a call of some shape does not reach an object in this registry. -/
def refusal? (r : Registry) (shape : CallShape) (id : HandleId) : Option HandleError :=
  match r.listed? id with
  | none => some (.released id)
  | some e => if shape.accepts e.kind then none else some (.wrongKind id e.kind)

variable {shape : CallShape} {body : Registration → Operation (Except DispatchError α)}
  {err : HandleError}

theorem refusal?_released {r : Registry} (hc : r.contains id = false) :
    refusal? r shape id = some (.released id) := by
  rw [refusal?, Registry.listed?_eq_none_iff.mpr hc]

theorem refusal?_invoke {r : Registry} (hf : r.listed? id = some e) (hk : e.kind = .invoke)
    (hs : shape ≠ .result) : refusal? r shape id = some (.wrongKind id .invoke) := by
  cases shape with
  | result => exact absurd rfl hs
  | _ => simp [refusal?, hf, hk, CallShape.accepts]

theorem withTarget_refused (hn : id.isNull = false) (hr : s.registry.Sound)
    (h : refusal? s.registry shape id = some err) :
    (withTarget shape id body).Quiet thread s fun r _ => r = .error (.handle err) := by
  unfold refusal? at h
  split at h
  · next hf =>
    cases h
    exact .of_eq (withTarget_released hn hf) rfl
  · next e hf =>
    split at h
    · cases h
    · next hk =>
      cases h
      have listed : (s.registry.lend id).contains id = true := by
        rw [Registry.contains_lend, Registry.contains, hf, Option.isSome_some]
      refine .congr (withTarget_wrongKind hn hf (by simpa using hk)) ?_
      exact .bind (.giveBack hr.lend listed) fun _ _ _ => .of_eq rfl rfl

theorem reportDrop_quiet {e : DispatchError} :
    (reportDrop shape id e).Quiet thread s fun _ s' => ∃ limiter,
      s' = { s with counters := s.counters.bump .callbacksDropped, limiter } := by
  refine .bind .bump fun _ s₁ h₁ => ?_
  subst h₁
  exact .bind .limitedError fun _ s₂ h₂ => .of_eq rfl h₂

theorem settle_error {e : DispatchError} :
    (settle shape id (.error e)).Quiet thread s fun r s' => r = .error e ∧ ∃ limiter,
      s' = { s with counters := s.counters.bump .callbacksDropped, limiter } :=
  .bind reportDrop_quiet fun _ _ h => .of_eq rfl ⟨rfl, h⟩

end Dispatch

/-- A call that does not reach an object fails, and calls nobody. -/
theorem DispatchRequest.refused {d : DispatchRequest} {err : HandleError}
    (hn : d.target.isNull = false) (hr : s.registry.Sound)
    (h : Dispatch.refusal? s.registry d.shape d.target = some err) :
    d.operation.Quiet thread s fun r _ => r = d.failure (.handle err) := by
  -- the refusal is counted and logged, and goes on to the caller
  have settled : ∀ {s' shape id} {r : Except DispatchError Unit}, r = .error (.handle err) →
      (Dispatch.settle shape id r).Quiet thread s' fun r _ => r = .error (.handle err) := by
    rintro s' shape id r rfl
    exact Dispatch.settle_error.mono fun _ _ h => h.1
  cases d with
  | protect id fd =>
    show (Dispatch.protect id fd).Quiet ..
    have known : id.isNull = false := hn
    rw [Dispatch.protect_eq known]
    exact .bind (Dispatch.withTarget_refused hn hr h) fun _ _ => settled
  | notify id payload =>
    show (Dispatch.notify id payload).Quiet ..
    have known : id.isNull = false := hn
    rw [Dispatch.notify_eq known]
    exact .bind (Dispatch.withTarget_refused hn hr h) fun _ _ => settled
  | deliverResult id data =>
    show (Dispatch.deliverResult id data).Quiet ..
    have known : id.isNull = false := hn
    rw [Dispatch.deliverResult_eq known]
    exact .bind (Dispatch.withTarget_refused hn hr h) fun _ _ => settled
  | resolveOwner id query =>
    refine .bind (Dispatch.withTarget_refused hn hr h) fun r s' hr => ?_
    subst hr
    exact .bind Dispatch.reportDrop_quiet fun _ _ _ => .of_eq rfl rfl

open Operation

/-- What a request for the null handle results in. -/
def DispatchRequest.ignored : (d : DispatchRequest) → d.Result
  | .resolveOwner .. => ""
  | .protect .. | .notify .. | .deliverResult .. => .ok ()

/-- The null handle reaches nobody. -/
theorem DispatchRequest.ignores {d : DispatchRequest} (hn : d.target.isNull = true) :
    d.operation.Quiet thread s fun r _ => r = d.ignored := by
  cases d with
  | protect id fd => exact .of_eq (congrFun (congrFun (if_pos hn) _) _) rfl
  | notify id payload => exact .of_eq (congrFun (congrFun (if_pos hn) _) _) rfl
  | deliverResult id data => exact .of_eq (congrFun (congrFun (if_pos hn) _) _) rfl
  | resolveOwner id query =>
    have null : (Dispatch.withTarget .query id fun target =>
        Dispatch.attached (Dispatch.askOwner target.object query)).Quiet thread s
        fun r _ => r = .error (.handle .null) := .of_eq (Dispatch.withTarget_null hn) rfl
    apply null.bind
    intro r s' hr
    subst hr
    exact .bind Dispatch.reportDrop_quiet fun _ _ _ => .of_eq rfl rfl

theorem Request.follows_of_quiet {q : Request} {d : DispatchRequest}
    {post : d.Result → State → Prop} (h : q.dispatched? = some d)
    (hd : d.operation.Quiet thread s post) :
    (q.operation thread s).Follows (.within (·.mayReenter = false) [] fun _ => True) [] := by
  have made : (d.operation thread s).Follows
      (.within (·.mayReenter = false) [] fun _ => True) [] :=
    (hd.mono fun _ _ _ => trivial).follows fun _ h => h
  exact within_of_dispatched? h made

/-! ### Calls of one object -/

/-- Calls that use no host object but `o`. -/
def Upon (o : HostObject) (call : Call) : Prop :=
  ∀ o', Run.History.target? call = some o' → o' = o

theorem Upkeep.upon {o : HostObject} {call : Call} (h : Upkeep call) : Upon o call := by
  intro o' ho
  rw [h] at ho
  cases ho

namespace Dispatch

/-- A result is not that the one result had been delivered. -/
def NotRejected (r : Except DispatchError α) : Prop := ∀ id, r ≠ .error (.alreadyDelivered id)

theorem attached_makes {o : HostObject} {body : Operation α}
    (hb : body.Makes (Upon o) fun _ => True) : (attached body).Makes (Upon o) NotRejected := by
  refine .bind .state fun s _ => ?_
  refine .bind (.onHostThread (fun _ h => h.upon) hb) fun result _ => ?_
  cases result with
  | ok a => exact .pure fun _ h => by cases h
  | error e => exact .bind .bump fun _ _ => .pure fun _ h => by cases h

theorem askOwner_makes {o : HostObject} {query : OwnerQuery} :
    (askOwner o query).Makes (Upon o) fun _ => True := by
  have asks : Upon o (.host (.resolve o query)) := by
    rintro o' ⟨⟩
    rfl
  refine .bind (.call asks) fun answer _ => ?_
  cases answer with
  | none => exact .pure trivial
  | some text =>
    exact .bind (.call (Upkeep.upon rfl)) fun _ _ =>
      .bind (.call (Upkeep.upon rfl)) fun _ _ => .pure trivial

theorem reportDrop_makes {shape : CallShape} {e : DispatchError} :
    (reportDrop shape id e).Makes Upkeep fun _ => True :=
  .bind .bump fun _ _ => .bind .limitedError fun _ _ => .pure trivial

theorem settle_makes {shape : CallShape} {r : Except DispatchError Unit} :
    (settle shape id r).Makes Upkeep (· = r) := by
  cases r with
  | ok u => exact .bind .bump fun _ _ => .bind .breadcrumb fun _ _ => .pure rfl
  | error e => exact .bind reportDrop_makes fun _ _ => .pure rfl

theorem claimResult_makes :
    (claimResult e).Makes Upkeep fun r => e.kind ≠ .invoke → r = .ok () := by
  unfold claimResult
  split
  · next hk =>
    refine .bind .modifyGet fun claimed _ => ?_
    split
    · exact .pure fun h => absurd hk h
    · exact .bind .bump fun _ _ => .bind .limitedError fun _ _ => .pure fun h => absurd hk h
  · exact .pure fun _ => rfl

/-- The object that is used is the one that is listed as the call begins. -/
theorem withTarget_follows {shape : CallShape} {post : Except DispatchError α → Prop}
    {body : Registration → Operation (Except DispatchError α)} (hn : id.isNull = false)
    (hf : s.registry.listed? id = some e) (hb : (body e).Makes (Upon e.object) post)
    (hw : ∀ err, post (.error (.handle err))) :
    (withTarget shape id body thread s).Follows (.within (Upon e.object) [] post) [] := by
  have gives : (Registry.giveBack id).Makes (Upon e.object) fun _ => True :=
    Makes.giveBack.mono fun _ h => h.upon
  cases hk : shape.accepts e.kind with
  | false =>
    rw [withTarget_wrongKind hn hf hk]
    exact (gives.bind fun _ _ => .pure (hw _)) _ _ _
  | true =>
    rw [withTarget_listed hn hf hk]
    exact (hb.bind fun r hr => gives.bind fun _ _ => .pure hr) _ _ _

end Dispatch

/-- A call uses the object that is listed as it begins.  Only an invoke handle
    takes one result only. -/
theorem DispatchRequest.follows {d : DispatchRequest} (hn : d.target.isNull = false)
    (hf : s.registry.listed? d.target = some e) :
    (d.operation thread s).Follows
      (.within (Upon e.object) [] fun r => e.kind ≠ .invoke → ¬ d.Rejected r) [] := by
  -- after the object was used, the outcome is counted, logged and reported
  have settled : ∀ {shape id} {r : Except DispatchError Unit}
      {post : Except DispatchError Unit → Prop}, post r →
      (Dispatch.settle shape id r).Makes (Upon e.object) post := by
    intro shape id r post hp
    apply (Dispatch.settle_makes.mono fun _ h => h.upon).imp
    intro r' h
    rwa [h]
  have unrejected : ∀ {r : Except DispatchError Unit}, Dispatch.NotRejected r →
      e.kind ≠ .invoke → ¬ ∃ id, r = .error (.alreadyDelivered id) :=
    fun hr _ ⟨id, h⟩ => hr id h
  have unheard : ∀ err, Dispatch.NotRejected (.error (.handle err) : Except DispatchError Unit) :=
    fun _ _ h => by cases h
  cases d with
  | protect id fd =>
    show Progress.Follows _ _ (Dispatch.protect id fd thread s)
    have known : id.isNull = false := hn
    rw [Dispatch.protect_eq known]
    have uses : Upon e.object (.host (.protect e.object fd)) := by
      rintro o ⟨⟩
      rfl
    exact Makes.after (Dispatch.withTarget_follows hn hf (Dispatch.attached_makes (.call uses))
      unheard) fun r hr => settled (unrejected hr)
  | notify id payload =>
    show Progress.Follows _ _ (Dispatch.notify id payload thread s)
    have known : id.isNull = false := hn
    rw [Dispatch.notify_eq known]
    have uses : Upon e.object (.host (.onResult e.object payload)) := by
      rintro o ⟨⟩
      rfl
    exact Makes.after (Dispatch.withTarget_follows hn hf (Dispatch.attached_makes (.call uses))
      unheard) fun r hr => settled (unrejected hr)
  | resolveOwner id query =>
    refine Makes.after (Dispatch.withTarget_follows hn hf
      (Dispatch.attached_makes Dispatch.askOwner_makes) fun _ _ h => by cases h) fun r _ => ?_
    rcases r with err | (_ | owner)
    · have drops : (Dispatch.reportDrop .query id err).Makes (Upon e.object) fun _ => True :=
        Dispatch.reportDrop_makes.mono fun _ h => h.upon
      exact .bind drops fun _ _ => .pure fun _ h => h
    · have logs : ∀ {c : Log.Category} {text : String},
          (Log.limitedError c text).Makes (Upon e.object) fun _ => True :=
        Makes.limitedError.mono fun _ h => h.upon
      exact .bind .bump fun _ _ => .bind logs fun _ _ => .pure fun _ h => h
    · exact .bind .bump fun _ _ => .pure fun _ h => h
  | deliverResult id data =>
    show Progress.Follows _ _ (Dispatch.deliverResult id data thread s)
    have known : id.isNull = false := hn
    rw [Dispatch.deliverResult_eq known]
    have uses : Upon e.object (.host (.onResult e.object data)) := by
      rintro o ⟨⟩
      rfl
    have body : (Dispatch.handOver (Dispatch.claimResult e) e.object data).Makes (Upon e.object)
        fun r => e.kind ≠ .invoke → Dispatch.NotRejected r := by
      refine .bind (Dispatch.claimResult_makes.mono fun _ h => h.upon) fun claimed hc => ?_
      cases claimed with
      | error err => exact .pure fun hk => absurd (hc hk) (by simp)
      | ok _ => exact (Dispatch.attached_makes (.call uses)).imp fun _ h _ => h
    exact Makes.after (Dispatch.withTarget_follows hn hf body fun err _ => unheard err)
      fun r hr => settled fun hk => unrejected (hr hk) hk

/-! ### The one result -/

/-- An attachment, and where the host accepts it the call `c`.  What else is
    called is upkeep. -/
def Plan.errand (c : Call) (post : Option AttachError → α → Prop) : Plan α where
  calls told call _ :=
    (told = [] → call = .host .attach) ∧
    ((call = c ∧ ∃ status s a, told = [⟨.host .attach, status, s⟩] ∧
      AttachState.ofStatus status = .ok a) ∨ Upkeep call)
  ends told a _ := ∃ more status s, told = more ++ [⟨.host .attach, status, s⟩] ∧
    match AttachState.ofStatus status with
    | .error e => post (some e) a ∧ ∀ x ∈ more, Upkeep x.call
    | .ok _ => post none a ∧ ∃ x ∈ more, x.call = c

/-- Upkeep may follow an errand. -/
theorem Progress.Follows.after_errand {β : Type} {c : Call} {p : Progress α}
    {f : α → Operation β} {post : Option AttachError → α → Prop}
    {post' : Option AttachError → β → Prop} {told : List Exchange}
    (hp : p.Follows (.errand c post) told)
    (hf : ∀ a, (f a).Makes Upkeep fun b => ∀ err, post err a → post' err b) :
    (p.bind fun a s => f a thread s).Follows (.errand c post') told := by
  refine Progress.Follows.bind (hp.mono (fun _ _ _ h => h) ?_)
  rintro _ a s ⟨more, status, s₀, rfl, hm⟩
  apply (hf a thread s _).mono
  · rintro _ call _ ⟨⟨later, rfl, -⟩, hc⟩
    exact ⟨fun h => by simp at h, .inr hc⟩
  · rintro _ b _ ⟨⟨later, rfl, hl⟩, hb⟩
    refine ⟨later ++ more, status, s₀, (List.append_assoc ..).symm, ?_⟩
    split at hm
    · exact ⟨hb _ hm.1, fun x hx => (List.mem_append.mp hx).elim (hl x) (hm.2 x)⟩
    · obtain ⟨x, hx, hc⟩ := hm.2
      exact ⟨hb _ hm.1, x, List.mem_append_right _ hx, hc⟩

/-- A request is an errand if the request to the dispatcher is one. -/
theorem Request.errand_of_dispatched? {q : Request} {d : DispatchRequest}
    (h : q.dispatched? = some d) {c : Call} {post : Option AttachError → d.Result → Prop}
    (hd : (d.operation thread s).Follows (.errand c post) []) :
    (q.operation thread s).Follows (.errand c fun err result => ∃ r, post err r ∧
      ∀ outcome, q.outcome? result = some outcome → d.outcome? r = some outcome) [] := by
  refine (follows_of_dispatched? h hd).mono (fun _ _ _ h => h) ?_
  rintro _ result _ ⟨r, ⟨more, status, s₀, rfl, hm⟩, hout⟩
  refine ⟨more, status, s₀, rfl, ?_⟩
  split
  · next ha =>
    rw [ha] at hm
    exact ⟨⟨r, hm.1, hout⟩, hm.2⟩
  · next ha =>
    rw [ha] at hm
    exact ⟨⟨r, hm.1, hout⟩, hm.2⟩

namespace Dispatch

/-- How an errand ends for the attachment. -/
def Attempted (err : Option AttachError) (r : Except AttachError α) : Prop :=
  match err with
  | some e => r = .error e
  | none => ∃ a, r = .ok a

/-- The body of a visit runs where the host has attached the thread, and only
    there. -/
theorem onHostThread_follows {policy : DetachPolicy} {body : Operation α}
    {plan : Plan (Except AttachError α)} (attach : plan.calls [] (.host .attach) s)
    (refused : ∀ status s₁ e, AttachState.ofStatus status = .error e →
      plan.ends [⟨.host .attach, status, s₁⟩] (.error e) s₁)
    (quiet : ∀ status s₁ call s₂, call.mayReenter = false →
      plan.calls [⟨.host .attach, status, s₁⟩] call s₂)
    (goesOn : ∀ status s₁ a, AttachState.ofStatus status = .ok a → ∀ g : AttachGuard,
      ((do
        let result ← body
        g.drop
        pure (.ok result) : Operation (Except AttachError α)) thread s₁).Follows plan
          [⟨.host .attach, status, s₁⟩]) :
    (onHostThread policy body thread s).Follows plan [] := by
  refine Progress.Follows.bind (AttachGuard.acquire_follows attach quiet ?_ ?_)
  · exact fun status s₁ e ha => refused status s₁ e ha
  · exact fun status s₁ a g ha _ => goesOn status s₁ a ha g

/-- An attachment and a call on the thread; what follows on it before the visit
    is over is upkeep. -/
theorem onHostThread_errand {policy : DetachPolicy} {c : Call} {f : c.Reply → Operation α}
    (hc : c.mayReenter = true) (hf : ∀ reply, (f reply).Makes Upkeep fun _ => True) :
    (onHostThread policy (Operation.call c >>= f) thread s).Follows (.errand c Attempted) [] := by
  apply onHostThread_follows
  case attach => exact ⟨fun _ => rfl, .inr rfl⟩
  case refused =>
    intro status s₁ e ha
    exact ⟨[], status, s₁, rfl, by rw [ha]; exact ⟨rfl, by simp⟩⟩
  case quiet => exact fun status s₁ call s₂ hq => ⟨fun h => by simp at h, .inr (.of_quiet hq)⟩
  case goesOn =>
    -- the call comes next, and after it only upkeep
    intro status s₁ a ha g
    refine ⟨⟨by simp, .inl ⟨rfl, status, s₁, a, rfl, ha⟩⟩, fun reply s₃ _ => ?_⟩
    have told' : Exchange.add c reply s₃ [⟨.host .attach, status, s₁⟩] =
        [⟨c, reply, s₃⟩, ⟨.host .attach, status, s₁⟩] := if_pos hc
    rw [told']
    have ends : (f reply >>= fun result => do
        g.drop
        pure (.ok result) : Operation (Except AttachError α)).Makes Upkeep
          fun r => ∃ a, r = .ok a :=
      .bind (hf reply) fun result _ => .bind .drop fun _ _ => .pure ⟨result, rfl⟩
    apply (ends thread s₃ _).mono
    · rintro _ call _ ⟨⟨later, rfl, -⟩, hu⟩
      exact ⟨fun h => by simp at h, .inr hu⟩
    · rintro _ r _ ⟨⟨later, rfl, -⟩, hr⟩
      refine ⟨later ++ [⟨c, reply, s₃⟩], status, s₁, by simp, ?_⟩
      rw [ha]
      exact ⟨hr, ⟨c, reply, s₃⟩, by simp, rfl⟩

/-- How an errand ends for the dispatcher. -/
def Tried (err : Option AttachError) (r : Except DispatchError α) : Prop :=
  match err with
  | some e => r = .error (.attach e)
  | none => ∃ a, r = .ok a

theorem attached_errand {c : Call} {f : c.Reply → Operation α} (hc : c.mayReenter = true)
    (hf : ∀ reply, (f reply).Makes Upkeep fun _ => True) :
    (attached (Operation.call c >>= f) thread s).Follows (.errand c Tried) [] := by
  apply (onHostThread_errand hc hf).after_errand
  intro result
  cases result with
  | ok a =>
    refine .pure fun err h => ?_
    cases err with
    | none => exact ⟨a, rfl⟩
    | some e => cases h
  | error e =>
    refine .bind .bump fun _ _ => .pure fun err h => ?_
    cases err with
    | none => cases h.choose_spec
    | some e' =>
      cases h
      rfl

/-- A call that gets through to its object is an errand. -/
theorem withTarget_errand {shape : CallShape} {c : Call}
    {body : Registration → Operation (Except DispatchError α)} (hn : id.isNull = false)
    (hf : s.registry.listed? id = some e) (hk : shape.accepts e.kind = true)
    (hb : (body e thread { s with registry := s.registry.lend id }).Follows (.errand c Tried) []) :
    (withTarget shape id body thread s).Follows (.errand c Tried) [] := by
  rw [withTarget_listed hn hf hk]
  exact hb.after_errand fun _ => .bind .giveBack fun _ _ => .pure fun _ h => h

/-- How the errand went is counted and logged, and goes on to the caller. -/
theorem settle_errand {shape : CallShape} {c : Call} {p : Progress (Except DispatchError Unit)}
    (hp : p.Follows (.errand c Tried) []) :
    (p.bind fun r s => settle shape id r thread s).Follows (.errand c Tried) [] := by
  refine hp.after_errand fun result => settle_makes.imp fun r h => ?_
  rw [h]
  exact fun _ h => h

/-- A result is handed over, where it is not a second one for an invoke handle. -/
theorem deliverResult_errand {data : CString} (hn : id.isNull = false) (hr : s.registry.Sound)
    (hf : s.registry.listed? id = some e) (hk : CallShape.result.accepts e.kind = true)
    (hd : e.kind = .invoke → e.delivered = false) :
    (deliverResult id data thread s).Follows
      (.errand (.host (.onResult e.object data)) Tried) [] := by
  have hands : ∀ s₁, (attached (Operation.call (.host (.onResult e.object data))) thread
      s₁).Follows (.errand (.host (.onResult e.object data)) Tried) [] :=
    fun s₁ => attached_errand (f := pure) rfl fun _ => .pure trivial
  have claimed : (handOver (claimResult e) e.object data thread
      { s with registry := s.registry.lend id }).Follows
      (.errand (.host (.onResult e.object data)) Tried) [] := by
    by_cases hi : e.kind = .invoke
    · rw [handOver, Operation.bind_apply, claimResult_invoke hr hf hi, hd hi]
      exact hands _
    · -- other kinds take any number
      have free : claimResult e = pure (.ok ()) := if_neg hi
      rw [free]
      exact hands _
  rw [deliverResult_eq hn]
  exact settle_errand (withTarget_errand hn hf hk claimed)

/-- The first result for an invoke handle claims it, and is then tried. -/
theorem deliverResult_claims {data : CString} (hn : id.isNull = false) (hr : s.registry.Sound)
    (hf : s.registry.listed? id = some e) (hk : e.kind = .invoke) (hd : e.delivered = false) :
    (deliverResult id data thread s).Follows
      (.errand (.host (.onResult e.object data)) Tried) [] :=
  deliverResult_errand hn hr hf (by rw [hk]; rfl) fun _ => hd

/-- What holds when a second result has been rejected. -/
def RejectedIn (s : State) (id : HandleId) (r : Except DispatchError Unit) (s' : State) : Prop :=
  r = .error (.alreadyDelivered id) ∧
    s'.registry = (s.registry.markDelivered id).lend id ∧
    s'.counters = s.counters.bump .resultsRejected

theorem claimResult_rejects (hr : s.registry.Sound) (hf : s.registry.listed? id = some e)
    (hk : e.kind = .invoke) (hd : e.delivered = true) :
    (claimResult e).Quiet thread { s with registry := s.registry.lend id } (RejectedIn s id) := by
  refine .congr (claimResult_invoke hr hf hk) ?_
  rw [hd]
  refine .bind .bump fun _ s₁ h₁ => ?_
  subst h₁
  refine .bind .limitedError fun _ s₂ h₂ => ?_
  obtain ⟨limiter, rfl⟩ := h₂
  exact .of_eq rfl ⟨rfl, rfl, rfl⟩

/-- A second result for an invoke handle is quiet: it is counted and
    rejected. -/
theorem deliverResult_rejects {data : CString} (hn : id.isNull = false) (hr : s.registry.Sound)
    (hf : s.registry.listed? id = some e) (hk : e.kind = .invoke) (hd : e.delivered = true) :
    (deliverResult id data).Quiet thread s fun r s' =>
      r = .error (.alreadyDelivered id) ∧
      s'.counters.get .resultsRejected = s.counters.get .resultsRejected + 1 := by
  have sound : ((s.registry.markDelivered id).lend id).Sound := hr.markDelivered.lend
  have listed : ((s.registry.markDelivered id).lend id).contains id = true := by
    rw [Registry.contains_lend, Registry.contains_markDelivered, Registry.contains, hf,
      Option.isSome_some]
  have target : (withTarget .result id fun target =>
      handOver (claimResult target) target.object data).Quiet thread s
      fun r s' => r = .error (.alreadyDelivered id) ∧
        s'.counters = s.counters.bump .resultsRejected := by
    refine .congr (withTarget_listed hn hf (by rw [hk]; rfl)) ?_
    have rejected : (handOver (claimResult e) e.object data).Quiet thread
        { s with registry := s.registry.lend id } (RejectedIn s id) := by
      refine .bind (claimResult_rejects hr hf hk hd) fun r s₁ h => ?_
      obtain ⟨rfl, h⟩ := h
      exact .of_eq rfl ⟨rfl, h⟩
    apply rejected.bind
    intro r s₁ h
    -- the handle stays listed, so the loan is given back without a call
    obtain ⟨hrej, hreg, hc⟩ := h
    refine .bind (.giveBack (hreg ▸ sound) (hreg ▸ listed)) fun _ s₂ h₂ => ?_
    exact .of_eq rfl ⟨hrej, h₂.trans hc⟩
  rw [deliverResult_eq hn]
  apply target.bind
  intro r s₁ h
  obtain ⟨rfl, hc⟩ := h
  apply settle_error.mono
  intro r s₂ h
  obtain ⟨rfl, limiter, rfl⟩ := h
  refine ⟨rfl, ?_⟩
  -- the drop is counted as well, by another counter
  rw [Counters.get_bump_ne _ _ _ (by simp), hc, Counters.get_bump_self]

end Dispatch

end CallbackBridge
