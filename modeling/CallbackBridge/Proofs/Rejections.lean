import CallbackBridge.Proofs.OneShot
import CallbackBridge.Proofs.Run.Spending

/-! # Rejected results

    A delivery that is told that the result was delivered already came after
    another one that found the handle.  That earlier one claimed the result as
    it began.

    Key ideas:

    1. Only a delivery through an invoke handle is rejected, and only once the
       result is claimed.
    2. The claim is made before the thread is attached.  Where the host refuses
       to attach it, the result is used up and nobody has heard it. -/

namespace CallbackBridge

namespace DispatchRequest

theorem rejected_of_outcome? {d : DispatchRequest} {result : d.Result} {id : HandleId}
    (hr : d.outcome? result = some (.error (.alreadyDelivered id))) :
    d.Rejected result := by
  cases d with
  | resolveOwner => cases hr
  | _ => exact ⟨id, Option.some.inj hr⟩

theorem not_rejected_ignored (d : DispatchRequest) : ¬ d.Rejected d.ignored := by
  cases d with
  | resolveOwner => exact fun h => h
  | _ =>
    rintro ⟨id, h⟩
    cases h

end DispatchRequest

namespace Run

open History

variable {s : State} {c : Situation} {id : HandleId}

/-! ### Claimants -/

/-- Operation `op` claimed the result of `id`: it was the first delivery that
    found the handle. -/
def History.Claimant (h : History) (id : HandleId) (op : Nat) (q : Request) : Prop :=
  ∃ later thread s before, h = later ++ ⟨.begins op thread q, s⟩ :: before ∧
    Moment.Delivers ⟨.begins op thread q, s⟩ id ∧ ∀ m ∈ before, ¬ m.Delivers id

namespace History

/-- Where there is a moment of a sort, there is an earliest one. -/
theorem exists_first {p : Moment → Prop} {h : History} (hp : ∃ m ∈ h, p m) :
    ∃ later m before, h = later ++ m :: before ∧ p m ∧ ∀ x ∈ before, ¬ p x := by
  induction h with
  | nil => simp at hp
  | cons m before ih =>
    by_cases older : ∃ x ∈ before, p x
    · obtain ⟨later, m', before', rfl, hm', hf⟩ := ih older
      exact ⟨m :: later, m', before', rfl, hm', hf⟩
    · obtain ⟨x, hx, hpx⟩ := hp
      rcases List.mem_cons.mp hx with rfl | hx
      · exact ⟨[], x, before, rfl, hpx, fun y hy hpy => older ⟨y, hy, hpy⟩⟩
      · exact absurd ⟨x, hx, hpx⟩ older

/-- If a delivery has found the handle, one was the first. -/
theorem exists_claimant {h : History} (hd : ∃ m ∈ h, m.Delivers id) :
    ∃ op q, h.Claimant id op q := by
  obtain ⟨later, ⟨e, s⟩, before, heq, hdel, hf⟩ := exists_first hd
  obtain ⟨op, thread, q, hev, -⟩ := (show Moment.Delivers ⟨e, s⟩ id from hdel)
  subst hev
  exact ⟨op, q, later, thread, s, before, heq, hdel, hf⟩

end History

/-! ### Rejections -/

namespace CoreRun

/-- The first delivery is tried, so it is not rejected. -/
theorem not_rejected_of_unclaimed (run : CoreRun s c) {op : Nat} {thread : Thread}
    {data : CString} {result : Except DispatchError Unit} {s₀ s' : State} {e : Registration}
    (he : ⟨.ends op thread (.dispatch (.deliverResult id data)) result, s'⟩ ∈ c.history)
    (hb : ⟨.begins op thread (.dispatch (.deliverResult id data)), s₀⟩ ∈ c.history)
    (hn : id.isNull = false) (hf : s₀.registry.listed? id = some e) (hk : e.kind = .invoke)
    (hd : e.delivered = false) (id' : HandleId) : result ≠ .error (.alreadyDelivered id') := by
  have claims : (Request.operation (.dispatch (.deliverResult id data)) thread s₀).Follows
      (.errand (.host (.onResult e.object data)) Dispatch.Tried) [] :=
    Dispatch.deliverResult_claims hn (sound_of_mem run.settled hb) hf hk hd
  -- how it ends depends on how the host has answered the request to attach
  obtain ⟨status, s₁, -, ended⟩ := errand_ends run.reaches.accounted hb claims he
  rintro rfl
  cases hs : AttachState.ofStatus status with
  | ok a =>
    rw [hs] at ended
    obtain ⟨u, hu⟩ := ended.1
    cases hu
  | error err =>
    rw [hs] at ended
    cases ended.1

/-- A delivery is rejected only through an invoke handle that is listed, and
    only where its result is claimed. -/
theorem rejected (run : CoreRun s c) {op : Nat} {thread : Thread} {d : DispatchRequest}
    {result : d.Result} {s' : State} (he : ⟨.ends op thread (.dispatch d) result, s'⟩ ∈ c.history)
    (hr : d.outcome? result = some (.error (.alreadyDelivered id))) :
    ∃ s₀ e, ⟨.begins op thread (.dispatch d), s₀⟩ ∈ c.history ∧
      Request.delivered? (.dispatch d) = some id ∧ s₀.registry.listed? id = some e ∧
      e.kind = .invoke ∧ e.delivered = true := by
  obtain ⟨s₀, hb, hresult⟩ := run.exists_begins he
  have sound : s₀.registry.Sound := sound_of_mem run.settled hb
  have rejected : d.Rejected result := DispatchRequest.rejected_of_outcome? hr
  cases hn : d.target.isNull with
  | true =>
    have ignored : d.operation.Quiet thread s₀ fun r _ => r = d.ignored :=
      DispatchRequest.ignores hn
    rw [hresult _ _ (ignored.follows fun _ h => h)] at rejected
    exact absurd rejected d.not_rejected_ignored
  | false =>
    -- a call that is refused fails for the handle, and not for its result
    have admitted : ∀ err, Dispatch.refusal? s₀.registry d.shape d.target ≠ some err := by
      intro err refusal
      have refused : d.operation.Quiet thread s₀ fun r _ => r = d.failure (.handle err) :=
        DispatchRequest.refused hn sound refusal
      rw [hresult _ _ (refused.follows fun _ h => h)] at rejected
      exact d.not_rejected_failure rejected
    cases hf : s₀.registry.listed? d.target with
    | none => exact absurd (by rw [Dispatch.refusal?, hf]) (admitted (.released d.target))
    | some e =>
      have hk : e.kind = .invoke := by
        by_contra hk
        exact hresult _ _ (DispatchRequest.follows hn hf) hk rejected
      have hs : d.shape = .result := by
        by_contra hs
        exact admitted _ (Dispatch.refusal?_invoke hf hk hs)
      cases d with
      | deliverResult id' data =>
        -- an unclaimed result would have been tried
        have hd : e.delivered = true := by
          rw [← Bool.not_eq_false]
          intro unclaimed
          exact run.not_rejected_of_unclaimed he hb hn hf hk unclaimed id (Option.some.inj hr)
        have turned : (Dispatch.deliverResult id' data).Quiet thread s₀
            fun r _ => r = .error (.alreadyDelivered id') :=
          (Dispatch.deliverResult_rejects hn sound hf hk hd).mono fun _ _ h => h.1
        rw [hresult _ _ (turned.follows fun _ h => h)] at hr
        cases hr
        exact ⟨s₀, e, hb, Request.delivered?_of_dispatched? rfl hn, hf, hk, hd⟩
      | _ => cases hs

end CoreRun

/-- A delivery that was rejected came after the one that claimed the result,
    which has called the object if and only if its thread was attached. -/
theorem rejected_after_claim (run : CoreRun s c) {op : Nat} {thread : Thread}
    {d : DispatchRequest} {result : d.Result} {s' : State}
    (he : ⟨.ends op thread (.dispatch d) result, s'⟩ ∈ c.history)
    (hr : d.outcome? result = some (.error (.alreadyDelivered id))) :
    ∃ o op₀ q₀, c.history.Registered id .invoke o ∧ op₀ < op ∧
      c.history.Claimant id op₀ q₀ ∧ Delivery op₀ q₀ o c.history := by
  obtain ⟨s₀, e, hb, hq, hf, hk, hd⟩ := run.rejected he hr
  obtain ⟨hm, hid, -⟩ := Registry.mem_of_listed? hf
  have hreg : c.history.Registered id .invoke e.object := ⟨_, hb, e, hm, hid, hk, rfl⟩
  have hc : s₀.registry.contains id = true := by
    rw [Registry.contains, hf, Option.isSome_some]
  obtain ⟨later, before, heq⟩ := List.append_of_mem hb
  obtain ⟨e', hf', -, -, -, claimed⟩ := run.delivery hreg heq hc
  cases hf.symm.trans hf'
  -- the registration was claimed, by the first delivery among the earlier ones
  obtain ⟨op₀, q₀, later₀, thread₀, s₁, before₀, rfl, hdel, hfirst⟩ :=
    exists_claimant (claimed.mp hd)
  have split : c.history = (later ++ ⟨.begins op thread (.dispatch d), s₀⟩ :: later₀) ++
      ⟨.begins op₀ thread₀ q₀, s₁⟩ :: before₀ := by
    rw [heq, List.append_assoc, List.cons_append]
  obtain ⟨hq₀, hc₀⟩ := Moment.delivers_begins hdel
  have accounted := run.reaches.accounted
  have numbered : op = History.begun _ := (heq ▸ accounted).split
  refine ⟨e.object, op₀, q₀, hreg, ?_, ⟨_, thread₀, s₁, before₀, split, hdel, hfirst⟩,
    run.first_delivers hreg split hq₀ hc₀ hfirst⟩
  rw [numbered]
  exact op_lt_of_begins (accounted.of_suffix (suffix_of_split heq))
    (List.mem_append_right later₀ (List.mem_cons_self ..))

set_option maxRecDepth 4096 in
/-- A result that was not heard, as the host refused to attach the thread, and
    a second attempt. -/
def attemptedAgain : Situation :=
  ((Situation.initial (.initial 0)).play?
    [.start ⟨"host"⟩ (.registry (.register Sample.object .invoke)),
     .reply (.host .attach) (0 : Int32),
     .reply (.host (.pin Sample.object)) (some Sample.reference),
     .start ⟨"engine"⟩ (.dispatch (.deliverResult ⟨1⟩ .empty)),
     .reply (.host .attach) (7 : Int32),
     .reply (.system .clock) (0 : UInt64),
     .start ⟨"engine"⟩ (.dispatch (.deliverResult ⟨1⟩ .empty)),
     .reply (.system .clock) (0 : UInt64),
     .reply (.system .clock) (0 : UInt64)]).get rfl

set_option maxRecDepth 4096 in
theorem coreRun_attemptedAgain : CoreRun (.initial 0) attemptedAgain :=
  ⟨rfl, Situation.reaches_get_play? _, by decide, by decide⟩

set_option maxRecDepth 4096 in
theorem ends_attemptedAgain : ∃ s', ⟨.ends 2 ⟨"engine"⟩ (.dispatch (.deliverResult ⟨1⟩ .empty))
    (.error (.alreadyDelivered ⟨1⟩) : Except DispatchError Unit), s'⟩ ∈ attemptedAgain.history :=
  ⟨_, List.mem_of_mem_head? rfl⟩

theorem rejected_after_claim_attemptedAgain :
    CoreRun (.initial 0) attemptedAgain ∧ ∃ o op₀ q₀,
      attemptedAgain.history.Registered ⟨1⟩ .invoke o ∧ op₀ < 2 ∧
      attemptedAgain.history.Claimant ⟨1⟩ op₀ q₀ ∧ Delivery op₀ q₀ o attemptedAgain.history := by
  obtain ⟨s', he⟩ := ends_attemptedAgain
  exact ⟨coreRun_attemptedAgain, rejected_after_claim coreRun_attemptedAgain he rfl⟩

set_option maxRecDepth 4096 in
/-- A rejection tells its caller that the object has heard a result.  That is
    not so where the claimant was refused an attachment. -/
theorem rejected_unheard : ¬ ∀ (s : State) (c : Situation) (id : HandleId) (op : Nat)
    (thread : Thread) (d : DispatchRequest) (result : d.Result) (s' : State), CoreRun s c →
    ⟨.ends op thread (.dispatch d) result, s'⟩ ∈ c.history →
    d.outcome? result = some (.error (.alreadyDelivered id)) →
    ∃ op' o data, c.history.Calls op' (.host (.onResult o data)) ∧ c.history.Through op' id := by
  intro heard
  obtain ⟨s', he⟩ := ends_attemptedAgain
  obtain ⟨op', o, data, ⟨thread, s'', hm⟩, -⟩ :=
    heard _ _ ⟨1⟩ 2 _ _ _ _ coreRun_attemptedAgain he rfl
  have called : attemptedAgain.history.any (·.event.isUse) = true :=
    List.any_eq_true.mpr ⟨_, hm, rfl⟩
  exact absurd called (by decide)

end Run

end CallbackBridge
