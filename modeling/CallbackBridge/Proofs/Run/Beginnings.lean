import CallbackBridge.Dispatch
import CallbackBridge.Proofs.Registry.Sound

/-! # How operations begin

    Up to its first call an operation is alone with the registry.  What it
    does there is computed here, for each way in which its id may be known. -/

namespace CallbackBridge

variable {α : Type} {id : HandleId} {e : Registration} {thread : Thread} {s : State}

namespace Registry

theorem look_null (h : id.isNull = true) : look id thread s = .finished (.error .null) s := by
  simp [look, h]

theorem look_released (h : id.isNull = false) (hf : s.registry.listed? id = none) :
    look id thread s =
      .finished (.error (.released id))
        { s with counters := s.counters.bump .staleLookups } := by
  simp [look, h, hf, bump, Progress.bind]

theorem look_listed (h : id.isNull = false) (hf : s.registry.listed? id = some e) :
    look id thread s = .finished (.ok e) { s with registry := s.registry.lend id } := by
  simp [look, h, hf, Progress.bind]

theorem take_released (hf : s.registry.listed? id = none) :
    take id thread s = .finished false s := by
  simp [take, hf, Progress.bind]

theorem take_listed (hf : s.registry.listed? id = some e) :
    take id thread s =
      (do
        bump .handlesReleased
        Log.breadcrumb .handle s!"released {e.kind.name} handle {id.text}"
        giveBack id
        pure true : Operation Bool) thread { s with registry := s.registry.delist id } := by
  simp only [take, Operation.bind_apply, Operation.modifyGet_apply, hf, Progress.bind]

/-- A loan of a listed registration is given back without a call. -/
theorem giveBack_listed (hr : s.registry.Sound) (he : e ∈ s.registry.entries)
    (hl : e.listed = true) :
    giveBack e.id thread s = .finished ()
      { s with registry := s.registry.update e.id fun e => { e with loans := e.loans - 1 } } := by
  simp [giveBack, returnLoan, hr.distinct.find?_eq he, hl, Progress.bind]

/-- With the last reference the object is unpinned. -/
theorem giveBack_last (hr : s.registry.Sound) (he : e ∈ s.registry.entries)
    (hl : e.listed = false) (hu : e.loans = 1) :
    giveBack e.id thread s = unpin e.object thread
      { s with registry := { s.registry with
        entries := s.registry.entries.filter (·.id ≠ e.id) } } := by
  simp [giveBack, returnLoan, hr.distinct.find?_eq he, hl, hu, Progress.bind]

end Registry

namespace Dispatch

variable {shape : CallShape} {body : Registration → Operation (Except DispatchError α)}

theorem withTarget_null (h : id.isNull = true) :
    withTarget shape id body thread s = .finished (.error (.handle .null)) s := by
  simp [withTarget, Registry.look_null h, Progress.bind]

theorem withTarget_released (h : id.isNull = false) (hf : s.registry.listed? id = none) :
    withTarget shape id body thread s =
      .finished (.error (.handle (.released id)))
        { s with counters := s.counters.bump .staleLookups } := by
  simp [withTarget, Registry.look_released h hf, Progress.bind]

theorem withTarget_wrongKind (h : id.isNull = false) (hf : s.registry.listed? id = some e)
    (hk : shape.accepts e.kind = false) :
    withTarget shape id body thread s =
      (do
        Registry.giveBack id
        pure (.error (.handle (.wrongKind id e.kind))) : Operation (Except DispatchError α))
        thread { s with registry := s.registry.lend id } := by
  simp [withTarget, Registry.look_listed h hf, Progress.bind, hk]

theorem withTarget_listed (h : id.isNull = false) (hf : s.registry.listed? id = some e)
    (hk : shape.accepts e.kind = true) :
    withTarget shape id body thread s =
      (do
        let result ← body e
        Registry.giveBack id
        pure result) thread { s with registry := s.registry.lend id } := by
  simp [withTarget, Registry.look_listed h hf, Progress.bind, hk]

/-! ### Known ids -/

theorem protect_eq (h : id.isNull = false) {fd : Int32} :
    protect id fd = withTarget .protect id (fun target =>
      attached (Operation.call (.host (.protect target.object fd)))) >>= settle .protect id :=
  if_neg (by simp [h])

theorem notify_eq (h : id.isNull = false) {payload : CString} :
    notify id payload = withTarget .event id (fun target =>
      attached (Operation.call (.host (.onResult target.object payload)))) >>= settle .event id :=
  if_neg (by simp [h])

/-- Hands `data` to `o`, where the claim of the result succeeds. -/
def handOver (claim : Operation (Except DispatchError Unit)) (o : HostObject) (data : CString) :
    Operation (Except DispatchError Unit) := do
  match ← claim with
  | .error e => pure (.error e)
  | .ok () => attached (Operation.call (.host (.onResult o data)))

theorem deliverResult_eq (h : id.isNull = false) {data : CString} :
    deliverResult id data = withTarget .result id (fun target =>
      handOver (claimResult target) target.object data) >>= settle .result id :=
  if_neg (by simp [h])

/-! ### Claims -/

/-- How the claim of a result goes, given whether it was claimed before. -/
def answerClaim (id : HandleId) (delivered : Bool) : Operation (Except DispatchError Unit) :=
  if delivered then do
    bump .resultsRejected
    let _ ← Log.limitedError .duplicateResult s!"dropping second result for handle {id.text}"
    pure (.error (.alreadyDelivered id))
  else
    pure (.ok ())

/-- The claim of the one result of a listed id, in a state in which it is
    looked up. -/
theorem claimResult_invoke (hr : s.registry.Sound) (hf : s.registry.listed? id = some e)
    (hk : e.kind = .invoke) :
    claimResult e thread { s with registry := s.registry.lend id } =
      answerClaim id e.delivered thread
        { s with registry := (s.registry.markDelivered id).lend id } := by
  obtain ⟨he, rfl, -⟩ := Registry.mem_of_listed? hf
  have hfind : (s.registry.lend e.id).find? e.id = some { e with loans := e.loans + 1 } := by
    have hm : { e with loans := e.loans + 1 } ∈ (s.registry.lend e.id).entries :=
      Registry.mem_update.mpr ⟨e, he, by simp⟩
    exact hr.lend.distinct.find?_eq hm
  have hcomm : (s.registry.lend e.id).markDelivered e.id =
      (s.registry.markDelivered e.id).lend e.id :=
    Registry.update_comm (fun _ => rfl) (fun _ => rfl) fun _ => rfl
  cases hdel : e.delivered with
  | true =>
    simp only [claimResult, hk, if_true, Registry.claim, Operation.bind_apply,
      Operation.modifyGet_apply, hfind, hdel, hcomm, Progress.bind]
    rfl
  | false =>
    simp only [claimResult, hk, if_true, Registry.claim, Operation.bind_apply,
      Operation.modifyGet_apply, hfind, hdel, hcomm, Progress.bind]
    rfl

end Dispatch

end CallbackBridge
