import CallbackBridge.Proofs.Reports.Balance

/-! # How operations report

    This goes on from `Proofs.Reports.Balance` with one lemma for each function
    of the registry and of the dispatcher.

    Key ideas:

    1. What is counted and reported at once leaves the gap as it is.
    2. A refusal that keeps an object from being pinned is counted and not
       reported.  One that keeps a call from its object is reported when the
       call is settled, and so is a second result.
    3. Where the host was asked to attach the thread, it shows in its answers so
       far whether it has refused.  They only grow, so this stays known. -/

namespace CallbackBridge

open Run Run.History

namespace Dispatch

variable {α : Type}

/-- The host has refused to attach the thread for a call. -/
def refused : Except DispatchError α → Bool
  | .error (.attach _) => true
  | .ok _ | .error (.handle _) | .error (.alreadyDelivered _) => false

/-- What a call owes until it is settled, if it ends so; `w` is about those that
    have reached their object. -/
def owing (w : α → Log.Category → UInt64) : Except DispatchError α → Log.Category → UInt64
  | .ok a => w a
  | .error (.handle _) => 0
  | .error (.attach _) => Pi.single .attachFailure 1
  | .error (.alreadyDelivered _) => Pi.single .duplicateResult 1 - Pi.single .staleHandle 1

/-- A call that is dropped is reported as what went wrong, and it is owed as what
    was dropped. -/
theorem owing_dropped (w : α → Log.Category → UInt64) (err : DispatchError) :
    owing w (.error err) + Pi.single .staleHandle 1 - Pi.single err.category 1 =
      once .staleHandle (refused (.error err : Except DispatchError α)) := by
  cases err with
  | handle err => simp [owing, refused, DispatchError.category]
  | attach err => simp [owing, refused, DispatchError.category]
  | alreadyDelivered id => simp [owing, refused, DispatchError.category]

end Dispatch

namespace Run

/-- `R` stays so, whatever the host answers next. -/
def Lasting (R : List Int32 → Prop) : Prop :=
  ∀ l x, R l → R (l ++ [x])

/-- After its answers `L` the host was asked once more, and has refused if `b`. -/
def Asked (L : List Int32) (b : Bool) (l : List Int32) : Prop :=
  ∃ status, l = L ++ [status] ∧ Call.refused (.host .attach) status = b

/-- Since then it may have been asked again. -/
def Tries (L : List Int32) (b : Bool) (l : List Int32) : Prop :=
  ∃ l' more, Asked L b l' ∧ l = l' ++ more

/-- The host may not have been asked at all, and then it has not refused. -/
def Answers (L : List Int32) (b : Bool) (l : List Int32) : Prop :=
  Tries L b l ∨ b = false ∧ l = L

theorem lasting_tries (L : List Int32) (b : Bool) : Lasting (Tries L b) := by
  intro l x h
  obtain ⟨l', more, asked, rfl⟩ := h
  exact ⟨l', more ++ [x], asked, by simp⟩

theorem Asked.tries {L l : List Int32} {b : Bool} (h : Asked L b l) : Tries L b l :=
  ⟨l, [], h, by simp⟩

/-- What the host has answered after `L`. -/
theorem Answers.refused {L l : List Int32} {b : Bool} (h : Answers L b l) :
    l[L.length]?.any (Call.refused (.host .attach)) = b := by
  rcases h with ⟨l', more, ⟨status, rfl, refused⟩, rfl⟩ | ⟨rfl, rfl⟩
  · simpa using refused
  · simp

/-- `m` leaves the gap as it is. -/
abbrev Even (e : Engine) (g : Log.Category → UInt64) (R : List Int32 → Prop) {α : Type}
    (m : Operation α) : Prop :=
  (reporting e).Carries (fun op _ s h => Owes e g R op s h) m

variable {e : Engine} {g : Log.Category → UInt64} {R : List Int32 → Prop} {L : List Int32}
  {op : Nat} {thread : Thread} {s : State} {h : History} {α : Type} {id : HandleId}
  {o : HostObject} {k : HandleKind}

/-- Foreign code is called, and it is not asked to attach the thread. -/
theorem Owes.consult {c : Call} (ho : Owes e g R op s h) (hl : ∀ line, c ≠ .log line)
    (hc : c ≠ .system .clock) (hs : ∀ r, c.status? r = none) :
    Nests (reporting e) op thread (fun r s' h' =>
      Owes e (g + once .queryFailure (c.blank r)) R op s' h') (Operation.call c thread s) h := by
  refine (ho.call hl hc).mono fun r s' h' hx => hx.1.mono fun l hl => ?_
  obtain ⟨l', hR, rfl⟩ := hl
  rwa [hs, Option.toList_none, List.append_nil]

namespace Even

theorem change {f : State → α × State} (hf : Unaware f) (hs : ∀ s, Steady s (f s).2) :
    Even e g R (Operation.modifyGet f) := by
  intro op thread s h ho
  have same := hf.setup_eq s
  exact ho.change (hs s) (congrArg Setup.logger same) (congrArg Setup.limiter same)

theorem emit {level : Log.Level} {b : Log.Breadcrumbs} {message : String} (hl : level ≠ .error) :
    Even e g R (Log.emit level b message) :=
  fun _ _ _ _ ho => (ho.emit hl).mono fun _ _ _ hx => hx.2

theorem breadcrumb {area : Log.Area} {message : String} :
    Even e g R (Log.breadcrumb area message) :=
  fun _ _ _ _ ho => ho.breadcrumb.mono fun _ _ _ hx => hx.2

/-- Foreign code is called, and neither asked to attach the thread nor for an
    owner. -/
theorem call {c : Call} (hl : ∀ line, c ≠ .log line) (hc : c ≠ .system .clock)
    (hb : ∀ r, c.blank r = false) (hs : ∀ r, c.status? r = none) :
    Even e g R (Operation.call c) := by
  intro op thread s h ho
  refine (ho.consult hl hc hs).mono fun r s' h' hx => ?_
  rwa [hb, once_false, add_zero] at hx

/-- What leaves the gap as it is owes nothing. -/
theorem owes {m : Operation α} (hm : Even e g R m) (ho : Owes e g R op s h) :
    Nests (reporting e) op thread (fun _ s' h' => Owes e (g + 0) R op s' h') (m thread s) h := by
  rw [add_zero]
  exact hm op thread s h ho

/-- A host object is called that is not asked anything. -/
theorem use {c : HostCall} (hb : ∀ r, Call.blank (.host c) r = false)
    (hs : ∀ r, Call.status? (.host c) r = none) : Even e g R (Operation.call (.host c)) :=
  call nofun nofun hb hs

theorem drop {guard : AttachGuard} : Even e g R guard.drop := by
  unfold AttachGuard.drop
  split
  · exact .bind (use (c := .detach) (fun _ => rfl) fun _ => rfl) fun _ =>
      .bind .readThread fun _ => breadcrumb
  · exact .pure ()

end Even

namespace Owes

theorem unowed {c : Log.Category} (ho : Owes e g R op s h) :
    Owes e (g + once c false) R op s h := by
  rwa [once_false, add_zero]

/-! ### Visits -/

/-- The host is asked to attach the thread. -/
theorem acquire (policy : DetachPolicy) (ho : Owes e g (· = L) op s h) :
    Nests (reporting e) op thread (fun r s' h' => Owes e g (Asked L (!r.isOk)) op s' h')
      (AttachGuard.acquire policy thread s) h := by
  refine Nests.bind ((ho.call (c := .host .attach) nofun nofun).mono fun status s' h' hx => ?_)
  have asked : Owes e g (Asked L (Call.refused (.host .attach) status)) op s' h' := by
    have hx := hx.1
    simp only [Call.blank, once_false, add_zero] at hx
    refine hx.mono fun l hl => ?_
    obtain ⟨l', rfl, rfl⟩ := hl
    exact ⟨status, rfl, rfl⟩
  cases ha : AttachState.ofStatus status with
  | error err =>
    simp only [ha]
    rw [Call.refused, ha] at asked
    exact asked
  | ok a =>
    simp only [ha]
    rw [Call.refused, ha] at asked
    cases a with
    | attached => exact asked
    | newlyAttached =>
      -- that the thread is new is logged
      refine Nests.bind (p := Log.breadcrumb _ _ thread s') ?_
      exact asked.breadcrumb.mono fun _ _ _ hx => hx.2

/-- What is done on a visit is done once the thread is attached. -/
theorem onHostThread {w : α → Log.Category → UInt64} {body : Operation α} (policy : DetachPolicy)
    (ho : Owes e g (· = L) op s h)
    (hb : ∀ s h, Owes e g (Asked L false) op s h → Nests (reporting e) op thread
      (fun a s' h' => Owes e (g + w a) (Asked L false) op s' h') (body thread s) h) :
    Nests (reporting e) op thread (fun r s' h' => match r with
      | .ok a => Owes e (g + w a) (Asked L false) op s' h'
      | .error _ => Owes e g (Asked L true) op s' h') (onHostThread policy body thread s) h := by
  refine Nests.bind ((ho.acquire policy).mono fun r s₁ h₁ hx => ?_)
  cases r with
  | error err => exact hx
  | ok guard =>
    refine Nests.bind ((hb s₁ h₁ hx).mono fun a s₂ h₂ hy => ?_)
    exact Nests.bind ((Even.drop op thread s₂ h₂ hy).mono fun _ _ _ hz => hz)

/-! ### The registry -/

/-- An object is unpinned, or it is reported that it could not be. -/
theorem unpin (ho : Owes e g (· = L) op s h) :
    Nests (reporting e) op thread (fun _ s' h' => ∃ b, Owes e g (Asked L b) op s' h')
      (Registry.unpin o thread s) h := by
  simp only [Registry.unpin, Operation.bind_apply, Operation.state_apply, Progress.bind]
  have body : Even e g (Asked L false) (Operation.call (.host (.unpin o))) :=
    .use (fun _ => rfl) fun _ => rfl
  refine Nests.bind ((ho.onHostThread s.registry.policy fun _ _ => body.owes).mono ?_)
  intro r s₁ h₁ hx
  cases r with
  | ok _ =>
    rw [add_zero] at hx
    exact ⟨false, hx⟩
  | error err =>
    have counted : Owes e (g + Pi.single .attachFailure 1) (Asked L true) op _ h₁ :=
      hx.bump .attachFailures
    refine Nests.bind (p := Log.limitedError _ _ thread _) ?_
    refine (counted.limitedError (.leak o err)).mono fun _ s₂ h₂ hy => ⟨true, ?_⟩
    have settled : g + Pi.single .attachFailure 1 - Pi.single .attachFailure 1 = g :=
      add_sub_cancel_right _ _
    rw [← settled]
    exact hy.2

end Owes

namespace Even

theorem unpin (hR : Lasting R) : Even e g R (Registry.unpin o) := by
  intro op thread s h ho
  have here : Owes e g (· = h.statuses op) op s h := { ho with answers := rfl }
  refine here.unpin.mono fun _ s' h' hx => ?_
  obtain ⟨b, hx⟩ := hx
  refine hx.mono fun l hl => ?_
  obtain ⟨status, rfl, -⟩ := hl
  exact hR _ _ ho.answers

theorem giveBack (hR : Lasting R) : Even e g R (Registry.giveBack id) := by
  refine .bind (change (.returnLoan id) fun s => .mild (.giveBack id) rfl) fun last => ?_
  cases last with
  | none => exact .pure ()
  | some o => exact unpin hR

theorem unpinAll (hR : Lasting R) (objects : List HostObject) :
    Even e g R (Registry.unpinAll objects) := by
  induction objects with
  | nil => exact .pure ()
  | cons o rest ih => exact .bind (unpin hR) fun _ => ih

theorem close (hR : Lasting R) : Even e g R Registry.close :=
  .bind (change .clearing fun _ => .clearing) fun free => unpinAll hR free

theorem take (hR : Lasting R) : Even e g R (Registry.take id) := by
  rw [Registry.take_eq]
  refine .bind (change (.striking id) fun _ => .striking id) fun found => ?_
  cases found with
  | none => exact .pure false
  | some e => exact .bind breadcrumb fun _ => .bind (giveBack hR) fun _ => .pure true

/-- A release in vain is counted and reported. -/
theorem remove (hR : Lasting R) : Even e g R (Registry.remove id) := by
  refine .bind (take hR) fun found => ?_
  cases found with
  | true => exact .pure true
  | false =>
    intro op thread s h ho
    have counted : Owes e (g + Pi.single .duplicateRelease 1) R op _ h :=
      ho.bump .duplicateReleases
    have settled : g + Pi.single .duplicateRelease 1 - Pi.single .duplicateRelease 1 = g :=
      add_sub_cancel_right _ _
    refine Nests.bind (p := Log.limitedError _ _ thread _) ?_
    refine (counted.limitedError (.unknown id)).mono fun _ s₂ h₂ hy => ?_
    rw [settled] at hy
    exact hy.2

theorem release (hR : Lasting R) {handle : Handle} : Even e g R (Registry.release handle) := by
  refine .bind (remove hR) fun found => ?_
  cases found with
  | true => exact .pure ()
  | false => exact emit (by decide)

theorem releaseRaw (hR : Lasting R) : Even e g R (Registry.releaseRaw id) := by
  unfold Registry.releaseRaw
  split
  · exact .pure false
  · exact remove hR

theorem releaseIfPresent (hR : Lasting R) : Even e g R (Registry.releaseIfPresent id) := by
  unfold Registry.releaseIfPresent
  split
  · exact .pure false
  · refine .bind (take hR) fun found => ?_
    cases found with
    | true => exact .pure true
    | false => exact .bind breadcrumb fun _ => .pure false

/-- What counts no failure leaves the gap as it is. -/
theorem count {k : Counter} (hk : k.due = 0) : Even e g R (bump k) := by
  intro op thread s h ho
  have counted := ho.bump k
  rw [hk, add_zero] at counted
  exact counted

theorem look : Even e g R (Registry.look id) := by
  unfold Registry.look
  split
  · exact .pure _
  · refine .bind (change (.lend id) fun s => ?_) fun found => ?_
    · split
      · exact .mild .none rfl
      · exact .mild (.lend id) rfl
    · cases found with
      | some e => exact .pure _
      | none => exact .bind (count rfl) fun _ => .pure _

end Even

namespace Owes

/-- An object is pinned.  That the thread was not attached is counted only. -/
theorem pin (ho : Owes e g (· = L) op s h) :
    Nests (reporting e) op thread (fun r s' h' => match r with
      | .ok _ => Owes e g (Asked L false) op s' h'
      | .error _ => ∃ b, Owes e (g + once .attachFailure b) (Asked L b) op s' h')
      (Registry.pin o thread s) h := by
  simp only [Registry.pin, Operation.bind_apply, Operation.state_apply, Progress.bind]
  have body : Even e g (Asked L false) (Operation.call (.host (.pin o))) :=
    .use (fun _ => rfl) fun _ => rfl
  refine Nests.bind ((ho.onHostThread s.registry.policy fun _ _ => body.owes).mono ?_)
  intro r s₁ h₁ hx
  rcases r with err | _ | pinned
  case ok.some =>
    rw [add_zero] at hx
    exact hx
  case ok.none =>
    rw [add_zero] at hx
    exact ⟨false, hx.unowed⟩
  case error =>
    have counted : Owes e (g + Pi.single .attachFailure 1) (Asked L true) op _ h₁ :=
      hx.bump .attachFailures
    refine Nests.bind (p := Log.warn _ thread _) ?_
    refine (counted.emit (by decide)).mono fun _ s₂ h₂ hy => ?_
    exact ⟨true, hy.2⟩

/-- An object is registered.  Where it is not, a refusal was counted only. -/
theorem register (ho : Owes e g (· = L) op s h) :
    Nests (reporting e) op thread (fun r s' h' => match r with
      | .ok handle => Owes e g (Asked L false) op s' h' ∧
          ∃ o, s'.registry.listed? handle.id = some (.fresh handle.id o k)
      | .error _ => ∃ b, Owes e (g + once .attachFailure b) (Answers L b) op s' h')
      (Registry.register o k thread s) h := by
  rw [Registry.register_eq]
  simp only [Operation.bind_apply, Operation.state_apply, Progress.bind]
  split
  · have unasked : Owes e g (Answers L false) op s h := ho.mono fun l hl => .inr ⟨rfl, hl⟩
    exact ⟨false, unasked.unowed⟩
  refine Nests.bind (ho.pin.mono fun pinned s₁ h₁ hx => ?_)
  cases pinned with
  | error err =>
    obtain ⟨b, hx⟩ := hx
    exact ⟨b, hx.mono fun l hl => .inl hl.tries⟩
  | ok pinned =>
    simp only [Registry.enter, Operation.bind_apply, Operation.modifyGet_apply, Progress.bind]
    have entered : Owes e g (Asked L false) op (Registry.entering pinned k s₁).2 h₁ :=
      Even.change (.entering pinned k) (fun _ => .entering pinned k) op thread s₁ h₁ hx
    rcases he : Registry.entering pinned k s₁ with ⟨err | id, s₂⟩
    · -- the object is given back, which is reported if it fails
      rw [he] at entered
      have tried : Owes e g (Tries L false) op s₂ h₁ := entered.mono fun l hl => hl.tries
      refine Nests.bind ((Even.unpin (lasting_tries L false) op thread s₂ h₁ tried).mono ?_)
      intro _ s₃ h₃ hy
      have answered : Owes e g (Answers L false) op s₃ h₃ := hy.mono fun l hl => .inl hl
      exact ⟨false, answered.unowed⟩
    · rw [he] at entered
      refine Nests.bind (entered.breadcrumb.mono fun _ s₃ h₃ hy => ?_)
      obtain ⟨rfl, hy⟩ := hy
      obtain ⟨r, henlist, rfl⟩ := Registry.entering_ok he
      refine ⟨hy, pinned, ?_⟩
      obtain ⟨-, -, rfl, rfl⟩ := Registry.enlist_ok henlist
      simp [Registry.listed?, Registration.fresh]

/-! ### The dispatcher -/

/-- The object is called on a visit, or the refusal is counted. -/
theorem attached {w : α → Log.Category → UInt64} {body : Operation α} (ho : Owes e g (· = L) op s h)
    (hb : ∀ s h, Owes e g (Asked L false) op s h → Nests (reporting e) op thread
      (fun a s' h' => Owes e (g + w a) (Asked L false) op s' h') (body thread s) h) :
    Nests (reporting e) op thread (fun r s' h' =>
      Owes e (g + Dispatch.owing w r) (Asked L (Dispatch.refused r)) op s' h')
      (Dispatch.attached body thread s) h := by
  simp only [Dispatch.attached, Operation.bind_apply, Operation.state_apply, Progress.bind]
  refine Nests.bind ((ho.onHostThread s.registry.policy hb).mono fun r s' h' hx => ?_)
  cases r with
  | ok a => exact hx
  | error err => exact hx.bump .attachFailures

/-- The host is asked for an owner, and may have no answer. -/
theorem askOwner {query : OwnerQuery} (ho : Owes e g R op s h) :
    Nests (reporting e) op thread (fun answer s' h' =>
      Owes e (g + once .queryFailure answer.isNone) R op s' h')
      (Dispatch.askOwner o query thread s) h := by
  refine Nests.bind ((ho.consult (c := .host (.resolve o query)) nofun nofun fun _ => rfl).mono ?_)
  intro answer s₁ h₁ asked
  cases answer with
  | none => exact asked
  | some text =>
    -- whether there is an owner is known once the string has been read
    have unowed : Owes e g R op s₁ h₁ := by rwa [← add_zero g]
    refine Nests.bind
      ((unowed.consult (c := .host (.readString text)) nofun nofun fun _ => rfl).mono ?_)
    intro copy s₂ h₂ known
    have frees : Even e (g + once .queryFailure copy.text?.isNone) R
        (Operation.call (.host (.freeString text))) := .use (fun _ => rfl) fun _ => rfl
    exact Nests.bind ((frees op thread s₂ h₂ known).mono fun _ s₃ h₃ freed => freed)

/-- A second result is counted, and reported as such. -/
theorem answerClaim (ho : Owes e g R op s h) (delivered : Bool) :
    Nests (reporting e) op thread (fun r s' h' =>
      r = (if delivered then .error (.alreadyDelivered id) else .ok ()) ∧
      s'.registry = s.registry ∧ Owes e (g + Dispatch.owing 0 r) R op s' h')
      (Dispatch.answerClaim id delivered thread s) h := by
  cases delivered with
  | false =>
    have unmoved : Owes e (g + 0) R op s h := by rwa [add_zero]
    exact ⟨rfl, rfl, unmoved⟩
  | true =>
    refine Nests.bind (p := Log.limitedError _ _ thread _) ?_
    refine ((ho.bump .resultsRejected).limitedError (.second id)).mono fun _ s₁ h₁ hx => ?_
    refine ⟨rfl, hx.1, ?_⟩
    have owes : g + Counter.due .resultsRejected - Pi.single .duplicateResult 1 =
        g + (Pi.single .duplicateResult 1 - Pi.single .staleHandle 1) := by
      simp only [Counter.due]
      grind
    rw [owes] at hx
    exact hx.2

/-- Data is handed over, unless it is a second result. -/
theorem handOver {x : Registration} {data : CString} (ho : Owes e g (· = L) op s h)
    (hf : s.registry.listed? id = some x) (unclaimed : x.kind = .invoke → x.delivered = false) :
    Nests (reporting e) op thread (fun r s' h' =>
      Owes e (g + Dispatch.owing 0 r) (Asked L (Dispatch.refused r)) op s' h')
      (Dispatch.handOver (Dispatch.claimResult x) x.object data thread
        { s with registry := s.registry.lend id }) h := by
  have hands : Even e g (Asked L false) (Operation.call (.host (.onResult x.object data))) :=
    .use (fun _ => rfl) fun _ => rfl
  have visits : ∀ s h, Owes e g (· = L) op s h → Nests (reporting e) op thread
      (fun r s' h' => Owes e (g + Dispatch.owing 0 r) (Asked L (Dispatch.refused r)) op s' h')
      (Dispatch.attached (Operation.call (.host (.onResult x.object data))) thread s) h :=
    fun s h ho => ho.attached fun _ _ => hands.owes
  -- a result is claimed only through an invoke handle
  by_cases hk : x.kind = .invoke
  · have claimed : Owes e g (· = L) op
        { s with registry := (s.registry.markDelivered id).lend id } h :=
      ho.change ⟨fun hr => hr.markDelivered.lend, rfl, fun _ _ => rfl⟩ rfl rfl
    rw [Dispatch.handOver, Operation.bind_apply,
      Dispatch.claimResult_invoke ho.serves.1 hf hk, unclaimed hk]
    exact visits _ h claimed
  · have free : Dispatch.claimResult x = pure (.ok ()) := if_neg hk
    rw [free]
    exact visits _ h (ho.change ⟨fun hr => hr.lend, rfl, fun _ _ => rfl⟩ rfl rfl)

/-- A second result is rejected while its handle is still listed. -/
theorem reject {x : Registration} {data : CString} (ho : Owes e g R op s h)
    (hf : s.registry.listed? id = some x) (hk : x.kind = .invoke) (hd : x.delivered = true) :
    Nests (reporting e) op thread (fun r s' h' => r = .error (.alreadyDelivered id) ∧
      s'.registry.contains id = true ∧ Owes e (g + Dispatch.owing 0 r) R op s' h')
      (Dispatch.handOver (Dispatch.claimResult x) x.object data thread
        { s with registry := s.registry.lend id }) h := by
  have claimed : Owes e g R op
      { s with registry := (s.registry.markDelivered id).lend id } h :=
    ho.change ⟨fun hr => hr.markDelivered.lend, rfl, fun _ _ => rfl⟩ rfl rfl
  rw [Dispatch.handOver, Operation.bind_apply,
    Dispatch.claimResult_invoke ho.serves.1 hf hk, hd]
  -- nothing is nested in the line that rejects it, so the handle is still listed
  refine Nests.bind ((claimed.answerClaim true).mono fun r s₁ h₁ hx => ?_)
  obtain ⟨rfl, same, hx⟩ := hx
  refine ⟨rfl, ?_, hx⟩
  rw [same, Registry.contains_lend, Registry.contains_markDelivered, Registry.contains, hf]
  rfl

/-- A loan of a listed handle is given back without a call. -/
theorem giveBack_listed (ho : Owes e g R op s h) (hc : s.registry.contains id = true) :
    Nests (reporting e) op thread (fun _ s' h' => Owes e g R op s' h')
      (Registry.giveBack id thread s) h := by
  obtain ⟨x, hf⟩ := Option.isSome_iff_exists.mp hc
  obtain ⟨hm, rfl, hl⟩ := Registry.mem_of_listed? hf
  have sound : s.registry.Sound := ho.serves.1
  have shared : (s.registry.returnLoan x.id).2 =
      s.registry.update x.id fun e => { e with loans := e.loans - 1 } := by
    simp [Registry.returnLoan, sound.distinct.find?_eq hm, hl]
  rw [Registry.giveBack_listed sound hm hl, ← shared]
  exact ho.change (.mild (.giveBack x.id) rfl) rfl rfl

/-- A listed object is called on a visit.  It may have been released by its return,
    and is unpinned then. -/
theorem withVisit {w : α → Log.Category → UInt64} {shape : CallShape} {x : Registration}
    {body : Registration → Operation (Except DispatchError α)} (hn : id.isNull = false)
    (hf : s.registry.listed? id = some x) (hk : shape.accepts x.kind = true)
    (hb : Nests (reporting e) op thread (fun r s' h' =>
      Owes e (g + Dispatch.owing w r) (Asked L (Dispatch.refused r)) op s' h')
      (body x thread { s with registry := s.registry.lend id }) h) :
    Nests (reporting e) op thread (fun r s' h' =>
      Owes e (g + Dispatch.owing w r) (Tries L (Dispatch.refused r)) op s' h')
      (Dispatch.withTarget shape id body thread s) h := by
  rw [Dispatch.withTarget_listed hn hf hk]
  refine Nests.bind (hb.mono fun r s₁ h₁ hx => ?_)
  have tried := hx.mono fun l hl => hl.tries
  -- on the way back the thread may be attached once more, to unpin the object
  exact Nests.bind (Even.giveBack (lasting_tries L _) op thread s₁ h₁ tried)

/-- A listed object is called on a visit, or the call is rejected before that. -/
theorem withTarget {w : α → Log.Category → UInt64} {shape : CallShape}
    {body : Registration → Operation (Except DispatchError α)} (ho : Owes e g (· = L) op s h)
    (hb : ∀ x, s.registry.listed? id = some x →
      Nests (reporting e) op thread (fun r s' h' =>
        Owes e (g + Dispatch.owing w r) (Asked L (Dispatch.refused r)) op s' h')
        (body x thread { s with registry := s.registry.lend id }) h ∨
      Nests (reporting e) op thread (fun r s' h' => r = .error (.alreadyDelivered id) ∧
        s'.registry.contains id = true ∧ Owes e (g + Dispatch.owing w r) (· = L) op s' h')
        (body x thread { s with registry := s.registry.lend id }) h) :
    Nests (reporting e) op thread (fun r s' h' =>
      Owes e (g + Dispatch.owing w r) (Answers L (Dispatch.refused r)) op s' h')
      (Dispatch.withTarget shape id body thread s) h := by
  have unasked : ∀ err s' h', Dispatch.refused (.error err : Except DispatchError α) = false →
      Owes e (g + Dispatch.owing w (.error err)) (· = L) op s' h' →
      Owes e (g + Dispatch.owing w (.error err))
        (Answers L (Dispatch.refused (.error err : Except DispatchError α))) op s' h' := by
    intro err s' h' unrefused ho
    exact ho.mono fun l hl => .inr ⟨unrefused, hl⟩
  have failed : ∀ err s' h', Owes e g (· = L) op s' h' →
      Owes e (g + Dispatch.owing w (.error (.handle err))) (· = L) op s' h' := by
    intro err s' h' ho
    show Owes e (g + 0) (· = L) op s' h'
    rwa [add_zero]
  cases hn : id.isNull with
  | true =>
    rw [Dispatch.withTarget_null hn]
    exact unasked _ _ _ rfl (failed _ _ _ ho)
  | false =>
    cases hf : s.registry.listed? id with
    | none =>
      rw [Dispatch.withTarget_released hn hf]
      exact unasked _ _ _ rfl (failed _ _ _ (Even.count rfl op thread s h ho))
    | some x =>
      cases hk : shape.accepts x.kind with
      | false =>
        have lent : Owes e g (· = L) op { s with registry := s.registry.lend id } h :=
          ho.change ⟨fun hr => hr.lend, rfl, fun _ _ => rfl⟩ rfl rfl
        have listed : (s.registry.lend id).contains id = true := by
          rw [Registry.contains_lend, Registry.contains, hf]
          rfl
        rw [Dispatch.withTarget_wrongKind hn hf hk]
        refine Nests.bind ((lent.giveBack_listed listed).mono fun _ s₁ h₁ hx => ?_)
        exact unasked _ _ _ rfl (failed _ _ _ hx)
      | true =>
        rcases hb x hf with visits | rejects
        · exact (withVisit hn hf hk visits).mono fun _ _ _ hx => hx.mono fun l hl => .inl hl
        · rw [Dispatch.withTarget_listed hn hf hk]
          refine Nests.bind (rejects.mono fun r s₁ h₁ hx => ?_)
          obtain ⟨rfl, kept, hx⟩ := hx
          refine Nests.bind ((hx.giveBack_listed kept).mono fun _ s₂ h₂ hy => ?_)
          exact unasked _ _ _ rfl hy

/-- A call that was dropped is counted, and reported as what went wrong. -/
theorem reportDrop {w : α → Log.Category → UInt64} {shape : CallShape} {err : DispatchError}
    (ho : Owes e (g + Dispatch.owing w (.error err)) R op s h) :
    Nests (reporting e) op thread (fun _ s' h' => Owes e (g + once .staleHandle
      (Dispatch.refused (.error err : Except DispatchError α))) R op s' h')
      (Dispatch.reportDrop shape id err thread s) h := by
  refine Nests.bind (p := Log.limitedError _ _ thread _) ?_
  refine ((ho.bump .callbacksDropped).limitedError (.drop shape id err)).mono ?_
  intro _ s₁ h₁ hx
  have settled : g + Dispatch.owing w (.error err) + Counter.due .callbacksDropped -
      Pi.single err.category 1 =
      g + once .staleHandle (Dispatch.refused (.error err : Except DispatchError α)) := by
    rw [← Dispatch.owing_dropped w err]
    simp only [Counter.due]
    grind
  rw [settled] at hx
  exact hx.2

/-- Once a call is settled only a refusal is still owed. -/
theorem settle {shape : CallShape} {r : Except DispatchError Unit}
    (ho : Owes e (g + Dispatch.owing 0 r) R op s h) :
    Nests (reporting e) op thread (fun _ s' h' =>
      Owes e (g + once .staleHandle (Dispatch.refused r)) R op s' h')
      (Dispatch.settle shape id r thread s) h := by
  cases r with
  | ok _ =>
    have counted := Even.count (k := .callbacksDispatched) rfl op thread s h ho
    refine Nests.bind (counted.mono fun _ s₁ h₁ hx => ?_)
    exact Nests.bind (hx.breadcrumb.mono fun _ s₂ h₂ hy => hy.2)
  | error err => exact Nests.bind (ho.reportDrop.mono fun _ s₁ h₁ hx => hx)

/-! ### The calls -/

/-- A call through a handle that was never given asks the host for nothing. -/
theorem ignored (ho : Owes e g (· = L) op s h) :
    ∃ b, Owes e (g + once .staleHandle b) (Answers L b) op s h :=
  ⟨false, (ho.mono fun _ hl => .inr ⟨rfl, hl⟩).unowed⟩

/-- The null handle is ignored. -/
theorem unlessNull {m : Operation (Except DispatchError Unit)} (ho : Owes e g (· = L) op s h)
    (hm : id.isNull = false → Nests (reporting e) op thread
      (fun _ s' h' => ∃ b, Owes e (g + once .staleHandle b) (Answers L b) op s' h')
      (m thread s) h) :
    Nests (reporting e) op thread
      (fun _ s' h' => ∃ b, Owes e (g + once .staleHandle b) (Answers L b) op s' h')
      ((if id.isNull then pure (.ok ()) else m) thread s) h := by
  by_cases hn : id.isNull = true
  · rw [if_pos hn]
    exact ho.ignored
  · rw [if_neg hn]
    exact hm (Bool.not_eq_true _ ▸ hn)

/-- The owner is named, or it is reported that there is none. -/
theorem resolveOwner {query : OwnerQuery} (ho : Owes e g (· = L) op s h) :
    Nests (reporting e) op thread
      (fun _ s' h' => ∃ b, Owes e (g + once .staleHandle b) (Answers L b) op s' h')
      (Dispatch.resolveOwner id query thread s) h := by
  let w : Option String → Log.Category → UInt64 := fun answer => once .queryFailure answer.isNone
  refine Nests.bind ((ho.withTarget (w := w) fun x hf => .inl ?_).mono fun r s₁ h₁ hx => ?_)
  · have lent : Owes e g (· = L) op { s with registry := s.registry.lend id } h :=
      ho.change ⟨fun hr => hr.lend, rfl, fun _ _ => rfl⟩ rfl rfl
    exact lent.attached fun s h ho => ho.askOwner
  match r with
  | .ok (some owner) =>
    have counted := Even.count (k := .callbacksDispatched) rfl op thread s₁ h₁ hx
    exact Nests.bind (counted.mono fun _ s₂ h₂ hy => ⟨false, hy⟩)
  | .ok none =>
    have counted := Even.count (k := .callbacksDispatched) rfl op thread s₁ h₁ hx
    refine Nests.bind (counted.mono fun _ s₂ h₂ hy => ?_)
    refine Nests.bind ((hy.limitedError (.ownerless id query.uid.toInt)).mono fun _ s₃ h₃ hz => ?_)
    -- what the missing answer has added is closed by this line
    have settled : g + Dispatch.owing w (.ok none) - Pi.single .queryFailure 1 = g :=
      add_sub_cancel_right _ _
    rw [settled] at hz
    exact ⟨false, hz.2.unowed⟩
  | .error err => exact Nests.bind (hx.reportDrop.mono fun _ s₂ h₂ hy => ⟨_, hy⟩)

/-- A result is handed over, or it is reported that it was not. -/
theorem deliverResult {data : CString} (ho : Owes e g (· = L) op s h) :
    Nests (reporting e) op thread
      (fun _ s' h' => ∃ b, Owes e (g + once .staleHandle b) (Answers L b) op s' h')
      (Dispatch.deliverResult id data thread s) h := by
  refine ho.unlessNull fun _ => ?_
  refine Nests.bind ((ho.withTarget (w := 0) fun x hf => ?_).mono fun r s₁ h₁ hx => ?_)
  · by_cases second : x.kind = .invoke ∧ x.delivered = true
    · exact .inr (ho.reject hf second.1 second.2)
    · refine .inl (ho.handOver hf fun hk => ?_)
      simpa [hk] using second
  · exact hx.settle.mono fun _ s₂ h₂ hy => ⟨_, hy⟩

/-- The result of an action that was listed just now is handed over, unless the
    thread is refused. -/
theorem deliverFresh {data : CString} (ho : Owes e g (· = L) op s h) (hn : id.isNull = false)
    (hf : s.registry.listed? id = some (.fresh id o .invoke)) :
    Nests (reporting e) op thread
      (fun _ s' h' => ∃ b, Owes e (g + once .staleHandle b) (Tries L b) op s' h')
      (Dispatch.deliverResult id data thread s) h := by
  have hands : Nests (reporting e) op thread (fun r s' h' =>
      Owes e (g + Dispatch.owing 0 r) (Tries L (Dispatch.refused r)) op s' h')
      (Dispatch.withTarget .result id (fun target =>
        Dispatch.handOver (Dispatch.claimResult target) target.object data) thread s) h :=
    withVisit hn hf rfl (ho.handOver hf fun _ => rfl)
  rw [Dispatch.deliverResult_eq hn]
  exact Nests.bind (hands.mono fun r s₁ h₁ hx => hx.settle.mono fun _ s₂ h₂ hy => ⟨_, hy⟩)

/-- An object is told something. -/
theorem tell {shape : CallShape} {body : Registration → Operation Unit}
    (ho : Owes e g (· = L) op s h) (hb : ∀ x, Even e g (Asked L false) (body x)) :
    Nests (reporting e) op thread
      (fun _ s' h' => ∃ b, Owes e (g + once .staleHandle b) (Answers L b) op s' h')
      ((Dispatch.withTarget shape id (fun target => Dispatch.attached (body target)) >>=
        Dispatch.settle shape id) thread s) h := by
  refine Nests.bind ((ho.withTarget (w := 0) fun x hf => .inl ?_).mono fun r s₁ h₁ hx => ?_)
  · have lent : Owes e g (· = L) op { s with registry := s.registry.lend id } h :=
      ho.change ⟨fun hr => hr.lend, rfl, fun _ _ => rfl⟩ rfl rfl
    exact lent.attached fun _ _ => (hb x).owes
  · exact hx.settle.mono fun _ s₂ h₂ hy => ⟨_, hy⟩

/-- Every request to the dispatcher. -/
theorem dispatch (ho : Owes e g (· = L) op s h) (d : DispatchRequest) :
    Nests (reporting e) op thread
      (fun _ s' h' => ∃ b, Owes e (g + once .staleHandle b) (Answers L b) op s' h')
      (d.operation thread s) h := by
  cases d with
  | protect id fd =>
    exact ho.unlessNull fun _ => ho.tell fun x =>
      .use (c := .protect x.object fd) (fun _ => rfl) fun _ => rfl
  | notify id payload =>
    exact ho.unlessNull fun _ => ho.tell fun x =>
      .use (c := .onResult x.object payload) (fun _ => rfl) fun _ => rfl
  | resolveOwner id query => exact ho.resolveOwner
  | deliverResult id data => exact ho.deliverResult

end Owes

end Run

end CallbackBridge
