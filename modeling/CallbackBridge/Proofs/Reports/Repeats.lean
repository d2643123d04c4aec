import CallbackBridge.Proofs.Rejections
import CallbackBridge.Proofs.Reports.Runs

/-! # Second results in the log

    Every failure is reported once, a second result apart.  A delivery that is
    rejected offers a line as it claims the result, and another one as it reports
    that the call was dropped, both of the same category.  Whoever takes the
    numbers in the log for a number of results counts each of them twice.

    Key ideas:

    1. An operation leaves the gap as it was, so what it adds to the log is what
       it adds to the counters, twice over for second results.
    2. A delivery that is rejected is quiet.  What was counted from its beginning
       to its end it has counted itself. -/

namespace CallbackBridge

open Run Run.History

/-! ### Deliveries that are rejected -/

/-- Whether a call is rejected depends on how its handle is found, and a
    rejection is counted. -/
theorem DispatchRequest.counts_rejection {d : DispatchRequest} {thread : Thread} {s : State}
    (sound : s.registry.Sound) :
    (d.operation thread s).Follows ⟨fun _ _ _ => True, fun _ r s' => d.Rejected r →
      s'.counters.get .resultsRejected = s.counters.get .resultsRejected + 1⟩ [] := by
  have unrejected : ∀ {plan : Plan d.Result}, (d.operation thread s).Follows plan [] →
      (∀ told r s', plan.ends told r s' → ¬ d.Rejected r) →
      (d.operation thread s).Follows ⟨fun _ _ _ => True, fun _ r s' => d.Rejected r →
        s'.counters.get .resultsRejected = s.counters.get .resultsRejected + 1⟩ [] := by
    intro plan hp hn
    exact hp.mono (fun _ _ _ _ => trivial) fun told r s' hx hr => absurd hr (hn told r s' hx)
  cases hn : d.target.isNull with
  | true =>
    refine unrejected (DispatchRequest.ignores hn []) ?_
    rintro told r s' ⟨-, rfl⟩
    exact d.not_rejected_ignored
  | false =>
    cases refusal : Dispatch.refusal? s.registry d.shape d.target with
    | some err =>
      refine unrejected (DispatchRequest.refused hn sound refusal []) ?_
      rintro told r s' ⟨-, rfl⟩
      exact d.not_rejected_failure
    | none =>
      -- the handle is listed, and fits
      cases hf : s.registry.listed? d.target with
      | none => simp [Dispatch.refusal?, hf] at refusal
      | some e =>
        by_cases hk : e.kind = .invoke
        · have hs : d.shape = .result := by
            by_contra hs
            rw [Dispatch.refusal?_invoke hf hk hs] at refusal
            cases refusal
          cases d with
          | deliverResult id data =>
            cases hd : e.delivered with
            | false =>
              -- the first result is tried
              refine unrejected (Dispatch.deliverResult_claims hn sound hf hk hd) ?_
              rintro told r s' ⟨more, status, s₀, rfl, tried⟩ ⟨id', rfl⟩
              cases hs : AttachState.ofStatus status with
              | error err =>
                rw [hs] at tried
                cases tried.1
              | ok a =>
                rw [hs] at tried
                obtain ⟨u, hu⟩ := tried.1
                cases hu
            | true =>
              exact (Dispatch.deliverResult_rejects hn sound hf hk hd []).mono
                (fun _ _ _ _ => trivial) fun _ _ _ hx _ => hx.2.2
          | _ => cases hs
        · exact unrejected (DispatchRequest.follows hn hf) fun _ _ _ hx => hx.2 hk

namespace Run

/-! ### What an operation as a whole brings about -/

namespace Nesting

variable {ν : Nesting} {m : Moment} {before : History}

/-- Where an operation ends it has brought about what it is to, since it began. -/
def Spanned (ν : Nesting) (m : Moment) (before : History) : Prop :=
  ∀ op thread q result, m.event = .ends op thread q result → ∃ s h,
    ⟨.begins op thread q, s⟩ :: h <:+ before ∧ ν.holds s h ∧ ν.spans s h m.state (m :: before)

/-- The same nesting, with a law for the ends of operations. -/
def spanned (ν : Nesting) : Nesting :=
  { ν with law := fun m before => ν.law m before ∧ ν.Spanned m before }

end Nesting

variable {α : Type} {ν : Nesting} {op : Nat} {thread : Thread} {s s' : State} {h : History}
  {c : Situation}

/-- Before its end an operation need not have brought about anything. -/
theorem Nests.spanned {post : α → State → History → Prop} {p : Progress α}
    (hp : Nests ν op thread post p h) : Nests ν.spanned op thread post p h := by
  induction p generalizing h with
  | finished a s => exact hp
  | calling call s resume ih =>
    obtain ⟨hlaw, hholds, hr⟩ := hp
    refine ⟨⟨hlaw, nofun⟩, hholds, fun r s' h' lost ho hc => ?_⟩
    obtain ⟨hlaw', rest⟩ := hr r s' h' lost ⟨ho.since, ho.spans, ho.quiet, ho.holds⟩ hc
    exact ⟨⟨hlaw', nofun⟩, ih r s' rest⟩

theorem Nesting.Kept.spanned {q : Request} (hq : ν.Kept q) : ν.spanned.Kept q := by
  intro thread s h numbered hs conduct
  obtain ⟨hlaw, hp⟩ := hq thread s h numbered hs conduct
  refine ⟨⟨hlaw, nofun⟩, hp.grown.spanned.mono fun result s' h' hx => ?_⟩
  obtain ⟨⟨hlaw', hholds, hspans⟩, began⟩ := hx
  refine ⟨⟨hlaw', ?_⟩, hholds, hspans⟩
  rintro op' thread' q' result' ⟨⟩
  exact ⟨s, h, began, hs, hspans⟩

/-! ### Two lines for one result -/

/-- What the log learns of second results is twice what was counted. -/
theorem logged_duplicateResult_of_gap {s₀ s₁ : State} {h₀ h₁ : History}
    (hg : gap s₁ h₁ = gap s₀ h₀) :
    logged s₁ h₁ .duplicateResult - logged s₀ h₀ .duplicateResult =
      (s₁.counters.get .resultsRejected - s₀.counters.get .resultsRejected) +
      (s₁.counters.get .resultsRejected - s₀.counters.get .resultsRejected) := by
  have same : owed s₁ h₁ .duplicateResult - logged s₁ h₁ .duplicateResult =
      owed s₀ h₀ .duplicateResult - logged s₀ h₀ .duplicateResult := congrFun hg .duplicateResult
  simp only [owed] at same
  grind

/-- A delivery that was rejected as a second result has told the log of two. -/
theorem LogRun.rejected_logged (run : LogRun s c) {d : DispatchRequest} {result : d.Result}
    {later before : History}
    (heq : c.history = later ++ ⟨.ends op thread (.dispatch d) result, s'⟩ :: before)
    (hr : d.Rejected result) : ∃ s₀ h₀, ⟨.begins op thread (.dispatch d), s₀⟩ :: h₀ <:+ before ∧
      logged s' before .duplicateResult = logged s₀ h₀ .duplicateResult + 2 := by
  have initially : (reporting s.engine).holds s [] :=
    ⟨⟨.of_entries_nil run.empty, rfl⟩, fun _ _ => trivial⟩
  have stands : (reporting s.engine).spanned.Stands s c :=
    run.reaches.nested (fun q => (reporting_kept q).spanned) initially
      (run.watched.and run.work)
  obtain ⟨s₀, h₀, began, ⟨⟨sound, -⟩, -⟩, hg⟩ :=
    (heq ▸ stands.always).split.2 op thread (.dispatch d) result rfl
  refine ⟨s₀, h₀, began, ?_⟩
  have hb : ⟨.begins op thread (.dispatch d), s₀⟩ ∈ c.history := by
    rw [heq]
    exact List.mem_append_right _ (List.mem_cons_of_mem _ (began.subset (List.mem_cons_self ..)))
  have counted : s'.counters.get .resultsRejected = s₀.counters.get .resultsRejected + 1 :=
    (ends_of_follows run.reaches.accounted hb (d.counts_rejection sound) heq).2 hr
  have rise := logged_duplicateResult_of_gap hg
  have same : logged s' (⟨.ends op thread (.dispatch d) result, s'⟩ :: before) .duplicateResult =
      logged s' before .duplicateResult := rfl
  rw [same, counted] at rise
  grind

/-- However operations are nested, each delivery that is rejected as a second
    result tells the log of two, and where no operation is in progress the log
    knows of twice as many as were counted. -/
theorem second_results_logged_twice (run : LogRun s c) :
    (∀ op thread d result s' later before,
      c.history = later ++ ⟨.ends op thread (.dispatch d) result, s'⟩ :: before →
      d.Rejected result → ∃ s₀ h₀, ⟨.begins op thread (.dispatch d), s₀⟩ :: h₀ <:+ before ∧
        logged s' before .duplicateResult = logged s₀ h₀ .duplicateResult + 2) ∧
    (c.AtRest → logged c.state c.history .duplicateResult =
      c.state.counters.get .resultsRejected + c.state.counters.get .resultsRejected) :=
  ⟨fun _ _ _ _ _ _ _ heq hr => run.rejected_logged heq hr,
    fun rest => congrFun (run.logged_eq rest) .duplicateResult⟩

/-! ### A second result and a third one -/

/-- The second result of an invoke handle is rejected, with two lines on the way. -/
theorem deliverResult_repeated {id : HandleId} {data : CString} {e : Registration}
    (hn : id.isNull = false) (sound : s.registry.Sound) (hf : s.registry.listed? id = some e)
    (hk : e.kind = .invoke) (hd : e.delivered = true) :
    Dispatch.deliverResult id data thread s = (do
      let _ ← Log.limitedError .duplicateResult s!"dropping second result for handle {id.text}"
      Registry.giveBack id
      bump .callbacksDropped
      let _ ← Log.limitedError .duplicateResult
        (s!"dropped {CallShape.result.name} for {id.text}: " ++
          (DispatchError.alreadyDelivered id).message)
      pure (.error (.alreadyDelivered id)) : Operation (Except DispatchError Unit)) thread
      { s with
        registry := (s.registry.markDelivered id).lend id
        counters := s.counters.bump .resultsRejected } := by
  have claimed : Dispatch.claimResult e thread { s with registry := s.registry.lend id } = (do
      let _ ← Log.limitedError .duplicateResult s!"dropping second result for handle {id.text}"
      pure (.error (.alreadyDelivered id)) : Operation (Except DispatchError Unit)) thread
      { s with
        registry := (s.registry.markDelivered id).lend id
        counters := s.counters.bump .resultsRejected } := by
    rw [Dispatch.claimResult_invoke sound hf hk, hd]
    rfl
  have settled : ∀ {err : DispatchError}, Dispatch.settle .result id (.error err) = (do
      bump .callbacksDropped
      let _ ← Log.limitedError err.category
        s!"dropped {CallShape.result.name} for {id.text}: {err.message}"
      pure (.error err)) := by
    intro err
    simp only [Dispatch.settle, Dispatch.reportDrop, bind_assoc, pure_bind]
  have accepts : CallShape.result.accepts e.kind = true := by
    rw [hk]
    rfl
  rw [Dispatch.deliverResult_eq hn, Operation.bind_apply, Dispatch.withTarget_listed hn hf accepts]
  simp only [Dispatch.handOver, Operation.bind_apply, claimed, Progress.bind_assoc,
    Operation.pure_apply, Progress.bind, settled, DispatchError.category]
  rfl

/-- A second result is delivered for an invoke handle, where the clock reads
    `now` and somebody watches the log. -/
def Situation.deliveredAgain (c : Situation) (thread : Thread) (id : HandleId) (data : CString)
    (now : UInt64) : Situation :=
  let op := c.history.begun
  let q : Request := .dispatch (.deliverResult id data)
  let claimed := (c.note (.begins op thread q)).offered op thread .duplicateResult
    s!"dropping second result for handle {id.text}" now
    { c.state with
      registry := (c.state.registry.markDelivered id).lend id
      counters := c.state.counters.bump .resultsRejected }
  let dropped := claimed.offered op thread .duplicateResult
    (s!"dropped {CallShape.result.name} for {id.text}: " ++
      (DispatchError.alreadyDelivered id).message) now
    { claimed.state with
      registry := claimed.state.registry.update id fun e => { e with loans := e.loans - 1 }
      counters := claimed.state.counters.bump .callbacksDropped }
  dropped.note (.ends op thread q (.error (.alreadyDelivered id)))

theorem reaches_deliveredAgain {id : HandleId} {data : CString} {now : UInt64} {e : Registration}
    (ha : c.Admits) (hn : id.isNull = false) (sound : c.state.registry.Sound)
    (hf : c.state.registry.listed? id = some e) (hk : e.kind = .invoke) (hd : e.delivered = true)
    (sink : c.state.logger.sink.isSome = true) :
    Reaches c (c.deliveredAgain thread id data now) := by
  let q : Request := .dispatch (.deliverResult id data)
  have begins : Step c (.start thread q) (c.start thread q) := .start ha
  have started : c.start thread q = (c.note (.begins c.history.begun thread q)).proceed
      c.history.begun thread q (Dispatch.deliverResult id data thread c.state) := rfl
  rw [deliverResult_repeated hn sound hf hk hd] at started
  refine ((Reaches.refl c).tail begins).trans ?_
  rw [started]
  let claimed := (c.note (.begins c.history.begun thread q)).offered c.history.begun thread
    .duplicateResult s!"dropping second result for handle {id.text}" now
    { c.state with
      registry := (c.state.registry.markDelivered id).lend id
      counters := c.state.counters.bump .resultsRejected }
  -- the loan is given back, and the handle stays listed
  have gives : Registry.giveBack id thread claimed.state = .finished () { claimed.state with
      registry := claimed.state.registry.update id fun e => { e with loans := e.loans - 1 } } := by
    obtain ⟨he, rfl, hl⟩ := Registry.mem_of_listed? hf
    let lent : Registration := { e with delivered := true, loans := e.loans + 1 }
    have entered : lent ∈ claimed.state.registry.entries :=
      Registry.mem_update.mpr ⟨{ e with delivered := true },
        Registry.mem_update.mpr ⟨e, he, by simp⟩, by simp [lent]⟩
    have sound' : claimed.state.registry.Sound := sound.markDelivered.lend
    exact Registry.giveBack_listed (e := lent) sound' entered hl
  refine (reaches_offered now (.second id) (by exact sink)).trans ?_
  rw [Operation.bind_apply, gives]
  exact reaches_offered now (.drop .result id (.alreadyDelivered id)) (by exact sink)

/-- An invoke handle has taken its one result. -/
def answeredOnce : Situation :=
  ((Situation.initial Sample.watched).play?
    [.start ⟨"host"⟩ (.registry (.register Sample.object .invoke)),
     .reply (.host .attach) (0 : Int32),
     .reply (.host (.pin Sample.object)) (some Sample.reference),
     .start ⟨"engine"⟩ (.dispatch (.deliverResult ⟨1⟩ .empty)),
     .reply (.host .attach) (0 : Int32),
     .reply (.host (.onResult Sample.reference .empty)) ()]).get rfl

/-- A second result is rejected, and a second later a third one. -/
def rejectedTwice : Situation :=
  (answeredOnce.deliveredAgain ⟨"engine"⟩ ⟨1⟩ .empty 0).deliveredAgain ⟨"engine"⟩ ⟨1⟩ .empty 1000

theorem reaches_rejectedTwice : Reaches (.initial Sample.watched) rejectedTwice := by
  have to_answered : Reaches (.initial Sample.watched) answeredOnce :=
    Situation.reaches_get_play? _
  have to_second : Reaches answeredOnce (answeredOnce.deliveredAgain ⟨"engine"⟩ ⟨1⟩ .empty 0) :=
    reaches_deliveredAgain (by decide) rfl ⟨by decide, by decide, by decide⟩ rfl rfl rfl rfl
  refine to_answered.trans (to_second.trans ?_)
  exact reaches_deliveredAgain (by decide) rfl ⟨by decide, by decide, by decide⟩ rfl rfl rfl rfl

theorem logRun_rejectedTwice : LogRun Sample.watched rejectedTwice :=
  ⟨rfl, rfl, ⟨1000, rfl⟩, reaches_rejectedTwice, by decide, by decide⟩

theorem second_results_logged_twice_rejectedTwice :
    LogRun Sample.watched rejectedTwice ∧ rejectedTwice.stack = [] ∧
    rejectedTwice.state.counters.get .resultsRejected = 2 ∧
    logged rejectedTwice.state rejectedTwice.history .duplicateResult = 4 ∧
    ∃ s₀ h₀, ⟨.begins 3 ⟨"engine"⟩ (.dispatch (.deliverResult ⟨1⟩ .empty)), s₀⟩ :: h₀ <:+
        rejectedTwice.history.tail ∧
      logged rejectedTwice.state rejectedTwice.history.tail .duplicateResult =
        logged s₀ h₀ .duplicateResult + 2 := by
  obtain ⟨rejected, rest⟩ := second_results_logged_twice logRun_rejectedTwice
  have ended : rejectedTwice.history = [] ++ ⟨.ends 3 ⟨"engine"⟩
      (.dispatch (.deliverResult ⟨1⟩ .empty)) (.error (.alreadyDelivered ⟨1⟩)),
      rejectedTwice.state⟩ :: rejectedTwice.history.tail := rfl
  exact ⟨logRun_rejectedTwice, rfl, rfl, rest rfl, rejected _ _ _ _ _ _ _ ended ⟨⟨1⟩, rfl⟩⟩

/-- The log does not tell how many results were rejected. -/
theorem second_results_miscounted : ¬ ∀ (s : State) (c : Situation), LogRun s c → c.AtRest →
    logged c.state c.history .duplicateResult = c.state.counters.get .resultsRejected := by
  intro once
  have four := (second_results_logged_twice logRun_rejectedTwice).2 rfl
  have two : rejectedTwice.state.counters.get .resultsRejected = 2 := rfl
  have both := once _ _ logRun_rejectedTwice rfl
  rw [four, two] at both
  cases both

end Run

end CallbackBridge
