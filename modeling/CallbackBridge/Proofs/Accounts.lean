import CallbackBridge.Proofs.Ledger.Runs
import CallbackBridge.Proofs.Run.Charges
import CallbackBridge.Proofs.Run.Strikes

/-! # Accounts

    Whenever no operation is in progress, the counters tell how often each thing
    has happened.

    Key ideas:

    1. What an operation has to count follows from its request, from the table
       as it began, and from the events that are its own.
    2. The stand-in for an engine answers an action and gives the handle back.
       The host is called in between, so somebody else may have released the
       handle by then.
    3. Each operation has ended when none is in progress.  So the counts of all
       operations add up to what the counters have risen by. -/

namespace CallbackBridge

open Run Run.History

/-! ### What has to be counted -/

namespace Request

/-- The id that a request looks up as it begins. -/
def looked? : Request → Option HandleId
  | .registry (.look id) => some id
  | q => q.dispatched?.map (·.target)

/-- The id that a request releases, where that is an error if nothing is
    registered under it.  A handle that was registered is never null. -/
def freed? : Request → Option HandleId
  | .registry (.releaseIfPresent _) => none
  | q => q.released?

/-- The handle of an action that was started. -/
def started? : (q : Request) → q.Result → Option HandleId
  | .bridge (.invokeAction ..), .ok id => if id.isNull then none else some id
  | _, _ => none

/-- A helper was launched. -/
def launched : (q : Request) → q.Result → Bool
  | .bridge (.startHelper _), .ok _ => true
  | _, _ => false

end Request

namespace Run

/-- An operation that has ended. -/
structure Ending where
  op : Nat
  request : Request
  result : request.Result
  /-- The state that it began in. -/
  start : State
  /-- What has happened up to its end. -/
  history : History

namespace Ending

variable (e : Ending)

/-- What was asked for.  The library asks through the table that it has. -/
def asked : Request := e.request.through e.start.libraryTable

/-- The handle of an action that the stand-in for an engine has answered. -/
def answered? : Option HandleId :=
  if e.start.engine = .absent then e.request.started? e.result else none

/-- A call was made through a handle: by a request to the dispatcher, or by the
    stand-in. -/
def dispatches : Bool :=
  e.asked.dispatched?.any (·.counts) || e.answered?.isSome

/-- A host object was called. -/
def calls : Bool :=
  e.history.countBy e.op Event.isUse ≠ 0

/-- An id was looked up in vain.  The stand-in finds what it is given. -/
def misses : Bool :=
  e.asked.looked?.any e.start.registry.misses

/-- A second result was delivered for an invoke handle. -/
def repeats : Bool :=
  e.asked.dispatched?.any (·.repeats e.start.registry)

/-- An id was released in vain.  The stand-in gives the handle of a tunnel back
    at once, but that of an action only when the host was called. -/
def duplicates : Bool :=
  e.asked.freed?.any (!e.start.registry.contains ·) ||
    e.answered?.any (!e.history.struckBy e.op ·)

/-- A helper was launched. -/
def launches : Bool :=
  e.request.launched e.result

/-- What the operation has counted by itself. -/
structure Counted : Prop where
  /-- A call through a handle is counted once: as dispatched if the host object
      was called, and else as dropped. -/
  dispatched : e.history.added e.op .callbacksDispatched =
    if e.dispatches && e.calls then 1 else 0
  dropped : e.history.added e.op .callbacksDropped = if e.dispatches && !e.calls then 1 else 0
  /-- A host object is called once at most, and only by such a call. -/
  uses : e.history.countBy e.op Event.isUse = if e.dispatches && e.calls then 1 else 0
  stale : e.history.added e.op .staleLookups = if e.misses then 1 else 0
  rejected : e.history.added e.op .resultsRejected = if e.repeats then 1 else 0
  duplicate : e.history.added e.op .duplicateReleases = if e.duplicates then 1 else 0
  failures : e.history.added e.op .attachFailures =
    .ofNat (e.history.countBy e.op isRefusal)
  helpers : e.history.added e.op .helpersLaunched = if e.launches then 1 else 0
  /-- Whoever delivers a second result is told so. -/
  told : ∀ outcome, e.request.outcome? e.result = some outcome →
    (e.repeats = true ↔ ∃ id, outcome = .error (.alreadyDelivered id))

end Ending

/-- What each moment of a run keeps to: an operation that ends has counted what
    it had to. -/
def Moment.Counts (m : Moment) (before : History) : Prop :=
  ∀ op thread q result, m.event = .ends op thread q result →
    ∃ s₀, ⟨.begins op thread q, s₀⟩ ∈ before ∧
      Ending.Counted ⟨op, q, result, s₀, m :: before⟩

namespace History

/-- The state that operation `op` began in. -/
def start? (op : Nat) : History → Option State
  | [] => none
  | m :: before =>
    match m.event with
    | .begins op' _ _ => if op' = op then some m.state else start? op before
    | _ => start? op before

/-- How operation `op` has ended. -/
def ending? (op : Nat) : History → Option Ending
  | [] => none
  | m :: before =>
    match m.event with
    | .ends op' _ q result =>
      if op' = op then (start? op before).map fun s => ⟨op, q, result, s, m :: before⟩
      else ending? op before
    | _ => ending? op before

/-- Every operation that has ended, in the order in which they began. -/
def endings (h : History) : List Ending :=
  (List.range h.begun).filterMap fun op => h.ending? op

end History

/-- A run of requests to a new registry, to its dispatcher and its bridge.  All
    of them may be nested, and the host may refuse what it likes. -/
structure WorkRun (s : State) (c : Situation) : Prop where
  empty : s.registry.entries = []
  reaches : Reaches (.initial s) c
  work : c.history.Only fun q => q.isCoreOrClose || q.isBridge

/-- What the counters have risen by since a run began in `s`. -/
structure Situation.Balanced (s : State) (c : Situation) : Prop where
  /-- Each call of a host object is counted, -/
  dispatched : c.state.counters.get .callbacksDispatched =
    s.counters.get .callbacksDispatched + .ofNat (c.history.countP (·.event.isUse))
  /-- and each call through a handle is counted as this or as that. -/
  callbacks :
    c.state.counters.get .callbacksDispatched + c.state.counters.get .callbacksDropped =
      s.counters.get .callbacksDispatched + s.counters.get .callbacksDropped +
        .ofNat (c.history.endings.countP (·.dispatches))
  stale : c.state.counters.get .staleLookups =
    s.counters.get .staleLookups + .ofNat (c.history.endings.countP (·.misses))
  rejected : c.state.counters.get .resultsRejected =
    s.counters.get .resultsRejected + .ofNat (c.history.endings.countP (·.repeats))
  duplicate : c.state.counters.get .duplicateReleases =
    s.counters.get .duplicateReleases + .ofNat (c.history.endings.countP (·.duplicates))
  failures : c.state.counters.get .attachFailures =
    s.counters.get .attachFailures + .ofNat c.history.refusals
  helpers : c.state.counters.get .helpersLaunched =
    s.counters.get .helpersLaunched + .ofNat (c.history.endings.countP (·.launches))

end Run

namespace Request

variable {q : Request} {d : DispatchRequest}

/-- A request to the dispatcher looks its handle up. -/
theorem looked?_of_dispatched? (h : q.dispatched? = some d) : q.looked? = some d.target := by
  unfold looked?
  split
  · cases h
  · rw [h, Option.map_some]

theorem freed?_of_dispatched? (h : q.dispatched? = some d) : q.freed? = none := by
  match q with
  | .dispatch _ => rfl
  | .callback ⟨true⟩ q =>
    cases q with
    | release => cases h
    | _ => rfl
  | .callback ⟨false⟩ _ | .registry _ | .library _ | .bridge _ | .entry _ | .log _ => cases h

end Request

namespace Run

variable {e : Engine} {op : Nat} {thread : Thread} {s s' : State} {h h' : History} {c : Call}
  {id : HandleId} {o : HostObject} {α : Type}
  {conduct : Moment → History → Prop}
  {law : (op : Nat) → Thread → (q : Request) → q.Result → State → History → Prop}

/-! ### Bills -/

/-- All that an operation adds to the counters, but for refusals. -/
def billed (duplicate dispatches called misses repeats launches : Bool) : List Counter :=
  (if duplicate then [.duplicateReleases] else []) ++
    ((if dispatches then [if called then .callbacksDispatched else .callbacksDropped] else []) ++
      ((if misses then [.staleLookups] else []) ++ if repeats then [.resultsRejected] else [])) ++
    if launches then [.helpersLaunched] else []

theorem count_billed : ∀ duplicate dispatches called misses repeats launches : Bool,
    let ks := billed duplicate dispatches called misses repeats launches
    ks.count .duplicateReleases = (if duplicate then 1 else 0) ∧
    ks.count .callbacksDispatched = (if dispatches && called then 1 else 0) ∧
    ks.count .callbacksDropped = (if dispatches && !called then 1 else 0) ∧
    ks.count .staleLookups = (if misses then 1 else 0) ∧
    ks.count .resultsRejected = (if repeats then 1 else 0) ∧
    ks.count .helpersLaunched = (if launches then 1 else 0) := by
  decide

/-- What is on the bill of an operation, by whether it has called a host
    object. -/
def Ending.bill (e : Ending) (called : Bool) : List Counter :=
  billed e.duplicates e.dispatches called e.misses e.repeats e.launches

/-- How operation `op` of `q`, which began in `s₀`, ends if it ends now. -/
abbrev Ending.now (op : Nat) (thread : Thread) (q : Request) (result : q.Result) (s₀ s : State)
    (h : History) : Ending :=
  ⟨op, q, result, s₀, ⟨.ends op thread q result, s⟩ :: h⟩

/-- Operation `op` of `q`, which began in `s₀`, may end: it has counted what is on
    its bill. -/
structure Paid (e : Engine) (s₀ : State) (q : Request) (op : Nat) (thread : Thread)
    (result : q.Result) (s : State) (h : History) : Prop where
  charged : ∃ called : Bool,
    (called = true → (Ending.now op thread q result s₀ s h).dispatches = true) ∧
    Tally (Serves e) ((Ending.now op thread q result s₀ s h).bill called)
      (if called then 1 else 0) 0 op s h
  told : ∀ outcome, q.outcome? result = some outcome →
    ((Ending.now op thread q result s₀ s h).repeats = true ↔
      ∃ id, outcome = .error (.alreadyDelivered id))

/-- Whoever has paid the bill has counted what there was to count. -/
theorem Paid.counted {s₀ : State} {q : Request} {result : q.Result}
    (hp : Paid e s₀ q op thread result s h) :
    (Ending.now op thread q result s₀ s h).Counted := by
  obtain ⟨⟨called, hcalled, tally⟩, told⟩ := hp
  let x := Ending.now op thread q result s₀ s h
  have ended : Event.arrives (.ends op thread q result) op := rfl
  have own : (Event.ends op thread q result).op = op := rfl
  -- the end itself adds nothing: what was spent before it is what is counted
  have uses : x.history.countBy op Event.isUse = if called then 1 else 0 := by
    have counted : x.history.countBy op Event.isUse = h.countBy op Event.isUse :=
      countBy_of_own own
    rw [counted, tally.uses]
  have calls : x.calls = called := by
    have decided : x.calls = decide (x.history.countBy op Event.isUse ≠ 0) := rfl
    rw [decided, uses]
    cases called <;> rfl
  have once : ∀ b : Bool, UInt64.ofNat (if b then 1 else 0) = if b then 1 else 0 := by decide
  subst calls
  have counted : ∀ k (b : Bool), k.ofTable = false → k ≠ .attachFailures →
      (x.bill x.calls).count k = (if b then 1 else 0) →
      x.history.added op k = if b then 1 else 0 := by
    intro k b hk hne hcount
    rw [← once, ← hcount, ← tally.spent k hk hne]
    exact added_arrive ended
  -- each counter stands on the bill once or not at all
  obtain ⟨duplicate, dispatched, dropped, stale, rejected, helpers⟩ :=
    count_billed x.duplicates x.dispatches x.calls x.misses x.repeats x.launches
  exact {
    dispatched := counted _ _ rfl (by decide) dispatched
    dropped := counted _ _ rfl (by decide) dropped
    uses := by
      show x.history.countBy op Event.isUse = if x.dispatches && x.calls then 1 else 0
      rw [uses]
      cases hc : x.calls with
      | false => rw [Bool.and_false]
      | true =>
        have dispatches : x.dispatches = true := hcalled hc
        rw [dispatches, Bool.and_true]
    stale := counted _ _ rfl (by decide) stale
    rejected := counted _ _ rfl (by decide) rejected
    duplicate := counted _ _ rfl (by decide) duplicate
    failures := by
      have refused : x.history.countBy op isRefusal = h.countBy op isRefusal := countBy_of_own own
      show x.history.added op .attachFailures = .ofNat (x.history.countBy op isRefusal)
      rw [refused, ← tally.failures]
      exact (added_arrive ended).trans (add_zero _).symm
    helpers := counted _ _ rfl (by decide) helpers
    told := told }

/-! ### The registry and the dispatcher -/

/-- What a request has to count that is known as it begins, but for refusals. -/
def dues (q : Request) (r : Registry) (called : Bool) : List Counter :=
  billed (q.freed?.any (!r.contains ·)) (q.dispatched?.any (·.counts)) called
    (q.looked?.any r.misses) (q.dispatched?.any (·.repeats r)) false

/-- Operation `op` of `q` has counted just that. -/
def Charged (e : Engine) (q : Request) (r : Registry) (op : Nat) (s : State) (h : History) :
    Prop :=
  ∃ called : Bool, (called = true → q.dispatched?.any (·.counts) = true) ∧
    Tally (Serves e) (dues q r called) (if called then 1 else 0) 0 op s h

namespace Charged

variable {q : Request} {r : Registry}

/-- A request to the dispatcher was served. -/
theorem of_served {d : DispatchRequest} {result : d.Result} (hd : q.dispatched? = some d)
    (hs : Served (Serves e) [] 0 op d r result s h) : Charged e q r op s h := by
  obtain ⟨called, hcalled, tally⟩ := hs.charged
  have looked : q.looked? = some d.target := Request.looked?_of_dispatched? hd
  have freed : q.freed? = none := Request.freed?_of_dispatched? hd
  have same : dues q r called = d.charges r called ++ [] := by
    simp [dues, billed, looked, freed, hd, DispatchRequest.charges, DispatchRequest.faults]
  refine ⟨called, fun hc => ?_, ?_⟩
  · rw [hd]
    exact hcalled hc
  · rw [same, ← Nat.zero_add (if called then 1 else 0)]
    exact tally

/-- Nothing was looked up, and nothing released. -/
theorem of_free (hd : q.dispatched? = none) (hl : q.looked? = none) (hf : q.freed? = none)
    (ht : Tally (Serves e) [] 0 0 op s h) : Charged e q r op s h := by
  have none : dues q r false = [] := by simp [dues, billed, hd, hl, hf]
  exact ⟨false, nofun, by rwa [none]⟩

/-- An id was looked up. -/
theorem of_look (hd : q.dispatched? = none) (hl : q.looked? = some id) (hf : q.freed? = none)
    (ht : Tally (Serves e) ((if r.misses id then [.staleLookups] else []) ++ []) 0 0 op s h) :
    Charged e q r op s h := by
  have same : dues q r false = (if r.misses id then [.staleLookups] else []) ++ [] := by
    simp [dues, billed, hd, hl, hf]
  exact ⟨false, nofun, by rwa [same]⟩

/-- An id was released. -/
theorem of_release {missed : Bool} (hd : q.dispatched? = none) (hl : q.looked? = none)
    (hf : q.freed?.any (!r.contains ·) = missed)
    (ht : Tally (Serves e) ((if missed then [.duplicateReleases] else []) ++ []) 0 0 op s h) :
    Charged e q r op s h := by
  have same : dues q r false = (if missed then [.duplicateReleases] else []) ++ [] := by
    simp [dues, billed, hd, hl, hf]
  exact ⟨false, nofun, by rwa [same]⟩

/-- The null handle is not released. -/
theorem missed (id : HandleId) :
    (if id.isNull then none else some id).any (!r.contains ·) = r.misses id := by
  cases hn : id.isNull <;> simp [Registry.misses, hn]

end Charged

/-- Every request to the registry. -/
theorem Tally.registry {q : RegistryRequest} (ht : Tally (Serves e) [] 0 0 op s h) :
    Nests (.closing (Serves e) conduct law) op thread
      (fun _ s' h' => Charged e (.registry q) s.registry op s' h') (q.operation thread s) h := by
  have parts : PinningParts fun m => (Nesting.closing (Serves e) conduct law).Carries
      (fun op _ s h => Tally (Serves e) [] 0 0 op s h) m := pinning Serves.lasts
  have changes : ∀ {α : Type} {f : State → α × State}, (∀ s, Steady s (f s).2) →
      (Nesting.closing (Serves e) conduct law).Carries
        (fun op _ s h => Tally (Serves e) [] 0 0 op s h) (Operation.modifyGet f) :=
    fun hf => carries_change Serves.lasts hf
  cases q with
  | register o k =>
    exact (parts.register (changes fun _ => .entering _ _) op thread s h ht).mono
      fun _ _ _ => .of_free rfl rfl rfl
  | look id => exact (ht.look Serves.lasts).mono fun _ _ _ => .of_look rfl rfl rfl
  | giveBack id => exact (parts.giveBack op thread s h ht).mono fun _ _ _ => .of_free rfl rfl rfl
  | release handle => exact (ht.release Serves.lasts).mono fun _ _ _ => .of_release rfl rfl rfl
  | releaseRaw id =>
    refine (ht.releaseRaw Serves.lasts).mono fun _ _ _ => .of_release rfl rfl ?_
    exact Charged.missed id
  | releaseIfPresent id =>
    exact (parts.releaseIfPresent (changes fun _ => .striking id) op thread s h ht).mono
      fun _ _ _ => .of_free rfl rfl rfl
  | close =>
    exact (parts.close (changes fun _ => .clearing) op thread s h ht).mono
      fun _ _ _ => .of_free rfl rfl rfl

/-- Every request to the registry or to the dispatcher. -/
theorem Tally.request {q : Request} (hq : q.isCoreOrClose = true)
    (ht : Tally (Serves e) [] 0 0 op s h) :
    Nests (.closing (Serves e) conduct law) op thread
      (fun _ s' h' => Charged e q s.registry op s' h') (q.operation thread s) h := by
  cases hd : q.dispatched? with
  | some d =>
    -- an engine asks for the same, and is told less
    obtain ⟨report, served, -⟩ := Request.operation_of_dispatched? hd
    rw [served]
    refine Nests.bind ((ht.dispatch Serves.lasts ht.holds.1 d).mono fun _ _ _ hx => ?_)
    exact .of_served hd hx
  | none =>
    match q with
    | .registry q => exact ht.registry
    -- a table that leads nowhere does nothing
    | .callback ⟨false⟩ q => exact .of_free hd (by cases q <;> rfl) (by cases q <;> rfl) ht
    | .callback ⟨true⟩ q =>
      cases q with
      | release handle =>
        refine Nests.bind ((ht.releaseRaw Serves.lasts).mono fun _ _ _ => .of_release rfl rfl ?_)
        cases hn : (HandleId.mk handle).isNull <;>
          simp [Request.freed?, Request.released?, Registry.misses, hn]
      | _ => cases hd
    | .dispatch d => cases hd
    | .library _ | .bridge _ | .entry _ | .log _ => cases hq

/-- Whoever is charged what its request says may end, where it has started no
    action and no helper. -/
theorem Paid.of_charged {s₀ : State} {q : Request} {result : q.Result}
    (hs : s₀.engine = .absent → q.started? result = none) (hl : q.launched result = false)
    (hc : Charged e (q.through s₀.libraryTable) s₀.registry op s h)
    (told : ∀ outcome, q.outcome? result = some outcome →
      ((q.through s₀.libraryTable).dispatched?.any (·.repeats s₀.registry) = true ↔
        ∃ id, outcome = .error (.alreadyDelivered id))) :
    Paid e s₀ q op thread result s h := by
  let x := Ending.now op thread q result s₀ s h
  have unanswered : x.answered? = none := by
    unfold Ending.answered?
    split
    · next absent => exact hs absent
    · rfl
  have dispatches : x.dispatches = x.asked.dispatched?.any (·.counts) := by
    simp [Ending.dispatches, unanswered]
  have same : ∀ called, x.bill called = dues (q.through s₀.libraryTable) s₀.registry called := by
    intro called
    have duplicates : x.duplicates = x.asked.freed?.any (!s₀.registry.contains ·) := by
      simp [Ending.duplicates, unanswered, x]
    have launches : x.launches = false := hl
    rw [Ending.bill, duplicates, dispatches, launches]
    rfl
  obtain ⟨called, hcalled, tally⟩ := hc
  refine ⟨⟨called, fun hc => ?_, ?_⟩, told⟩
  · show x.dispatches = true
    rw [dispatches]
    exact hcalled hc
  · show Tally (Serves e) (x.bill called) _ 0 op s h
    rwa [same]

/-! ### The bridge -/

/-- Requests to a bridge do nothing that is known as they begin, unless they
    have started an action or a helper. -/
theorem Paid.of_tally {s₀ : State} {q : BridgeRequest} {result : q.Result}
    (hs : s₀.engine = .absent → (Request.bridge q).started? result = none)
    (hl : (Request.bridge q).launched result = false)
    (ht : Tally (Serves e) [] 0 0 op s h) : Paid e s₀ (.bridge q) op thread result s h :=
  .of_charged hs hl (.of_free rfl rfl rfl ht) fun _ ho => by cases ho

/-- What a request to a bridge has to count is known as it ends. -/
theorem Ending.bill_bridge {q : BridgeRequest} {result : (Request.bridge q).Result} {s₀ : State}
    {called : Bool} :
    let x : Ending := ⟨op, .bridge q, result, s₀, h⟩
    x.bill called = billed (x.answered?.any (!h.struckBy op ·)) x.answered?.isSome called
      false false x.launches :=
  rfl

/-- A helper was launched, or not. -/
theorem Tally.startHelper {config : HelperConfig} {s₀ : State}
    (ht : Tally (Serves e) [] 0 0 op s h) :
    Nests (.closing (Serves e) conduct law) op thread
      (Paid e s₀ (.bridge (.startHelper config)) op thread)
      (Bridge.startHelper config thread s) h := by
  refine Nests.bind ((passing.launch op thread s h ht).mono fun result s₁ h₁ hx => ?_)
  cases result with
  | error err => exact .of_tally (fun _ => rfl) rfl hx
  | ok helper =>
    have counted : Nests (.closing (Serves e) conduct law) op thread
        (fun _ s' h' => Tally (Serves e) [.helpersLaunched] 0 0 op s' h')
        (CallbackBridge.bump .helpersLaunched thread s₁) h₁ :=
      carries_bump Serves.lasts (by decide) hx
    refine Nests.bind (counted.mono fun _ s₂ h₂ hy => ?_)
    let x := Ending.now op thread (.bridge (.startHelper config)) (.ok helper) s₀ s₂ h₂
    have unanswered : x.answered? = none := by
      unfold Ending.answered?
      split <;> rfl
    have same : x.bill false = [.helpersLaunched] := by
      rw [Ending.bill_bridge, unanswered]
      rfl
    refine ⟨⟨false, nofun, ?_⟩, fun _ ho => by cases ho⟩
    show Tally (Serves e) (x.bill false) 0 0 op s₂ h₂
    rwa [same]

/-- Nothing was counted, and nothing struck off. -/
def Blank (e : Engine) (op : Nat) (s : State) (h : History) : Prop :=
  Tally (Serves e) [] 0 0 op s h ∧ ∀ id, Watch e Spared id op s h

theorem Blank.carries {m : Operation α}
    (ht : (Nesting.closing (Serves e) conduct law).Carries
      (fun op _ s h => Tally (Serves e) [] 0 0 op s h) m)
    (hw : ∀ id, (Nesting.closing (Serves e) conduct law).Carries
      (fun op _ s h => Watch e Spared id op s h) m) :
    (Nesting.closing (Serves e) conduct law).Carries (fun op _ s h => Blank e op s h) m :=
  ht.and fun op thread s h hi => Nests.each .null fun id => hw id op thread s h (hi id)

theorem Blank.pinning : PinningParts fun m =>
    (Nesting.closing (Serves e) conduct law).Carries (fun op _ s h => Blank e op s h) m where
  toBasics := Nesting.Carries.basics_of_calls fun hc =>
    carries (Tally.basics.tell hc) fun _ => (Watch.parts Watch.spared).tell hc
  mild hf := carries ((Tally.pinning Serves.lasts).mild hf) fun _ =>
    (Watch.parts Watch.spared).touch fun s => (hf s).1
  pin := carries (Tally.carries_pin Serves.lasts) fun _ => (Watch.parts Watch.spared).pin
  unpin := carries (Tally.carries_unpin Serves.lasts) fun _ => (Watch.parts Watch.spared).unpin

/-- The operation has listed `id` just now. -/
structure Fresh (e : Engine) (id : HandleId) (k : HandleKind) (op : Nat) (s : State)
    (h : History) : Prop where
  tally : Tally (Serves e) [] 0 0 op s h
  watch : Watch e Spared id op s h
  listed : ∃ o, s.registry.listed? id = some (.fresh id o k)

namespace Fresh

variable {k : HandleKind}

theorem of_entering (hi : Blank e op s h) (he : Registry.entering o k s = (.ok id, s')) :
    Fresh e id k op s' h := by
  have steady : Steady s s' := by
    have entered : Steady s (Registry.entering o k s).2 := .entering o k
    rwa [he] at entered
  obtain ⟨r, henlist, rfl⟩ := Registry.entering_ok he
  have listed : r.listed? id = some (.fresh id o k) := by
    obtain ⟨-, -, rfl, rfl⟩ := Registry.enlist_ok henlist
    simp [Registry.listed?, Registration.fresh]
  -- what the last moment says of this id does not matter any more
  obtain ⟨serves, m, hm, spared, -⟩ := hi.2 id
  refine ⟨hi.1.change Serves.lasts steady, ⟨?_, m, hm, spared, fun _ => ?_⟩, o, listed⟩
  · exact Serves.lasts _ _ steady.sound steady.engine_eq serves
  · show r.contains id = true
    rw [Registry.contains, listed]
    rfl

theorem contains (hf : Fresh e id k op s h) : s.registry.contains id = true := by
  obtain ⟨o, ho⟩ := hf.listed
  rw [Registry.contains, ho]
  rfl

/-- While the entry is logged, nothing else happens. -/
theorem logs (id : HandleId) : Basics fun m =>
    (Nesting.closing (Serves e) conduct law).Carries (fun op _ s h => Fresh e id k op s h) m := by
  refine Nesting.Carries.basics_of_calls fun {c} hc op thread s h hf => ?_
  have counted : (Nesting.closing (Serves e) conduct law).Carries
      (fun op _ s h => Tally (Serves e) [] 0 0 op s h) (Operation.call c) := Tally.basics.tell hc
  have watched : (Nesting.closing (Serves e) conduct law).Carries
      (fun op _ s h => Watch e Spared id op s h) (Operation.call c) :=
    (Watch.parts Watch.spared).tell hc
  have kept : (Nesting.closing (Serves e) conduct law).Carries
      (fun _ _ s _ => ∃ o, s.registry.listed? id = some (.fresh id o k)) (Operation.call c) :=
    Nesting.closing_logs.tell hc
  refine ((counted.and (watched.and kept)) op thread s h ⟨hf.tally, hf.watch, hf.listed⟩).mono ?_
  exact fun _ _ _ hx => ⟨hx.1, hx.2.1, hx.2.2⟩

/-- The engine is handed the handle of a tunnel.  The stand-in gives it back. -/
theorem startTunnel {settings : TunnelSettings} (hf : Fresh e id k op s h) :
    Nests (.closing (Serves e) conduct law) op thread
      (fun _ s' h' => Tally (Serves e) [] 0 0 op s' h') (e.startTunnel id settings thread s) h := by
  cases e with
  | external =>
    exact Tally.carries_call (c := .engine (.startTunnel id settings)) rfl (fun _ => rfl)
      op thread s h hf.tally
  | linked =>
    exact Tally.basics.bind
      (Tally.carries_call (c := .library (.startTunnel id.raw settings)) rfl fun _ => rfl)
      (fun _ => Tally.basics.breadcrumb) op thread s h hf.tally
  | absent =>
    refine Nests.bind (((logs id).breadcrumb op thread s h hf).mono fun _ s₁ h₁ hf => ?_)
    -- only the log was called since the handle was listed
    have found : s₁.registry.misses id = false := by simp [Registry.misses, hf.contains]
    refine Nests.bind ((hf.tally.releaseRaw Serves.lasts).mono fun _ s₂ h₂ hx => ?_)
    rw [found] at hx
    exact hx

/-- The engine is handed the handle of an action. -/
theorem passAction {data : CString} (hf : Fresh e id k op s h) (hne : e ≠ .absent) :
    Nests (.closing (Serves e) conduct law) op thread
      (fun _ s' h' => Tally (Serves e) [] 0 0 op s' h') (e.invokeAction id data thread s) h := by
  cases e with
  | external =>
    exact Tally.carries_call (c := .engine (.invokeAction id data)) rfl (fun _ => rfl)
      op thread s h hf.tally
  | linked =>
    exact Tally.carries_call (c := .library (.invokeAction id.raw data)) rfl (fun _ => rfl)
      op thread s h hf.tally
  | absent => exact absurd rfl hne

/-- The result of an action is new, so nothing is wrong with its delivery. -/
theorem deliver (hf : Fresh e id .invoke op s h) (hn : id.isNull = false) :
    Nests (.closing (Serves e) conduct law) op thread (fun _ s' h' => ∃ called : Bool,
      Tally (Serves e) [if called then .callbacksDispatched else .callbacksDropped]
        (if called then 1 else 0) 0 op s' h' ∧ Watch e Steadied id op s' h')
      (Dispatch.deliverResult id .empty thread s) h := by
  let d : DispatchRequest := .deliverResult id .empty
  obtain ⟨o, ho⟩ := hf.listed
  have faultless : d.faults s.registry = [] := by
    refine d.faults_listed ho ?_
    simp [d, DispatchRequest.repeats, ho, Registration.fresh]
  have counts : d.counts = true := by simp [d, DispatchRequest.counts, hn]
  have served : Nests (.closing (Serves e) conduct law) op thread
      (Served (Serves e) [] 0 op d s.registry) (d.operation thread s) h :=
    hf.tally.dispatch Serves.lasts hf.tally.holds.1 d
  refine (served.and (hf.watch.deliverResult hn ho rfl rfl)).mono ?_
  rintro result s₁ h₁ ⟨served, watch⟩
  obtain ⟨called, -, tally⟩ := served.charged
  rw [DispatchRequest.charges, if_pos counts, faultless, Nat.zero_add] at tally
  exact ⟨called, tally, watch⟩

/-- The stand-in does nothing for the null handle. -/
theorem ignore (hf : Fresh .absent id k op s h) (hn : id.isNull = true) :
    Nests (.closing (Serves .absent) conduct law) op thread
      (fun _ s' h' => Tally (Serves .absent) [] 0 0 op s' h')
      (AbsentEngine.invokeAction id thread s) h := by
  have delivered : Dispatch.deliverResult id .empty = pure (.ok ()) := if_pos hn
  have released : Registry.releaseRaw id = pure false := if_pos hn
  refine Nests.bind (Nests.bind (p := Dispatch.deliverResult id .empty thread s) ?_)
  rw [delivered]
  refine Nests.bind ((Tally.basics.breadcrumb op thread s h hf.tally).mono fun _ s₁ h₁ ht => ?_)
  refine Nests.bind (p := Registry.releaseRaw id thread s₁) ?_
  rw [released]
  exact ht

/-- The stand-in answers an action, and gives its handle back unless somebody
    else has released it. -/
theorem answer (hf : Fresh e id .invoke op s h) (hn : id.isNull = false) :
    Nests (.closing (Serves e) conduct law) op thread (fun _ s' h' => ∃ struck called : Bool,
      (∀ q result, History.struckBy op id (⟨.ends op thread q result, s'⟩ :: h') = struck) ∧
      Tally (Serves e) (billed (!struck) true called false false false) (if called then 1 else 0) 0
        op s' h') (AbsentEngine.invokeAction id thread s) h := by
  refine Nests.bind (Nests.bind ((hf.deliver hn).mono ?_))
  rintro result s₁ h₁ ⟨called, tally, watch⟩
  refine Nests.bind (((Tally.basics.breadcrumb op thread s₁ h₁ tally).and
    ((Watch.parts Watch.steadied).breadcrumb op thread s₁ h₁ watch)).mono ?_)
  rintro _ s₂ h₂ ⟨tally, watch⟩
  refine Nests.bind (((tally.releaseRaw Serves.lasts).and (watch.releaseRaw hn)).mono ?_)
  rintro _ s₃ h₃ ⟨tally, watch⟩
  have missed : s₂.registry.misses id = !s₂.registry.contains id := by simp [Registry.misses, hn]
  have same : billed (!s₂.registry.contains id) true called false false false =
      (if s₂.registry.misses id then [.duplicateReleases] else []) ++
        [if called then .callbacksDispatched else .callbacksDropped] := by
    rw [missed]
    simp [billed]
  -- the operation has struck the handle off if it was still listed by then
  refine ⟨s₂.registry.contains id, called, fun q result => ?_, by rwa [same]⟩
  cases hc : s₂.registry.contains id with
  | true =>
    rw [hc] at watch
    have struck : Watch e StruckOff id op s₃ h₃ := watch
    exact struck.ends fun _ _ _ => StruckOff.arrives
  | false =>
    rw [hc] at watch
    have spared : Watch e Steadied id op s₃ h₃ := watch
    exact spared.ends fun _ _ _ => Steadied.arrives

end Fresh

/-- An engine that is handed the handle of an action answers it later.  The
    stand-in answers at once. -/
theorem Paid.of_fresh {data : CString} {callback : HostObject} {s₀ : State}
    (hf : Fresh e id .invoke op s h) (he : s₀.engine = e) :
    Nests (.closing (Serves e) conduct law) op thread
      (fun _ s' h' => Paid e s₀ (.bridge (.invokeAction data callback)) op thread (.ok id) s' h')
      (e.invokeAction id data thread s) h := by
  -- only the stand-in counts anything in this operation
  by_cases absent : e = .absent
  · subst absent
    cases hn : id.isNull with
    | true =>
      refine (hf.ignore hn).mono fun _ s₁ h₁ ht => .of_tally (fun _ => ?_) rfl ht
      exact if_pos hn
    | false =>
      refine (hf.answer hn).mono ?_
      rintro _ s₁ h₁ ⟨struck, called, struckBy, tally⟩
      let x := Ending.now op thread (.bridge (.invokeAction data callback)) (.ok id) s₀ s₁ h₁
      have answered : x.answered? = some id := by
        have started : x.answered? = if id.isNull then none else some id := if_pos he
        rw [started, hn]
        rfl
      have same : x.bill called = billed (!struck) true called false false false := by
        rw [Ending.bill_bridge, answered, Option.any_some, struckBy]
        rfl
      refine ⟨⟨called, fun _ => ?_, ?_⟩, fun _ ho => by cases ho⟩
      · show x.dispatches = true
        rw [Ending.dispatches, answered]
        rfl
      · show Tally (Serves .absent) (x.bill called) _ 0 op s₁ h₁
        rwa [same]
  · refine (hf.passAction absent).mono fun _ s₁ h₁ ht => .of_tally (fun he' => ?_) rfl ht
    exact absurd (he.symm.trans he') absent

/-- A callback object is registered, and what goes on with its handle pays. -/
theorem Blank.registered {q : BridgeRequest} {k : HandleKind}
    {next : Handle → Operation (Request.bridge q).Result}
    {fails : HandleError → Operation (Request.bridge q).Result} {s₀ : State}
    (hi : Blank e op s h)
    (hf : ∀ err s h, Tally (Serves e) [] 0 0 op s h →
      Nests (.closing (Serves e) conduct law) op thread (Paid e s₀ (.bridge q) op thread)
        (fails err thread s) h)
    (hn : ∀ handle s h, Fresh e handle.id k op s h →
      Nests (.closing (Serves e) conduct law) op thread (Paid e s₀ (.bridge q) op thread)
        (next handle thread s) h) :
    Nests (.closing (Serves e) conduct law) op thread (Paid e s₀ (.bridge q) op thread)
      ((do match ← Registry.register o k with
        | .error err => fails err
        | .ok handle => next handle : Operation (Request.bridge q).Result) thread s) h :=
  Blank.pinning.registered_nests Fresh.logs (fun _ _ _ _ _ => Fresh.of_entering) hi
    (fun err s h hi => hf err s h hi.1) hn

namespace Tally

variable {ks : List Counter} {n : Nat}

/-- The engine is told about a listener, or that there is none any more. -/
theorem setEventListener (ht : Tally (Serves e) ks n 0 op s h) :
    Nests (.closing (Serves e) conduct law) op thread
      (fun _ s' h' => Tally (Serves e) ks n 0 op s' h') (e.setEventListener id thread s) h := by
  cases e with
  | external =>
    exact carries_call (c := .engine (.setEventListener id)) rfl (fun _ => rfl) op thread s h ht
  | linked =>
    exact carries_call (c := .library (.setEventListener id.raw)) rfl (fun _ => rfl)
      op thread s h ht
  | absent => exact ht

/-- The listener slot has nothing to do with it. -/
theorem slot (ht : Tally (Serves e) ks n 0 op s h) (listener : ListenerSlot) :
    Tally (Serves e) ks n 0 op { s with listener } h :=
  ht.change Serves.lasts ⟨fun hr => hr, rfl, fun _ _ => rfl⟩

/-- A listener that is replaced is released, which is not counted. -/
theorem replaceListener {next : HandleId} (ht : Tally (Serves e) ks n 0 op s h) :
    Nests (.closing (Serves e) conduct law) op thread
      (fun _ s' h' => Tally (Serves e) ks n 0 op s' h')
      (Bridge.replaceListener next thread s) h := by
  have parts : PinningParts fun m => (Nesting.closing (Serves e) conduct law).Carries
      (fun op _ s h => Tally (Serves e) ks n 0 op s h) m := pinning Serves.lasts
  have strikes : ∀ {id}, (Nesting.closing (Serves e) conduct law).Carries
      (fun op _ s h => Tally (Serves e) ks n 0 op s h)
      (Operation.modifyGet (Registry.striking id)) :=
    carries_change Serves.lasts fun s => .striking _
  refine Bridge.replaceListener_nests parts.toBasics (fun _ _ listener ht => ht.slot listener)
    (fun _ => parts.releaseIfPresent strikes) ?_
  rw [ht.holds.2]
  exact ht.setEventListener

end Tally

/-- Every request to a bridge. -/
theorem Blank.bridge {q : BridgeRequest} {s₀ : State} (he : s₀.engine = e) (hi : Blank e op s h) :
    Nests (.closing (Serves e) conduct law) op thread (Paid e s₀ (.bridge q) op thread)
      (q.operation thread s) h := by
  have passes : q.hands = false → (∀ config, q ≠ .startHelper config) →
      (Nesting.closing (Serves e) conduct law).Carries
        (fun op _ s h => Tally (Serves e) [] 0 0 op s h) q.operation :=
    fun hands other => Tally.passing.bridge hands fun config hq => absurd hq (other config)
  cases q with
  | startTunnel o settings =>
    refine hi.registered (fun _ _ _ ht => .of_tally (fun _ => rfl) rfl ht) fun handle s₁ h₁ hf => ?_
    refine Nests.bind (((Fresh.logs handle.id).emit op thread s₁ h₁ hf).mono fun _ s₂ h₂ hf => ?_)
    simp only [Operation.bind_apply, Operation.state_apply, Progress.bind, hf.tally.holds.2]
    exact Nests.bind (hf.startTunnel.mono fun _ s₃ h₃ ht => .of_tally (fun _ => rfl) rfl ht)
  | invokeAction data o =>
    refine hi.registered (fun _ _ _ ht => .of_tally (fun _ => rfl) rfl ht) fun handle s₁ h₁ hf => ?_
    refine Nests.bind (((Fresh.logs handle.id).breadcrumb op thread s₁ h₁ hf).mono ?_)
    intro _ s₂ h₂ hf
    simp only [Operation.bind_apply, Operation.state_apply, Progress.bind, hf.tally.holds.2]
    exact Nests.bind (Paid.of_fresh hf he)
  | setEventListener callback =>
    have locked : Blank e op { s with listener.locked := true } h :=
      ⟨hi.1.slot _, fun id => (hi.2 id).change (fun hs => hs) rfl⟩
    cases callback with
    | none =>
      refine Nests.bind (p := Bridge.replaceListener .null thread _) ?_
      exact locked.1.replaceListener.mono fun _ s₁ h₁ ht => .of_tally (fun _ => rfl) rfl ht
    | some o =>
      refine locked.registered (fun err s h ht => ?_) fun handle s₁ h₁ hf => ?_
      · exact .of_tally (fun _ => rfl) rfl (ht.slot { s.listener with locked := false })
      · refine Nests.bind (hf.tally.replaceListener.mono fun _ s₂ h₂ ht => ?_)
        exact .of_tally (fun _ => rfl) rfl ht
  | startHelper config => exact hi.1.startHelper
  | _ =>
    refine (passes rfl (fun _ hq => by cases hq) op thread s h hi.1).mono ?_
    exact fun _ s₁ h₁ ht => .of_tally (fun _ => rfl) rfl ht

/-! ### Runs -/

/-- An operation ends once it has counted what it had to. -/
def billing (e : Engine) : Nesting :=
  .closing (Serves e)
    (fun m _ => ∀ op thread q, m.event = .begins op thread q →
      (q.isCoreOrClose || q.isBridge) = true)
    fun op thread q result s before => ∃ s₀, ⟨.begins op thread q, s₀⟩ ∈ before ∧
      Ending.Counted ⟨op, q, result, s₀, ⟨.ends op thread q result, s⟩ :: before⟩

theorem billing_kept (q : Request) : (billing e).Kept q := by
  intro thread s h numbered hs conduct
  have work : (q.isCoreOrClose || q.isBridge) = true := conduct _ _ _ rfl
  have other : ∀ m ∈ h, m.event.op ≠ h.begun := fun m hm => Nat.ne_of_lt (numbered m hm)
  have began : Blank e h.begun s (⟨.begins h.begun thread q, s⟩ :: h) :=
    ⟨.begins hs other, fun _ => .begins hs other⟩
  have paid : Nests (billing e) h.begun thread (Paid e s q h.begun thread) (q.operation thread s)
      (⟨.begins h.begun thread q, s⟩ :: h) := by
    match q with
    | .registry q =>
      refine (Tally.request rfl began.1).mono fun _ _ _ charged => ?_
      exact .of_charged (fun _ => rfl) rfl charged fun _ ho => by cases ho
    | .dispatch d =>
      refine (began.1.dispatch Serves.lasts hs.1 d).mono fun _ _ _ served => ?_
      exact .of_charged (fun _ => rfl) rfl (.of_served rfl served) served.answered
    | .callback table q =>
      refine (Tally.request rfl began.1).mono fun _ _ _ charged => ?_
      exact .of_charged (fun _ => rfl) rfl charged fun _ ho => by cases ho
    | .library q =>
      show Nests _ _ _ _ (LinkedEngine.serve q thread s) _
      rw [LinkedEngine.serve_eq]
      have served : Nests (billing e) h.begun thread
          (fun _ s' h' => Charged e (.callback (s.libraryTable.getD ⟨false⟩) q) s.registry
            h.begun s' h') ((s.libraryTable.getD ⟨false⟩).serve q thread s)
          (⟨.begins h.begun thread (.library q), s⟩ :: h) :=
        Tally.request (q := .callback (s.libraryTable.getD ⟨false⟩) q) rfl began.1
      refine served.mono fun _ _ _ charged => ?_
      exact .of_charged (fun _ => rfl) rfl charged fun _ ho => by cases ho
    | .bridge q => exact began.bridge hs.2
    | .entry _ | .log _ => cases work
  refine ⟨fun _ _ _ _ he => (by cases he), paid.grown.mono ?_⟩
  rintro result s' h' ⟨paid, grown⟩
  obtain ⟨_, _, tally⟩ := paid.charged
  refine ⟨fun op thread q result he => ?_, tally.holds, trivial⟩
  cases he
  exact ⟨s, grown.mem (List.mem_cons_self ..), paid.counted⟩

namespace History

theorem start?_eq {q : Request} (ha : h.Always Accounted) (hm : ⟨.begins op thread q, s⟩ ∈ h) :
    start? op h = some s := by
  induction h with
  | nil => cases hm
  | cons m before ih =>
    rcases List.mem_cons.mp hm with rfl | older
    · exact if_pos rfl
    · obtain ⟨event, s'⟩ := m
      cases event with
      | begins op' thread' q' =>
        -- it is the next operation that begins
        have next : op' = History.begun before := ha.1
        have earlier : op < History.begun before := op_lt_of_begins ha.2 older
        have other : op' ≠ op := by omega
        exact (if_neg other).trans (ih ha.2 older)
      | _ => exact ih ha.2 older

theorem ending?_of_ne {m : Moment} (hm : m.event.op ≠ op) :
    ending? op (m :: h) = ending? op h := by
  obtain ⟨event, s'⟩ := m
  cases event with
  | ends => exact if_neg hm
  | _ => rfl

/-- Each operation that has ended is counted once. -/
theorem countP_endings {p : Ending → Bool} :
    h.endings.countP p = ∑ op ∈ Finset.range h.begun, if (h.ending? op).any p then 1 else 0 := by
  -- by induction on how many operations are looked at
  have upTo : ∀ n, ((List.range n).filterMap fun op => h.ending? op).countP p =
      ∑ op ∈ Finset.range n, if (h.ending? op).any p then 1 else 0 := by
    intro n
    induction n with
    | zero => rfl
    | succ n ih =>
      rw [List.range_succ, List.filterMap_append, List.countP_append, ih, Finset.sum_range_succ]
      congr 1
      cases he : h.ending? n <;> simp [he]
  exact upTo h.begun

end History

theorem ofNat_sum (f : Nat → Nat) (n : Nat) :
    UInt64.ofNat (∑ op ∈ Finset.range n, f op) = ∑ op ∈ Finset.range n, UInt64.ofNat (f op) := by
  induction n with
  | zero => rfl
  | succ n ih => rw [Finset.sum_range_succ, UInt64.ofNat_add, ih, Finset.sum_range_succ]

/-- A counter has risen by what all operations have added to it. -/
theorem Reaches.risen {c : Situation} (hc : Reaches (.initial s) c) (k : Counter) :
    c.state.counters.get k = s.counters.get k +
      ∑ op ∈ Finset.range c.history.begun, c.history.added op k := by
  have traced := hc.traced
  cases heq : c.history with
  | nil =>
    rw [traced.none heq]
    exact (add_zero _).symm
  | cons m before =>
    have hl : m ∈ c.history.head? := by rw [heq]; rfl
    obtain ⟨first, hf⟩ : ∃ first, first ∈ c.history.getLast? := by
      rw [heq]
      exact ⟨_, List.getLast?_eq_some_getLast (List.cons_ne_nil _ _)⟩
    rw [← heq, sum_added hc.op_lt traced.still m hl first hf, traced.last m hl,
      traced.first first hf]
    grind

namespace WorkRun

variable {c : Situation} {k : Counter}

theorem counts (run : WorkRun s c) : c.history.Always Moment.Counts := by
  have initially : (billing s.engine).holds s [] := ⟨.of_entries_nil run.empty, rfl⟩
  refine (run.reaches.nested billing_kept initially run.work).always.imp ?_
  rintro ⟨event, s'⟩ before law op thread q result rfl
  exact law op thread q result rfl

/-- When no operation is in progress, each of them has ended, and has counted
    what it had to. -/
theorem ended (run : WorkRun s c) (rest : c.AtRest) (hop : op < c.history.begun) :
    ∃ x : Ending, c.history.ending? op = some x ∧ x.Counted ∧
      (∀ k, c.history.added op k = x.history.added x.op k) ∧
      ∀ sort, c.history.countBy op sort = x.history.countBy x.op sort := by
  obtain ⟨later, thread, q, result, s₁, before, heq, hl⟩ := run.reaches.ended rest hop
  have counts : c.history.Always Moment.Counts := run.counts
  have accounted : c.history.Always Accounted := run.reaches.accounted
  rw [heq] at counts accounted ⊢
  -- what follows its end belongs to other operations
  obtain ⟨s₀, began, counted⟩ := counts.split op thread q result rfl
  have older : History.Always Accounted before :=
    accounted.of_suffix ((List.suffix_cons ..).trans (List.suffix_append ..))
  refine ⟨_, ?_, counted, fun k => ?_, fun sort => ?_⟩
  · rw [unchanged (fun _ _ => ending?_of_ne) hl]
    have found : ending? op (⟨.ends op thread q result, s₁⟩ :: before) = _ := if_pos rfl
    rw [found, start?_eq older began]
    rfl
  · exact unchanged (fun _ _ => added_of_ne) hl
  · exact unchanged (fun _ _ => countBy_of_ne) hl

/-- A counter that each operation adds one to, if `p` holds of it. -/
theorem totals (run : WorkRun s c) (rest : c.AtRest) {p : Ending → Bool}
    (hp : ∀ x : Ending, x.Counted → x.history.added x.op k = if p x then 1 else 0) :
    c.state.counters.get k = s.counters.get k + .ofNat (c.history.endings.countP p) := by
  rw [run.reaches.risen k, countP_endings, ofNat_sum]
  congr 1
  refine Finset.sum_congr rfl fun op hop => ?_
  obtain ⟨x, hx, counted, hadded, -⟩ := run.ended rest (Finset.mem_range.mp hop)
  rw [hadded, hp x counted, hx, Option.any_some]
  cases p x <;> rfl

/-- A counter that counts events. -/
theorem totals_of_events (run : WorkRun s c) (rest : c.AtRest) {sort : Event → Bool}
    (hs : ∀ x : Ending, x.Counted →
      x.history.added x.op k = .ofNat (x.history.countBy x.op sort)) :
    c.state.counters.get k = s.counters.get k + .ofNat (c.history.countP (sort ·.event)) := by
  rw [run.reaches.risen k, ← sum_countBy run.reaches.op_lt, ofNat_sum]
  congr 1
  refine Finset.sum_congr rfl fun op hop => ?_
  obtain ⟨x, -, counted, hadded, hcount⟩ := run.ended rest (Finset.mem_range.mp hop)
  rw [hadded, hcount, hs x counted]

/-- Each call through a handle is counted as dispatched or as dropped. -/
theorem totals_of_dispatches (run : WorkRun s c) (rest : c.AtRest) :
    c.state.counters.get .callbacksDispatched + c.state.counters.get .callbacksDropped =
      s.counters.get .callbacksDispatched + s.counters.get .callbacksDropped +
        .ofNat (c.history.endings.countP (·.dispatches)) := by
  have split : c.history.endings.countP (·.dispatches) =
      c.history.endings.countP (fun x => x.dispatches && x.calls) +
        c.history.endings.countP (fun x => x.dispatches && !x.calls) := by
    rw [List.countP_eq_countP_filter_add _ _ fun x => x.calls, List.countP_filter,
      List.countP_filter]
  rw [run.totals rest fun x hx => hx.dispatched, run.totals rest fun x hx => hx.dropped, split,
    UInt64.ofNat_add]
  grind

end WorkRun

/-- However operations are nested, and whatever the host refuses: each operation
    counts what it has done, and where none is in progress the counters tell how
    often each thing has happened. -/
theorem counters_balanced {c : Situation} (run : WorkRun s c) :
    c.history.Always Moment.Counts ∧ (c.AtRest → c.Balanced s) := by
  refine ⟨run.counts, fun rest => ?_⟩
  exact {
    dispatched := run.totals_of_events rest fun x hx => by
      rw [hx.dispatched, hx.uses]
      split <;> rfl
    callbacks := run.totals_of_dispatches rest
    stale := run.totals rest fun x hx => hx.stale
    rejected := run.totals rest fun x hx => hx.rejected
    duplicate := run.totals rest fun x hx => hx.duplicate
    failures := run.totals_of_events rest fun x hx => hx.failures
    helpers := run.totals rest fun x hx => hx.helpers }

set_option maxRecDepth 4096 in
/-- The stand-in answers an action.  While the host takes the result, a second
    one arrives, the handle is released, and a third one finds it gone.  Then
    the host refuses the thread that gives the reference back, and the stand-in
    releases the handle once more. -/
def releasedWhileAnswered : Situation :=
  ((Situation.initial (State.initial 0)).play?
    [.start ⟨"host"⟩ (.bridge (.invokeAction .empty Sample.object)),
     .reply (.host .attach) (0 : Int32),
     .reply (.host (.pin Sample.object)) (some Sample.reference),
     .reply (.host .attach) (0 : Int32),
     .start ⟨"engine"⟩ (.callback ⟨true⟩ (.onResult 1 none)),
     .reply (.system .clock) (0 : UInt64),
     .reply (.system .clock) (0 : UInt64),
     .start ⟨"host"⟩ (.registry (.releaseRaw ⟨1⟩)),
     .start ⟨"engine"⟩ (.callback ⟨true⟩ (.onResult 1 none)),
     .reply (.system .clock) (0 : UInt64),
     .reply (.host (.onResult Sample.reference .empty)) (),
     .reply (.host .attach) (7 : Int32),
     .reply (.system .clock) (0 : UInt64),
     .reply (.system .clock) (0 : UInt64)]).get rfl

set_option maxRecDepth 4096 in
theorem counters_balanced_releasedWhileAnswered :
    WorkRun (State.initial 0) releasedWhileAnswered ∧
    releasedWhileAnswered.stack = [] ∧
    releasedWhileAnswered.state.counters.get .duplicateReleases = 1 ∧
    releasedWhileAnswered.Balanced (State.initial 0) := by
  have run : WorkRun (State.initial 0) releasedWhileAnswered :=
    ⟨rfl, Situation.reaches_get_play? _, by decide⟩
  exact ⟨run, rfl, rfl, (counters_balanced run).2 rfl⟩

end Run

end CallbackBridge
