import CallbackBridge.Proofs.Ids
import CallbackBridge.Proofs.Ledger.Claims

/-! # One-shot results

    An invoke handle takes one result.  Lookup, claim and attachment are
    separate steps, and between them foreign code may deliver again, call the
    handle as something else, or release it.

    Key ideas:

    1. The first delivery that finds the handle claims it as it begins, before
       any foreign code runs.  The registration remembers the claim.
    2. What the first delivery and each later one do from there on follows from
       their plans.
    3. A reference is registered under one id, so whoever calls an object calls
       it through its own handle. -/

namespace CallbackBridge.Run

open History

variable {s : State} {c : Situation} {id : HandleId} {o : HostObject} {kind : HandleKind}

/-! ### Registrations over time -/

/-- `id` was registered, for a use of some kind of an object. -/
def History.Registered (h : History) (id : HandleId) (kind : HandleKind) (o : HostObject) : Prop :=
  ∃ m ∈ h, ∃ e ∈ m.state.registry.entries, e.id = id ∧ e.kind = kind ∧ e.object = o

namespace History

variable {h : History} {m m' : Moment} {e e' : Registration}

/-- An id stands for one object and one kind for ever. -/
theorem same_registration (hs : h.Always Moment.Settled) (hm : m ∈ h) (hm' : m' ∈ h)
    (he : e ∈ m.state.registry.entries) (he' : e' ∈ m'.state.registry.entries)
    (hid : e.id = e'.id) : e.object = e'.object ∧ e.kind = e'.kind := by
  have hr := sound_of_mem hs hm
  have hr' := sound_of_mem hs hm'
  -- what the later registry has under the id, the earlier one had as well
  rcases rises_or_rises hs hm hm' with rises | rises
  · obtain ⟨e₀, he₀, hid₀, ho, hk, -⟩ := rises.kept e' he' (hid ▸ hr.issued e he)
    obtain rfl := hr.distinct.eq he he₀ (hid.trans hid₀.symm)
    exact ⟨ho, hk⟩
  · obtain ⟨e₀, he₀, hid₀, ho, hk, -⟩ := rises.kept e he (hid ▸ hr'.issued e' he')
    obtain rfl := hr'.distinct.eq he' he₀ (hid.symm.trans hid₀.symm)
    exact ⟨ho.symm, hk.symm⟩

end History

/-- What a moment finds in the table under an id is what was registered. -/
theorem History.Registered.listed?_eq (hs : c.history.Always Moment.Settled)
    (hreg : c.history.Registered id kind o) {m : Moment} (hm : m ∈ c.history)
    (hc : m.state.registry.contains id = true) :
    ∃ e, m.state.registry.listed? id = some e ∧ e.kind = kind ∧ e.object = o := by
  obtain ⟨m₀, hm₀, e₀, he₀, rfl, rfl, rfl⟩ := hreg
  obtain ⟨e, he, hid, hl⟩ := Registry.contains_iff.mp hc
  obtain ⟨ho, hk⟩ := same_registration hs hm hm₀ he he₀ hid
  exact ⟨e, hid ▸ (sound_of_mem hs hm).distinct.listed?_eq he hl, hk, ho⟩

/-! ### The law -/

/-- Operation `op` was started through the handle `id`. -/
def History.Through (h : History) (op : Nat) (id : HandleId) : Prop :=
  ∃ thread q d s, ⟨.begins op thread q, s⟩ ∈ h ∧ q.dispatched? = some d ∧ d.target = id

/-- What an operation was told first. -/
def History.toldFirst? (h : History) (op : Nat) : Option Exchange :=
  (exchanges op h).getLast?

/-- How a delivery to `o` goes that has claimed the result: it calls the object
    if and only if its thread was attached, and else reports that. -/
structure Delivery (op : Nat) (q : Request) (o : HostObject) (h : History) : Prop where
  /-- The object is called on an attached thread, and no other object is. -/
  called : ∀ call o', h.Calls op call → target? call = some o' →
    (∃ data, call = .host (.onResult o data)) ∧
      ∃ status s a, h.toldFirst? op = some ⟨.host .attach, status, s⟩ ∧
        AttachState.ofStatus status = .ok a
  /-- By its end the thread was attached and the object was called, or neither
      was. -/
  ended : ∀ thread result s, ⟨.ends op thread q result, s⟩ ∈ h →
    ∃ status s₁, h.toldFirst? op = some ⟨.host .attach, status, s₁⟩ ∧
      match AttachState.ofStatus status with
      | .ok _ => (∀ outcome, q.outcome? result = some outcome → outcome = .ok ()) ∧
        ∃ data, h.Calls op (.host (.onResult o data))
      | .error err =>
        (∀ outcome, q.outcome? result = some outcome → outcome = .error (.attach err)) ∧
        ∀ call, h.Calls op call → target? call = none

/-- What becomes of an invoke handle that was registered for `o`. -/
structure OneShot (id : HandleId) (o : HostObject) (c : Situation) : Prop where
  /-- A result is handed over through the handle once at most. -/
  heardThrough : c.history.AtMostOnce fun m => ∃ op thread o data,
    m.event = .calls op thread (.host (.onResult o data)) ∧ c.history.Through op id
  /-- Where the host hands out each reference once, the object takes one result
      at most. -/
  heard : c.history.FreshPins → c.history.AtMostOnce fun m => ∃ op thread data,
    m.event = .calls op thread (.host (.onResult o data))
  /-- The first delivery that finds the handle claims it. -/
  first : ∀ later op thread q s before,
    c.history = later ++ ⟨.begins op thread q, s⟩ :: before → q.delivered? = some id →
    s.registry.contains id = true → (∀ m ∈ before, ¬ m.Delivers id) → Delivery op q o c.history
  /-- Each later one calls nobody but the log and the clock, and is counted and
      rejected. -/
  others : ∀ later op thread q s before,
    c.history = later ++ ⟨.begins op thread q, s⟩ :: before → q.delivered? = some id →
    s.registry.contains id = true → (∃ m ∈ before, m.Delivers id) →
    (∀ call, c.history.Calls op call → call.mayReenter = false) ∧
    ∀ thread' result s', ⟨.ends op thread' q result, s'⟩ ∈ c.history →
      (∀ outcome, q.outcome? result = some outcome → outcome = .error (.alreadyDelivered id)) ∧
      s'.counters.get .resultsRejected = s.counters.get .resultsRejected + 1
  /-- Calls of another shape fail and reach nobody. -/
  wrongKind : ∀ op thread q d s, ⟨.begins op thread q, s⟩ ∈ c.history → q.dispatched? = some d →
    d.target = id → d.shape ≠ .result → s.registry.contains id = true →
    (∀ call, c.history.Calls op call → call.mayReenter = false) ∧
    ∀ thread' result s', ⟨.ends op thread' (.dispatch d) result, s'⟩ ∈ c.history →
      result = d.failure (.handle (.wrongKind id .invoke))
  /-- The claim is used up by deliveries, and by nothing else. -/
  claimed : c.history.Always fun m before => ∀ e ∈ m.state.registry.entries, e.id = id →
    (e.delivered = true ↔ ∃ m' ∈ before, m'.Delivers id)
  /-- The handle leaves the table where it is released, or with the table; a
      delivery does not remove it. -/
  stays : c.history.Always fun m before => ∀ m' ∈ before.head?,
    m'.state.registry.contains id = true → m.state.registry.contains id = true ∨ m'.Removes id

/-! ### Deliveries -/

namespace History

variable {h : History} {op : Nat} {thread thread' : Thread} {q : Request} {s' : State}

theorem toldFirst?_eq {later before : History} {m : Moment} {more : List Exchange} {x : Exchange}
    (heq : h = later ++ m :: before) (hx : exchanges op before = more ++ [x]) :
    h.toldFirst? op = some x := by
  obtain ⟨front, hfront⟩ := exchanges_suffix (suffix_of_split heq) op
  rw [toldFirst?, ← hfront, hx, ← List.append_assoc, List.getLast?_concat]

/-- On an errand a host object is used in one call, which comes right after the
    attachment. -/
theorem errand_calls (ha : h.Always Accounted) (hb : ⟨.begins op thread q, s⟩ ∈ h) {call : Call}
    {post : Option AttachError → q.Result → Prop}
    (hp : (q.operation thread s).Follows (.errand call post) [])
    {later before : History} {call' : Call}
    (heq : h = later ++ ⟨.calls op thread' call', s'⟩ :: before)
    {o' : HostObject} (ho : target? call' = some o') :
    call' = call ∧ made op before = [.host .attach] ∧
      ∃ status s₁ a, h.toldFirst? op = some ⟨.host .attach, status, s₁⟩ ∧
        AttachState.ofStatus status = .ok a := by
  obtain ⟨answered, -, ⟨rfl, status, s₁, a, told, accepted⟩ | upkeep⟩ :=
    calls_of_follows ha hb hp heq
  · have hfirst := toldFirst?_eq heq (told.trans (List.nil_append _).symm)
    refine ⟨rfl, ?_, status, s₁, a, hfirst, accepted⟩
    rw [answered, told]
    rfl
  · rw [show target? call' = none from upkeep] at ho
    cases ho

/-- An errand has ended with the call if its thread was attached, and else
    without a use of any host object. -/
theorem errand_ends (ha : h.Always Accounted) (hb : ⟨.begins op thread q, s⟩ ∈ h) {call : Call}
    {post : Option AttachError → q.Result → Prop}
    (hp : (q.operation thread s).Follows (.errand call post) []) {result : q.Result}
    (he : ⟨.ends op thread' q result, s'⟩ ∈ h) :
    ∃ status s₁, h.toldFirst? op = some ⟨.host .attach, status, s₁⟩ ∧
      match AttachState.ofStatus status with
      | .ok _ => post none result ∧ h.Calls op call
      | .error err => post (some err) result ∧
        ∀ call', h.Calls op call' → target? call' = none := by
  obtain ⟨later, before, heq⟩ := List.append_of_mem he
  obtain ⟨answered, more, status, s₁, told, hstatus⟩ := ends_of_follows ha hb hp heq
  have hfirst := toldFirst?_eq heq told
  refine ⟨status, s₁, hfirst, ?_⟩
  cases hs : AttachState.ofStatus status with
  | error err =>
    rw [hs] at hstatus
    refine ⟨hstatus.1, fun call' hcall => ?_⟩
    cases ho : target? call' with
    | none => rfl
    | some o' =>
      -- a host object is only used where the attachment was accepted
      obtain ⟨thread₂, s₂, hm⟩ := hcall
      obtain ⟨front, back, hsplit⟩ := List.append_of_mem hm
      obtain ⟨-, -, status', s₁', a, hfirst', accepted⟩ := errand_calls ha hb hp hsplit ho
      cases hfirst.symm.trans hfirst'
      rw [hs] at accepted
      cases accepted
  | ok a =>
    -- the plan was told the reply to the call, so the call was made
    rw [hs] at hstatus
    obtain ⟨hpost, x, hx, hcall⟩ := hstatus
    refine ⟨hpost, ?_⟩
    have made : call ∈ made op before := by
      rw [answered, told, List.map_append, List.mem_append, ← hcall]
      exact .inl (List.mem_map_of_mem hx)
    obtain ⟨thread₂, s₂, hm⟩ := calls_of_mem_made made
    exact ⟨thread₂, s₂, by simp [heq, hm]⟩

end History

namespace CoreRun

/-- A delivery that finds an invoke handle knows from the registration whether
    it is the first one. -/
theorem delivery (run : CoreRun s c) (hreg : c.history.Registered id .invoke o)
    {later before : History} {op : Nat} {thread : Thread} {q : Request} {s' : State}
    (heq : c.history = later ++ ⟨.begins op thread q, s'⟩ :: before)
    (hc : s'.registry.contains id = true) :
    ∃ e, s'.registry.listed? id = some e ∧ e.kind = .invoke ∧ e.object = o ∧
      s'.registry.Sound ∧ (e.delivered = true ↔ ∃ m ∈ before, m.Delivers id) := by
  obtain ⟨_, hb, -⟩ := run.booked
  have hm : ⟨.begins op thread q, s'⟩ ∈ c.history := by simp [heq]
  obtain ⟨e, hf, hk, ho⟩ := hreg.listed?_eq hb.settled hm hc
  obtain ⟨he, rfl, -⟩ := Registry.mem_of_listed? hf
  obtain ⟨_, hb'⟩ := (heq ▸ hb.always).split
  exact ⟨e, hf, hk, ho, hb'.sound, hb'.claimed e he hk⟩

/-- The first delivery that finds an invoke handle is an errand. -/
theorem first_follows (run : CoreRun s c) (hreg : c.history.Registered id .invoke o)
    {later before : History} {op : Nat} {thread : Thread} {q : Request} {s' : State}
    (heq : c.history = later ++ ⟨.begins op thread q, s'⟩ :: before) (hq : q.delivered? = some id)
    (hc : s'.registry.contains id = true) (hfirst : ∀ m ∈ before, ¬ m.Delivers id) :
    ∃ data, (q.operation thread s').Follows
      (.errand (.host (.onResult o data)) fun err result => ∃ r, Dispatch.Tried err r ∧
        ∀ outcome, q.outcome? result = some outcome → some r = some outcome) [] := by
  obtain ⟨e, hf, hk, rfl, hr, hd⟩ := run.delivery hreg heq hc
  obtain ⟨known, data, hdisp⟩ := Request.dispatched?_of_delivered? hq
  -- the claim is the registration's, and it has seen no delivery yet
  have unclaimed : e.delivered = false := by
    rw [Bool.eq_false_iff]
    intro hdel
    obtain ⟨m, hm, hdeliv⟩ := hd.mp hdel
    exact hfirst m hm hdeliv
  exact ⟨data, Request.errand_of_dispatched? hdisp
    (Dispatch.deliverResult_claims known hr hf hk unclaimed)⟩

theorem first_delivers (run : CoreRun s c) (hreg : c.history.Registered id .invoke o)
    {later before : History} {op : Nat} {thread : Thread} {q : Request} {s' : State}
    (heq : c.history = later ++ ⟨.begins op thread q, s'⟩ :: before) (hq : q.delivered? = some id)
    (hc : s'.registry.contains id = true) (hfirst : ∀ m ∈ before, ¬ m.Delivers id) :
    Delivery op q o c.history := by
  have ha := run.reaches.accounted
  have hb : ⟨.begins op thread q, s'⟩ ∈ c.history := by simp [heq]
  obtain ⟨data, hp⟩ := run.first_follows hreg heq hq hc hfirst
  constructor
  · intro call o' ⟨thread₂, s₂, hm⟩ ho
    obtain ⟨front, back, hsplit⟩ := List.append_of_mem hm
    obtain ⟨rfl, -, accepted⟩ := errand_calls ha hb hp hsplit ho
    exact ⟨⟨data, rfl⟩, accepted⟩
  · intro thread' result s'' he
    obtain ⟨status, s₁, hfirst?, hstatus⟩ := errand_ends ha hb hp he
    refine ⟨status, s₁, hfirst?, ?_⟩
    cases hs : AttachState.ofStatus status with
    | error err =>
      rw [hs] at hstatus
      obtain ⟨⟨r, rfl, hout⟩, uncalled⟩ := hstatus
      exact ⟨fun outcome ho => (Option.some.inj (hout outcome ho)).symm, uncalled⟩
    | ok a =>
      rw [hs] at hstatus
      obtain ⟨⟨r, ⟨u, rfl⟩, hout⟩, called⟩ := hstatus
      exact ⟨fun outcome ho => (Option.some.inj (hout outcome ho)).symm, data, called⟩

theorem others_follow (run : CoreRun s c) (hreg : c.history.Registered id .invoke o)
    {later before : History} {op : Nat} {thread : Thread} {q : Request} {s' : State}
    (heq : c.history = later ++ ⟨.begins op thread q, s'⟩ :: before) (hq : q.delivered? = some id)
    (hc : s'.registry.contains id = true) (hd : ∃ m ∈ before, m.Delivers id) :
    (∀ call, c.history.Calls op call → call.mayReenter = false) ∧
    ∀ thread' result s'', ⟨.ends op thread' q result, s''⟩ ∈ c.history →
      (∀ outcome, q.outcome? result = some outcome → outcome = .error (.alreadyDelivered id)) ∧
      s''.counters.get .resultsRejected = s'.counters.get .resultsRejected + 1 := by
  have ha := run.reaches.accounted
  have hb : ⟨.begins op thread q, s'⟩ ∈ c.history := by simp [heq]
  obtain ⟨e, hf, hk, rfl, hr, hdel⟩ := run.delivery hreg heq hc
  obtain ⟨known, data, hdisp⟩ := Request.dispatched?_of_delivered? hq
  have rejects : (Dispatch.deliverResult id data).Quiet thread s' _ :=
    Dispatch.deliverResult_rejects known hr hf hk (hdel.mpr hd)
  have hp := Request.follows_of_dispatched? (d := .deliverResult id data) hdisp (rejects [])
  constructor
  · intro call ⟨thread₂, s₂, hm⟩
    obtain ⟨front, back, hsplit⟩ := List.append_of_mem hm
    exact (calls_of_follows ha hb hp hsplit).2.2
  · intro thread' result s'' he
    obtain ⟨front, back, hsplit⟩ := List.append_of_mem he
    obtain ⟨-, r, ⟨-, rfl, hcount⟩, hout⟩ := ends_of_follows ha hb hp hsplit
    exact ⟨fun outcome ho => (Option.some.inj (hout outcome ho)).symm, hcount⟩

/-! ### Calls through the handle -/

/-- Only the first delivery uses an object through an invoke handle, and it
    does so once. -/
theorem use_through (run : CoreRun s c) (hreg : c.history.Registered id .invoke o)
    (hn : id.isNull = false) {op : Nat} (ht : c.history.Through op id) {later before : History}
    {thread : Thread} {call : Call} {s' : State} {o' : HostObject}
    (heq : c.history = later ++ ⟨.calls op thread call, s'⟩ :: before)
    (ho : target? call = some o') :
    made op before = [.host .attach] ∧
      ∃ later₀ thread₀ q₀ s₀ before₀,
        c.history = later₀ ++ ⟨.begins op thread₀ q₀, s₀⟩ :: before₀ ∧
        Moment.Delivers ⟨.begins op thread₀ q₀, s₀⟩ id ∧ ∀ m ∈ before₀, ¬ m.Delivers id := by
  have hm : ⟨.calls op thread call, s'⟩ ∈ c.history := by simp [heq]
  have loud : ¬ ∀ call, c.history.Calls op call → call.mayReenter = false := by
    intro quiet
    have none : target? call = none := Upkeep.of_quiet (quiet call ⟨thread, s', hm⟩)
    rw [none] at ho
    cases ho
  obtain ⟨thread₀, q₀, d, s₀, hm₀, hd, rfl⟩ := ht
  obtain ⟨later₀, before₀, heq₀⟩ := List.append_of_mem hm₀
  -- by how the operation found the handle, and by what it wanted of it
  cases hc : s₀.registry.contains d.target with
  | false =>
    exact absurd (run.quiet_of_refusal hm₀ hd hn (Dispatch.refusal?_released hc)) loud
  | true =>
    obtain ⟨e, hf, hk, -⟩ := run.delivery hreg heq₀ hc
    by_cases hshape : d.shape = .result
    · cases d with
      | deliverResult id data =>
        have hq := Request.delivered?_of_dispatched? hd hn
        have hfirst : ∀ m ∈ before₀, ¬ m.Delivers id := fun m hm hdel =>
          loud (run.others_follow hreg heq₀ hq hc ⟨m, hm, hdel⟩).1
        obtain ⟨data', hp⟩ := run.first_follows hreg heq₀ hq hc hfirst
        obtain ⟨-, hmade, -⟩ := errand_calls run.reaches.accounted hm₀ hp heq ho
        exact ⟨hmade, later₀, thread₀, q₀, s₀, before₀, heq₀, ⟨op, thread₀, q₀, rfl, hq, hc⟩,
          hfirst⟩
      | _ => cases hshape
    · exact absurd (run.quiet_of_refusal hm₀ hd hn (Dispatch.refusal?_invoke hf hk hshape)) loud

theorem heardThrough (run : CoreRun s c) (hreg : c.history.Registered id .invoke o)
    (hn : id.isNull = false) :
    c.history.AtMostOnce fun m => ∃ op thread o data,
      m.event = .calls op thread (.host (.onResult o data)) ∧ c.history.Through op id := by
  apply always_of_split
  intro later m before heq hm m' hm' hm''
  obtain ⟨e, s₁⟩ := m
  obtain ⟨e', s₁'⟩ := m'
  obtain ⟨op, thread, o₁, data, rfl, ht⟩ := hm
  obtain ⟨op', thread', o₁', data', rfl, ht'⟩ := hm''
  obtain ⟨hmade, _, _, _, _, _, hsplit, hdel, hfirst⟩ := run.use_through hreg hn ht heq rfl
  obtain ⟨front, back, hback⟩ := List.append_of_mem hm'
  have heq' : c.history = (later ++ ⟨.calls op thread (.host (.onResult o₁ data)), s₁⟩ :: front) ++
      ⟨.calls op' thread' (.host (.onResult o₁' data')), s₁'⟩ :: back := by
    rw [heq, hback, List.append_assoc, List.cons_append]
  obtain ⟨-, _, _, _, _, _, hsplit', hdel', hfirst'⟩ := run.use_through hreg hn ht' heq' rfl
  -- both calls belong to the first delivery, which had called nothing like it before
  cases first_unique (hsplit.symm.trans hsplit') hdel hdel' hfirst hfirst'
  have hmem := mem_made hm' rfl
  rw [hmade] at hmem
  cases List.mem_singleton.mp hmem

/-- A host object is used through a handle that it was registered under. -/
theorem through_of_use (run : CoreRun s c) {op : Nat} {thread : Thread} {call : Call} {s' : State}
    (hm : ⟨.calls op thread call, s'⟩ ∈ c.history) (ho : target? call = some o) :
    ∃ id kind, c.history.Through op id ∧ c.history.Registered id kind o := by
  have ha := run.reaches.accounted
  have loud : ¬ Upkeep call := by
    intro upkeep
    rw [show target? call = none from upkeep] at ho
    cases ho
  obtain ⟨later, before, heq⟩ := List.append_of_mem hm
  obtain ⟨-, q, s₀, began, -⟩ := (heq ▸ ha).split
  have hb : ⟨.begins op thread q, s₀⟩ ∈ c.history := by simp [heq, began]
  have core : q.isCoreOrClose = true := always_iff.mp run.core _ hb _ _ _ rfl
  -- all but a call that finds its handle is upkeep
  cases hd : q.dispatched? with
  | none =>
    exact absurd (calls_of_within ha hb (Request.upkeep_of_dispatched? core hd _ _ _) hm) loud
  | some d =>
    cases hn : d.target.isNull with
    | true =>
      have quiet := calls_of_within ha hb
        (Request.follows_of_quiet hd (DispatchRequest.ignores hn)) hm
      exact absurd (Upkeep.of_quiet quiet) loud
    | false =>
      cases hf : s₀.registry.listed? d.target with
      | none =>
        have refusal : Dispatch.refusal? s₀.registry d.shape d.target =
            some (.released d.target) := by rw [Dispatch.refusal?, hf]
        have quiet := run.quiet_of_refusal hb hd hn refusal call ⟨thread, s', hm⟩
        exact absurd (Upkeep.of_quiet quiet) loud
      | some e =>
        have upon := calls_of_within ha hb
          (Request.within_of_dispatched? hd (DispatchRequest.follows hn hf)) hm
        obtain ⟨he, hid, -⟩ := Registry.mem_of_listed? hf
        exact ⟨d.target, e.kind, ⟨thread, q, d, s₀, hb, hd, rfl⟩,
          ⟨_, hb, e, he, hid, rfl, (upon o ho).symm⟩⟩

theorem heard (run : CoreRun s c) (hreg : c.history.Registered id .invoke o)
    (hn : id.isNull = false) (fresh : c.history.FreshPins) :
    c.history.AtMostOnce fun m => ∃ op thread data,
      m.event = .calls op thread (.host (.onResult o data)) := by
  obtain ⟨tokens, hb, -⟩ := run.booked
  apply (run.heardThrough hreg hn).of_imp
  rintro ⟨e, s'⟩ hm ⟨op, thread, data, hev⟩
  simp only at hev
  subst hev
  refine ⟨op, thread, o, data, rfl, ?_⟩
  -- the handle that the object was called through can only be this one
  obtain ⟨id', kind, through, hreg'⟩ := run.through_of_use hm rfl
  obtain ⟨m, hm, e, he, hid, -, ho⟩ := hreg
  obtain ⟨m', hm', e', he', hid', -, ho'⟩ := hreg'
  have same : id' = id := (hb.unshared fresh).unique id' id o
    (.inr ⟨m', hm', e', he', hid', ho'⟩) (.inr ⟨m, hm, e, he, hid, ho⟩)
  rwa [same] at through

theorem wrongKind (run : CoreRun s c) (hreg : c.history.Registered id .invoke o)
    (hn : id.isNull = false) {op : Nat} {thread : Thread} {q : Request} {d : DispatchRequest}
    {s' : State} (hb : ⟨.begins op thread q, s'⟩ ∈ c.history) (hd : q.dispatched? = some d)
    (htarget : d.target = id) (hshape : d.shape ≠ .result)
    (hc : s'.registry.contains id = true) :
    (∀ call, c.history.Calls op call → call.mayReenter = false) ∧
    ∀ thread' result s'', ⟨.ends op thread' (.dispatch d) result, s''⟩ ∈ c.history →
      result = d.failure (.handle (.wrongKind id .invoke)) := by
  subst htarget
  have ha := run.reaches.accounted
  obtain ⟨e, hf, hk, -⟩ := hreg.listed?_eq run.settled hb hc
  have refusal := Dispatch.refusal?_invoke hf hk hshape
  refine ⟨run.quiet_of_refusal hb hd hn refusal, fun thread' result s'' he => ?_⟩
  obtain rfl := request_of_ends ha hb he
  have refused : d.operation.Quiet thread s' fun r _ =>
      r = d.failure (.handle (.wrongKind d.target .invoke)) :=
    DispatchRequest.refused hn (sound_of_mem run.settled hb) refusal
  exact result_of_within ha hb (refused.follows fun _ h => h) he

/-- A listener takes any number of results. -/
theorem never_rejected (run : CoreRun s c) (hreg : c.history.Registered id .listener o)
    (hn : id.isNull = false) {op : Nat} {thread : Thread} {d : DispatchRequest}
    {result : d.Result} {s' : State}
    (he : ⟨.ends op thread (.dispatch d) result, s'⟩ ∈ c.history) (htarget : d.target = id) :
    ¬ d.Rejected result := by
  subst htarget
  obtain ⟨s₀, hb, hresult⟩ := run.exists_begins he
  cases hc : s₀.registry.contains d.target with
  | true =>
    obtain ⟨e, hf, hk, -⟩ := hreg.listed?_eq run.settled hb hc
    exact hresult _ _ (DispatchRequest.follows hn hf) (by simp [hk])
  | false =>
    have refused : d.operation.Quiet thread s₀ fun r _ =>
        r = d.failure (.handle (.released d.target)) :=
      DispatchRequest.refused hn (sound_of_mem run.settled hb) (Dispatch.refusal?_released hc)
    rw [hresult _ _ (refused.follows fun _ h => h)]
    exact d.not_rejected_failure

end CoreRun

/-- Every invoke handle takes one result, and listeners take any number.  A new
    registry issues 1 first, so no handle is null. -/
theorem results_once (run : CoreRun s c) (first : 1 ≤ s.registry.nextId) :
    (∀ id o, c.history.Registered id .invoke o → OneShot id o c) ∧
    ∀ id o, c.history.Registered id .listener o → ∀ op thread d result s',
      ⟨.ends op thread (.dispatch d) result, s'⟩ ∈ c.history → d.target = id →
      ¬ d.Rejected result := by
  obtain ⟨_, hb, -⟩ := run.booked
  have known : ∀ {id kind o}, c.history.Registered id kind o → id.isNull = false := by
    rintro _ _ _ ⟨m, hm, e, he, rfl, -⟩
    exact run.known first hm he
  refine ⟨fun id o hreg => ?_, ?_⟩
  · refine ⟨run.heardThrough hreg (known hreg), run.heard hreg (known hreg), ?_, ?_, ?_, ?_, ?_⟩
    · intro later op thread q s' before heq hq hc hfirst
      exact run.first_delivers hreg heq hq hc hfirst
    · intro later op thread q s' before heq hq hc hd
      exact run.others_follow hreg heq hq hc hd
    · intro op thread q d s' hbegins hd htarget hshape hc
      exact run.wrongKind hreg (known hreg) hbegins hd htarget hshape hc
    · -- the books tell who has claimed the result
      apply always_of_split
      intro later m before heq e he hid
      subst hid
      obtain ⟨m₀, hm₀, e₀, he₀, hid₀, hk₀, -⟩ := hreg
      have hm : m ∈ c.history := by simp [heq]
      obtain ⟨-, hk⟩ := same_registration hb.settled hm hm₀ he he₀ hid₀.symm
      obtain ⟨_, hb'⟩ := (heq ▸ hb.always).split
      exact hb'.claimed e he (hk.trans hk₀)
    · apply hb.always.imp
      intro m before hx m' hm' hc
      obtain ⟨_, hb'⟩ := hx
      exact hb'.contains_of_last hm' hc
  · intro id o hreg op thread d result s' he htarget
    exact run.never_rejected hreg (known hreg) he htarget

/-- A result is delivered from inside the attachment of an earlier one, and the
    handle is called as a tunnel there. -/
def deliveredInside : Situation :=
  ((Situation.initial (.initial 0)).play?
    [.start ⟨"host"⟩ (.registry (.register Sample.object .invoke)),
     .reply (.host .attach) (0 : Int32),
     .reply (.host (.pin Sample.object)) (some Sample.reference),
     .start ⟨"engine"⟩ (.dispatch (.deliverResult ⟨1⟩ .empty)),
     .start ⟨"engine"⟩ (.dispatch (.deliverResult ⟨1⟩ .empty)),
     .reply (.system .clock) (0 : UInt64),
     .reply (.system .clock) (0 : UInt64),
     .start ⟨"engine"⟩ (.dispatch (.protect ⟨1⟩ 3)),
     .reply (.system .clock) (0 : UInt64),
     .reply (.host .attach) (0 : Int32),
     .reply (.host (.onResult Sample.reference .empty)) ()]).get rfl

set_option maxRecDepth 4096 in
theorem results_once_deliveredInside :
    CoreRun (.initial 0) deliveredInside ∧ 1 ≤ (State.initial 0).registry.nextId ∧
      deliveredInside.history.Registered ⟨1⟩ .invoke Sample.reference ∧
      deliveredInside.state.counters.get .resultsRejected = 1 ∧
      OneShot ⟨1⟩ Sample.reference deliveredInside := by
  have run : CoreRun (.initial 0) deliveredInside :=
    ⟨rfl, Situation.reaches_get_play? _, by decide, by decide⟩
  have first : 1 ≤ (State.initial 0).registry.nextId := by decide
  have registered : deliveredInside.history.Registered ⟨1⟩ .invoke Sample.reference := by
    refine ⟨_, List.mem_of_mem_head? (rfl : deliveredInside.history.head? = _), ?_⟩
    exact ⟨_, List.mem_cons_self .., rfl, rfl, rfl⟩
  exact ⟨run, first, registered, rfl, (results_once run first).1 _ _ registered⟩

end CallbackBridge.Run
