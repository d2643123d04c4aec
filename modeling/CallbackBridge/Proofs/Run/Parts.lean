import CallbackBridge.Proofs.Registry.Sound
import CallbackBridge.Proofs.Run.Nesting

/-! # The parts of operations

    Every operation is put together from a few kinds of smallest parts.  A
    property of operations that sequences keep holds of them all as soon as it
    holds of these.

    Key ideas:

    1. Most changes of the state are a `Touch`: they list no handle and delist
       none.  What does is told apart: a handle enters the table together with
       its count, and is struck off together with its count.
    2. The host is only visited between an attachment and its end, so such a
       visit is one part.
    3. `Parts` lists what a property has to be shown for.  One lemma for each
       function of the bridge follows. -/

namespace CallbackBridge

/-! ### Changes -/

/-- A counter that tells nothing about the table. -/
def Counter.idle : Counter → Bool
  | .handlesRegistered | .handlesReleased | .duplicateReleases => false
  | .staleLookups | .callbacksDispatched | .callbacksDropped | .attachFailures
  | .resultsRejected | .helpersLaunched => true

/-- A change that lists no handle and delists none. -/
inductive Touch (s : State) : State → Prop
  | none : Touch s s
  | bump {k : Counter} : k.idle = true → Touch s { s with counters := s.counters.bump k }
  | limit (limiter : Log.Limiter) : Touch s { s with limiter }
  | lend (id : HandleId) : Touch s { s with registry := s.registry.lend id }
  | claim (id : HandleId) : Touch s { s with registry := s.registry.markDelivered id }
  | giveBack (id : HandleId) : Touch s { s with registry := (s.registry.returnLoan id).2 }

namespace Touch

variable {s s' : State}

theorem sound (ht : Touch s s') (hr : s.registry.Sound) : s'.registry.Sound := by
  cases ht with
  | none | bump | limit => exact hr
  | lend => exact hr.lend
  | claim => exact hr.markDelivered
  | giveBack => exact hr.returnLoan rfl

theorem rises (ht : Touch s s') : s.registry.Rises s'.registry := by
  cases ht with
  | none | bump | limit => exact .refl _
  | lend => exact .lend
  | claim => exact .markDelivered
  | giveBack => exact .returnLoan rfl

theorem spares (ht : Touch s s') (hr : s.registry.Sound) {gone : HandleId → Prop} :
    s.registry.Spares gone s'.registry := by
  cases ht with
  | none | bump | limit => exact .refl _
  | lend => exact .lend
  | claim => exact .markDelivered
  | giveBack => exact .returnLoan hr rfl

theorem policy_eq (ht : Touch s s') : s'.registry.policy = s.registry.policy :=
  ht.rises.policy

theorem engine_eq (ht : Touch s s') : s'.engine = s.engine := by
  cases ht <;> rfl

theorem contains_eq {id : HandleId} (ht : Touch s s') (hr : s.registry.Sound) :
    s'.registry.contains id = s.registry.contains id := by
  cases ht with
  | none | bump | limit => rfl
  | lend => exact Registry.contains_lend
  | claim => exact Registry.contains_markDelivered
  | giveBack => exact Registry.contains_returnLoan rfl hr.distinct

/-- A change brings no registration into the table. -/
theorem stems (ht : Touch s s') :
    ∀ e' ∈ s'.registry.entries, ∃ e ∈ s.registry.entries, e.id = e'.id := by
  have same : ∀ e' ∈ s.registry.entries, ∃ e ∈ s.registry.entries, e.id = e'.id :=
    fun e he => ⟨e, he, rfl⟩
  cases ht with
  | none | bump | limit => exact same
  | lend id => exact fun e' he' => (Registry.Retains.lend e' he').imp fun _ h => ⟨h.1, h.2.1⟩
  | claim id =>
    intro e' he'
    obtain ⟨e, he, rfl⟩ := Registry.mem_update.mp he'
    refine ⟨e, he, ?_⟩
    split <;> rfl
  | giveBack id =>
    exact fun e' he' => (Registry.Retains.returnLoan rfl e' he').imp fun _ h => ⟨h.1, h.2.1⟩

end Touch

namespace Registry

/-- A pinned object enters the table, and that is counted. -/
def entering (pinned : HostObject) (kind : HandleKind) (s : State) :
    Except HandleError HandleId × State :=
  match s.registry.enlist pinned kind with
  | (.error e, _) => (.error e, s)
  | (.ok id, registry) =>
    (.ok id, { s with registry, counters := s.counters.bump .handlesRegistered })

/-- Where nothing enters the table, nothing changes. -/
theorem entering_error {pinned : HostObject} {kind : HandleKind} {s s' : State} {e : HandleError}
    (h : entering pinned kind s = (.error e, s')) : s' = s := by
  unfold entering at h
  split at h <;> cases h
  rfl

/-- What enters the table is a fresh registration. -/
theorem entering_ok {pinned : HostObject} {kind : HandleKind} {s s' : State} {id : HandleId}
    (h : entering pinned kind s = (.ok id, s')) :
    ∃ r, s.registry.enlist pinned kind = (.ok id, r) ∧
      s' = { s with registry := r, counters := s.counters.bump .handlesRegistered } := by
  unfold entering at h
  split at h <;> cases h
  next r he => exact ⟨r, he, rfl⟩

/-- How a registration goes on once its object is pinned. -/
def enter (pinned : HostObject) (kind : HandleKind) : Operation (Except HandleError Handle) := do
  match ← Operation.modifyGet (entering pinned kind) with
  | .error e =>
    unpin pinned
    pure (.error e)
  | .ok id =>
    Log.breadcrumb .handle s!"registered {kind.name} handle {id.text}"
    pure (.ok ⟨id, kind⟩)

theorem register_eq (object : HostObject) (kind : HandleKind) :
    register object kind = (do
      let s ← Operation.state
      if s.registry.atCapacity then
        pure (.error (.capacityExceeded s.registry.capacity))
      else
        match ← pin object with
        | .error e => pure (.error e)
        | .ok pinned => enter pinned kind) := by
  unfold register
  congr 1
  funext s
  split
  · rfl
  congr 1
  funext r
  cases r with
  | error e => rfl
  | ok pinned =>
    funext thread s
    simp only [enter, entering, Operation.bind_apply, Operation.modifyGet_apply, Progress.bind]
    rcases h : s.registry.enlist pinned kind with ⟨e | id, registry⟩
    · -- where nothing is listed, the registry stays as it is
      obtain ⟨rfl, -⟩ := enlist_error h
      rfl
    · rfl

/-- An id is struck off the table, and that is counted. -/
def striking (id : HandleId) (s : State) : Option Registration × State :=
  match s.registry.listed? id with
  | none => (none, s)
  | some e => (some e,
      { s with registry := s.registry.delist id, counters := s.counters.bump .handlesReleased })

theorem stems_striking {id : HandleId} {s : State} :
    ∀ e' ∈ (striking id s).2.registry.entries, ∃ e ∈ s.registry.entries, e.id = e'.id := by
  unfold striking
  split
  · exact fun e he => ⟨e, he, rfl⟩
  · exact fun e' he' => (Retains.delist e' he').imp fun _ h => ⟨h.1, h.2.1⟩

/-- An id is not listed once it is struck off. -/
theorem contains_striking {id : HandleId} {s : State} :
    (striking id s).2.registry.contains id = false := by
  unfold striking
  split
  · next h => exact listed?_eq_none_iff.mp h
  · simp [contains_delist]

theorem take_eq (id : HandleId) :
    take id = (do
      match ← Operation.modifyGet (striking id) with
      | none => pure false
      | some e =>
        Log.breadcrumb .handle s!"released {e.kind.name} handle {id.text}"
        giveBack id
        pure true) := by
  funext thread s
  simp only [take, striking, Operation.bind_apply, Operation.modifyGet_apply, Progress.bind]
  cases s.registry.listed? id <;> rfl

/-- How a release of what the engine may have released goes on once the id is
    struck off, if it was there. -/
def struck (id : HandleId) : Option Registration → Operation Bool
  | none => do
    Log.breadcrumb .handle s!"handle {id.text} was already released by the engine"
    pure false
  | some e => do
    Log.breadcrumb .handle s!"released {e.kind.name} handle {id.text}"
    giveBack id
    pure true

theorem releaseIfPresent_eq {id : HandleId} (hn : id.isNull = false) :
    releaseIfPresent id = Operation.modifyGet (striking id) >>= struck id := by
  have known : ¬ id.isNull = true := by simp [hn]
  rw [releaseIfPresent, if_neg known, take_eq, bind_assoc]
  congr 1
  funext found
  cases found with
  | none => rfl
  | some e => simp [struck]

/-- The table is dropped; what is not on loan has to be unpinned. -/
def clearing (s : State) : List HostObject × State :=
  let (free, registry) := s.registry.clear
  (free, { s with registry })

end Registry

/-! ### Parts -/

/-- A host call that is only made on an attached thread. -/
def HostCall.guarded : HostCall → Bool
  | .attach | .detach => false
  | .pin _ | .unpin _ | .protect .. | .resolve .. | .onResult .. | .readString _
  | .freeString _ => true

/-- A host call that passes no string of the host's. -/
def HostCall.textless : HostCall → Bool
  | .resolve .. | .readString _ | .freeString _ => false
  | .attach | .detach | .pin _ | .unpin _ | .protect .. | .onResult .. => true

theorem HostCall.guarded_of_textless {c : HostCall} (h : c.textless = false) :
    c.guarded = true := by
  cases c <;> first | rfl | cases h

/-- A host call that uses an object and passes no string of the host's. -/
def HostCall.uses : HostCall → Bool
  | .protect .. | .onResult .. => true
  | .attach | .detach | .pin _ | .unpin _ | .resolve .. | .readString _ | .freeString _ => false

/-- A request for an owner. -/
def DispatchRequest.asks : DispatchRequest → Bool
  | .resolveOwner .. => true
  | .protect .. | .notify .. | .deliverResult .. => false

/-- A request of an engine for an owner. -/
def EngineRequest.asks : EngineRequest → Bool
  | .resolveOwner .. => true
  | .protect .. | .onResult .. | .release _ => false

/-- A request for an owner, whatever way it comes. -/
def Request.asks : Request → Bool
  | .dispatch d => d.asks
  | .callback _ q | .library q => q.asks
  | .registry _ | .bridge _ | .entry _ | .log _ => false

/-- Runs `body` on an attached thread, by the policy of the registry. -/
def visit {α : Type} (body : Operation α) : Operation (Except AttachError α) := do
  let s ← Operation.state
  onHostThread s.registry.policy body

theorem visit_bind {α β : Type} (body : Operation α) (next : Except AttachError α → Operation β) :
    visit body >>= next = (do
      let s ← Operation.state
      let r ← onHostThread s.registry.policy body
      next r) :=
  bind_assoc ..

/-- Sequences keep `Φ`, and it holds of what neither changes the state nor lets
    others do so. -/
structure Basics (Φ : {α : Type} → Operation α → Prop) : Prop where
  pure : ∀ {α : Type} (a : α), Φ (Pure.pure a : Operation α)
  bind : ∀ {α β : Type} {m : Operation α} {f : α → Operation β},
    Φ m → (∀ a, Φ (f a)) → Φ (m >>= f)
  state : Φ Operation.state
  thread : Φ Operation.thread
  /-- Calls of the log and of the operating system. -/
  tell : ∀ {c : Call}, c.mayReenter = false → Φ (Operation.call c)

namespace Basics

variable {Φ : {α : Type} → Operation α → Prop} {α : Type}

theorem emit (hb : Basics Φ) {level : Log.Level} {b : Log.Breadcrumbs} {message : String} :
    Φ (Log.emit level b message) := by
  refine hb.bind hb.state fun s => ?_
  split
  · exact hb.pure ()
  · exact hb.tell rfl

theorem breadcrumb (hb : Basics Φ) {area : Log.Area} {message : String} :
    Φ (Log.breadcrumb area message) := by
  unfold Log.breadcrumb Log.detail
  split
  · exact hb.pure ()
  · exact hb.emit

/-- The thread is detached, where it has to be. -/
theorem drop (hb : Basics Φ) (detach : Φ (Operation.call (.host .detach))) {g : AttachGuard} :
    Φ g.drop := by
  unfold AttachGuard.drop
  split
  · exact hb.bind detach fun _ => hb.bind hb.thread fun _ => hb.breadcrumb
  · exact hb.pure ()

theorem acquire (hb : Basics Φ) (attach : Φ (Operation.call (.host .attach)))
    {policy : DetachPolicy} : Φ (AttachGuard.acquire policy) := by
  refine hb.bind attach fun status => ?_
  split
  · exact hb.pure _
  · exact hb.pure _
  · exact hb.bind hb.thread fun _ => hb.bind hb.breadcrumb fun _ => hb.pure _

/-- A visit is put together from calls of the host. -/
theorem visit (hb : Basics Φ) (attach : Φ (Operation.call (.host .attach)))
    (detach : Φ (Operation.call (.host .detach))) {body : Operation α} (hbody : Φ body) :
    Φ (visit body) := by
  refine hb.bind hb.state fun s => hb.bind (hb.acquire attach) fun acquired => ?_
  cases acquired with
  | error e => exact hb.pure _
  | ok g => exact hb.bind hbody fun a => hb.bind (hb.drop detach) fun _ => hb.pure _

/-- What follows on a visit. -/
theorem after (hb : Basics Φ) {β : Type} {body : Operation α}
    {next : Except AttachError α → Operation β} (hv : Φ (CallbackBridge.visit body))
    (hn : ∀ r, Φ (next r)) :
    Φ (do
      let s ← Operation.state
      let r ← onHostThread s.registry.policy body
      next r) := by
  rw [← visit_bind]
  exact hb.bind hv hn

/-- The log is limited; `limit` is about the state of the limiter. -/
theorem limitedError (hb : Basics Φ)
    (limit : ∀ {α : Type} {f : State → α × State},
      (∀ s, ∃ limiter, (f s).2 = { s with limiter }) → Φ (Operation.modifyGet f))
    {c : Log.Category} {text : String} : Φ (Log.limitedError c text) := by
  refine hb.bind (hb.tell rfl) fun now => hb.bind (limit fun _ => ⟨_, rfl⟩) fun admitted => ?_
  cases admitted with
  | none => exact hb.pure false
  | some suppressed => exact hb.bind hb.emit fun _ => hb.pure true

/-- An object is unpinned on a visit, and a refusal is counted. -/
theorem unpin (hb : Basics Φ) {o : HostObject}
    (hv : Φ (CallbackBridge.visit (Operation.call (.host (.unpin o)))))
    (count : Φ (CallbackBridge.bump .attachFailures))
    (limit : ∀ {α : Type} {f : State → α × State},
      (∀ s, ∃ limiter, (f s).2 = { s with limiter }) → Φ (Operation.modifyGet f)) :
    Φ (Registry.unpin o) := by
  refine hb.after hv fun result => ?_
  cases result with
  | ok _ => exact hb.pure ()
  | error e => exact hb.bind count fun _ => hb.bind (hb.limitedError limit) fun _ => hb.pure ()

/-- An object is pinned on a visit, and a refusal is counted. -/
theorem pin (hb : Basics Φ) {o : HostObject}
    (hv : Φ (CallbackBridge.visit (Operation.call (.host (.pin o)))))
    (count : Φ (CallbackBridge.bump .attachFailures)) : Φ (Registry.pin o) := by
  refine hb.after hv fun result => ?_
  match result with
  | .ok (some pinned) => exact hb.pure _
  | .ok none => exact hb.pure _
  | .error e => exact hb.bind count fun _ => hb.bind hb.emit fun _ => hb.pure _

/-- A release, once it is known how an id is taken out of the table. -/
theorem remove (hb : Basics Φ) {id : HandleId} (take : Φ (Registry.take id))
    (miss : Φ (CallbackBridge.bump .duplicateReleases))
    (limited : ∀ {c text}, Φ (Log.limitedError c text)) : Φ (Registry.remove id) := by
  refine hb.bind take fun found => ?_
  split
  · exact hb.pure true
  · exact hb.bind miss fun _ => hb.bind limited fun _ => hb.pure false

theorem release (hb : Basics Φ) {handle : Handle} (remove : Φ (Registry.remove handle.id)) :
    Φ (Registry.release handle) := by
  refine hb.bind remove fun found => ?_
  split
  · exact hb.pure ()
  · exact hb.emit

theorem releaseRaw (hb : Basics Φ) {id : HandleId} (remove : Φ (Registry.remove id)) :
    Φ (Registry.releaseRaw id) := by
  unfold Registry.releaseRaw
  split
  · exact hb.pure false
  · exact remove

theorem releaseIfPresent (hb : Basics Φ) {id : HandleId} (take : Φ (Registry.take id)) :
    Φ (Registry.releaseIfPresent id) := by
  unfold Registry.releaseIfPresent
  split
  · exact hb.pure false
  · refine hb.bind take fun found => ?_
    split
    · exact hb.pure true
    · exact hb.bind hb.breadcrumb fun _ => hb.pure false

/-- What an engine asks for is asked of the dispatcher, or it is released. -/
theorem serve (hb : Basics Φ) {table : CallbackTable} {q : EngineRequest}
    (dispatch : ∀ {d : DispatchRequest}, d.asks = q.asks → Φ d.operation)
    (release : table.connected = true → ∀ handle, q = .release handle →
      Φ (Registry.releaseRaw ⟨handle⟩)) : Φ (table.serve q) := by
  unfold CallbackTable.serve
  split
  · next connected =>
    cases q with
    | protect handle fd =>
      exact hb.bind (dispatch (d := .protect ..) rfl) fun _ => hb.pure ()
    | resolveOwner handle protocol source target uid =>
      exact hb.bind (dispatch (d := .resolveOwner ..) rfl) fun _ => hb.pure _
    | onResult handle data =>
      exact hb.bind (dispatch (d := .deliverResult ..) rfl) fun _ => hb.pure ()
    | release handle => exact hb.bind (release connected handle rfl) fun _ => hb.pure ()
  · exact hb.pure _

end Basics

/-- `Φ` holds of the smallest parts that list no handle, delist none and ask for
    no owner. -/
structure PlainParts (Φ : {α : Type} → Operation α → Prop) : Prop extends Basics Φ where
  touch : ∀ {α : Type} {f : State → α × State}, (∀ s, Touch s (f s).2) →
    Φ (Operation.modifyGet f)
  visit : ∀ {c : HostCall}, c.guarded = true → c.textless = true →
    Φ (visit (Operation.call (.host c)))

/-- `Φ` also holds where an owner is asked for. -/
structure Parts (Φ : {α : Type} → Operation α → Prop) : Prop extends PlainParts Φ where
  ask : ∀ {target : HostObject} {query : OwnerQuery},
    Φ (CallbackBridge.visit (Dispatch.askOwner target query))

/-- Carrying an invariant along is such a property if calls of the log and of
    the operating system carry it along. -/
theorem Run.Nesting.Carries.basics_of_calls {ν : Run.Nesting}
    {I : Nat → Thread → State → Run.History → Prop}
    (tell : ∀ {c : Call}, c.mayReenter = false → ν.Carries I (Operation.call c)) :
    Basics (fun m => ν.Carries I m) where
  pure := .pure
  bind := .bind
  state := .state
  thread := .readThread
  tell := tell

/-- It is enough that they leave the invariant as it is. -/
theorem Run.Nesting.Carries.basics {ν : Run.Nesting}
    {I : Nat → Thread → State → Run.History → Prop}
    (tell : ∀ op thread s h (c : Call), c.mayReenter = false → I op thread s h →
      ν.law ⟨.calls op thread c, s⟩ h ∧ ∀ r lost,
        ν.law ⟨.replies op thread c r lost, s⟩ (⟨.calls op thread c, s⟩ :: h) ∧
        I op thread s (⟨.replies op thread c r lost, s⟩ :: ⟨.calls op thread c, s⟩ :: h)) :
    Basics (fun m => ν.Carries I m) := by
  refine Run.Nesting.Carries.basics_of_calls fun {c} hc op thread s h hi => ?_
  obtain ⟨hlaw, hreply⟩ := tell op thread s h c hc hi
  refine ⟨hlaw, fun hr => by simp [hc] at hr, fun r s' h' lost ho _ => ?_⟩
  obtain ⟨rfl, rfl⟩ := ho.quiet hc
  exact hreply r lost

/-- A property of single calls is one of visits. -/
theorem Basics.plainParts {Φ : {α : Type} → Operation α → Prop} (hb : Basics Φ)
    (host : ∀ {c : HostCall}, c.textless = true → Φ (Operation.call (.host c)))
    (touch : ∀ {α : Type} {f : State → α × State}, (∀ s, Touch s (f s).2) →
      Φ (Operation.modifyGet f)) : PlainParts Φ where
  toBasics := hb
  touch := touch
  visit _ ht := hb.visit (host rfl) (host rfl) (host ht)

/-- An owner is asked for, and the answer is read and given back. -/
theorem Basics.askOwner {Φ : {α : Type} → Operation α → Prop} (hb : Basics Φ)
    (host : ∀ {c : HostCall}, c.textless = false → Φ (Operation.call (.host c)))
    {target : HostObject} {query : OwnerQuery} : Φ (Dispatch.askOwner target query) := by
  refine hb.bind (host rfl) fun answer => ?_
  cases answer with
  | none => exact hb.pure none
  | some text => exact hb.bind (host rfl) fun _ => hb.bind (host rfl) fun _ => hb.pure _

theorem Basics.parts {Φ : {α : Type} → Operation α → Prop} (hb : Basics Φ)
    (host : ∀ {c : HostCall}, Φ (Operation.call (.host c)))
    (touch : ∀ {α : Type} {f : State → α × State}, (∀ s, Touch s (f s).2) →
      Φ (Operation.modifyGet f)) : Parts Φ where
  toPlainParts := hb.plainParts (fun _ => host) touch
  ask := hb.visit host host (hb.askOwner fun _ => host)

/-! ### Pinning -/

/-- A registration that succeeds goes from `I` to what holds of its handle.  It
    is enough that pinning and unpinning carry `I` along. -/
theorem Registry.register_nests {ν : Run.Nesting} {I : Nat → Thread → State → Run.History → Prop}
    {J : HandleId → Nat → Thread → State → Run.History → Prop}
    {o : HostObject} {k : HandleKind} (pin : ν.Carries I (Registry.pin o))
    (unpin : ∀ {o}, ν.Carries I (Registry.unpin o))
    (logs : ∀ id, Basics (fun m => ν.Carries (J id) m))
    {op : Nat} {thread : Thread} {s : State} {h : Run.History}
    (enter : ∀ pinned id s₁ s₂ h₁, I op thread s₁ h₁ →
      Registry.entering pinned k s₁ = (.ok id, s₂) → J id op thread s₂ h₁)
    (hi : I op thread s h) :
    Run.Nests ν op thread (fun result s' h' => match result with
      | .error _ => I op thread s' h'
      | .ok handle => J handle.id op thread s' h') (Registry.register o k thread s) h := by
  rw [Registry.register_eq]
  simp only [Operation.bind_apply, Operation.state_apply, Progress.bind]
  split
  · exact hi
  refine Run.Nests.bind ((pin op thread s h hi).mono fun pinned s₁ h₁ hi₁ => ?_)
  cases pinned with
  | error e => exact hi₁
  | ok pinned =>
    simp only [Registry.enter, Operation.bind_apply, Operation.modifyGet_apply, Progress.bind]
    rcases he : Registry.entering pinned k s₁ with ⟨e | id, s₂⟩
    · obtain rfl : s₂ = s₁ := Registry.entering_error he
      exact Run.Nests.bind ((unpin op thread s₂ h₁ hi₁).mono fun _ _ _ hi₂ => hi₂)
    · have entered := enter pinned id s₁ s₂ h₁ hi₁ he
      exact Run.Nests.bind (((logs id).breadcrumb op thread s₂ h₁ entered).mono
        fun _ _ _ hi₂ => hi₂)

/-- Whoever registers an object goes on with its handle, or with the error. -/
theorem Registry.registered_nests {α : Type} {ν : Run.Nesting}
    {I : Nat → Thread → State → Run.History → Prop}
    {J : HandleId → Nat → Thread → State → Run.History → Prop}
    {post : α → State → Run.History → Prop} {o : HostObject} {k : HandleKind}
    {fails : HandleError → Operation α} {next : Handle → Operation α}
    (pin : ν.Carries I (Registry.pin o)) (unpin : ∀ {o}, ν.Carries I (Registry.unpin o))
    (logs : ∀ id, Basics (fun m => ν.Carries (J id) m))
    {op : Nat} {thread : Thread} {s : State} {h : Run.History}
    (enter : ∀ pinned id s₁ s₂ h₁, I op thread s₁ h₁ →
      Registry.entering pinned k s₁ = (.ok id, s₂) → J id op thread s₂ h₁)
    (hi : I op thread s h)
    (hf : ∀ err s' h', I op thread s' h' → Run.Nests ν op thread post (fails err thread s') h')
    (hn : ∀ handle s' h', J handle.id op thread s' h' →
      Run.Nests ν op thread post (next handle thread s') h') :
    Run.Nests ν op thread post
      ((do match ← Registry.register o k with
        | .error err => fails err
        | .ok handle => next handle : Operation α) thread s) h := by
  refine Run.Nests.bind ((register_nests pin unpin logs enter hi).mono fun result s' h' hr => ?_)
  cases result with
  | error err => exact hf err s' h' hr
  | ok handle => exact hn handle s' h' hr

/-- `Φ` also holds of changes that count nothing, and where an object is pinned
    or unpinned. -/
structure PinningParts (Φ : {α : Type} → Operation α → Prop) : Prop extends Basics Φ where
  mild : ∀ {α : Type} {f : State → α × State},
    (∀ s, Touch s (f s).2 ∧ (f s).2.counters = s.counters) → Φ (Operation.modifyGet f)
  pin : ∀ {o : HostObject}, Φ (Registry.pin o)
  unpin : ∀ {o : HostObject}, Φ (Registry.unpin o)

namespace PinningParts

variable {Φ : {α : Type} → Operation α → Prop} {α : Type} {id : HandleId}

theorem giveBack (hp : PinningParts Φ) : Φ (Registry.giveBack id) := by
  refine hp.bind (hp.mild fun _ => ⟨.giveBack id, rfl⟩) fun last => ?_
  cases last with
  | none => exact hp.pure ()
  | some o => exact hp.unpin

theorem register (hp : PinningParts Φ)
    (enter : ∀ {o k}, Φ (Operation.modifyGet (Registry.entering o k))) {o : HostObject}
    {k : HandleKind} : Φ (Registry.register o k) := by
  rw [Registry.register_eq]
  refine hp.bind hp.state fun s => ?_
  split
  · exact hp.pure _
  · refine hp.bind hp.pin fun r => ?_
    cases r with
    | error e => exact hp.pure _
    | ok pinned =>
      refine hp.bind enter fun listed => ?_
      cases listed with
      | error e => exact hp.bind hp.unpin fun _ => hp.pure _
      | ok id => exact hp.bind hp.breadcrumb fun _ => hp.pure _

theorem take (hp : PinningParts Φ) (strike : Φ (Operation.modifyGet (Registry.striking id))) :
    Φ (Registry.take id) := by
  rw [Registry.take_eq]
  refine hp.bind strike fun found => ?_
  cases found with
  | none => exact hp.pure false
  | some e => exact hp.bind hp.breadcrumb fun _ => hp.bind hp.giveBack fun _ => hp.pure true

theorem struck (hp : PinningParts Φ) {found : Option Registration} :
    Φ (Registry.struck id found) := by
  cases found with
  | none => exact hp.bind hp.breadcrumb fun _ => hp.pure false
  | some e => exact hp.bind hp.breadcrumb fun _ => hp.bind hp.giveBack fun _ => hp.pure true

theorem releaseIfPresent (hp : PinningParts Φ)
    (strike : Φ (Operation.modifyGet (Registry.striking id))) :
    Φ (Registry.releaseIfPresent id) :=
  hp.toBasics.releaseIfPresent (hp.take strike)

theorem unpinAll (hp : PinningParts Φ) (objects : List HostObject) :
    Φ (Registry.unpinAll objects) := by
  induction objects with
  | nil => exact hp.pure ()
  | cons o rest ih => exact hp.bind hp.unpin fun _ => ih

theorem close (hp : PinningParts Φ) (clear : Φ (Operation.modifyGet Registry.clearing)) :
    Φ Registry.close :=
  hp.bind clear fun free => hp.unpinAll free

/-- A registration that succeeds goes from `I` to what holds of its handle. -/
theorem register_nests {ν : Run.Nesting} {I : Nat → Thread → State → Run.History → Prop}
    {J : HandleId → Nat → Thread → State → Run.History → Prop}
    (hp : PinningParts (fun m => ν.Carries I m))
    (logs : ∀ id, Basics (fun m => ν.Carries (J id) m)) {o : HostObject} {k : HandleKind}
    {op : Nat} {thread : Thread} {s : State} {h : Run.History}
    (enter : ∀ pinned id s₁ s₂ h₁, I op thread s₁ h₁ →
      Registry.entering pinned k s₁ = (.ok id, s₂) → J id op thread s₂ h₁)
    (hi : I op thread s h) :
    Run.Nests ν op thread (fun result s' h' => match result with
      | .error _ => I op thread s' h'
      | .ok handle => J handle.id op thread s' h') (Registry.register o k thread s) h :=
  Registry.register_nests hp.pin hp.unpin logs enter hi

/-- What goes on once an object is registered, or not. -/
theorem registered_nests {ν : Run.Nesting} {I : Nat → Thread → State → Run.History → Prop}
    {J : HandleId → Nat → Thread → State → Run.History → Prop}
    {post : α → State → Run.History → Prop} (hp : PinningParts (fun m => ν.Carries I m))
    (logs : ∀ id, Basics (fun m => ν.Carries (J id) m)) {o : HostObject} {k : HandleKind}
    {fails : HandleError → Operation α} {next : Handle → Operation α}
    {op : Nat} {thread : Thread} {s : State} {h : Run.History}
    (enter : ∀ pinned id s₁ s₂ h₁, I op thread s₁ h₁ →
      Registry.entering pinned k s₁ = (.ok id, s₂) → J id op thread s₂ h₁)
    (hi : I op thread s h)
    (hf : ∀ err s' h', I op thread s' h' → Run.Nests ν op thread post (fails err thread s') h')
    (hn : ∀ handle s' h', J handle.id op thread s' h' →
      Run.Nests ν op thread post (next handle thread s') h') :
    Run.Nests ν op thread post
      ((do match ← Registry.register o k with
        | .error err => fails err
        | .ok handle => next handle : Operation α) thread s) h :=
  Registry.registered_nests hp.pin hp.unpin logs enter hi hf hn

end PinningParts

/-! ### Calls through a handle -/

/-- `Φ` holds of what the dispatcher does around the use of a host object. -/
structure DispatchParts (Φ : {α : Type} → Operation α → Prop) : Prop extends Basics Φ where
  bump : ∀ {k : Counter}, k.idle = true → Φ (CallbackBridge.bump k)
  limit : ∀ {α : Type} {f : State → α × State},
    (∀ s, ∃ limiter, (f s).2 = { s with limiter }) → Φ (Operation.modifyGet f)
  claim : ∀ {id : HandleId}, Φ (Registry.claim id)
  use : ∀ {c : HostCall}, c.uses = true → Φ (visit (Operation.call (.host c)))
  withTarget : ∀ {α : Type} {shape : CallShape} {id : HandleId}
    {body : Registration → Operation (Except DispatchError α)}, (∀ e, Φ (body e)) →
    Φ (Dispatch.withTarget shape id body)

namespace DispatchParts

variable {Φ : {α : Type} → Operation α → Prop} {α : Type} {id : HandleId}

theorem limitedError (hp : DispatchParts Φ) {c : Log.Category} {text : String} :
    Φ (Log.limitedError c text) :=
  hp.toBasics.limitedError hp.limit

theorem attached (hp : DispatchParts Φ) {body : Operation α} (hb : Φ (CallbackBridge.visit body)) :
    Φ (Dispatch.attached body) := by
  refine hp.toBasics.after hb fun result => ?_
  cases result with
  | ok a => exact hp.pure _
  | error e => exact hp.bind (hp.bump rfl) fun _ => hp.pure _

theorem reportDrop (hp : DispatchParts Φ) {shape : CallShape} {e : DispatchError} :
    Φ (Dispatch.reportDrop shape id e) :=
  hp.bind (hp.bump rfl) fun _ => hp.bind hp.limitedError fun _ => hp.pure ()

theorem settle (hp : DispatchParts Φ) {shape : CallShape} {r : Except DispatchError Unit} :
    Φ (Dispatch.settle shape id r) := by
  cases r with
  | ok _ => exact hp.bind (hp.bump rfl) fun _ => hp.bind hp.breadcrumb fun _ => hp.pure _
  | error e => exact hp.bind hp.reportDrop fun _ => hp.pure _

theorem claimResult (hp : DispatchParts Φ) {e : Registration} : Φ (Dispatch.claimResult e) := by
  unfold Dispatch.claimResult
  split
  · refine hp.bind hp.claim fun claimed => ?_
    split
    · exact hp.pure _
    · exact hp.bind (hp.bump rfl) fun _ => hp.bind hp.limitedError fun _ => hp.pure _
  · exact hp.pure _

/-- What is asked of the dispatcher, but for an owner. -/
theorem dispatch (hp : DispatchParts Φ) {d : DispatchRequest} (hd : d.asks = false) :
    Φ d.operation := by
  cases d with
  | protect id fd =>
    show Φ (Dispatch.protect id fd)
    unfold Dispatch.protect
    split
    · exact hp.pure _
    · exact hp.bind (hp.withTarget fun _ => hp.attached (hp.use rfl)) fun _ => hp.settle
  | notify id payload =>
    show Φ (Dispatch.notify id payload)
    unfold Dispatch.notify
    split
    · exact hp.pure _
    · exact hp.bind (hp.withTarget fun _ => hp.attached (hp.use rfl)) fun _ => hp.settle
  | resolveOwner => cases hd
  | deliverResult id data =>
    show Φ (Dispatch.deliverResult id data)
    unfold Dispatch.deliverResult
    split
    · exact hp.pure _
    · refine hp.bind (hp.withTarget fun target => hp.bind hp.claimResult fun claimed => ?_)
        fun _ => hp.settle
      cases claimed with
      | error e => exact hp.pure _
      | ok _ => exact hp.attached (hp.use rfl)

/-- A question for an owner, once it is known how it goes. -/
theorem resolveOwner (hp : DispatchParts Φ) {query : OwnerQuery}
    (ask : Φ (Dispatch.withTarget .query id fun target =>
      Dispatch.attached (Dispatch.askOwner target.object query))) :
    Φ (Dispatch.resolveOwner id query) := by
  refine hp.bind ask fun result => ?_
  match result with
  | .ok (some owner) => exact hp.bind (hp.bump rfl) fun _ => hp.pure _
  | .ok none => exact hp.bind (hp.bump rfl) fun _ => hp.bind hp.limitedError fun _ => hp.pure _
  | .error e => exact hp.bind hp.reportDrop fun _ => hp.pure _

end DispatchParts

/-! ### All parts -/

namespace PlainParts

variable {Φ : {α : Type} → Operation α → Prop} {α : Type} {id : HandleId}

theorem bump (hp : PlainParts Φ) {k : Counter} (hk : k.idle = true) : Φ (CallbackBridge.bump k) :=
  hp.touch (f := fun s => ((), { s with counters := s.counters.bump k })) fun _ => .bump hk

theorem limit (hp : PlainParts Φ) {f : State → α × State}
    (hf : ∀ s, ∃ limiter, (f s).2 = { s with limiter }) : Φ (Operation.modifyGet f) := by
  refine hp.touch fun s => ?_
  obtain ⟨limiter, hl⟩ := hf s
  rw [hl]
  exact .limit limiter

theorem toPinningParts (hp : PlainParts Φ) : PinningParts Φ where
  toBasics := hp.toBasics
  mild hf := hp.touch fun s => (hf s).1
  pin := hp.toBasics.pin (hp.visit rfl rfl) (hp.bump rfl)
  unpin := hp.toBasics.unpin (hp.visit rfl rfl) (hp.bump rfl) hp.limit

theorem limitedError (hp : PlainParts Φ) {c : Log.Category} {text : String} :
    Φ (Log.limitedError c text) :=
  hp.toBasics.limitedError hp.limit

theorem unpin (hp : PlainParts Φ) {o : HostObject} : Φ (Registry.unpin o) :=
  hp.toPinningParts.unpin

theorem pin (hp : PlainParts Φ) {o : HostObject} : Φ (Registry.pin o) :=
  hp.toPinningParts.pin

/-! ### The registry -/

theorem giveBack (hp : PlainParts Φ) : Φ (Registry.giveBack id) :=
  hp.toPinningParts.giveBack

theorem look (hp : PlainParts Φ) : Φ (Registry.look id) := by
  unfold Registry.look
  split
  · exact hp.pure _
  · refine hp.bind (hp.touch fun s => ?_) fun found => ?_
    · split
      · exact .none
      · exact .lend id
    · cases found with
      | some e => exact hp.pure _
      | none => exact hp.bind (hp.bump rfl) fun _ => hp.pure _

theorem claim (hp : PlainParts Φ) : Φ (Registry.claim id) := by
  refine hp.touch fun s => ?_
  split
  · exact .none
  · exact .claim id

theorem register (hp : PlainParts Φ)
    (enter : ∀ {o k}, Φ (Operation.modifyGet (Registry.entering o k))) {o : HostObject}
    {k : HandleKind} : Φ (Registry.register o k) :=
  hp.toPinningParts.register enter

theorem take (hp : PlainParts Φ) (strike : Φ (Operation.modifyGet (Registry.striking id))) :
    Φ (Registry.take id) :=
  hp.toPinningParts.take strike

theorem struck (hp : PlainParts Φ) {found : Option Registration} : Φ (Registry.struck id found) :=
  hp.toPinningParts.struck

theorem releaseIfPresent (hp : PlainParts Φ)
    (strike : Φ (Operation.modifyGet (Registry.striking id))) :
    Φ (Registry.releaseIfPresent id) :=
  hp.toPinningParts.releaseIfPresent strike

/-- A release, where the id may be struck off; a miss is counted. -/
theorem remove (hp : PlainParts Φ) (strike : Φ (Operation.modifyGet (Registry.striking id)))
    (miss : Φ (CallbackBridge.bump .duplicateReleases)) : Φ (Registry.remove id) :=
  hp.toBasics.remove (hp.take strike) miss hp.limitedError

/-- It is enough that the invariant holds once the id is struck off. -/
theorem remove_nests {ν : Run.Nesting} {I : Nat → Thread → State → Run.History → Prop}
    (hp : PlainParts (fun m => ν.Carries I m))
    (miss : ν.Carries I (CallbackBridge.bump .duplicateReleases))
    {op : Nat} {thread : Thread} {s : State} {h : Run.History}
    (hi : I op thread (Registry.striking id s).2 h) :
    Run.Nests ν op thread (fun _ => I op thread) (Registry.remove id thread s) h := by
  rw [Registry.remove, Registry.take_eq, bind_assoc, Operation.bind_apply,
    Operation.modifyGet_apply, Progress.bind]
  cases (Registry.striking id s).1 with
  | none =>
    exact hp.bind miss (fun _ => hp.bind hp.limitedError fun _ => hp.pure false) op thread _ h hi
  | some e =>
    have struck : ν.Carries I (do
        Log.breadcrumb .handle s!"released {e.kind.name} handle {id.text}"
        Registry.giveBack id
        pure true) := hp.bind hp.breadcrumb fun _ => hp.bind hp.giveBack fun _ => hp.pure true
    refine Run.Nesting.Carries.bind struck (fun found => ?_) op thread _ h hi
    split
    · exact hp.pure true
    · exact hp.bind miss fun _ => hp.bind hp.limitedError fun _ => hp.pure false

theorem releaseRaw (hp : PlainParts Φ) (strike : Φ (Operation.modifyGet (Registry.striking id)))
    (miss : Φ (CallbackBridge.bump .duplicateReleases)) : Φ (Registry.releaseRaw id) :=
  hp.toBasics.releaseRaw (hp.remove strike miss)

theorem close (hp : PlainParts Φ) (clear : Φ (Operation.modifyGet Registry.clearing)) :
    Φ Registry.close :=
  hp.toPinningParts.close clear

/-! ### The dispatcher -/

theorem withTarget (hp : PlainParts Φ) {shape : CallShape}
    {body : Registration → Operation (Except DispatchError α)} (hb : ∀ e, Φ (body e)) :
    Φ (Dispatch.withTarget shape id body) := by
  refine hp.bind hp.look fun r => ?_
  cases r with
  | error e => exact hp.pure _
  | ok target =>
    dsimp only
    split
    · exact hp.bind (hb target) fun _ => hp.bind hp.giveBack fun _ => hp.pure _
    · exact hp.bind hp.giveBack fun _ => hp.pure _

theorem toDispatchParts (hp : PlainParts Φ) : DispatchParts Φ where
  toBasics := hp.toBasics
  bump := hp.bump
  limit := hp.limit
  claim := hp.claim
  use {c} hc := by
    cases c with
    | protect | onResult => exact hp.visit rfl rfl
    | _ => cases hc
  withTarget := hp.withTarget

end PlainParts

namespace Parts

variable {Φ : {α : Type} → Operation α → Prop}

theorem resolveOwner (hp : Parts Φ) {id : HandleId} {query : OwnerQuery} :
    Φ (Dispatch.resolveOwner id query) :=
  hp.toDispatchParts.resolveOwner (hp.withTarget fun _ => hp.toDispatchParts.attached hp.ask)

theorem dispatch (hp : Parts Φ) (d : DispatchRequest) : Φ d.operation := by
  cases d with
  | resolveOwner => exact hp.resolveOwner
  | protect | notify | deliverResult => exact hp.toDispatchParts.dispatch rfl

/-- What an engine asks for; a release is told apart. -/
theorem serve (hp : Parts Φ) {table : CallbackTable} {q : EngineRequest}
    (release : table.connected = true → ∀ handle, q = .release handle →
      Φ (Registry.releaseRaw ⟨handle⟩)) : Φ (table.serve q) :=
  hp.toBasics.serve (fun _ => hp.dispatch _) release

end Parts

/-! ### The table -/

/-- `Φ` also holds where handles are struck off the table. -/
structure ReleaseParts (Φ : {α : Type} → Operation α → Prop) : Prop extends Parts Φ where
  strike : ∀ {id : HandleId}, Φ (Operation.modifyGet (Registry.striking id))
  /-- A release that finds nothing is counted. -/
  miss : Φ (bump .duplicateReleases)

namespace ReleaseParts

variable {Φ : {α : Type} → Operation α → Prop} {id : HandleId}

theorem remove (hp : ReleaseParts Φ) : Φ (Registry.remove id) :=
  hp.toParts.remove hp.strike hp.miss

theorem release (hp : ReleaseParts Φ) {handle : Handle} : Φ (Registry.release handle) :=
  hp.toBasics.release hp.remove

theorem releaseRaw (hp : ReleaseParts Φ) : Φ (Registry.releaseRaw id) :=
  hp.toParts.releaseRaw hp.strike hp.miss

/-- What an engine asks for. -/
theorem serve (hp : ReleaseParts Φ) (table : CallbackTable) (q : EngineRequest) :
    Φ (table.serve q) :=
  hp.toParts.serve fun _ _ _ => hp.releaseRaw

/-- Every request to the registry or to the dispatcher, where registering and
    dropping the table are told apart. -/
theorem coreOrClose (hp : ReleaseParts Φ) {q : Request} (hq : q.isCoreOrClose = true)
    (register : ∀ o k, q = .registry (.register o k) → Φ (Registry.register o k))
    (close : q = .registry .close → Φ Registry.close) : Φ q.operation := by
  match q with
  | .registry q =>
    cases q with
    | register o k => exact register o k rfl
    | look => exact hp.look
    | giveBack => exact hp.giveBack
    | release => exact hp.release
    | releaseRaw => exact hp.releaseRaw
    | releaseIfPresent => exact hp.releaseIfPresent hp.strike
    | close => exact close rfl
  | .dispatch d => exact hp.dispatch d
  | .callback table q => exact hp.serve table q
  | .library _ | .bridge _ | .entry _ | .log _ => cases hq

end ReleaseParts

/-- `Φ` also holds where handles enter the table. -/
structure TableParts (Φ : {α : Type} → Operation α → Prop) : Prop extends ReleaseParts Φ where
  enter : ∀ {o : HostObject} {k : HandleKind}, Φ (Operation.modifyGet (Registry.entering o k))

namespace TableParts

variable {Φ : {α : Type} → Operation α → Prop} {q : Request}

theorem coreOrClose (hp : TableParts Φ) (clear : Φ (Operation.modifyGet Registry.clearing))
    (hq : q.isCoreOrClose = true) : Φ q.operation :=
  hp.toReleaseParts.coreOrClose hq (fun _ _ _ => hp.register hp.enter) fun _ => hp.close clear

theorem core (hp : TableParts Φ) (hq : q.isCore = true) : Φ q.operation := by
  have known : q.isCoreOrClose = true := by
    match q with
    | .registry _ | .dispatch _ | .callback .. => rfl
    | .library _ | .bridge _ | .entry _ | .log _ => cases hq
  refine hp.toReleaseParts.coreOrClose known (fun _ _ _ => hp.register hp.enter) fun h => ?_
  subst h
  cases hq

end TableParts

end CallbackBridge
