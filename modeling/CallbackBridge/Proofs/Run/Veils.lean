import CallbackBridge.Proofs.Run.EntryTwins

/-! # Behind a veil

    Two runs may differ in things that change nothing else: in what is logged,
    or in whether threads stay attached.  A veil says what these things are.

    Key ideas:

    1. A veil covers a part of the set-up, hides some calls and blots out some
       replies.  What is left of a run is what is in front of the veil.
    2. A run is bare if there is nothing behind the veil: no sink is installed,
       and no thread is detached.  Every operation goes along with one that
       runs bare.
    3. Requests to the log are hushed altogether: a bare run goes without them. -/

namespace CallbackBridge

open Run

/-! ### Veils -/

/-- What two runs may differ in. -/
inductive Veil where
  /-- In what is logged, and when. -/
  | log
  /-- Besides, in which threads are attached. -/
  | attachments
  deriving DecidableEq

namespace Veil

/-- A call that is behind the veil. -/
def hides (v : Veil) : Call → Bool
  | .log _ => true
  | .host .detach => v = .attachments
  | .host _ | .engine _ | .library _ | .system _ => false

/-- What a reply says in front of the veil.  The clock says nothing, and where
    attachments are behind it, a thread that is attached now is one that was
    attached before. -/
def tells (v : Veil) : (c : Call) → c.Reply → c.Reply
  | .system .clock, _ => (0 : UInt64)
  | .host .attach, status =>
    match v, AttachState.ofStatus status with
    | .attachments, .ok _ => (0 : Int32)
    | .log, _ | .attachments, .error _ => status
  | .host _, r | .engine _, r | .library _, r | .log _, r | .system _, r => r

/-- What is to be seen of a policy. -/
def policy : Veil → DetachPolicy → DetachPolicy
  | .log, p => p
  | .attachments, _ => .keepAttached

/-- What is to be seen of a set-up. -/
def cover (v : Veil) (x : Setup) : Setup :=
  { x with logger := .initial 0, limiter := .perSecond, policy := v.policy x.policy }

/-- What is to be seen of a state. -/
def plain (v : Veil) (s : State) : State :=
  s.under (v.cover s.setup)

/-- A request that may be made in front of the veil, or behind it.  Whether the
    limiter admits a line is behind it, and so is the policy of a new bridge. -/
def permits : Veil → Request → Bool
  | _, .log (.limitedError ..) => false
  | .attachments, .entry (.init ..) => false
  | _, _ => true

variable {v : Veil}

theorem policy_policy (p : DetachPolicy) : v.policy (v.policy p) = v.policy p := by
  cases v <;> rfl

/-- A refusal to attach a thread is in front of the veil. -/
theorem tells_refused {status : Int32} {e : AttachError}
    (he : AttachState.ofStatus status = .error e) : v.tells (.host .attach) status = status := by
  cases v <;> simp [tells, he]

/-- Where attachments are behind the veil, each of them looks the same. -/
theorem tells_attached {status : Int32} {a : AttachState}
    (ha : AttachState.ofStatus status = .ok a) :
    tells .attachments (.host .attach) status = (0 : Int32) := by
  simp [tells, ha]

theorem tells_tells (c : Call) (r : c.Reply) : v.tells c (v.tells c r) = v.tells c r := by
  cases c with
  | engine | library | log => rfl
  | system c => cases c <;> rfl
  | host c =>
    cases c with
    | attach =>
      cases ha : AttachState.ofStatus r with
      | error e => rw [tells_refused ha, tells_refused ha]
      | ok a =>
        cases v with
        | log => rfl
        | attachments =>
          rw [tells_attached ha]
          rfl
    | _ => rfl

/-! ### Bare states -/

/-- The second state is bare, and looks like the first one. -/
structure Alike (v : Veil) (s s' : State) : Prop where
  plain_eq : v.plain s' = v.plain s
  mute : s'.logger.sink = none
  kept : v.policy s'.registry.policy = s'.registry.policy

/-- What is to be seen of a state is bare itself. -/
theorem alike_plain (s : State) : v.Alike s (v.plain s) where
  plain_eq := by
    have again : v.cover (v.cover s.setup) = v.cover s.setup := by
      simp [cover, policy_policy]
    show s.under (v.cover (v.cover s.setup)) = s.under (v.cover s.setup)
    rw [again]
  mute := rfl
  kept := policy_policy _

namespace Alike

variable {s s' : State}

theorem cover_eq (hs : v.Alike s s') : v.cover s'.setup = v.cover s.setup :=
  congrArg State.setup hs.plain_eq

/-- The two differ in their set-up only. -/
theorem eq_under (hs : v.Alike s s') : s' = s.under s'.setup := by
  have same : (v.plain s').under s'.setup = (v.plain s).under s'.setup := by rw [hs.plain_eq]
  exact same

theorem engine_eq (hs : v.Alike s s') : s'.engine = s.engine :=
  congrArg Setup.engine hs.cover_eq

/-- A change of the log is behind the veil. -/
theorem relog (hs : v.Alike s s') (logger : Log.Logger) (limiter : Log.Limiter) :
    v.Alike { s with logger, limiter } s' :=
  ⟨hs.plain_eq, hs.mute, hs.kept⟩

/-- So is a change of the limiter in a bare state. -/
theorem relimit (hs : v.Alike s s') (limiter : Log.Limiter) :
    v.Alike s { s' with limiter } :=
  ⟨hs.plain_eq, hs.mute, hs.kept⟩

end Alike

/-! ### Operations -/

/-- A run that is bare goes along with any other. -/
def pairing (v : Veil) : Pairing where
  alike := v.Alike
  skips := v.hides
  makes c := !v.hides c
  call c := c
  answers c r r' := r' = v.tells c r
  request q := q
  results _ := Eq
  mayReenter_eq _ := rfl
  exists_answer _ _ := ⟨_, rfl⟩

/-- A call that is all in front of the veil. -/
theorem call {c : Call} (hc : v.hides c = false) (ht : ∀ r, v.tells c r = r) :
    Mirrored v.pairing Eq (Operation.call c) (Operation.call c) := by
  have made : v.pairing.makes c = true := by simp [pairing, hc]
  exact (Mirrored.call (ρ := v.pairing) made).mono fun r _ hr => ((hr : _ = _).trans (ht r)).symm

theorem change {α : Type} {f : State → α × State} (hf : Unaware f) :
    Mirrored v.pairing Eq (Operation.modifyGet f) (Operation.modifyGet f) := by
  refine .modifyGet fun s s' hs => ?_
  have looks := hf s s'.setup
  rw [← hs.eq_under] at looks
  rw [looks]
  refine ⟨rfl, ?_, hs.mute, hs.kept⟩
  show (f s).2.under (v.cover s'.setup) = (f s).2.under (v.cover (f s).2.setup)
  rw [hf.setup_eq, hs.cover_eq]

/-- A bare run logs nothing. -/
theorem emit_alone {level : Log.Level} {b : Log.Breadcrumbs} {message : String} :
    Mirrored v.pairing Eq (Log.emit level b message) (pure ()) := by
  intro thread s s' hs
  simp only [Log.emit, Operation.bind_apply, Operation.state_apply, Progress.bind]
  cases s.logger.line? level b message with
  | none => exact .finished hs rfl
  | some line => exact .skipping rfl fun _ => .finished hs rfl

theorem breadcrumb_alone {area : Log.Area} {message : String} :
    Mirrored v.pairing Eq (Log.breadcrumb area message) (pure ()) := by
  unfold Log.breadcrumb Log.detail
  split
  · exact .pure rfl
  · exact emit_alone

theorem emit_mute {level : Log.Level} {b : Log.Breadcrumbs} {message : String} {thread : Thread}
    {s : State} (mute : s.logger.sink = none) :
    Log.emit level b message thread s = .finished () s := by
  have none : s.logger.line? level b message = none := by
    simp [Log.Logger.line?, mute]
  simp [Log.emit, none, Progress.bind]

theorem emit {level : Log.Level} {b : Log.Breadcrumbs} {message : String} :
    Mirrored v.pairing Eq (Log.emit level b message) (Log.emit level b message) := by
  intro thread s s' hs
  rw [emit_mute hs.mute]
  exact emit_alone thread s s' hs

theorem breadcrumb {area : Log.Area} {message : String} :
    Mirrored v.pairing Eq (Log.breadcrumb area message) (Log.breadcrumb area message) := by
  unfold Log.breadcrumb Log.detail
  split
  · exact .pure rfl
  · exact emit

/-- Both runs read the clock, and the limiter may answer them differently. -/
theorem limitedError {c : Log.Category} {text : String} :
    Mirrored v.pairing (fun _ _ => True) (Log.limitedError c text) (Log.limitedError c text) := by
  have clock := Mirrored.call (ρ := v.pairing) (c := .system .clock) rfl
  have offers : ∀ now now', Mirrored v.pairing (fun _ _ => True)
      (Operation.modifyGet fun s =>
        ((s.limiter.offer now c).1, { s with limiter := (s.limiter.offer now c).2 }))
      (Operation.modifyGet fun s =>
        ((s.limiter.offer now' c).1, { s with limiter := (s.limiter.offer now' c).2 })) :=
    fun _ _ => .modifyGet fun s _ hs => ⟨trivial, (hs.relog s.logger _).relimit _⟩
  refine clock.bind fun now now' _ => (offers now now').bind ?_
  intro admitted admitted' _ thread s s' hs
  -- the bare run tells nobody of the line that its own limiter admits
  have unsaid : ∀ k, (do
      Log.error (c.message text k)
      pure true : Operation Bool) thread s' = .finished true s' :=
    fun k => by simp [Log.error, emit_mute hs.mute, Progress.bind]
  have said : ∀ {b : Bool} (k : UInt64), Mirrors v.pairing (fun _ _ => True) ((do
      Log.error (c.message text k)
      pure true : Operation Bool) thread s) (.finished b s') :=
    fun k => (emit_alone thread s s' hs).bind fun _ _ _ _ _ ht => .finished ht trivial
  cases admitted with
  | none =>
    cases admitted' with
    | none => exact .finished hs trivial
    | some k =>
      dsimp only
      rw [unsaid k]
      exact .finished hs trivial
  | some k =>
    cases admitted' with
    | none => exact said k
    | some k' =>
      dsimp only
      rw [unsaid k']
      exact said k

/-! ### Visits -/

theorem host {c : HostCall} (hc : c.guarded = true) :
    Mirrored v.pairing Eq (Operation.call (.host c)) (Operation.call (.host c)) := by
  cases c with
  | attach | detach => cases hc
  | _ => exact call rfl fun _ => rfl

theorem system {c : SystemCall} (hc : c ≠ .clock) :
    Mirrored v.pairing Eq (Operation.call (.system c)) (Operation.call (.system c)) := by
  cases c with
  | clock => exact absurd rfl hc
  | _ => exact call rfl fun _ => rfl

/-- A guard that the first run may have to drop, and one that does nothing. -/
def Guards (r r' : Except AttachError AttachGuard) : Prop :=
  (∃ e, r = .error e ∧ r' = .error e) ∨ ∃ g, r = .ok g ∧ r' = .ok ⟨false⟩

/-- Where threads stay attached, nobody can tell who has attached them. -/
theorem acquire {p : DetachPolicy} : Mirrored (pairing .attachments) Guards
    (AttachGuard.acquire p) (AttachGuard.acquire .keepAttached) := by
  have attach := Mirrored.call (ρ := pairing .attachments) (c := .host .attach) rfl
  refine attach.bind fun status status' hr => ?_
  have told : status' = tells .attachments (.host .attach) status := hr
  cases ha : AttachState.ofStatus status with
  | error e =>
    rw [told, tells_refused ha, ha]
    exact .pure (.inl ⟨e, rfl, rfl⟩)
  | ok a =>
    have before : AttachState.ofStatus 0 = .ok .attached := rfl
    rw [told, tells_attached ha, before]
    cases a with
    | attached => exact .pure (.inr ⟨_, rfl, rfl⟩)
    | newlyAttached =>
      -- only the log is told that the thread is new
      intro thread s s' hs
      have guards : Mirrored (pairing .attachments) Guards
          (pure (.ok ⟨p = .detachOnExit⟩)) (pure (.ok ⟨false⟩)) := .pure (.inr ⟨_, rfl, rfl⟩)
      exact breadcrumb_alone.unmatched guards thread s s' hs

/-- Dropping a guard makes no difference, as nothing is nested in it. -/
theorem drop_alone {g : AttachGuard} :
    Mirrored (pairing .attachments) Eq g.drop (AttachGuard.drop ⟨false⟩) := by
  obtain ⟨_ | _⟩ := g
  · exact .pure rfl
  · intro thread s s' hs
    have told : ∀ {message : String}, Mirrored (pairing .attachments) Eq
        (Log.breadcrumb .attachment message) (pure ()) := breadcrumb_alone
    exact .skipping rfl fun _ => told thread s s' hs

theorem onHostThread {α : Type} {p : DetachPolicy} {body : Operation α}
    (hb : Mirrored (pairing .attachments) Eq body body) :
    Mirrored (pairing .attachments) Eq (CallbackBridge.onHostThread p body)
      (CallbackBridge.onHostThread .keepAttached body) := by
  refine acquire.bind ?_
  rintro _ _ (⟨e, rfl, rfl⟩ | ⟨g, rfl, rfl⟩)
  · exact .pure rfl
  · exact hb.bind_eq fun a => drop_alone.bind_eq fun _ => .pure rfl

theorem visit {α : Type} {body : Operation α} (hb : Mirrored v.pairing Eq body body) :
    Mirrored v.pairing Eq (CallbackBridge.visit body) (CallbackBridge.visit body) := by
  refine Mirrored.bind .state fun s s' hs => ?_
  cases v with
  | log =>
    have same : s'.registry.policy = s.registry.policy := congrArg Setup.policy hs.cover_eq
    rw [same]
    exact .onHostThread breadcrumb (call rfl fun _ => rfl) (call rfl fun _ => rfl) hb
  | attachments =>
    have kept : s'.registry.policy = .keepAttached := hs.kept.symm
    rw [kept]
    exact onHostThread hb

theorem twins (v : Veil) : Twins v.pairing where
  under hs := ⟨_, hs.eq_under⟩
  change := change
  emit := emit
  limitedError := limitedError
  host := host
  visit := visit

theorem entryTwins (v : Veil) : EntryTwins v.pairing where
  toTwins := v.twins
  spawn := system nofun
  engines hs := hs.engine_eq ▸
    v.twins.engineTwins (fun _ => call rfl fun _ => rfl) (fun _ => call rfl fun _ => rfl) _
  system := system

/-! ### Requests -/

/-- Where attachments are in front of the veil, the policy of a new bridge is. -/
theorem create {options : BridgeOptions} : Mirrored (pairing .log) Eq
    (Bridge.create .absent options) (Bridge.create .absent options) := by
  have renewed : ∀ {s s'}, Alike .log s s' → ∀ registry, Alike .log
      { s with registry, counters := .zero, listener := .empty, engine := .absent }
      { s' with registry, counters := .zero, listener := .empty, engine := .absent } := by
    intro s s' hs registry
    refine ⟨?_, hs.mute, rfl⟩
    rw [hs.eq_under]
    have table : s'.libraryTable = s.libraryTable := congrArg Setup.libraryTable hs.cover_eq
    simp [plain, cover, State.under, State.setup, policy, table]
  refine Mirrored.bind_eq (m := Operation.modify _) ?_ fun _ =>
    Mirrored.bind_eq (.pure rfl) fun _ => breadcrumb
  exact fun thread s s' hs => .finished (renewed hs _) rfl

/-- An operation that is behind the veil as a whole. -/
def Silent (v : Veil) {α : Type} (m : Operation α) : Prop :=
  Mirrored v.pairing (fun _ _ => True) m (pure () : Operation Unit)

namespace Silent

variable {α β : Type} {m : Operation α}

theorem pure (a : α) : v.Silent (Pure.pure a : Operation α) :=
  Mirrored.pure trivial

theorem bind {f : α → Operation β} (hm : v.Silent m) (hf : ∀ a, v.Silent (f a)) :
    v.Silent (m >>= f) := by
  have sequence : Mirrored v.pairing (fun _ _ => True) (m >>= f)
      ((Pure.pure () : Operation Unit) >>= fun _ => Pure.pure ()) :=
    Mirrored.bind hm fun a _ _ => hf a
  exact sequence

theorem emit {level : Log.Level} {b : Log.Breadcrumbs} {message : String} :
    v.Silent (Log.emit level b message) :=
  emit_alone.mono fun _ _ _ => trivial

theorem logger {f : State → α × State} (hf : ∀ s, ∃ logger, (f s).2 = { s with logger }) :
    v.Silent (Operation.modifyGet f) := by
  intro thread s s' hs
  obtain ⟨logger, same⟩ := hf s
  have apart : Operation.modifyGet f thread s = .finished (f s).1 { s with logger } := by
    rw [← same]
    rfl
  rw [apart]
  exact .finished (hs.relog logger s.limiter) trivial

theorem install {request : Option Log.SinkRequest} {level : Option String} :
    v.Silent (Log.install request level) := by
  refine logger fun s => ?_
  cases s.logger.install request level with
  | error e => exact ⟨s.logger, rfl⟩
  | ok logger => exact ⟨logger, rfl⟩

theorem setMask {mask : UInt32} : v.Silent (Log.setMask mask) :=
  logger (f := fun s => ((), { s with logger := s.logger.setMask mask })) fun _ => ⟨_, rfl⟩

end Silent

/-- What a request to the log does is behind the veil. -/
theorem silent {q : Request} (hq : v.permits q = true) (hl : q.setsLog = true) :
    v.Silent q.operation := by
  have detail : ∀ b message, v.Silent (Log.detail b message) := by
    intro b message
    unfold Log.detail
    split
    · exact .pure ()
    · exact .emit
  cases q with
  | log q =>
    cases q with
    | install => exact .install
    | setMask => exact .setMask
    | error | warn | info => exact .emit
    | detail b message => exact detail b message
    | limitedError => cases v <;> cases hq
  | entry q =>
    cases q with
    | setLogSink request level =>
      refine Silent.install.bind fun r => ?_
      cases r <;> exact .pure _
    | setBreadcrumbMask mask => exact Silent.setMask.bind fun _ => detail _ _
    | _ => cases hl
  | _ => cases hl

theorem request {q : Request} (hq : v.permits q = true) (hl : q.setsLog = false) :
    Mirrored v.pairing Eq q.operation q.operation := by
  have entries := v.entryTwins
  cases q with
  | registry q => exact entries.registry q
  | dispatch d => exact entries.dispatch d
  | callback table q => exact entries.serve table q
  | library q =>
    intro thread s s' hs
    have table : s'.libraryTable = s.libraryTable := congrArg Setup.libraryTable hs.cover_eq
    show Mirrors v.pairing Eq (LinkedEngine.serve q thread s) (LinkedEngine.serve q thread s')
    rw [LinkedEngine.serve_eq, LinkedEngine.serve_eq, table]
    exact entries.serve _ q thread s s' hs
  | bridge q => exact entries.bridge q
  | entry q =>
    refine entries.entry hl fun options hi => ?_
    cases v with
    | log => exact create
    | attachments =>
      cases q with
      | init => cases hq
      | _ => cases hi
  | log q => cases hl

end Veil

end CallbackBridge
