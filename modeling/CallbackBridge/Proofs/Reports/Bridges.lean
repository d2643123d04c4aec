import CallbackBridge.Proofs.Reports.Operations

/-! # How requests report

    This goes on from `Proofs.Reports.Operations` with what an engine asks, and
    with what a bridge does for the application.

    Key ideas:

    1. Of a request to the registry or to the dispatcher only the first
       attachment matters.  If it is refused, this is counted and never
       reported as such.
    2. A bridge registers an object first, so the same is true of it.  The
       stand-in for an engine goes on to deliver a result, which attaches the
       thread for the second time.
    3. All else that a bridge does leaves the gap as it is. -/

namespace CallbackBridge

open Run Run.History

namespace Call

theorem ne_log_of_toEngine {c : Call} (hc : c.toEngine = true) : ∀ line, c ≠ .log line := by
  rintro line rfl
  cases hc

theorem ne_clock_of_toEngine {c : Call} (hc : c.toEngine = true) : c ≠ .system .clock := by
  rintro rfl
  cases hc

theorem blank_of_toEngine {c : Call} (hc : c.toEngine = true) (r : c.Reply) :
    c.blank r = false := by
  cases c with
  | engine | library => rfl
  | _ => cases hc

theorem status?_of_toEngine {c : Call} (hc : c.toEngine = true) (r : c.Reply) :
    c.status? r = none := by
  cases c with
  | engine | library => rfl
  | _ => cases hc

end Call

namespace Request

/-- What is counted of a request whose first attachment is refused, if `b`, and
    never reported as such. -/
def unreported (q : Request) (b : Bool) : Log.Category → UInt64 :=
  once .attachFailure (q.registers && b) + once .staleHandle (q.dispatched?.isSome && b)

theorem registers_through (q : Request) (table : Option CallbackTable) :
    (q.through table).registers = q.registers := by
  cases q <;> rfl

theorem unreported_of_registers {q : Request} {b : Bool} (hr : q.registers = true)
    (hd : q.dispatched? = none) : q.unreported b = once .attachFailure b := by
  simp [unreported, hr, hd]

theorem unreported_of_dispatched? {q : Request} {d : DispatchRequest} {b : Bool}
    (hr : q.registers = false) (hd : q.dispatched? = some d) :
    q.unreported b = once .staleHandle b := by
  simp [unreported, hr, hd]

theorem unreported_eq_zero {q : Request} {b : Bool} (hr : q.registers = false)
    (hd : q.dispatched? = none) : q.unreported b = 0 := by
  simp [unreported, hr, hd]

end Request

namespace Run

variable {e : Engine} {g : Log.Category → UInt64} {R : List Int32 → Prop} {L : List Int32}
  {op : Nat} {thread : Thread} {s s₀ : State} {h : History} {α : Type} {id : HandleId}
  {o : HostObject} {k : HandleKind} {q : Request} {b : Bool}

/-- Whatever the host has answered, its first answer is a refusal or it is not. -/
theorem exists_answers (l : List Int32) : ∃ b, Answers [] b l := by
  cases l with
  | nil => exact ⟨false, .inr ⟨rfl, rfl⟩⟩
  | cons status more => exact ⟨_, .inl ⟨[status], more, ⟨status, rfl, rfl⟩, rfl⟩⟩

theorem lasting_true : Lasting fun _ => True :=
  fun _ _ _ => trivial

/-- What operation `op` of `q` owes when it ends. -/
def Owing (e : Engine) (g : Log.Category → UInt64) (q : Request) (op : Nat) (s : State)
    (h : History) : Prop :=
  ∃ b, Owes e (g + q.unreported b) (Answers [] b) op s h

/-- Most requests owe nothing. -/
theorem Owes.owing (ho : Owes e g R op s h) (hr : q.registers = false)
    (hd : q.dispatched? = none) : Owing e g q op s h := by
  obtain ⟨b, hb⟩ := exists_answers (h.statuses op)
  refine ⟨b, ?_⟩
  rw [Request.unreported_eq_zero hr hd, add_zero]
  exact { ho with answers := hb }

/-- No object was registered, perhaps as the thread was refused. -/
theorem Owes.unregistered (ho : Owes e (g + once .attachFailure b) (Answers [] b) op s h)
    (hr : q.registers = true) (hd : q.dispatched? = none) : Owing e g q op s h :=
  ⟨b, by rwa [Request.unreported_of_registers hr hd]⟩

/-- An object was registered, so the thread was attached at first. -/
theorem Owes.registered (ho : Owes e g (Tries [] false) op s h) (hr : q.registers = true)
    (hd : q.dispatched? = none) : Owing e g q op s h :=
  Owes.unregistered (Owes.unowed (ho.mono fun _ hl => .inl hl)) hr hd

/-! ### The registry and the dispatcher -/

/-- Every request to the registry. -/
theorem Owes.registry {q : RegistryRequest} (ho : Owes e g (· = []) op s h) :
    Nests (reporting e) op thread (fun _ s' h' => Owing e g (.registry q) op s' h')
      (q.operation thread s) h := by
  have even : ∀ {β : Type} {m : Operation β}, Even e g (fun _ => True) m →
      (Request.registry q).registers = false →
      Nests (reporting e) op thread (fun _ s' h' => Owing e g (.registry q) op s' h')
        (m thread s) h := by
    intro β m hm hr
    have here : Owes e g (fun _ => True) op s h := ho.mono fun _ _ => trivial
    exact (hm op thread s h here).mono fun _ s' h' hx => hx.owing hr rfl
  cases q with
  | register o k =>
    refine ho.register.mono fun r s' h' hx => ?_
    cases r with
    | ok handle => exact (hx.1.mono fun l hl => hl.tries).registered rfl rfl
    | error err =>
      obtain ⟨b, hx⟩ := hx
      exact hx.unregistered rfl rfl
  | look => exact even .look rfl
  | giveBack => exact even (.giveBack lasting_true) rfl
  | release => exact even (.release lasting_true) rfl
  | releaseRaw => exact even (.releaseRaw lasting_true) rfl
  | releaseIfPresent => exact even (.releaseIfPresent lasting_true) rfl
  | close => exact even (.close lasting_true) rfl

/-- Every request to the registry or to the dispatcher. -/
theorem Owes.request (hq : q.isCoreOrClose = true) (ho : Owes e g (· = []) op s h) :
    Nests (reporting e) op thread (fun _ s' h' => Owing e g q op s' h')
      (q.operation thread s) h := by
  cases hd : q.dispatched? with
  | some d =>
    have unregistered : q.registers = false := by
      cases q <;> first | rfl | cases hd
    obtain ⟨report, served, -⟩ := Request.operation_of_dispatched? hd
    rw [served]
    refine Nests.bind ((ho.dispatch d).mono fun _ s' h' hx => ?_)
    obtain ⟨b, hx⟩ := hx
    exact ⟨b, by rwa [Request.unreported_of_dispatched? unregistered hd]⟩
  | none =>
    match q with
    | .registry q => exact ho.registry
    -- a table that leads nowhere does nothing
    | .callback ⟨false⟩ q => exact ho.owing rfl hd
    | .callback ⟨true⟩ q =>
      cases q with
      | release handle =>
        have here : Owes e g (fun _ => True) op s h := ho.mono fun _ _ => trivial
        exact Nests.bind ((Even.releaseRaw lasting_true op thread s h here).mono
          fun _ s' h' hx => hx.owing rfl hd)
      | _ => cases hd
    | .dispatch d => cases hd
    | .library _ | .bridge _ | .entry _ | .log _ => cases hq

/-! ### Engines -/

namespace Even

theorem engine {c : Call} (hc : c.toEngine = true) : Even e g R (Operation.call c) :=
  .call (Call.ne_log_of_toEngine hc) (Call.ne_clock_of_toEngine hc) (Call.blank_of_toEngine hc)
    (Call.status?_of_toEngine hc)

/-- The stand-in gives a handle back. -/
theorem discard (hR : Lasting R) {operation : String} :
    Even e g R (AbsentEngine.discard id operation) :=
  .bind breadcrumb fun _ => .bind (releaseRaw hR) fun _ => .pure ()

theorem startTunnel (hR : Lasting R) {engine : Engine} {settings : TunnelSettings} :
    Even e g R (engine.startTunnel id settings) := by
  cases engine with
  | external => exact Even.engine rfl
  | absent => exact discard hR
  | linked =>
    exact .bind (Even.engine (c := .library (.startTunnel id.raw settings)) rfl)
      fun _ => breadcrumb

/-- An engine that is not the stand-in answers an action later. -/
theorem invokeAction {engine : Engine} {data : CString} (hne : engine ≠ .absent) :
    Even e g R (engine.invokeAction id data) := by
  cases engine with
  | external => exact Even.engine rfl
  | linked => exact Even.engine rfl
  | absent => exact absurd rfl hne

theorem setEventListener {engine : Engine} : Even e g R (engine.setEventListener id) := by
  cases engine with
  | external => exact Even.engine rfl
  | linked => exact Even.engine rfl
  | absent => exact .pure ()

/-- The listener slot has nothing to do with it. -/
theorem slot {f : State → α × State} (hf : ∀ s, ∃ listener, (f s).2 = { s with listener }) :
    Even e g R (Operation.modifyGet f) := by
  refine .modifyGet fun op thread s h ho => ?_
  obtain ⟨listener, hl⟩ := hf s
  rw [hl]
  exact ho.change ⟨fun hr => hr, rfl, fun _ _ => rfl⟩ rfl rfl

theorem lockSlot {locked : Bool} : Even e g R (Bridge.lockSlot locked) :=
  slot (f := fun s => ((), { s with listener.locked := locked })) fun _ => ⟨_, rfl⟩

/-- A listener that is replaced is released. -/
theorem replaceListener (hR : Lasting R) {next : HandleId} :
    Even e g R (Bridge.replaceListener next) := by
  refine .bind .state fun s => .bind setEventListener fun _ => ?_
  refine .bind (slot fun _ => ⟨_, rfl⟩) fun previous => ?_
  cases previous with
  | none => exact breadcrumb
  | some id => exact .bind (releaseIfPresent hR) fun _ => breadcrumb

theorem launch {config : HelperConfig} : Even e g R (Helper.launch config) := by
  unfold Helper.launch
  split
  · exact .pure _
  split
  · exact .pure _
  · have spawns : ∀ program arguments,
        Even e g R (Operation.call (.system (.spawn program arguments))) :=
      fun _ _ => call nofun nofun (fun _ => rfl) fun _ => rfl
    exact .bind (spawns _ _) fun _ => .bind (emit (by decide)) fun _ => .pure _

/-- What goes through a bridge to its engine, or to a new helper. -/
theorem passes {q : BridgeRequest} (hq : q.hands = false) : Even e g R q.operation := by
  have through := fun engine : Engine => engine.passThrough (Φ := fun m => Even e g R m) .pure .bind
    fun hc _ => Even.engine hc
  cases q with
  | startTunnel | invokeAction | setEventListener => cases hq
  | stopTunnel => exact .bind (emit (by decide)) fun _ => .bind .state fun s => (through s.engine).1
  | updateDns dns =>
    exact .bind breadcrumb fun _ => .bind .state fun s => (through s.engine).2.1 dns
  | forceGc => exact .bind .state fun s => (through s.engine).2.2.1
  | suspend b =>
    exact .bind (emit (by decide)) fun _ => .bind .state fun s => (through s.engine).2.2.2.1 b
  | traffic b => exact .bind .state fun s => (through s.engine).2.2.2.2.1 b
  | totalTraffic b => exact .bind .state fun s => (through s.engine).2.2.2.2.2 b
  | startHelper config =>
    refine .bind launch fun r => ?_
    cases r with
    | error err => exact .pure _
    | ok helper => exact .bind (count rfl) fun _ => .pure _

end Even

/-! ### The bridge -/

/-- Operation `op` of `q`, which began in `s₀`, may end: it owes what is counted of
    it then and never reported as such. -/
structure Squared (e : Engine) (g : Log.Category → UInt64) (s₀ : State) (q : Request) (op : Nat)
    (thread : Thread) (result : q.Result) (s : State) (h : History) : Prop where
  serves : Serves e s
  heard : ∀ m : Moment, m.state.limiter = s.limiter → m.Heard h
  gap_eq : gap s h = g + (Ending.now op thread q result s₀ s h).due

/-- An operation that the stand-in has not answered an action in owes what its
    request says. -/
theorem Owing.squared {result : q.Result} (hs : s₀.engine = .absent → q.started? result = none)
    (ho : Owing e g (q.through s₀.libraryTable) op s h) :
    Squared e g s₀ q op thread result s h := by
  obtain ⟨b, ho⟩ := ho
  let x := Ending.now op thread q result s₀ s h
  have unanswered : x.answered? = none := by
    unfold Ending.answered?
    split
    · next absent => exact hs absent
    · rfl
  have first : x.refusedAt 0 = b := ho.answers.refused
  have due : x.due = (q.through s₀.libraryTable).unreported b := by
    have registers : x.registerRefused = (q.registers && b) := by
      rw [Ending.registerRefused, first]
    have dispatches : x.dispatchRefused =
        ((q.through s₀.libraryTable).dispatched?.isSome && b) := by
      rw [Ending.dispatchRefused, first, unanswered]
      exact Bool.or_false _
    rw [Ending.due, registers, dispatches, Request.unreported, Request.registers_through]
  exact ⟨ho.serves, ho.heard, by rw [ho.gap_eq, ← due]⟩

/-- Where the stand-in has answered an action, the second attachment is that of the
    delivery. -/
theorem Owes.squared_of_answered {data : CString} {callback : HostObject} {status : Int32}
    (he : s₀.engine = .absent) (hn : id.isNull = false)
    (hs : Call.refused (.host .attach) status = false)
    (ho : Owes e (g + once .staleHandle b) (Tries [status] b) op s h) :
    Squared e g s₀ (.bridge (.invokeAction data callback)) op thread (.ok id) s h := by
  let x := Ending.now op thread (.bridge (.invokeAction data callback)) (.ok id) s₀ s h
  have answered : x.answered? = some id := by
    have started : x.answered? = if id.isNull then none else some id := if_pos he
    rw [started, hn]
    rfl
  have second : x.refusedAt 1 = b := Answers.refused (.inl ho.answers)
  -- the callback was pinned, so the first attachment was not refused
  have first : x.refusedAt 0 = false := by
    obtain ⟨l', more, ⟨status', rfl, -⟩, told⟩ := ho.answers
    have told' : statuses x.op x.history = status :: ([status'] ++ more) := told
    rw [Ending.refusedAt, told']
    exact hs
  have due : x.due = once .staleHandle b := by
    have registers : x.registerRefused = false := by
      rw [Ending.registerRefused, first, Bool.and_false]
    have dispatches : x.dispatchRefused = b := by
      rw [Ending.dispatchRefused, first, second, answered, Bool.and_false]
      rfl
    rw [Ending.due, registers, dispatches, once_false, zero_add]
  exact ⟨ho.serves, ho.heard, by rw [ho.gap_eq, ← due]⟩

/-- The stand-in answers an action, and gives the handle back. -/
theorem Owes.answer (ho : Owes e g (· = L) op s h) (hn : id.isNull = false)
    (hf : s.registry.listed? id = some (.fresh id o .invoke)) :
    Nests (reporting e) op thread
      (fun _ s' h' => ∃ b, Owes e (g + once .staleHandle b) (Tries L b) op s' h')
      (AbsentEngine.invokeAction id thread s) h := by
  refine Nests.bind (Nests.bind ((ho.deliverFresh hn hf).mono fun _ s₁ h₁ hx => ?_))
  obtain ⟨b, hx⟩ := hx
  exact (Even.discard (lasting_tries L b) op thread s₁ h₁ hx).mono fun _ s₂ h₂ hy => ⟨b, hy⟩

/-- It does nothing for the null handle. -/
theorem Even.ignore (hn : id.isNull = true) : Even e g R (AbsentEngine.invokeAction id) := by
  have delivered : Dispatch.deliverResult id .empty = pure (.ok ()) := if_pos hn
  have released : Registry.releaseRaw id = pure false := if_pos hn
  have serves : Even e g R (Dispatch.deliverResult id .empty) := by
    rw [delivered]
    exact .pure _
  have releases : Even e g R (Registry.releaseRaw id) := by
    rw [released]
    exact .pure _
  exact .bind (.bind serves fun _ => .pure ()) fun _ =>
    .bind breadcrumb fun _ => .bind releases fun _ => .pure ()

/-- An action is passed to the engine, with a callback that was registered for
    it. -/
theorem Owes.invokeAction {data : CString} {callback : HostObject} (he : s₀.engine = e)
    (ho : Owes e g (· = []) op s h) :
    Nests (reporting e) op thread (Squared e g s₀ (.bridge (.invokeAction data callback)) op thread)
      (Bridge.invokeAction data callback thread s) h := by
  refine Nests.bind (ho.register.mono fun r s₁ h₁ hx => ?_)
  cases r with
  | error err =>
    obtain ⟨b, hx⟩ := hx
    exact Owing.squared (fun _ => rfl) (hx.unregistered rfl rfl)
  | ok handle =>
    obtain ⟨hx, o, hf⟩ := hx
    refine Nests.bind (hx.breadcrumb.mono fun _ s₂ h₂ hy => ?_)
    obtain ⟨rfl, hy⟩ := hy
    have engine : s₂.engine = e := hy.serves.2
    have tried : Owes e g (Tries [] false) op s₂ h₂ := hy.mono fun l hl => hl.tries
    simp only [Operation.bind_apply, Operation.state_apply, Progress.bind, engine]
    refine Nests.bind ?_
    -- only the stand-in delivers a result in this operation
    by_cases absent : e = .absent
    · subst absent
      cases hn : handle.id.isNull with
      | true =>
        refine (Even.ignore hn op thread s₂ h₂ tried).mono fun _ s₃ h₃ hz => ?_
        exact Owing.squared (fun _ => if_pos hn) (hz.registered rfl rfl)
      | false =>
        obtain ⟨status, told, unrefused⟩ := hy.answers
        have here : Owes .absent g (· = [status]) op s₂ h₂ := { hy with answers := told }
        refine (here.answer hn hf).mono fun _ s₃ h₃ hz => ?_
        obtain ⟨b, hz⟩ := hz
        exact hz.squared_of_answered he hn unrefused
    · refine (Even.invokeAction absent op thread s₂ h₂ tried).mono fun _ s₃ h₃ hz => ?_
      exact Owing.squared (fun he' => absurd (he.symm.trans he') absent) (hz.registered rfl rfl)

/-- A callback object is registered, and its handle is passed on. -/
theorem Owes.passed {q : BridgeRequest} {next : Handle → Operation (Request.bridge q).Result}
    {fails : HandleError → Operation (Request.bridge q).Result}
    (hq : (Request.bridge q).registers = true)
    (hs : ∀ result, (Request.bridge q).started? result = none)
    (hf : ∀ {g R} err, Even e g R (fails err))
    (hn : ∀ handle, Even e g (Tries [] false) (next handle))
    (ho : Owes e g (· = []) op s h) :
    Nests (reporting e) op thread (Squared e g s₀ (.bridge q) op thread)
      ((do match ← Registry.register o k with
        | .error err => fails err
        | .ok handle => next handle : Operation (Request.bridge q).Result) thread s) h := by
  refine Nests.bind (ho.register.mono fun r s₁ h₁ hx => ?_)
  cases r with
  | error err =>
    obtain ⟨b, hx⟩ := hx
    refine (hf err op thread s₁ h₁ hx).mono fun result s₂ h₂ hy => ?_
    exact Owing.squared (fun _ => hs result) (Owes.unregistered hy hq rfl)
  | ok handle =>
    have tried : Owes e g (Tries [] false) op s₁ h₁ := hx.1.mono fun l hl => hl.tries
    refine (hn handle op thread s₁ h₁ tried).mono fun result s₂ h₂ hy => ?_
    exact Owing.squared (fun _ => hs result) (hy.registered hq rfl)

/-- Every request to a bridge. -/
theorem Owes.bridge {q : BridgeRequest} (he : s₀.engine = e) (ho : Owes e g (· = []) op s h) :
    Nests (reporting e) op thread (Squared e g s₀ (.bridge q) op thread)
      (q.operation thread s) h := by
  have even : q.hands = false → Nests (reporting e) op thread
      (Squared e g s₀ (.bridge q) op thread) (q.operation thread s) h := by
    intro hq
    have unregistered : (Request.bridge q).registers = false := by
      cases q <;> first | rfl | cases hq
    have unstarted : ∀ result, (Request.bridge q).started? result = none := by
      intro result
      cases q <;> first | rfl | cases hq
    have here : Owes e g (fun _ => True) op s h := ho.mono fun _ _ => trivial
    refine (Even.passes hq op thread s h here).mono fun result s' h' hx => ?_
    exact Owing.squared (fun _ => unstarted result) (hx.owing unregistered rfl)
  cases q with
  | startTunnel callback settings =>
    refine ho.passed rfl (fun _ => rfl) (fun _ => .pure _) fun handle => ?_
    exact .bind (Even.emit (by decide)) fun _ => .bind .state fun _ =>
      .bind (Even.startTunnel (lasting_tries _ _)) fun _ => .pure _
  | invokeAction data callback => exact ho.invokeAction he
  | setEventListener callback =>
    refine Nests.bind ((Even.lockSlot op thread s h ho).mono fun _ s₁ h₁ hx => ?_)
    cases callback with
    | none =>
      have here : Owes e g (fun _ => True) op s₁ h₁ := hx.mono fun _ _ => trivial
      refine Nests.bind ((Even.replaceListener lasting_true op thread s₁ h₁ here).mono ?_)
      exact fun _ s₂ h₂ hy => Owing.squared (fun _ => rfl) (hy.owing rfl rfl)
    | some o =>
      refine hx.passed rfl (fun _ => rfl) (fun _ => ?_) fun handle => ?_
      · exact .bind Even.lockSlot fun _ => .pure _
      · exact .bind (Even.replaceListener (lasting_tries _ _)) fun _ => .pure _
  | _ => exact even rfl

end Run

end CallbackBridge
