import CallbackBridge.Proofs.Handover
import CallbackBridge.Proofs.Routing

/-! # Custody of handles

    A handle that the engine was handed is the engine's to give back.  Until it
    does, the handle stays in the table and reaches its host object, whatever
    else happens.

    Key ideas:

    1. There are two ways off the table: the engine gives the id back, or the
       bridge releases a listener that another one has replaced.  Each shows in
       the history before the handle is struck off.
    2. `Custody` compares the table with every moment before.  It holds after
       each change that an operation makes, so nothing has to be said about how
       operations are nested, except that a locked slot is let alone.
    3. An id stands for one kind of handle for good, and the slot holds a
       listener.  So the bridge strikes off no handle of another kind by
       itself, and the stand-in for an engine no listener.

    The result is about engines outside the bridge, linked or not.  Of the stand-in
    it says little: that one keeps no tunnel and no action beyond the operation that
    started it, and no call tells it of a listener.  What is left of its handles is
    the subject of `Proofs.Standin.Runs`. -/

namespace CallbackBridge

open Run Run.History

/-! ### How a handle is given up -/

namespace Run

/-- The engine gives `id` back as an operation begins. -/
def Moment.GivesBack (m : Moment) (id : HandleId) : Prop :=
  ∃ op thread q, m.event = .begins op thread q ∧
    (q.through m.state.libraryTable).released? = some id

/-- The engine `e` has given up a handle: it gave it back in the stretch `later`
    of the history, or the handle was a listener, and an operation that found it
    in the slot as it began has told the engine about another one.  The stand-in
    gives back what it is started with, without being called; and as nothing is told
    to it, any operation that found a listener in the slot may have replaced that. -/
inductive History.GivenUp (e : Engine) (h later : History) (handle : Handle) : Prop
  | givenBack {m : Moment} : m ∈ later → m.GivesBack handle.id → GivenUp e h later handle
  | replaced {op : Nat} {thread : Thread} {callback : Option HostObject} {s : State}
    {next : HandleId} : handle.kind = .listener →
    ⟨.begins op thread (.bridge (.setEventListener callback)), s⟩ ∈ h →
    s.listener.current = some handle.id → (∀ call ∈ e.telling next, h.Answered op call) →
    GivenUp e h later handle
  | discarded : e = .absent → handle.kind ≠ .listener → GivenUp e h later handle

/-- What `r` lists, `r'` lists for the same use of the same object, unless the
    engine has given it up since. -/
def History.Keeps (e : Engine) (h later : History) (r r' : Registry) : Prop :=
  ∀ x ∈ r.entries, x.listed = true → h.GivenUp e later ⟨x.id, x.kind⟩ ∨
    ∃ x' ∈ r'.entries, x'.listed = true ∧ x'.id = x.id ∧ x'.object = x.object ∧ x'.kind = x.kind

namespace History

variable {e : Engine} {h h' later later' : History} {r r' r'' : Registry}

theorem GivenUp.mono {handle : Handle} (hg : h.GivenUp e later handle) (hs : h <:+ h')
    (hl : later ⊆ later') : h'.GivenUp e later' handle := by
  cases hg with
  | givenBack hm hback => exact .givenBack (hl hm) hback
  | replaced hkind hb hslot told =>
    exact .replaced hkind (hs.subset hb) hslot fun call hc => (told call hc).of_suffix hs
  | discarded habsent hkind => exact .discarded habsent hkind

theorem Keeps.refl (r : Registry) : h.Keeps e later r r :=
  fun x hx hl => .inr ⟨x, hx, hl, rfl, rfl, rfl⟩

theorem Keeps.mono (hk : h.Keeps e later r r') (hs : h <:+ h') (hl : later ⊆ later') :
    h'.Keeps e later' r r' :=
  fun x hx hlisted => (hk x hx hlisted).imp_left fun hg => hg.mono hs hl

/-- A change may strike off what the engine has given up. -/
theorem Keeps.trans {gone : HandleId → Prop} (hk : h.Keeps e later r r')
    (hs : r'.Spares gone r'')
    (hg : ∀ x ∈ r'.entries, gone x.id → h.GivenUp e later ⟨x.id, x.kind⟩) :
    h.Keeps e later r r'' := by
  intro x hx hl
  rcases hk x hx hl with hup | ⟨x', hx', hl', hid', ho', hk'⟩
  · exact .inl hup
  rcases hs x' hx' hl' with hgone | ⟨x'', hx'', hl'', hid'', ho'', hk''⟩
  · left
    have hup := hg x' hx' hgone
    rwa [hid', hk'] at hup
  · exact .inr ⟨x'', hx'', hl'', hid''.trans hid', ho''.trans ho', hk''.trans hk'⟩

end History

end Run

/-! ### What stands under an id -/

/-- Whatever stands under `id` is of one kind, now and for good. -/
structure Registry.Reserves (r : Registry) (id : HandleId) (kind : HandleKind) : Prop where
  issued : id.raw < r.nextId
  kind_eq : ∀ x ∈ r.entries, x.id = id → x.kind = kind

theorem Registry.Reserves.rises {r r' : Registry} {id : HandleId} {kind : HandleKind}
    (hr : r.Reserves id kind) (h : r.Rises r') : r'.Reserves id kind where
  issued := UInt64.lt_of_lt_of_le hr.issued h.next
  kind_eq x' hx' hid := by
    -- what is settled keeps its kind
    obtain ⟨x, hx, hid', -, hkind, -⟩ := h.kept x' hx' (hid ▸ hr.issued)
    rw [← hkind]
    exact hr.kind_eq x hx (hid'.trans hid)

/-- What enters the table takes an id that nothing stands under. -/
theorem Registry.reserves_of_entering {s s' : State} {o : HostObject} {kind : HandleKind}
    {id : HandleId} (hr : s.registry.Sound) (h : Registry.entering o kind s = (.ok id, s')) :
    s'.registry.Reserves id kind := by
  obtain ⟨r, henlist, rfl⟩ := Registry.entering_ok h
  obtain ⟨-, hlimit, rfl, rfl⟩ := Registry.enlist_ok henlist
  refine ⟨Registry.lt_next hlimit, fun x hx hid => ?_⟩
  rcases List.mem_cons.mp hx with rfl | hx
  · rfl
  · have older := hr.issued x hx
    rw [hid] at older
    exact absurd older (UInt64.lt_irrefl _)

/-- The table lists a handle for `o`. -/
def Registry.Lists (r : Registry) (handle : Handle) (o : HostObject) : Prop :=
  ∃ x, r.listed? handle.id = some x ∧ x.object = o ∧ x.kind = handle.kind

namespace Run

variable {e : Engine} {s s' s₀ s₁ : State} {h h' : History} {op : Nat} {thread : Thread}
  {c : Call} {q : Request} {id : HandleId} {next : HandleId} {kind : HandleKind}

/-- At an earlier moment the table listed a handle for `o`, and the engine has
    not given it up since. -/
def History.Entrusted (e : Engine) (h : History) (handle : Handle) (o : HostObject) : Prop :=
  ∃ later m before, h = later ++ m :: before ∧ m.event.isBegin = false ∧
    m.state.registry.Lists handle o ∧ ¬ h.GivenUp e later handle

/-! ### Custody -/

/-- What holds at every moment. -/
structure Custody (e : Engine) (s : State) (h : History) : Prop where
  sound : s.registry.Sound
  engine_eq : s.engine = e
  /-- The slot holds a listener. -/
  slot : ∀ id ∈ s.listener.current, id.isNull = false ∧ s.registry.Reserves id .listener
  kept : ∀ later m before, h = later ++ m :: before → m.event.isBegin = false →
    h.Keeps e later m.state.registry s.registry

namespace Custody

theorem change (hc : Custody e s h) (ha : Aside s s')
    (hs : ∀ gone, s.registry.Spares gone s'.registry) : Custody e s' h where
  sound := ha.sound hc.sound
  engine_eq := ha.engine_eq.trans hc.engine_eq
  slot id hid := by
    rw [ha.listener_eq] at hid
    exact (hc.slot id hid).imp_right fun held => held.rises ha.rises
  kept later m before heq hb :=
    (hc.kept later m before heq hb).trans (hs fun _ => False) fun _ _ hf => hf.elim

theorem touch (hc : Custody e s h) (ht : Touch s s') : Custody e s' h :=
  hc.change (.touch ht) fun _ => ht.spares hc.sound

theorem entering {o : HostObject} (hc : Custody e s h)
    (he : Registry.entering o kind s = (.ok id, s')) :
    Custody e s' h ∧ Aside s s' ∧ s'.registry.Reserves id kind := by
  have aside : Aside s (Registry.entering o kind s).2 := .entering o kind
  rw [he] at aside
  refine ⟨hc.change aside fun gone => ?_, aside, Registry.reserves_of_entering hc.sound he⟩
  obtain ⟨r, henlist, rfl⟩ := Registry.entering_ok he
  exact .enlist henlist

/-- A handle is struck off that the engine has given up. -/
theorem striking (hc : Custody e s h)
    (hg : ∀ later m before, h = later ++ m :: before → m.event.isBegin = false →
      ∀ x ∈ s.registry.entries, x.id = id → h.GivenUp e later ⟨x.id, x.kind⟩) :
    Custody e (Registry.striking id s).2 h := by
  have aside : Aside s (Registry.striking id s).2 := .striking id
  refine ⟨aside.sound hc.sound, aside.engine_eq.trans hc.engine_eq, fun id' hid => ?_, ?_⟩
  · rw [aside.listener_eq] at hid
    exact (hc.slot id' hid).imp_right fun held => held.rises aside.rises
  · intro later m before heq hb
    exact (hc.kept later m before heq hb).trans (Spares.striking id).spares
      (hg later m before heq hb)

/-- Another event has happened. -/
theorem cons (hc : Custody e s h) (event : Event) : Custody e s (⟨event, s⟩ :: h) where
  sound := hc.sound
  engine_eq := hc.engine_eq
  slot := hc.slot
  kept later m before heq hb := by
    cases later with
    | nil =>
      obtain ⟨rfl, rfl⟩ := List.cons.inj heq
      exact .refl _
    | cons m' later =>
      obtain ⟨rfl, rfl⟩ := List.cons.inj heq
      exact (hc.kept later m before rfl hb).mono (List.suffix_cons ..)
        (List.subset_cons_self ..)

/-- What the engine has not given up is still listed. -/
theorem lists {handle : Handle} {o : HostObject} (hc : Custody e s h)
    (hent : h.Entrusted e handle o) : s.registry.Lists handle o := by
  obtain ⟨later, m, before, heq, hb, ⟨x, hx, ho, hkind⟩, kept⟩ := hent
  obtain ⟨hmem, hid, hlisted⟩ := Registry.mem_of_listed? hx
  rcases hc.kept later m before heq hb x hmem hlisted with hup | ⟨x', hmem', hl', hid', ho', hk'⟩
  · rw [hid, hkind] at hup
    exact absurd hup kept
  · refine ⟨x', ?_, ho'.trans ho, hk'.trans hkind⟩
    rw [← hid, ← hid']
    exact hc.sound.distinct.listed?_eq hmem' hl'

end Custody

/-- Every moment has custody, and a locked slot is let alone. -/
def keeping (e : Engine) : Nesting where
  holds := Custody e
  spans s _ s' _ := Passes s s'
  conduct m _ := ∀ op thread q, m.event = .begins op thread q →
    q.isBridge = true ∧ (q.setsListener = true → m.state.listener.locked = false)
  law m before := Custody e m.state before
  spans_refl s _ := .refl s
  spans_trans h h' := h.trans h'

/-- What is nested in a call keeps custody. -/
theorem Custody.reply (hc : Custody e s h) (ho : (keeping e).Open op c s h s' h') :
    Custody e s' h' := by
  cases hq : c.mayReenter with
  | true => exact ho.holds hq
  | false =>
    obtain ⟨rfl, rfl⟩ := ho.quiet hq
    exact hc

/-- Custody is kept over a call. -/
theorem Custody.call {post : c.Reply → State → History → Prop} (hc : Custody e s h)
    (hp : ∀ r s' h' lost, (keeping e).Open op c s (⟨.calls op thread c, s⟩ :: h) s' h' →
      Custody e s' (⟨.replies op thread c r lost, s'⟩ :: h') →
      post r s' (⟨.replies op thread c r lost, s'⟩ :: h')) :
    Nests (keeping e) op thread post (Operation.call c thread s) h := by
  have called : Custody e s (⟨.calls op thread c, s⟩ :: h) := hc.cons _
  refine ⟨hc, fun _ => called, fun r s' h' lost ho _ => ?_⟩
  have back := called.reply ho
  exact ⟨back, hp r s' h' lost ho (back.cons _)⟩

/-! ### Other operations -/

/-- An operation that leaves the slot alone has run on from `s₁`. -/
structure Aloof (e : Engine) (s₁ s : State) (h : History) : Prop extends Custody e s h where
  passes : Passes s₁ s

namespace Aloof

theorem change (ha : Aloof e s₁ s h) (hc : Custody e s' h) (hs : Aside s s') :
    Aloof e s₁ s' h :=
  ⟨hc, ha.passes.aside hs⟩

/-- It may be said to have run on from here. -/
theorem rebase (ha : Aloof e s₁ s h) : Aloof e s s h :=
  ⟨ha.toCustody, .refl s⟩

theorem trans (ha : Aloof e s₁ s h) (hp : Passes s₀ s₁) : Aloof e s₀ s h :=
  ⟨ha.toCustody, hp.trans ha.passes⟩

theorem carries_call (c : Call) :
    (keeping e).Carries (fun _ _ s h => Aloof e s₁ s h) (Operation.call c) :=
  fun _ _ _ _ ha => ha.toCustody.call fun _ _ _ _ ho hc => ⟨hc, ha.passes.trans ho.spans⟩

/-- A release that finds nothing changes only a count. -/
theorem carries_miss :
    (keeping e).Carries (fun _ _ s h => Aloof e s₁ s h) (bump .duplicateReleases) :=
  fun _ _ _ _ ha => ha.change (ha.toCustody.change ⟨id, .refl _, rfl, rfl⟩ fun _ => .refl _)
    ⟨id, .refl _, rfl, rfl⟩

end Aloof

theorem aloof_engine (e : Engine) (s₁ : State) : EngineParts (fun m =>
    (keeping e).Carries (fun _ _ s h => Aloof e s₁ s h) m) := by
  have basics : Basics (fun m => (keeping e).Carries (fun _ _ s h => Aloof e s₁ s h) m) :=
    Nesting.Carries.basics_of_calls fun {c} _ => Aloof.carries_call c
  exact {
    toParts := basics.parts (Aloof.carries_call _) fun hf =>
      .modifyGet fun _ _ s _ ha => ha.change (ha.toCustody.touch (hf s)) (.touch (hf s))
    engine := fun _ _ => Aloof.carries_call _ }

/-- The engine gives a handle back: it is struck off right away. -/
theorem Aloof.releaseRaw (ha : Aloof e s₁ s h)
    (hg : ∀ later m before, h = later ++ m :: before → m.event.isBegin = false →
      ∃ m' ∈ later, id.isNull = false → m'.GivesBack id) :
    Nests (keeping e) op thread (fun _ s' h' => Aloof e s₁ s' h')
      (Registry.releaseRaw id thread s) h := by
  unfold Registry.releaseRaw
  split
  · exact ha
  next hn =>
  have known : id.isNull = false := by simpa using hn
  have struck : Aloof e s₁ (Registry.striking id s).2 h := by
    refine ha.change (ha.toCustody.striking fun later m before heq hb x _ hid => ?_) (.striking id)
    obtain ⟨m', hm', hback⟩ := hg later m before heq hb
    exact .givenBack hm' (hid ▸ hback known)
  exact (aloof_engine e s₁).toParts.remove_nests Aloof.carries_miss struck

/-- What an engine asks for, through whichever table. -/
theorem Custody.serve {table : CallbackTable} {q' : EngineRequest} (hc : Custody e s h)
    (hq : q.through s.libraryTable = .callback table q') :
    Nests (keeping e) op thread (fun _ s' h' => Aloof e s s' h') (table.serve q' thread s)
      (⟨.begins op thread q, s⟩ :: h) := by
  have began : Aloof e s s (⟨.begins op thread q, s⟩ :: h) := ⟨hc.cons _, .refl s⟩
  have parts := (aloof_engine e s).toParts
  by_cases hr : table.connected = true ∧ ∃ handle, q' = .release handle
  · obtain ⟨connected, handle, rfl⟩ := hr
    unfold CallbackTable.serve
    rw [if_pos connected]
    have released : Nests (keeping e) op thread (fun _ s' h' => Aloof e s s' h')
        (Registry.releaseRaw ⟨handle⟩ thread s) (⟨.begins op thread q, s⟩ :: h) := by
      refine began.releaseRaw fun later m before heq hb => ?_
      cases later with
      | nil =>
        -- the operation has only just begun
        obtain ⟨rfl, -⟩ := List.cons.inj heq
        cases hb
      | cons m' later =>
        obtain ⟨rfl, -⟩ := List.cons.inj heq
        refine ⟨_, List.mem_cons_self .., fun known => ⟨op, thread, q, rfl, ?_⟩⟩
        simp [hq, Request.released?, connected, known]
    exact Nests.bind (released.mono fun _ _ _ ha => ha)
  · refine parts.serve (fun connected handle heq => ?_) op thread s _ began
    exact absurd ⟨connected, handle, heq⟩ hr

/-! ### Starting a tunnel or an action -/

/-- A callback object stands under `id`, for a use that is not listening. -/
theorem Aloof.carries_strike (held : s₁.registry.Reserves id kind) (hk : kind ≠ .listener) :
    (keeping .absent).Carries (fun _ _ s h => Aloof .absent s₁ s h)
      (Operation.modifyGet (Registry.striking id)) :=
  .modifyGet fun _ _ _ _ ha => ha.change
    (ha.toCustody.striking fun _ _ _ _ _ x hx hid => by
      refine .discarded rfl ?_
      rwa [show x.kind = kind from (held.rises ha.passes.rises).kind_eq x hx hid])
    (.striking id)

/-- The stand-in gives back the handle that it is started with. -/
theorem Aloof.carries_discard (held : s₁.registry.Reserves id kind) (hk : kind ≠ .listener)
    {operation : String} :
    (keeping .absent).Carries (fun _ _ s h => Aloof .absent s₁ s h)
      (AbsentEngine.discard id operation) := by
  have parts := (aloof_engine .absent s₁).toParts
  refine parts.bind parts.breadcrumb fun _ => parts.serve fun _ handle heq => ?_
  obtain rfl : id.raw = handle := by cases heq; rfl
  exact parts.releaseRaw (Aloof.carries_strike held hk) Aloof.carries_miss

theorem Aloof.carries_startTunnel (held : s₁.registry.Reserves id .tunnel)
    {settings : TunnelSettings} :
    (keeping e).Carries (fun _ _ s h => Aloof e s₁ s h) (e.startTunnel id settings) := by
  cases e with
  | external => exact Aloof.carries_call _
  | linked =>
    have parts := aloof_engine .linked s₁
    exact parts.bind (Aloof.carries_call (.library (.startTunnel id.raw settings)))
      fun _ => parts.breadcrumb
  | absent => exact Aloof.carries_discard held nofun

/-- The engine is the one that the bridge was created over. -/
theorem Aloof.carries_engine {α β : Type} {f : Engine → Operation α} {b : β}
    (hf : (keeping e).Carries (fun _ _ s h => Aloof e s₁ s h) (f e)) :
    (keeping e).Carries (fun _ _ s h => Aloof e s₁ s h)
      (do
        let s ← Operation.state
        let _ ← f s.engine
        pure b) := by
  intro op thread s h ha
  simp only [Operation.bind_apply, Operation.state_apply, Progress.bind, ha.engine_eq]
  exact Nests.bind ((hf op thread s h ha).mono fun _ _ _ ha => ha)

theorem Aloof.carries_invokeAction (held : s₁.registry.Reserves id .invoke) {data : CString} :
    (keeping e).Carries (fun _ _ s h => Aloof e s₁ s h) (e.invokeAction id data) := by
  cases e with
  | external => exact Aloof.carries_call _
  | linked => exact Aloof.carries_call _
  | absent =>
    have parts := (aloof_engine .absent s₁).toParts
    exact parts.bind (parts.serve fun _ _ heq => by cases heq)
      fun _ => Aloof.carries_discard held nofun

/-! ### Setting the listener -/

/-- Operation `op`, which sets the listener and began in `s₀`, holds the slot
    locked. -/
structure Setting (e : Engine) (s₀ : State) (op : Nat) (s : State) (h : History) : Prop
    extends Custody e s h where
  rises : s₀.registry.Rises s.registry
  slot_eq : s.listener = ⟨s₀.listener.current, true⟩
  began : ∃ thread callback, ⟨.begins op thread (.bridge (.setEventListener callback)), s₀⟩ ∈ h

namespace Setting

theorem change (hs : Setting e s₀ op s h) (hc : Custody e s' h) (ha : Aside s s') :
    Setting e s₀ op s' h :=
  ⟨hc, hs.rises.trans ha.rises, ha.listener_eq.trans hs.slot_eq, hs.began⟩

/-- While it waits in a call, nobody else sets a listener. -/
theorem call {post : c.Reply → State → History → Prop} (hs : Setting e s₀ op s h)
    (hp : ∀ r s' h' lost, s.registry.Rises s'.registry →
      Setting e s₀ op s' (⟨.replies op thread c r lost, s'⟩ :: h') →
      post r s' (⟨.replies op thread c r lost, s'⟩ :: h')) :
    Nests (keeping e) op thread post (Operation.call c thread s) h := by
  refine hs.toCustody.call fun r s' h' lost ho hc => hp r s' h' lost ho.spans.rises ?_
  have grown : h <:+ ⟨.replies op thread c r lost, s'⟩ :: h' :=
    ((List.suffix_cons ..).trans ho.since.suffix).trans (List.suffix_cons ..)
  have same : s'.listener = s.listener := ho.spans.locked (by rw [hs.slot_eq])
  exact ⟨hc, hs.rises.trans ho.spans.rises, same.trans hs.slot_eq,
    hs.began.imp fun _ hx => hx.imp fun _ hm => grown.subset hm⟩

end Setting

theorem setting_parts (e : Engine) (s₀ : State) : Parts (fun m =>
    (keeping e).Carries (fun op _ s h => Setting e s₀ op s h) m) := by
  have calls : ∀ {c : Call},
      (keeping e).Carries (fun op _ s h => Setting e s₀ op s h) (Operation.call c) :=
    fun _ _ _ _ hs => hs.call fun _ _ _ _ _ hs' => hs'
  have basics : Basics (fun m => (keeping e).Carries (fun op _ s h => Setting e s₀ op s h) m) :=
    Nesting.Carries.basics_of_calls fun _ => calls
  exact basics.parts calls fun hf =>
    .modifyGet fun _ _ s _ hs => hs.change (hs.toCustody.touch (hf s)) (.touch (hf s))

/-- The next listener is registered, and the entry is logged. -/
theorem setting_logs (e : Engine) (s₀ : State) (id : HandleId) : Basics (fun m =>
    (keeping e).Carries (fun op _ s h => Setting e s₀ op s h ∧ s.registry.Reserves id .listener)
      m) :=
  Nesting.Carries.basics_of_calls fun _ _ _ _ _ ⟨hs, held⟩ =>
    hs.call fun _ _ _ _ rises hs' => ⟨hs', held.rises rises⟩

theorem Setting.entering {o : HostObject} (hs : Setting e s₀ op s h)
    (he : Registry.entering o .listener s = (.ok id, s')) :
    Setting e s₀ op s' h ∧ s'.registry.Reserves id .listener := by
  obtain ⟨custody, aside, held⟩ := hs.toCustody.entering he
  exact ⟨hs.change custody aside, held⟩

/-- The engine is told about `next`; the stand-in is not. -/
theorem Setting.tells (hs : Setting e s₀ op s h)
    (hn : ∀ id ∈ next.known?, s.registry.Reserves id .listener) :
    Nests (keeping e) op thread (fun _ s' h' => Setting e s₀ op s' h' ∧
      (∀ id ∈ next.known?, s'.registry.Reserves id .listener) ∧
      ∀ call ∈ e.telling next, h'.Answered op call) (e.setEventListener next thread s) h := by
  have told : ∀ {c : Call}, e.telling next = [c] →
      Nests (keeping e) op thread (fun _ s' h' => Setting e s₀ op s' h' ∧
        (∀ id ∈ next.known?, s'.registry.Reserves id .listener) ∧
        ∀ call ∈ e.telling next, h'.Answered op call) (Operation.call c thread s) h := by
    intro c hc
    refine hs.call fun r s' h' lost rises hs' => ⟨hs', fun id hid => (hn id hid).rises rises, ?_⟩
    intro call hcall
    obtain rfl := List.mem_singleton.mp (hc ▸ hcall)
    exact ⟨thread, r, lost, s', List.mem_cons_self ..⟩
  cases e with
  | external => exact told rfl
  | linked => exact told rfl
  | absent => exact ⟨hs, hn, fun _ hc => by cases hc⟩

/-- The slot is switched, which frees it. -/
theorem Setting.switched (hs : Setting e s₀ op s h) (free : s₀.listener.locked = false)
    (hn : ∀ id ∈ next.known?, s.registry.Reserves id .listener) :
    Aloof e s₀ { s with listener := ⟨next.known?, false⟩ } h where
  sound := hs.sound
  engine_eq := hs.engine_eq
  slot id hid := ⟨(mem_known? hid).1, hn id hid⟩
  kept := hs.kept
  passes := by
    refine ⟨hs.rises, fun hl => ?_, fun _ => rfl⟩
    rw [free] at hl
    cases hl

/-- The slot is unlocked as it is. -/
theorem Setting.unlocked (hs : Setting e s₀ op s h) (free : s₀.listener.locked = false) :
    Aloof e s₀ { s with listener.locked := false } h where
  sound := hs.sound
  engine_eq := hs.engine_eq
  slot := hs.slot
  kept := hs.kept
  passes := by
    refine ⟨hs.rises, fun hl => ?_, fun _ => rfl⟩
    rw [free] at hl
    cases hl

/-- The engine switches to `next`, and the listener before it is released. -/
theorem Setting.replacing (hs : Setting e s₀ op s h) (free : s₀.listener.locked = false)
    (hn : ∀ id ∈ next.known?, s.registry.Reserves id .listener) :
    Nests (keeping e) op thread (fun _ s' h' => Aloof e s₀ s' h')
      (Bridge.replaceListener next thread s) h := by
  have parts := (aloof_engine e s₀).toParts
  simp only [Bridge.replaceListener, Operation.bind_apply, Operation.state_apply, Progress.bind,
    hs.engine_eq]
  refine Nests.bind ((hs.tells hn).mono fun _ s₁ h₁ hx => ?_)
  obtain ⟨hs₁, hn₁, told⟩ := hx
  have slot : s₁.listener.current = s₀.listener.current := by rw [hs₁.slot_eq]
  simp only [Bridge.switchSlot, Operation.modifyGet_apply, Progress.bind, slot]
  have switched := hs₁.switched free hn₁
  cases hcur : s₀.listener.current with
  | none => exact parts.breadcrumb op thread _ h₁ switched
  | some id =>
    obtain ⟨known, held⟩ := hs₁.slot id (slot.trans hcur)
    refine Nests.bind ?_
    rw [Registry.releaseIfPresent_eq known]
    have struck : Aloof e s₀ (Registry.striking id
        { s₁ with listener := ⟨next.known?, false⟩ }).2 h₁ := by
      refine switched.change (switched.toCustody.striking fun _ _ _ _ _ x hx hid => ?_)
        (.striking id)
      obtain ⟨thread', callback, began⟩ := hs₁.began
      exact .replaced (held.kind_eq x hx hid) began (hid ▸ hcur) told
    refine (parts.struck op thread _ h₁ struck).mono fun _ s₂ h₂ released => ?_
    exact parts.breadcrumb op thread s₂ h₂ released

/-! ### Requests -/

theorem Aloof.ends {result : q.Result} {h₀ : History} (ha : Aloof e s₀ s h) :
    (keeping e).ends op thread q s₀ h₀ result s h :=
  ⟨ha.toCustody, ha.toCustody.cons _, ha.passes⟩

/-- A callback object is registered, and the engine is started with the
    handle. -/
theorem Aloof.registered {o : HostObject} (kind : HandleKind)
    {following : Handle → Operation (Except HandleError HandleId)} (ha : Aloof e s₁ s h)
    (hn : ∀ handle s', s'.registry.Reserves handle.id kind →
      (keeping e).Carries (fun _ _ s h => Aloof e s' s h) (following handle)) :
    Nests (keeping e) op thread (fun _ s' h' => Aloof e s₁ s' h')
      ((do match ← Registry.register o kind with
        | .error err => pure (.error err)
        | .ok handle => following handle : Operation (Except HandleError HandleId)) thread s) h := by
  have logs : ∀ id, Basics (fun m => (keeping e).Carries (fun _ _ s h =>
      Aloof e s₁ s h ∧ s.registry.Reserves id kind) m) := fun id =>
    Nesting.Carries.basics_of_calls fun _ _ _ _ _ ⟨ha, held⟩ => ha.toCustody.call
      fun _ _ _ _ ho hc => ⟨⟨hc, ha.passes.trans ho.spans⟩, held.rises ho.spans.rises⟩
  have enters : ∀ {pinned id s₂ s₃ h₂}, Aloof e s₁ s₂ h₂ →
      Registry.entering pinned kind s₂ = (.ok id, s₃) →
      Aloof e s₁ s₃ h₂ ∧ s₃.registry.Reserves id kind := by
    intro pinned id s₂ s₃ h₂ ha₂ he
    obtain ⟨custody, aside, held⟩ := ha₂.toCustody.entering he
    exact ⟨ha₂.change custody aside, held⟩
  refine (aloof_engine e s₁).toPinningParts.registered_nests logs (fun _ _ _ _ _ => enters) ha
    (fun _ _ _ ha => ha) fun handle s' h' hr => ?_
  -- from here on the operation has run on from where the handle is registered
  have carried := hn handle s' hr.2 op thread s' h' hr.1.rebase
  exact carried.mono fun _ s₂ h₂ ha₂ => ha₂.trans hr.1.passes

theorem Custody.setEventListener {callback : Option HostObject} (hc : Custody e s h)
    (free : s.listener.locked = false) :
    Nests (keeping e) op thread (fun _ s' h' => Aloof e s s' h')
      (Bridge.setEventListener callback thread s)
      (⟨.begins op thread (.bridge (.setEventListener callback)), s⟩ :: h) := by
  have began := hc.cons (.begins op thread (.bridge (.setEventListener callback)))
  have locked : Setting e s op { s with listener.locked := true }
      (⟨.begins op thread (.bridge (.setEventListener callback)), s⟩ :: h) := {
    toCustody := ⟨began.sound, began.engine_eq, began.slot, began.kept⟩
    rises := .refl _
    slot_eq := rfl
    began := ⟨thread, callback, List.mem_cons_self ..⟩ }
  cases callback with
  | none =>
    -- the null handle stands for none
    refine Nests.bind (p := Bridge.replaceListener .null thread _) ?_
    exact (locked.replacing free fun _ hid => by cases hid).mono fun _ _ _ ha => ha
  | some object =>
    refine (setting_parts e s).toPinningParts.registered_nests (setting_logs e s)
      (fun _ _ _ _ _ => Setting.entering) locked (fun err _ _ hs => hs.unlocked free) ?_
    intro handle s' h' hs
    refine Nests.bind ((hs.1.replacing free fun id hid => ?_).mono fun _ _ _ ha => ha)
    obtain rfl : handle.id = id := (mem_known? hid).2
    exact hs.2

theorem keeping_kept (q : Request) : (keeping e).Kept q := by
  intro thread s h _ hc conduct
  obtain ⟨bridge, inTurn⟩ := conduct _ _ _ rfl
  refine ⟨hc, ?_⟩
  have began : Aloof e s s (⟨.begins h.begun thread q, s⟩ :: h) := ⟨hc.cons _, .refl s⟩
  have parts := aloof_engine e s
  match q with
  | .callback table q => exact (hc.serve rfl).mono fun _ _ _ ha => ha.ends
  | .library q =>
    show Nests _ _ _ _ (LinkedEngine.serve q thread s) _
    rw [LinkedEngine.serve_eq]
    exact (hc.serve rfl).mono fun _ _ _ ha => ha.ends
  | .bridge q =>
    cases hands : q.hands with
    | false => exact (parts.bridge hands h.begun thread s _ began).mono fun _ _ _ ha => ha.ends
    | true =>
      cases q with
      | startTunnel o settings =>
        refine (began.registered .tunnel fun handle s' held => ?_).mono
          fun _ _ _ ha => ha.ends
        refine (aloof_engine e s').bind (aloof_engine e s').emit fun _ => ?_
        exact Aloof.carries_engine (f := fun e => e.startTunnel handle.id settings)
          (Aloof.carries_startTunnel held)
      | invokeAction data o =>
        refine (began.registered .invoke fun handle s' held => ?_).mono
          fun _ _ _ ha => ha.ends
        refine (aloof_engine e s').bind (aloof_engine e s').breadcrumb fun _ => ?_
        exact Aloof.carries_engine (f := fun e => e.invokeAction handle.id data)
          (Aloof.carries_invokeAction held)
      | setEventListener callback =>
        exact (hc.setEventListener (inTurn rfl)).mono fun _ _ _ ha => ha.ends
      | _ => cases hands
  | .registry _ | .dispatch _ | .entry _ | .log _ => cases bridge

/-! ### Runs -/

/-- What an engine may count on. -/
structure InCustody (e : Engine) (h : History) : Prop where
  /-- A handle that the engine is handed is listed. -/
  handed : h.Always fun m _ => ∀ op thread call handle, m.event = .calls op thread call →
    call.handed? = some handle → ∃ o, m.state.registry.Lists handle o
  /-- It stays so, for the same use of the same object, until the engine gives
      it up. -/
  stays : h.Always fun m before => ∀ handle o, before.Entrusted e handle o →
    m.state.registry.Lists handle o
  /-- A callback on it is an errand to the object, if it is one for the kind of
      the handle and the one result has not been claimed. -/
  answered : ∀ (later before : History) (op thread q d s) (handle : Handle) (o),
    h = later ++ ⟨.begins op thread q, s⟩ :: before → before.Entrusted e handle o →
    handle.id.isNull = false → (q.through s.libraryTable).dispatched? = some d →
    d.target = handle.id → d.Takes handle.kind →
    (∀ x, s.registry.listed? handle.id = some x → x.kind = .invoke → x.delivered = false) →
    Errand op d o h

/-- A callback through whichever table is an errand if the request to the
    dispatcher is one. -/
theorem errand_of_through {d : DispatchRequest} {o : HostObject} (ha : h.Always Accounted)
    (hb : ⟨.begins op thread q, s⟩ ∈ h) (hd : (q.through s.libraryTable).dispatched? = some d)
    (hp : (d.operation thread s).Follows (.errand (d.callOn o) d.Answered) []) :
    Errand op d o h := by
  match q with
  | .library q =>
    have served := Request.errand_of_dispatched? hd hp
    have same : Request.operation (.library q) thread s =
        Request.operation (.callback (s.libraryTable.getD ⟨false⟩) q) thread s :=
      LinkedEngine.serve_eq
    exact errand_of_follows ha hb (same ▸ served) fun heq => by cases heq
  | .callback .. | .registry _ | .dispatch _ | .bridge _ | .entry _ | .log _ =>
    refine errand_of_follows ha hb (Request.errand_of_dispatched? hd hp) fun _ => hp

/-- Whatever the engine calls back for, whatever the host refuses, and however
    operations are nested: a handle that the engine has not given up stays
    usable. -/
theorem handles_kept {c : Situation} (run : BridgeRun s c) : InCustody s.engine c.history := by
  have initially : (keeping s.engine).holds s [] :=
    { sound := .of_entries_nil run.empty
      engine_eq := rfl
      slot := fun id hid => by
        rw [run.slot] at hid
        cases hid
      kept := fun later m before heq => by simp at heq }
  have conduct : c.history.Always (keeping s.engine).conduct :=
    (run.bridge.and run.inTurn).imp fun _ _ hm op thread q hq =>
      ⟨hm.1 op thread q hq, hm.2 op thread q hq⟩
  have always : c.history.Always fun m before => Custody s.engine m.state before :=
    (run.reaches.nested keeping_kept initially conduct).always
  have stays : c.history.Always fun m before => ∀ handle o, before.Entrusted s.engine handle o →
      m.state.registry.Lists handle o := by
    refine always.imp fun m before hc handle o hent => ?_
    exact hc.lists hent
  refine ⟨always_of_split fun later m before heq => ?_, stays, ?_⟩
  · obtain ⟨event, s₁⟩ := m
    rintro op thread call handle rfl hh
    obtain ⟨_, _, _, _, _, o, -, -, hlisted⟩ :=
      EngineRun.granted ⟨run.empty, run.reaches, run.bridge⟩ heq hh
    exact ⟨o, _, hlisted, rfl, rfl⟩
  · intro later before op thread q d s₁ handle o heq hent known hd htarget htakes unclaimed
    have custody : Custody s.engine s₁ before := (heq ▸ always).split
    obtain ⟨x, hx, rfl, hkind⟩ := (heq ▸ stays).split handle o hent
    have hb : ⟨.begins op thread q, s₁⟩ ∈ c.history := by simp [heq]
    have finds : d.Finds s₁.registry x :=
      ⟨htarget ▸ hx, hkind ▸ htakes, unclaimed x hx⟩
    exact errand_of_through run.reaches.accounted hb hd
      (d.errand (htarget ▸ known) custody.sound finds)

set_option maxRecDepth 4096 in
/-- A tunnel is started and stopped.  The host refuses a listener.  Another one
    is set and cleared.  In between the engine gives back an id that was never
    issued, and asks the tunnel's object for an event that it does not take.
    Then it has a descriptor protected. -/
def stoppedTunnel : Situation :=
  ((Situation.initial bridged).play?
    [.start ⟨"host"⟩ (.bridge (.startTunnel Sample.object ⟨5, .empty, .empty, .empty⟩)),
     .reply (.host .attach) (0 : Int32),
     .reply (.host (.pin Sample.object)) (some Sample.reference),
     .reply (.engine (.startTunnel ⟨1⟩ ⟨5, .empty, .empty, .empty⟩)) (),
     .start ⟨"host"⟩ (.bridge .stopTunnel),
     .reply (.engine .stopTunnel) (),
     .start ⟨"host"⟩ (.bridge (.setEventListener (some Sample.object))),
     .reply (.host .attach) (7 : Int32),
     .start ⟨"host"⟩ (.bridge (.setEventListener (some Sample.object))),
     .reply (.host .attach) (0 : Int32),
     .reply (.host (.pin Sample.object)) (some Sample.reference'),
     .start ⟨"engine"⟩ (.callback ⟨true⟩ (.release 99)),
     .reply (.system .clock) (0 : UInt64),
     .reply (.engine (.setEventListener ⟨2⟩)) (),
     .start ⟨"engine"⟩ (.callback ⟨true⟩ (.onResult 1 none)),
     .reply (.system .clock) (0 : UInt64),
     .start ⟨"host"⟩ (.bridge (.setEventListener none)),
     .reply (.engine (.setEventListener .null)) (),
     .reply (.host .attach) (0 : Int32),
     .reply (.host (.unpin Sample.reference')) (),
     .start ⟨"engine"⟩ (.callback ⟨true⟩ (.protect 1 3)),
     .reply (.host .attach) (0 : Int32),
     .reply (.host (.protect Sample.reference 3)) ()]).get rfl

set_option maxRecDepth 4096 in
theorem handles_kept_stoppedTunnel :
    BridgeRun bridged stoppedTunnel ∧
    stoppedTunnel.stack = [] ∧
    stoppedTunnel.history.handed = [⟨⟨2⟩, .listener⟩, ⟨⟨1⟩, .tunnel⟩] ∧
    stoppedTunnel.state.registry.contains ⟨2⟩ = false ∧
    stoppedTunnel.state.registry.listed? ⟨1⟩ = some (.fresh ⟨1⟩ Sample.reference .tunnel) ∧
    stoppedTunnel.state.counters.get .callbacksDispatched = 1 ∧
    InCustody .external stoppedTunnel.history := by
  have run : BridgeRun bridged stoppedTunnel :=
    ⟨rfl, rfl, Situation.reaches_get_play? _, by decide, by decide⟩
  exact ⟨run, rfl, rfl, rfl, rfl, rfl, handles_kept run⟩

end Run

end CallbackBridge
