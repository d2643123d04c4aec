import CallbackBridge.Proofs.Run.Bridges
import CallbackBridge.Proofs.Run.Own
import CallbackBridge.Proofs.Ledger.Runs

/-! # Listeners

    A bridge keeps the event listener that its engine has.  To replace it, the
    new one is registered, the engine is told, the slot is switched, and only
    then the one before is released, which the engine may have done already.

    Key ideas:

    1. What an operation does by itself is told apart from what happens while
       it waits: `Own` looks at the states between a reply and the next call.
    2. While the slot is locked nothing that is nested in a call changes it, so
       the listener that is taken out of the slot is the one that was there as
       the replacement began.
    3. Until the engine has switched, a replacement strikes no handle off the
       table.  After that it strikes off that listener at most. -/

namespace CallbackBridge

open Run Run.History

/-! ### What the engine is told -/

/-- What the slot holds for a listener; the null handle stands for none. -/
def HandleId.known? (id : HandleId) : Option HandleId :=
  if id.isNull then none else some id

/-- The calls that tell an engine about a listener.  The stand-in is told
    nothing. -/
def Engine.telling : Engine → HandleId → List Call
  | .external, id => [.engine (.setEventListener id)]
  | .absent, _ => []
  | .linked, id => [.library (.setEventListener (LinkedEngine.pointer id))]

namespace Run

namespace History

/-- The listener that the engine was told last. -/
def heard : History → Option HandleId
  | [] => none
  | m :: before =>
    match m.event with
    | .replies _ _ call _ _ =>
      match call.listener? with
      | some id => id.known?
      | none => heard before
    | _ => heard before

/-- The calls of an engine that operation `op` makes, newest first. -/
def engineCalls (op : Nat) (h : History) : List Call :=
  (made op h).filter (·.toEngine)

/-- A call of operation `op` was replied to. -/
def Answered (h : History) (op : Nat) (call : Call) : Prop :=
  ∃ thread reply lost s, ⟨.replies op thread call reply lost, s⟩ ∈ h

variable {h h' : History} {op : Nat} {thread : Thread} {s : State} {c : Call}

theorem heard_of_reply (hc : c.listener? = none) {r : c.Reply} {lost : Option HostObject} :
    heard (⟨.replies op thread c r lost, s⟩ :: h) = heard h := by
  simp [heard, hc]

theorem heard_of_telling {id : HandleId} (hc : c.listener? = some id) {r : c.Reply}
    {lost : Option HostObject} : heard (⟨.replies op thread c r lost, s⟩ :: h) = id.known? := by
  simp [heard, hc]

theorem engineCalls_of_ne {m : Moment} (hm : m.event.op ≠ op) :
    engineCalls op (m :: h) = engineCalls op h := by
  rw [engineCalls, made_of_ne hm, engineCalls]

theorem engineCalls_of_call (hc : c.toEngine = false) :
    engineCalls op (⟨.calls op thread c, s⟩ :: h) = engineCalls op h := by
  have called : made op (⟨.calls op thread c, s⟩ :: h) = addCall c (made op h) := if_pos rfl
  rw [engineCalls, called, engineCalls, addCall]
  split
  · rw [List.filter_cons_of_neg (by simp [hc])]
  · rfl

theorem engineCalls_of_engine (hc : c.toEngine = true) :
    engineCalls op (⟨.calls op thread c, s⟩ :: h) = c :: engineCalls op h := by
  have loud : c.mayReenter = true := Call.mayReenter_of_toEngine hc
  have called : made op (⟨.calls op thread c, s⟩ :: h) = addCall c (made op h) := if_pos rfl
  rw [engineCalls, called, addCall, if_pos loud, List.filter_cons_of_pos hc, engineCalls]

namespace Answered

theorem of_suffix (ha : h.Answered op c) (hs : h <:+ h') : h'.Answered op c := by
  obtain ⟨thread, reply, lost, s, hm⟩ := ha
  exact ⟨thread, reply, lost, s, hs.subset hm⟩

/-- Only a reply to the operation makes a difference. -/
theorem of_cons {m : Moment} (ha : Answered (m :: h) op c)
    (hm : ∀ thread r lost, m.event ≠ .replies op thread c r lost) : h.Answered op c := by
  obtain ⟨thread, r, lost, s, hmem⟩ := ha
  rcases List.mem_cons.mp hmem with rfl | hmem
  · exact absurd rfl (hm thread r lost)
  · exact ⟨thread, r, lost, s, hmem⟩

theorem of_since (ha : h'.Answered op c) (hs : Since (op + 1) h h') : h.Answered op c := by
  obtain ⟨later, rfl, hl⟩ := hs
  induction later with
  | nil => exact ha
  | cons m later ih =>
    obtain ⟨hm, hl⟩ := List.forall_mem_cons.mp hl
    refine ih hl (of_cons ha fun thread r lost he => ?_)
    rw [he] at hm
    exact absurd hm (Nat.not_succ_le_self op)

end Answered

end History

/-! ### The law -/

/-- A change that counts no duplicate release and takes no handle off the table
    but those of `gone`. -/
structure Spares (gone : HandleId → Prop) (s s' : State) : Prop where
  uncounted : s'.counters.duplicateReleases = s.counters.duplicateReleases
  spares : s.registry.Spares gone s'.registry

/-- How operation `op`, which began in `s₀`, has made `next` the listener by the
    time it ends in `s₁`. -/
structure Replaced (e : Engine) (op : Nat) (s₀ : State) (next : HandleId) (s₁ : State)
    (h : History) : Prop where
  /-- The engine is told once, and called for nothing else. -/
  told : h.engineCalls op = e.telling next
  /-- By itself the operation counts no duplicate release.  It takes off the
      table only the listener that was in the slot, and only after the engine
      has replied. -/
  steps : h.Own op fun s s' before => Spares (fun id => s₀.listener.current = some id ∧
    ∀ call ∈ e.telling next, before.Answered op call) s s'
  /-- Once the engine has replied, the operation strikes that listener off
      before it does anything else. -/
  struck : h.Own op fun _ s' before => ∀ call ∈ e.telling next, before.Answered op call →
    ∀ id ∈ s₀.listener.current, s'.registry.contains id = false
  /-- By the end that listener has left the table. -/
  released : ∀ id ∈ s₀.listener.current, s₁.registry.contains id = false

/-- How operation `op`, which began in `s₀`, has failed by the time it ends in
    `s₁`. -/
structure Unreplaced (op : Nat) (s₀ s₁ : State) (h : History) : Prop where
  /-- The engine is not called. -/
  untold : h.engineCalls op = []
  /-- By itself the operation takes no handle off the table. -/
  steps : h.Own op fun s s' _ => Spares (fun _ => False) s s'
  /-- The slot is as it was. -/
  slot : s₁.listener = s₀.listener

/-- What each moment of a run of a bridge keeps to. -/
structure Moment.Listened (e : Engine) (m : Moment) (before : History) : Prop where
  /-- Whenever an operation begins, the slot holds the listener that the engine
      was told last. -/
  heard : m.event.isBegin = true → e ≠ .absent → m.state.listener.current = before.heard
  /-- A listener is replaced, or nothing has changed. -/
  ended : ∀ op thread callback result,
    m.event = .ends op thread (.bridge (.setEventListener callback)) result →
    ∃ s₀, ⟨.begins op thread (.bridge (.setEventListener callback)), s₀⟩ ∈ before ∧
      match result with
      | .ok next => Replaced e op s₀ next m.state (m :: before)
      | .error _ => Unreplaced op s₀ m.state (m :: before)

/-! ### What operations rely on -/

/-- What holds whenever an operation may begin. -/
structure Listens (e : Engine) (s : State) (h : History) : Prop where
  sound : s.registry.Sound
  engine_eq : s.engine = e
  /-- The slot holds an id that was issued. -/
  issued : ∀ id ∈ s.listener.current, id.isNull = false ∧ id.raw < s.registry.nextId
  heard : e ≠ .absent → s.listener.current = h.heard

/-- What an operation does to the state that others rely on. -/
structure Passes (s s' : State) : Prop where
  rises : s.registry.Rises s'.registry
  /-- A locked slot belongs to another operation. -/
  locked : s.listener.locked = true → s'.listener = s.listener
  unlocked : s.listener.locked = false → s'.listener.locked = false

theorem Passes.refl (s : State) : Passes s s := ⟨.refl _, fun _ => rfl, fun h => h⟩

theorem Passes.trans {s s' s'' : State} (h : Passes s s') (h' : Passes s' s'') : Passes s s'' := by
  refine ⟨h.rises.trans h'.rises, fun hl => ?_, fun hl => h'.unlocked (h.unlocked hl)⟩
  have same := h.locked hl
  exact (h'.locked (same ▸ hl)).trans same

/-- The slot holds what the engine was told, and a locked slot is let alone. -/
def listening (e : Engine) : Nesting where
  holds := Listens e
  spans s _ s' _ := Passes s s'
  conduct m _ := ∀ op thread q, m.event = .begins op thread q →
    q.isBridge = true ∧ (q.setsListener = true → m.state.listener.locked = false)
  law := Moment.Listened e
  spans_refl s _ := .refl s
  spans_trans h h' := h.trans h'

/-- A change of the table that leaves the listener and the engine alone. -/
structure Aside (s s' : State) : Prop where
  sound : s.registry.Sound → s'.registry.Sound
  rises : s.registry.Rises s'.registry
  listener_eq : s'.listener = s.listener
  engine_eq : s'.engine = s.engine

variable {e : Engine} {s s' s₀ s₁ : State} {h h' : History} {op : Nat} {thread : Thread}
  {callback : Option HostObject} {c : Call} {q : Request}

namespace Aside

theorem touch (ht : Touch s s') : Aside s s' :=
  ⟨ht.sound, ht.rises, by cases ht <;> rfl, by cases ht <;> rfl⟩

theorem entering (o : HostObject) (k : HandleKind) : Aside s (Registry.entering o k s).2 := by
  rcases he : Registry.entering o k s with ⟨err | id, s'⟩
  · obtain rfl := Registry.entering_error he
    exact .touch .none
  · obtain ⟨r, henlist, rfl⟩ := Registry.entering_ok he
    exact ⟨fun hr => hr.enlist henlist, .enlist henlist, rfl, rfl⟩

theorem striking (id : HandleId) : Aside s (Registry.striking id s).2 := by
  unfold Registry.striking
  split
  · exact .touch .none
  · exact ⟨fun hr => hr.delist, .delist, rfl, rfl⟩

end Aside

/-! ### Other operations -/

theorem Moment.Listened.of_call : Moment.Listened e ⟨.calls op thread c, s⟩ h where
  heard hb := by cases hb
  ended op thread callback result he := by cases he

theorem Moment.Listened.of_reply {r : c.Reply} {lost : Option HostObject} :
    Moment.Listened e ⟨.replies op thread c r lost, s⟩ h where
  heard hb := by cases hb
  ended op thread callback result he := by cases he

namespace Listens

theorem aside (hl : Listens e s h) (ha : Aside s s') : Listens e s' h where
  sound := ha.sound hl.sound
  engine_eq := ha.engine_eq.trans hl.engine_eq
  issued id hid := by
    rw [ha.listener_eq] at hid
    obtain ⟨known, hlt⟩ := hl.issued id hid
    exact ⟨known, UInt64.lt_of_lt_of_le hlt ha.rises.next⟩
  heard hne := by
    rw [ha.listener_eq]
    exact hl.heard hne

theorem cons (hl : Listens e s h) {m : Moment} (hm : History.heard (m :: h) = h.heard) :
    Listens e s (m :: h) :=
  { hl with heard := fun hne => hm ▸ hl.heard hne }

/-- After a call was replied to, the slot still holds what the engine was told. -/
theorem reply (hl : Listens e s h) (ho : (listening e).Open op c s h s' h')
    (hc : c.listener? = none) {r : c.Reply} {lost : Option HostObject} :
    Listens e s' (⟨.replies op thread c r lost, s'⟩ :: h') := by
  have back : Listens e s' h' := by
    cases hq : c.mayReenter with
    | true => exact ho.holds hq
    | false =>
      obtain ⟨rfl, rfl⟩ := ho.quiet hq
      exact hl
  exact back.cons (heard_of_reply hc)

end Listens

theorem Passes.aside (hp : Passes s₁ s) (ha : Aside s s') : Passes s₁ s' where
  rises := hp.rises.trans ha.rises
  locked hl := ha.listener_eq.trans (hp.locked hl)
  unlocked hl := ha.listener_eq ▸ hp.unlocked hl

/-- Whatever part of another operation runs, the slot is let alone. -/
theorem aside_parts (e : Engine) (s₁ : State) : BridgeParts (fun m =>
    (listening e).Carries (fun _ _ s h => Listens e s h ∧ Passes s₁ s) m) := by
  have changes : ∀ {α : Type} {f : State → α × State}, (∀ s, Aside s (f s).2) →
      (listening e).Carries (fun _ _ s h => Listens e s h ∧ Passes s₁ s) (Operation.modifyGet f) :=
    fun hf => .modifyGet fun _ _ s _ hi => ⟨hi.1.aside (hf s), hi.2.aside (hf s)⟩
  have calls : ∀ {c : Call}, c.listener? = none →
      (listening e).Carries (fun _ _ s h => Listens e s h ∧ Passes s₁ s) (Operation.call c) := by
    intro c hc op thread s h hi
    have called : Listens e s (⟨.calls op thread c, s⟩ :: h) := hi.1.cons rfl
    refine ⟨.of_call, fun _ => called, fun r s' h' lost ho _ => ⟨.of_reply, ?_⟩⟩
    exact ⟨called.reply ho hc, hi.2.trans ho.spans⟩
  have basics : Basics (fun m =>
      (listening e).Carries (fun _ _ s h => Listens e s h ∧ Passes s₁ s) m) :=
    Nesting.Carries.basics_of_calls fun hc => calls (Call.listener?_eq_none (Call.toEngine_eq_false hc))
  exact {
    toParts := basics.parts (calls rfl) fun hf => changes fun s => .touch (hf s)
    strike := changes fun _ => .striking _
    miss := changes (f := fun s => ((), { s with counters := s.counters.bump .duplicateReleases }))
      fun _ => ⟨id, .refl _, rfl, rfl⟩
    enter := changes fun _ => .entering _ _
    engine := fun _ hc => calls hc }

/-- An operation that sets no listener. -/
theorem aside_kept (hb : q.isBridge = true) (hs : q.setsListener = false) (thread : Thread)
    (hl : Listens e s h) :
    Moment.Listened e ⟨.begins h.begun thread q, s⟩ h ∧
    Nests (listening e) h.begun thread ((listening e).ends h.begun thread q s h)
      (q.operation thread s) (⟨.begins h.begun thread q, s⟩ :: h) := by
  have begins : Moment.Listened e ⟨.begins h.begun thread q, s⟩ h :=
    ⟨fun _ => hl.heard, fun _ _ _ _ he => by cases he⟩
  have carried := (aside_parts e s).request hb hs h.begun thread s
    (⟨.begins h.begun thread q, s⟩ :: h) ⟨hl.cons rfl, .refl s⟩
  refine ⟨begins, carried.mono fun result s' h' hi => ⟨?_, hi.1.cons rfl, hi.2⟩⟩
  refine ⟨fun hb => (by cases hb), fun op thread callback result he => ?_⟩
  cases he
  cases hs

/-! ### Setting the listener -/

namespace Spares

variable {gone gone' : HandleId → Prop}

theorem refl (s : State) : Spares gone s s := ⟨rfl, .refl _⟩

theorem mono (h : Spares gone s s') (hg : ∀ id, gone id → gone' id) : Spares gone' s s' :=
  ⟨h.uncounted, h.spares.mono hg⟩

theorem trans {s'' : State} (h : Spares gone s s') (h' : Spares gone s' s'') :
    Spares gone s s'' :=
  ⟨h'.uncounted.trans h.uncounted, h.spares.trans h'.spares⟩

theorem touch (ht : Touch s s') (hr : s.registry.Sound) : Spares gone s s' where
  uncounted := by
    cases ht with
    | @bump k hk =>
      -- idle counters are other counters
      cases k with
      | handlesRegistered | handlesReleased | duplicateReleases => cases hk
      | _ => rfl
    | _ => rfl
  spares := ht.spares hr

theorem striking (id : HandleId) : Spares (· = id) s (Registry.striking id s).2 := by
  unfold Registry.striking
  split
  · exact .refl s
  · exact ⟨rfl, .delist⟩

end Spares

/-- Operation `op`, which sets the listener and began in `s₀`, has called the
    engine for `told`.  It `strikes` once the slot has been switched. -/
structure Amid (e : Engine) (s₀ : State) (told : List Call) (strikes : Bool) (op : Nat) (s : State)
    (h : History) : Prop extends Listens e s h where
  rises : s₀.registry.Rises s.registry
  before : ∀ id ∈ s₀.listener.current, id.isNull = false ∧ id.raw < s₀.registry.nextId
  /-- Before the switch the slot is locked, and holds the listener from the
      beginning. -/
  slot : strikes = false → s.listener = ⟨s₀.listener.current, true⟩
  free : strikes = true → s.listener.locked = false
  calls : h.engineCalls op = told
  unheard : strikes = false → ∀ call, call.toEngine = true → ¬ h.Answered op call
  answered : strikes = true → ∀ call ∈ told, h.Answered op call
  own : h.Own op fun s s' before => Spares (fun id => strikes = true ∧
    s₀.listener.current = some id ∧ ∀ call ∈ told, before.Answered op call) s s'
  struck : h.Own op fun _ s' before => ∀ call ∈ told, before.Answered op call →
    ∀ id ∈ s₀.listener.current, s'.registry.contains id = false
  /-- What the operation has done by itself since the last moment. -/
  now : ∀ m ∈ h.head?, Spares (fun id => strikes = true ∧ s₀.listener.current = some id) m.state s
  gone : strikes = true → ∀ id ∈ s₀.listener.current, s.registry.contains id = false

namespace Amid

variable {told : List Call} {strikes : Bool}

theorem aside (ha : Amid e s₀ told strikes op s h) (hs : Aside s s')
    (hk : ∀ gone, Spares gone s s') : Amid e s₀ told strikes op s' h where
  toListens := ha.toListens.aside hs
  rises := ha.rises.trans hs.rises
  before := ha.before
  slot hf := hs.listener_eq.trans (ha.slot hf)
  free hf := hs.listener_eq ▸ ha.free hf
  calls := ha.calls
  unheard := ha.unheard
  answered := ha.answered
  own := ha.own
  struck := ha.struck
  now m hm := (ha.now m hm).trans (hk _)
  gone hf id hid := by
    have settled := UInt64.lt_of_lt_of_le (ha.before id hid).2 ha.rises.next
    exact hs.rises.contains_false settled (ha.gone hf id hid)

/-- What was done by itself up to now is the operation's own at its next call
    or at its end. -/
theorem arrives (ha : Amid e s₀ told strikes op s h) (event : Event) :
    History.Own op (fun s s' before => Spares (fun id => strikes = true ∧
      s₀.listener.current = some id ∧ ∀ call ∈ told, before.Answered op call) s s')
      (⟨event, s⟩ :: h) := by
  refine ha.own.arrive fun m hm => (ha.now m hm).mono ?_
  intro id ⟨hf, hcur⟩
  exact ⟨hf, hcur, ha.answered hf⟩

/-- Before the switch the engine has not replied, and after it the listener is
    gone. -/
theorem arrives_struck (ha : Amid e s₀ told strikes op s h) (event : Event) :
    History.Own op (fun _ s' before => ∀ call ∈ told, before.Answered op call →
      ∀ id ∈ s₀.listener.current, s'.registry.contains id = false) (⟨event, s⟩ :: h) := by
  refine ha.struck.arrive fun _ _ call hcall replied => ?_
  -- a call of the engine that was replied to tells that the slot was switched
  cases hf : strikes with
  | true => exact ha.gone hf
  | false =>
    rw [← ha.calls] at hcall
    exact absurd replied (ha.unheard hf call (List.mem_filter.mp hcall).2)

/-- Before the switch nothing is struck off. -/
theorem spared (ha : Amid e s₀ told false op s h) :
    h.Own op (fun s s' _ => Spares (fun _ => False) s s') ∧
    ∀ m ∈ h.head?, Spares (fun _ => False) m.state s := by
  constructor
  · exact ha.own.imp fun _ _ _ hs => hs.mono fun _ hf => absurd hf.1 Bool.false_ne_true
  · exact fun m hm => (ha.now m hm).mono fun _ hf => absurd hf.1 Bool.false_ne_true

/-- A call that is not one of the engine. -/
theorem call (ha : Amid e s₀ told strikes op s h) (hc : c.toEngine = false) :
    Amid e s₀ told strikes op s (⟨.calls op thread c, s⟩ :: h) where
  toListens := ha.toListens.cons rfl
  rises := ha.rises
  before := ha.before
  slot := ha.slot
  free := ha.free
  calls := (engineCalls_of_call hc).trans ha.calls
  unheard hf call hcall replied :=
    ha.unheard hf call hcall (replied.of_cons fun _ _ _ he => by cases he)
  answered hf call hcall := (ha.answered hf call hcall).of_suffix (List.suffix_cons ..)
  own := ha.arrives _
  struck := ha.arrives_struck _
  now m hm := by
    obtain rfl := Option.some.inj hm
    exact .refl s
  gone := ha.gone

/-- What is nested in a call leaves the operation where it is. -/
theorem reply (ha : Amid e s₀ told strikes op s h) (ho : (listening e).Open op c s h s' h')
    (hc : c.toEngine = false) {r : c.Reply} {lost : Option HostObject} :
    Amid e s₀ told strikes op s' (⟨.replies op thread c r lost, s'⟩ :: h') where
  toListens := ha.toListens.reply ho (Call.listener?_eq_none hc)
  rises := ha.rises.trans ho.spans.rises
  before := ha.before
  slot hf := by
    have locked := ha.slot hf
    exact (ho.spans.locked (by rw [locked])).trans locked
  free hf := ho.spans.unlocked (ha.free hf)
  calls := by
    have same : h'.engineCalls op = h.engineCalls op :=
      ho.since.unchanged fun _ _ => engineCalls_of_ne
    exact same.trans ha.calls
  unheard hf call hcall replied := by
    have other : h'.Answered op call := by
      refine replied.of_cons fun _ _ _ he => ?_
      cases he
      rw [hc] at hcall
      cases hcall
    exact ha.unheard hf call hcall (other.of_since ho.since)
  answered hf call hcall :=
    (ha.answered hf call hcall).of_suffix (ho.since.suffix.trans (List.suffix_cons ..))
  own := ha.own.reply ho.since
  struck := ha.struck.reply ho.since
  now m hm := by
    obtain rfl := Option.some.inj hm
    exact .refl s'
  gone hf id hid := by
    have settled := UInt64.lt_of_lt_of_le (ha.before id hid).2 ha.rises.next
    exact ho.spans.rises.contains_false settled (ha.gone hf id hid)

end Amid

/-- Parts that neither call the engine nor touch the table much carry it on. -/
theorem amid_parts (e : Engine) (s₀ : State) (told : List Call) (strikes : Bool) :
    Parts (fun m => (listening e).Carries (fun op _ s h => Amid e s₀ told strikes op s h) m) := by
  have calls : ∀ {c : Call}, c.toEngine = false →
      (listening e).Carries (fun op _ s h => Amid e s₀ told strikes op s h)
        (Operation.call c) := by
    intro c hc op thread s h ha
    have called : Amid e s₀ told strikes op s (⟨.calls op thread c, s⟩ :: h) := ha.call hc
    refine ⟨.of_call, fun _ => called.toListens, fun r s' h' lost ho _ => ⟨.of_reply, ?_⟩⟩
    exact called.reply ho hc
  have basics : Basics (fun m =>
      (listening e).Carries (fun op _ s h => Amid e s₀ told strikes op s h) m) :=
    Nesting.Carries.basics_of_calls fun hc => calls (Call.toEngine_eq_false hc)
  refine basics.parts (calls rfl) fun hf => .modifyGet fun _ _ s _ ha => ?_
  exact ha.aside (.touch (hf s)) fun _ => .touch (hf s) ha.sound

/-- The engine has been told about `next`, and the slot is still to be
    switched. -/
structure Turning (e : Engine) (s₀ : State) (next : HandleId) (op : Nat) (s : State)
    (h : History) : Prop where
  sound : s.registry.Sound
  engine_eq : s.engine = e
  heard : e ≠ .absent → next.known? = h.heard
  issued : ∀ id ∈ next.known?, id.raw < s.registry.nextId
  slot : s.listener = ⟨s₀.listener.current, true⟩
  rises : s₀.registry.Rises s.registry
  before : ∀ id ∈ s₀.listener.current, id.isNull = false ∧ id.raw < s₀.registry.nextId
  calls : h.engineCalls op = e.telling next
  answered : ∀ call ∈ e.telling next, h.Answered op call
  own : h.Own op fun s s' before => Spares (fun _ => False) s s' ∧
    ∀ call ∈ e.telling next, ¬ before.Answered op call
  now : ∀ m ∈ h.head?, Spares (fun _ => False) m.state s

variable {next : HandleId}

theorem toEngine_of_telling (hc : c ∈ e.telling next) : c.toEngine = true := by
  cases e with
  | absent => cases hc
  | external | linked =>
    obtain rfl := List.mem_singleton.mp hc
    rfl

/-- The engine is told about `next`; the stand-in is not. -/
theorem Amid.telling (ha : Amid e s₀ [] false op s h)
    (hn : ∀ id ∈ next.known?, id.raw < s.registry.nextId) :
    Nests (listening e) op thread (fun _ s' h' => Turning e s₀ next op s' h')
      (e.setEventListener next thread s) h := by
  have slot := ha.slot rfl
  have unheard : ∀ k : History, k <:+ h → ∀ call ∈ e.telling next, ¬ k.Answered op call := by
    intro k hk call hcall replied
    exact ha.unheard rfl call (toEngine_of_telling hcall) (replied.of_suffix hk)
  obtain ⟨spared, now⟩ := ha.spared
  have own := spared.and_before unheard
  have told : ∀ {c : Call}, e.telling next = [c] → c.listener? = some next →
      Nests (listening e) op thread (fun _ s' h' => Turning e s₀ next op s' h')
        (Operation.call c thread s) h := by
    intro c hc hlistener
    have toEngine : c.toEngine = true := toEngine_of_telling (by rw [hc]; exact .head _)
    refine ⟨.of_call, fun _ => ha.toListens.cons rfl, fun r s' h' lost ho _ => ⟨.of_reply, ?_⟩⟩
    have back := ho.holds (Call.mayReenter_of_toEngine toEngine)
    -- what the engine calls back for finds the slot locked
    have same : s'.listener = s.listener := ho.spans.locked (by rw [slot])
    have calls : h'.engineCalls op = [c] := by
      have called := ho.since.unchanged (f := engineCalls op) fun _ _ => engineCalls_of_ne
      rw [called, engineCalls_of_engine toEngine, ha.calls]
    exact {
      sound := back.sound
      engine_eq := back.engine_eq
      heard := fun _ => (heard_of_telling hlistener).symm
      issued := fun id hid => UInt64.lt_of_lt_of_le (hn id hid) ho.spans.rises.next
      slot := same.trans slot
      rises := ha.rises.trans ho.spans.rises
      before := ha.before
      calls := calls.trans hc.symm
      answered := fun call hcall => by
        obtain rfl := List.mem_singleton.mp (hc ▸ hcall)
        exact ⟨_, r, lost, s', List.mem_cons_self ..⟩
      own := by
        have called := own.arrive (e := .calls op thread c)
          fun m hm => ⟨now m hm, unheard h (List.suffix_refl h)⟩
        exact called.reply ho.since
      now := fun m hm => by
        obtain rfl := Option.some.inj hm
        exact .refl s' }
  cases e with
  | external => exact told rfl rfl
  | linked => exact told rfl rfl
  | absent =>
    exact {
      sound := ha.sound
      engine_eq := ha.engine_eq
      heard := fun hne => absurd rfl hne
      issued := hn
      slot := slot
      rises := ha.rises
      before := ha.before
      calls := ha.calls
      answered := fun _ hc => by cases hc
      own := own
      now := now }

theorem mem_known? {id : HandleId} (h : id ∈ next.known?) : id.isNull = false ∧ next = id := by
  unfold HandleId.known? at h
  split at h
  · cases h
  · next hn =>
    obtain rfl := Option.some.inj h
    exact ⟨by simpa using hn, rfl⟩

/-- The slot is switched, and the listener that was in it is struck off. -/
theorem Turning.amid (ht : Turning e s₀ next op s h)
    (ha : Aside { s with listener := ⟨next.known?, false⟩ } s')
    (hk : Spares (fun id => s₀.listener.current = some id) s s')
    (hg : ∀ id ∈ s₀.listener.current, s'.registry.contains id = false) :
    Amid e s₀ (e.telling next) true op s' h where
  sound := ha.sound ht.sound
  engine_eq := ha.engine_eq.trans ht.engine_eq
  issued id hid := by
    rw [ha.listener_eq] at hid
    exact ⟨(mem_known? hid).1, UInt64.lt_of_lt_of_le (ht.issued id hid) ha.rises.next⟩
  heard hne := by
    rw [ha.listener_eq]
    exact ht.heard hne
  rises := ht.rises.trans ha.rises
  before := ht.before
  slot hf := by cases hf
  free _ := by rw [ha.listener_eq]
  calls := ht.calls
  unheard hf := by cases hf
  answered _ := ht.answered
  own := ht.own.imp fun _ _ _ hs => hs.1.mono fun _ hf => hf.elim
  struck := ht.own.imp fun _ _ _ hs call hcall replied => absurd replied (hs.2 call hcall)
  now m hm := by
    have sparing : Spares (fun id => s₀.listener.current = some id) m.state s' :=
      ((ht.now m hm).mono fun _ hf => hf.elim).trans hk
    exact sparing.mono fun _ hcur => ⟨rfl, hcur⟩
  gone _ := hg

/-- The engine switches to `next`, and the listener from the beginning is
    released. -/
theorem Amid.replacing (ha : Amid e s₀ [] false op s h)
    (hn : ∀ id ∈ next.known?, id.raw < s.registry.nextId) :
    Nests (listening e) op thread (fun _ s' h' => Amid e s₀ (e.telling next) true op s' h')
      (Bridge.replaceListener next thread s) h := by
  have parts := amid_parts e s₀ (e.telling next) true
  simp only [Bridge.replaceListener, Operation.bind_apply, Operation.state_apply, Progress.bind,
    ha.engine_eq]
  refine Nests.bind ((ha.telling hn).mono fun _ s₁ h₁ ht => ?_)
  have slot : s₁.listener.current = s₀.listener.current := by rw [ht.slot]
  simp only [Bridge.switchSlot, Operation.modifyGet_apply, Progress.bind, slot]
  cases hcur : s₀.listener.current with
  | none =>
    have switched : Amid e s₀ (e.telling next) true op
        { s₁ with listener := ⟨next.known?, false⟩ } h₁ := by
      refine ht.amid (.touch .none) ⟨rfl, .refl _⟩ fun id hid => ?_
      rw [hcur] at hid
      cases hid
    exact parts.breadcrumb op thread _ h₁ switched
  | some id =>
    have known : id.isNull = false := (ht.before id hcur).1
    refine Nests.bind ?_
    rw [Registry.releaseIfPresent_eq known]
    -- nothing is struck off if the engine has released it already
    let s₂ : State := { s₁ with listener := ⟨next.known?, false⟩ }
    have sparing : Spares (fun id => s₀.listener.current = some id) s₂
        (Registry.striking id s₂).2 := (Spares.striking id).mono fun _ hid => hid ▸ hcur
    have struck : Amid e s₀ (e.telling next) true op (Registry.striking id s₂).2 h₁ := by
      refine ht.amid (.striking id) ⟨sparing.uncounted, sparing.spares⟩ fun id' hid => ?_
      obtain rfl : id = id' := Option.some.inj (hcur.symm.trans hid)
      exact Registry.contains_striking
    refine (parts.struck op thread _ h₁ struck).mono fun _ s₃ h₃ released => ?_
    exact parts.breadcrumb op thread s₃ h₃ released

/-- The slot is locked as the operation begins. -/
theorem Amid.locked (hl : Listens e s h) (numbered : ∀ m ∈ h, m.event.op < h.begun) :
    Amid e s [] false h.begun { s with listener.locked := true }
      (⟨.begins h.begun thread q, s⟩ :: h) := by
  have other : ∀ m ∈ h, m.event.op ≠ h.begun := fun m hm => Nat.ne_of_lt (numbered m hm)
  exact {
    sound := hl.sound
    engine_eq := hl.engine_eq
    issued := hl.issued
    heard := hl.heard
    rises := .refl _
    before := hl.issued
    slot := fun _ => rfl
    free := fun hf => by cases hf
    calls := congrArg (List.filter _) (untold other).2
    unheard := fun _ call _ replied => by
      obtain ⟨_, _, _, _, hm⟩ := replied.of_cons fun _ _ _ he => by cases he
      exact other _ hm rfl
    answered := fun hf => by cases hf
    own := .begins other
    struck := .begins other
    now := fun m hm => by
      obtain rfl := Option.some.inj hm
      exact ⟨rfl, .refl _⟩
    gone := fun hf => by cases hf }

/-- The listener has been replaced. -/
theorem Amid.replaced {h₀ : History} (ha : Amid e s₀ (e.telling next) true op s h)
    (free : s₀.listener.locked = false)
    (began : ⟨.begins op thread (.bridge (.setEventListener callback)), s₀⟩ ∈ h) :
    (listening e).ends op thread (.bridge (.setEventListener callback)) s₀ h₀ (.ok next) s h := by
  refine ⟨⟨fun hb => (by cases hb), fun op' thread' callback' result he => ?_⟩,
    ha.toListens.cons rfl, ha.rises, fun hl => ?_, fun _ => ha.free rfl⟩
  · cases he
    have steps := (ha.arrives (.ends op thread (.bridge (.setEventListener callback)) (.ok next))).imp
      fun _ _ _ hs => hs.mono fun _ hx => hx.2
    exact ⟨s₀, began, ha.calls, steps, ha.arrives_struck _, ha.gone rfl⟩
  · rw [free] at hl
    cases hl

/-- The registration has failed, and the slot is unlocked as it is. -/
theorem Amid.unreplaced {h₀ : History} {err : HandleError} (ha : Amid e s₀ [] false op s h)
    (free : s₀.listener.locked = false)
    (began : ⟨.begins op thread (.bridge (.setEventListener callback)), s₀⟩ ∈ h) :
    (listening e).ends op thread (.bridge (.setEventListener callback)) s₀ h₀ (.error err)
      { s with listener.locked := false } h := by
  have current : s.listener.current = s₀.listener.current := by rw [ha.slot rfl]
  have slot : (⟨s.listener.current, false⟩ : ListenerSlot) = s₀.listener := by
    rw [current, ← free]
  obtain ⟨spared, now⟩ := ha.spared
  refine ⟨⟨fun hb => (by cases hb), fun op' thread' callback' result he => ?_⟩,
    ?_, ha.rises, fun _ => slot, fun _ => rfl⟩
  · cases he
    exact ⟨s₀, began, ha.calls, spared.arrive fun m hm => ⟨(now m hm).uncounted, (now m hm).spares⟩,
      slot⟩
  · exact ⟨ha.sound, ha.engine_eq, ha.issued, ha.heard⟩

/-- The listener has been registered under `id`. -/
theorem Amid.entering {o : HostObject} {k : HandleKind} {id : HandleId}
    (ha : Amid e s₀ [] false op s h) (he : Registry.entering o k s = (.ok id, s')) :
    Amid e s₀ [] false op s' h ∧ id.raw < s'.registry.nextId := by
  have aside : Aside s s' := by
    have entered : Aside s (Registry.entering o k s).2 := .entering o k
    rwa [he] at entered
  obtain ⟨r, henlist, rfl⟩ := Registry.entering_ok he
  have sound := aside.sound ha.sound
  have listed : r.contains id = true := by simp [Registry.contains_enlist henlist]
  exact ⟨ha.aside aside fun _ => ⟨rfl, .enlist henlist⟩, sound.lt_next_of_contains listed⟩

/-- What is logged changes nothing of that. -/
theorem registered_logs (id : HandleId) :
    Basics (fun m => (listening e).Carries (fun op (_ : Thread) s h =>
      Amid e s₀ [] false op s h ∧ id.raw < s.registry.nextId) m) := by
  refine Nesting.Carries.basics fun op thread s h c hc ⟨ha, hn⟩ => ?_
  refine ⟨.of_call, fun r lost => ⟨.of_reply, ?_, hn⟩⟩
  have silent : (listening e).Open op c s (⟨.calls op thread c, s⟩ :: h) s
      (⟨.calls op thread c, s⟩ :: h) := by
    refine ⟨.refl .., .refl s, fun _ => ⟨rfl, rfl⟩, fun hloud => ?_⟩
    rw [hc] at hloud
    cases hloud
  exact (ha.call (Call.toEngine_eq_false hc)).reply silent (Call.toEngine_eq_false hc)

/-- An operation that sets or clears the listener. -/
theorem setting_kept (numbered : ∀ m ∈ h, m.event.op < h.begun) (hl : Listens e s h)
    (free : s.listener.locked = false) (thread : Thread) (callback : Option HostObject) :
    let q := Request.bridge (.setEventListener callback)
    Moment.Listened e ⟨.begins h.begun thread q, s⟩ h ∧
    Nests (listening e) h.begun thread ((listening e).ends h.begun thread q s h)
      (q.operation thread s) (⟨.begins h.begun thread q, s⟩ :: h) := by
  intro q
  have begins : Moment.Listened e ⟨.begins h.begun thread q, s⟩ h :=
    ⟨fun _ => hl.heard, fun _ _ _ _ he => by cases he⟩
  have locked : Amid e s [] false h.begun _ (⟨.begins h.begun thread q, s⟩ :: h) :=
    .locked hl numbered
  have replaces : ∀ {next : HandleId} {s' : State} {h' : History},
      ⟨.begins h.begun thread q, s⟩ ∈ h' → Amid e s [] false h.begun s' h' →
      (∀ id ∈ next.known?, id.raw < s'.registry.nextId) →
      Nests (listening e) h.begun thread ((listening e).ends h.begun thread q s h)
        ((do Bridge.replaceListener next; pure (.ok next) : Operation q.Result) thread s') h' := by
    intro next s' h' began ha hn
    refine Nests.bind ((ha.replacing hn).grown.mono fun _ s'' h'' hx => ?_)
    exact hx.1.replaced free (hx.2.subset began)
  refine ⟨begins, ?_⟩
  -- the null handle stands for none, and needs no registration
  cases callback with
  | none => exact replaces (List.mem_cons_self ..) locked fun _ hid => by cases hid
  | some object =>
    have registered : Nests (listening e) h.begun thread _
        (Registry.register object .listener thread _) _ :=
      (amid_parts e s [] false).toPinningParts.register_nests registered_logs
        (fun _ _ _ _ _ => Amid.entering) locked
    refine Nests.bind (p := Registry.register object .listener thread _)
      (registered.grown.mono fun result s' h' hx => ?_)
    obtain ⟨ha, hs⟩ := hx
    have began : ⟨.begins h.begun thread q, s⟩ ∈ h' := hs.subset (List.mem_cons_self ..)
    cases result with
    | error err => exact ha.unreplaced free began
    | ok handle =>
      refine replaces began ha.1 fun id hid => ?_
      obtain rfl : handle.id = id := (mem_known? hid).2
      exact ha.2

theorem listening_kept (q : Request) : (listening e).Kept q := by
  intro thread s h numbered hl conduct
  obtain ⟨bridge, inTurn⟩ := conduct _ _ _ rfl
  cases hs : q.setsListener with
  | false => exact aside_kept bridge hs thread hl
  | true =>
    match q with
    | .bridge (.setEventListener callback) =>
      exact setting_kept numbered hl (inTurn hs) thread callback
    | .entry _ => cases bridge

/-! ### Runs -/

/-- A run of a new bridge, in which listeners are set one after the other.  Its
    engine calls back whenever and as often as it likes. -/
structure BridgeRun (s : State) (c : Situation) : Prop where
  empty : s.registry.entries = []
  slot : s.listener = .empty
  reaches : Reaches (.initial s) c
  bridge : c.history.Only Request.isBridge
  inTurn : c.history.ListenersInTurn

/-- Whatever the engine releases, and however operations are nested: each
    listener that is replaced is released by its own replacement, after the
    engine has switched, and no other handle is. -/
theorem listeners_replaced {c : Situation} (run : BridgeRun s c) :
    c.history.Always (Moment.Listened s.engine) := by
  have initially : (listening s.engine).holds s [] :=
    { sound := .of_entries_nil run.empty
      engine_eq := rfl
      issued := fun id hid => by
        rw [run.slot] at hid
        cases hid
      heard := fun _ => by
        rw [run.slot]
        rfl }
  have conduct : c.history.Always (listening s.engine).conduct :=
    (run.bridge.and run.inTurn).imp fun _ _ hm op thread q hq =>
      ⟨hm.1 op thread q hq, hm.2 op thread q hq⟩
  exact (run.reaches.nested listening_kept initially conduct).always

/-- A process whose bridge has foreign code for its engine. -/
def bridged : State :=
  { State.initial 0 with engine := .external }

set_option maxRecDepth 4096 in
/-- The engine gives the first listener back inside the call that tells it
    about the second one.  The host refuses the third one.  As the listener is
    cleared, the host sets another one while the second is being unpinned. -/
def setWhileUnpinned : Situation :=
  ((Situation.initial bridged).play?
    [.start ⟨"host"⟩ (.bridge (.setEventListener (some Sample.object))),
     .reply (.host .attach) (0 : Int32),
     .reply (.host (.pin Sample.object)) (some Sample.reference),
     .reply (.engine (.setEventListener ⟨1⟩)) (),
     .start ⟨"host"⟩ (.bridge (.setEventListener (some Sample.object))),
     .reply (.host .attach) (0 : Int32),
     .reply (.host (.pin Sample.object)) (some Sample.reference'),
     .start ⟨"engine"⟩ (.callback ⟨true⟩ (.release 1)),
     .reply (.host .attach) (1 : Int32),
     .reply (.host (.unpin Sample.reference)) (),
     .reply (.engine (.setEventListener ⟨2⟩)) (),
     .start ⟨"host"⟩ (.bridge (.setEventListener (some Sample.object))),
     .reply (.host .attach) (7 : Int32),
     .start ⟨"host"⟩ (.bridge (.setEventListener none)),
     .reply (.engine (.setEventListener .null)) (),
     .reply (.host .attach) (0 : Int32),
     .start ⟨"host"⟩ (.bridge (.setEventListener (some Sample.object))),
     .reply (.host .attach) (0 : Int32),
     .reply (.host (.pin Sample.object)) (some Sample.reference),
     .reply (.engine (.setEventListener ⟨3⟩)) (),
     .reply (.host (.unpin Sample.reference')) ()]).get rfl

set_option maxRecDepth 4096 in
theorem listeners_replaced_setWhileUnpinned :
    BridgeRun bridged setWhileUnpinned ∧
    setWhileUnpinned.stack = [] ∧
    setWhileUnpinned.state.listener.current = some ⟨3⟩ ∧
    setWhileUnpinned.history.heard = some ⟨3⟩ ∧
    setWhileUnpinned.state.counters.get .duplicateReleases = 0 ∧
    setWhileUnpinned.history.Always (Moment.Listened .external) := by
  have run : BridgeRun bridged setWhileUnpinned :=
    ⟨rfl, rfl, Situation.reaches_get_play? _, by decide, by decide⟩
  exact ⟨run, rfl, rfl, rfl, rfl, listeners_replaced run⟩

end Run

end CallbackBridge
