import CallbackBridge.Proofs.Ledger.Operations
import CallbackBridge.Proofs.Run.Entries

/-! # Loans in every run

    The books are kept by requests to the registry and to the dispatcher.
    Bridges, entry points and the library use both as well, at any depth.  What
    the books say about loans and pins holds of them too, and that is all that
    is needed where it only matters that an object in use is not given up.

    Key ideas:

    1. `Lent` says that each loan is in one hand, and that what is in the table
       or in somebody's hand is pinned.  A reference that is lost is just not in
       hand any more.
    2. A part of an operation `Turns` what is in hand into something else, or is
       `Neutral` and leaves it as it was.  What the registry and the dispatcher
       offer is neutral, and so is every request that is put together from it.
    3. Whoever asks a host object for an owner has a loan of it in hand until
       the answer was given back. -/

namespace CallbackBridge

open Run

/-- A call that pins nothing, unpins nothing and hears of no owner. -/
def Call.inert : Call → Bool
  | .host (.pin _) | .host (.unpin _) | .host (.resolve ..) | .host (.readString _)
  | .host (.freeString _) => false
  | .host .attach | .host .detach | .host (.protect ..) | .host (.onResult ..)
  | .engine _ | .library _ | .log _ | .system _ => true

theorem Call.inert_of_toEngine {c : Call} (hc : c.toEngine = true) : c.inert = true := by
  cases c with
  | engine | library => rfl
  | _ => cases hc

theorem Call.inert_of_quiet {c : Call} (hc : c.mayReenter = false) : c.inert = true := by
  cases c with
  | log | system => rfl
  | _ => cases hc

namespace Run

open History

/-! ### Conduct -/

namespace History

/-- A bridge is created while nothing is registered. -/
def CreatedBare : History → Prop :=
  Always fun m _ => ∀ op thread q, m.event = .begins op thread q → q.initializes = true →
    m.state.startup = none → m.state.registry.entries = []

instance (s : State) :
    (e : Event) → Decidable (∀ op thread q, e = .begins op thread q → q.initializes = true →
      s.startup = none → s.registry.entries = [])
  | .begins _ _ q =>
    decidable_of_iff (q.initializes = true → s.startup.isNone = true → s.registry.entries = [])
      ⟨fun h _ _ _ heq => by cases heq; simpa using h, fun h => by simpa using h _ _ _ rfl⟩
  | .calls .. | .replies .. | .ends .. => .isTrue fun _ _ _ heq => by cases heq

instance (h : History) : Decidable (CreatedBare h) :=
  inferInstanceAs (Decidable (Always (fun m _ => ∀ op thread q, m.event = .begins op thread q →
    q.initializes = true → m.state.startup = none → m.state.registry.entries = []) h))

/-! ### Questions -/

/-- Operation `op` asks `o` for an owner. -/
def Asks (h : History) (op : Nat) (o : HostObject) : Prop :=
  ∃ query, h.Calls op (.host (.resolve o query))

theorem Asks.mono {h h' : History} {op : Nat} {o : HostObject} (ha : h.Asks op o)
    (hs : h <:+ h') : h'.Asks op o := by
  obtain ⟨query, thread, s, hm⟩ := ha
  exact ⟨query, thread, s, hs.subset hm⟩

/-- The operation that is answered at an event, or that reads an answer there or
    gives it back. -/
def inquirer? : Event → Option Nat
  | .replies op _ (.host (.resolve ..)) _ _
  | .calls op _ (.host (.readString _)) | .replies op _ (.host (.readString _)) _ _
  | .calls op _ (.host (.freeString _)) | .replies op _ (.host (.freeString _)) _ _ => some op
  | _ => none

/-- What is unpinned is pinned, and so is what was asked, from the question to
    the end of the answer. -/
structure Lends (m : Moment) (before : History) : Prop where
  takes : ∀ o, takenBack? m.event = some o → o ∈ pinned before
  answerable : ∀ op, inquirer? m.event = some op → ∃ o, before.Asks op o ∧ o ∈ pinned before

theorem Lends.of_none {m : Moment} {before : History} (ht : takenBack? m.event = none)
    (hi : inquirer? m.event = none) : Lends m before :=
  ⟨fun o ho => by simp [ht] at ho, fun op hop => by simp [hi] at hop⟩

end History

/-! ### The invariant -/

/-- With `tokens` in the hands of operations, each loan is in one hand, and what
    is in the table or in a hand is pinned. -/
structure Lent (s : State) (h : History) (tokens : Multiset Token) : Prop where
  sound : s.registry.Sound
  loans : LoansMatch s.registry (held h) tokens
  pins : ∃ lost, PinsMatch s.registry (pinned h) lost tokens
  lawful : h.Always Lends

namespace Lent

variable {s s' : State} {h : History} {tokens : Multiset Token} {id : HandleId} {o : HostObject}
  {e : Registration} {r' : Registry}

theorem congr (hl : Lent s h tokens) (hr : s'.registry = s.registry) : Lent s' h tokens :=
  ⟨hr ▸ hl.sound, hr ▸ hl.loans, hr ▸ hl.pins, hl.lawful⟩

/-- What is on loan is pinned. -/
theorem mem_pinned (hl : Lent s h (tokens + {.loan id o})) : o ∈ pinned h := by
  obtain ⟨e, he, -, rfl⟩ := hl.loans.backed id o (by simp)
  obtain ⟨lost, hp⟩ := hl.pins
  exact hp.pinned_of_mem he

/-! ### Events -/

/-- An event that moves no loan and no pin. -/
theorem note {event : Event} (hl : Lent s h tokens)
    (hn : (handedOut? event, takenBack? event, lent? event, returned? event) =
      (none, none, none, none))
    (ha : ∀ op, inquirer? event = some op → ∃ o, h.Asks op o ∧ o ∈ pinned h) :
    Lent s (⟨event, s⟩ :: h) tokens := by
  simp only [Prod.mk.injEq] at hn
  obtain ⟨hh, ht, hlent, hr⟩ := hn
  have held_eq : held (⟨event, s⟩ :: h) = held h := by simp only [held, hlent, hr]
  have pinned_eq : pinned (⟨event, s⟩ :: h) = pinned h := by simp only [pinned, hh, ht]
  exact ⟨hl.sound, held_eq ▸ hl.loans, pinned_eq ▸ hl.pins, ⟨fun o ho => by simp [ht] at ho, ha⟩,
    hl.lawful⟩

/-- Most events are about no owner. -/
theorem quiet {event : Event} (hl : Lent s h tokens)
    (hn : (handedOut? event, takenBack? event, lent? event, returned? event) =
      (none, none, none, none)) (hi : inquirer? event = none) :
    Lent s (⟨event, s⟩ :: h) tokens :=
  hl.note hn fun op hop => by simp [hi] at hop

theorem pins_reply {op : Nat} {thread : Thread} {object reference : HostObject}
    {lost : Option HostObject} (hl : Lent s h tokens) :
    Lent s (⟨.replies op thread (.host (.pin object)) (some reference) lost, s⟩ :: h)
      (tokens + {.fresh reference}) := by
  refine ⟨hl.sound, hl.loans.of_count fun id object => by simp, ?_,
    .of_none rfl rfl, hl.lawful⟩
  exact hl.pins.imp fun _ hp => hp.handOut

theorem unpins_call {op : Nat} {thread : Thread} (hl : Lent s h (tokens + {.last o})) :
    Lent s (⟨.calls op thread (.host (.unpin o)), s⟩ :: h) tokens := by
  obtain ⟨lost, hp⟩ := hl.pins
  have taken : Lends ⟨.calls op thread (.host (.unpin o)), s⟩ h := by
    refine ⟨fun o' ho => ?_, fun _ hop => by cases hop⟩
    obtain rfl : o = o' := Option.some.inj ho
    exact hp.mem_pinned (by simp)
  exact ⟨hl.sound, hl.loans.of_count fun id object => by simp, ⟨lost, hp.takeBack⟩, taken,
    hl.lawful⟩

/-- A look-up passes its loan to its caller. -/
theorem look_ends {op : Nat} {thread : Thread} {target : Registration}
    (hl : Lent s h (tokens + {.loan id target.object})) :
    Lent s (⟨.ends op thread (.registry (.look id)) (.ok target), s⟩ :: h) tokens := by
  refine ⟨hl.sound, hl.loans.handOut hl.sound.distinct, ?_, .of_none rfl rfl,
    hl.lawful⟩
  exact hl.pins.imp fun _ hp => hp.of_count fun o => by simp

/-- A caller passes its loan back. -/
theorem giveBack_begins (op : Nat) (thread : Thread) (hl : Lent s h tokens) (hm : id ∈ held h) :
    ∃ o, Lent s (⟨.begins op thread (.registry (.giveBack id)), s⟩ :: h)
      (tokens + {.loan id o}) := by
  obtain ⟨e, he, rfl⟩ := hl.loans.known id hm
  refine ⟨e.object, hl.sound, hl.loans.handIn hl.sound.distinct hm (hl.sound.distinct.find?_eq he),
    ?_, .of_none rfl rfl, hl.lawful⟩
  exact hl.pins.imp fun _ hp => hp.of_count fun o => by simp

/-! ### Changes -/

theorem lend (hl : Lent s h tokens) (hf : s.registry.listed? id = some e) :
    Lent { s with registry := s.registry.lend id } h (tokens + {.loan id e.object}) := by
  obtain ⟨he, rfl, -⟩ := Registry.mem_of_listed? hf
  refine ⟨hl.sound.lend, hl.loans.lend hl.sound.distinct he ⟨rfl, rfl, rfl⟩, ?_, hl.lawful⟩
  exact hl.pins.imp fun _ hp => hp.lend.of_count fun o => by simp

theorem delist (hl : Lent s h tokens) (hf : s.registry.listed? id = some e) :
    Lent { s with registry := s.registry.delist id } h (tokens + {.loan id e.object}) := by
  obtain ⟨he, rfl, -⟩ := Registry.mem_of_listed? hf
  refine ⟨hl.sound.delist, hl.loans.lend hl.sound.distinct he ⟨rfl, rfl, rfl⟩, ?_, hl.lawful⟩
  exact hl.pins.imp fun _ hp => hp.delist.of_count fun o => by simp

theorem claim (hl : Lent s h tokens) (hf : s.registry.find? id = some e) :
    Lent { s with registry := s.registry.markDelivered id } h tokens := by
  obtain ⟨he, rfl⟩ := Registry.mem_of_find? hf
  refine ⟨hl.sound.markDelivered, hl.loans.update hl.sound.distinct he ⟨rfl, rfl, rfl⟩, ?_,
    hl.lawful⟩
  exact hl.pins.imp fun _ hp => hp.markDelivered

theorem giveBack {last : Option HostObject} (hl : Lent s h (tokens + {.loan id o}))
    (hb : s.registry.returnLoan id = (last, r')) :
    Lent { s with registry := r' } h (tokens + lastOf last) := by
  refine ⟨hl.sound.returnLoan hb, (hl.loans.giveBack hl.sound.distinct hb).of_count ?_, ?_,
    hl.lawful⟩
  · intro id object
    cases last <;> simp [lastOf]
  · exact hl.pins.imp fun _ hp =>
      (hp.of_count fun o => by simp).returnLoan hl.sound.distinct hb

theorem enlist {kind : HandleKind} (hl : Lent s h (tokens + {.fresh o}))
    (he : s.registry.enlist o kind = (.ok id, r')) : Lent { s with registry := r' } h tokens := by
  refine ⟨hl.sound.enlist he, (hl.loans.enlist hl.sound he).of_count fun id object => by simp, ?_,
    hl.lawful⟩
  exact hl.pins.imp fun _ hp => hp.enlist he

theorem clear {free : List HostObject} (hl : Lent s h tokens)
    (hc : s.registry.clear = (free, r')) :
    Lent { s with registry := r' } h (tokens + Multiset.ofList (free.map .last)) := by
  refine ⟨hl.sound.clear hc, (hl.loans.clear hc).of_count fun id object => ?_, ?_, hl.lawful⟩
  · rw [Multiset.count_add, Multiset.coe_count, List.count_eq_zero.mpr (by simp), add_zero]
  · exact hl.pins.imp fun _ hp => hp.clear hc

/-- Where nothing is registered, another registry may take over. -/
theorem renew {policy : DetachPolicy} {capacity : UInt64} (hl : Lent s h tokens)
    (he : s.registry.entries = []) (hr : s'.registry = .new policy capacity) :
    Lent s' h tokens := by
  have none : s'.registry.entries = s.registry.entries := by rw [hr, he]; rfl
  refine ⟨.of_entries_nil (none.trans he), ⟨?_, ?_, ?_⟩, ?_, hl.lawful⟩
  · rw [none]
    exact hl.loans.counted
  · rw [none]
    exact hl.loans.backed
  · rw [none]
    exact hl.loans.known
  · refine hl.pins.imp fun _ hp o => ?_
    rw [none]
    exact hp o

/-- A fresh reference that is not listed is as good as a last one. -/
theorem discard (hl : Lent s h (tokens + {.fresh o})) : Lent s h (tokens + {.last o}) := by
  refine ⟨hl.sound, hl.loans.of_count fun id object => by simp,
    hl.pins.imp fun _ hp => hp.of_count fun o => ?_, hl.lawful⟩
  simp only [Multiset.count_add, Multiset.count_singleton, Token.fresh.injEq, Token.last.injEq,
    reduceCtorEq, if_false]
  omega

/-- A last reference may be lost. -/
theorem lose (hl : Lent s h (tokens + {.last o})) : Lent s h tokens := by
  obtain ⟨lost, hp⟩ := hl.pins
  exact ⟨hl.sound, hl.loans.of_count fun id object => by simp, ⟨o :: lost, hp.lose⟩,
    hl.lawful⟩

end Lent

/-! ### The rules -/

/-- Callers give back loans that they hold, and the bridge is created while
    nothing is registered. -/
def lending : Rules (Multiset Token) where
  holds := Lent
  permits _ _ := True
  conduct m before :=
    (∀ id, returned? m.event = some id → id ∈ held before) ∧
    ∀ op thread q, m.event = .begins op thread q → q.initializes = true →
      m.state.startup = none → m.state.registry.entries = []

/-- The outside world is only bound where it begins something. -/
theorem lending_conduct {m : Moment} {before : History} (hm : m.event.isBegin = false) :
    lending.conduct m before := by
  refine ⟨fun id hid => ?_, fun op thread q heq => ?_⟩
  · unfold returned? at hid
    split at hid
    · next heq =>
      rw [heq] at hm
      cases hm
    · cases hid
  · rw [heq] at hm
    cases hm

variable {α β : Type} {own : Multiset Token} {gain : α → Multiset Token}

/-- `m` turns `own` into what `gain` says of its result. -/
def Turns (own : Multiset Token) (m : Operation α) (gain : α → Multiset Token) : Prop :=
  ∀ op thread after s h rest, Lent s h (rest + own) →
    Keeps lending op thread after (fun a s' h' rest' => Lent s' h' (rest' + gain a))
      (m thread s) h rest

/-- `m` leaves what is in hand as it was. -/
def Neutral (m : Operation α) : Prop := ∀ own, Turns own m fun _ => own

namespace Turns

theorem pure {a : α} (ha : gain a = own) : Turns own (Pure.pure a) gain := by
  intro op thread after s h rest hl
  show Lent s h (rest + gain a)
  rwa [ha]

theorem bind {m : Operation α} {f : α → Operation β} {gain' : β → Multiset Token}
    (hm : Turns own m gain) (hf : ∀ a, Turns (gain a) (f a) gain') :
    Turns own (m >>= f) gain' := by
  intro op thread after s h rest hl
  apply Keeps.bind (p := m thread s) (f := fun a s => f a thread s)
  exact (hm op thread _ s h rest hl).mono fun a s' h' rest' hl' =>
    hf a op thread after s' h' rest' hl'

/-- What is in hand may include more. -/
theorem frame {m : Operation α} (more : Multiset Token) (hm : Turns own m gain) :
    Turns (more + own) m fun a => more + gain a := by
  intro op thread after s h rest hl
  rw [← add_assoc] at hl
  refine ((hm op thread after s h (rest + more) hl).frame fun _ _ _ => trivial).mono
    fun a s' h' rest' hl' => ?_
  rwa [add_assoc] at hl'

theorem even {m : Operation α} (hm : Turns 0 m fun _ => 0) : Neutral m := fun own => by
  simpa only [add_zero] using hm.frame own

theorem callWith (mid : Multiset Token) {c : Call} {gain : c.Reply → Multiset Token}
    (hc : ∀ {op thread s h rest}, Lent s h (rest + own) →
      Lent s (⟨.calls op thread c, s⟩ :: h) (rest + mid))
    (hr : ∀ {op thread r lost s h rest}, Lent s h (rest + mid) →
      Lent s (⟨.replies op thread c r lost, s⟩ :: h) (rest + gain r)) :
    Turns own (Operation.call c) gain :=
  fun _ _ _ _ _ _ hl => ⟨mid, trivial, hc hl, fun _ _ _ _ hl' _ _ _ => hr hl'⟩

/-- A change of the state, after which `gain` is in hand. -/
theorem modifyGet {f : State → α × State} (gain : α → Multiset Token)
    (hf : ∀ {s h rest}, Lent s h (rest + own) → Lent (f s).2 h (rest + gain (f s).1)) :
    Turns own (Operation.modifyGet f) gain :=
  fun _ _ _ _ _ _ hl => hf hl

end Turns

namespace Neutral

/-- A change that leaves the registry as it is. -/
theorem aside {f : State → α × State} (hf : ∀ s, (f s).2.registry = s.registry) :
    Neutral (Operation.modifyGet f) :=
  fun own => .modifyGet (fun _ => own) fun {s _ _} hl => hl.congr (hf s)

theorem bump {c : Counter} : Neutral (CallbackBridge.bump c) :=
  aside (f := fun s => ((), { s with counters := s.counters.bump c })) fun _ => rfl

theorem limit {f : State → α × State} (hf : ∀ s, ∃ limiter, (f s).2 = { s with limiter }) :
    Neutral (Operation.modifyGet f) := by
  refine aside fun s => ?_
  obtain ⟨limiter, hs⟩ := hf s
  rw [hs]

theorem call {c : Call} (hc : c.inert = true) : Neutral (Operation.call c) := by
  have calls : ∀ op thread, unpinned? c = none ∧ inquirer? (.calls op thread c) = none := by
    intro op thread
    cases c with
    | host c => cases c <;> first | exact ⟨rfl, rfl⟩ | cases hc
    | engine | library | log | system => exact ⟨rfl, rfl⟩
  have replies : ∀ op thread r lost, handedOut? (.replies op thread c r lost) = none ∧
      inquirer? (.replies op thread c r lost) = none := by
    intro op thread r lost
    cases c with
    | host c => cases c <;> first | exact ⟨rfl, rfl⟩ | cases hc
    | engine | library | log | system => exact ⟨rfl, rfl⟩
  refine fun own => .callWith own (fun {op thread s h rest} hl => ?_)
    fun {op thread r lost s h rest} hl => ?_
  · obtain ⟨hu, hi⟩ := calls op thread
    refine hl.quiet ?_ hi
    simp only [handedOut?, takenBack?, hu, lent?, returned?]
  · obtain ⟨hh, hi⟩ := replies op thread r lost
    refine hl.quiet ?_ hi
    simp only [hh, takenBack?, lent?, returned?]

theorem basics : Basics Neutral where
  pure _ _ := .pure rfl
  bind hm hf own := (hm own).bind fun a => hf a own
  state _ _ _ _ _ _ _ hl := hl
  thread _ _ _ _ _ _ _ hl := hl
  tell hc := .call (Call.inert_of_quiet hc)

theorem limitedError {c : Log.Category} {text : String} : Neutral (Log.limitedError c text) :=
  basics.limitedError limit

end Neutral

/-! ### Visits -/

namespace Turns

variable {id : HandleId} {o : HostObject}

/-- What is in hand after a visit, which may have been refused. -/
def orKept (own : Multiset Token) (gain : α → Multiset Token) :
    Except AttachError α → Multiset Token
  | .ok a => gain a
  | .error _ => own

theorem visit {body : Operation α} (hb : Turns own body gain) :
    Turns own (CallbackBridge.visit body) (orKept own gain) := by
  refine bind (Neutral.basics.state own) fun s =>
    bind (Neutral.basics.acquire (.call rfl) own) fun acquired => ?_
  cases acquired with
  | error e => exact pure rfl
  | ok g =>
    exact bind hb fun a => bind (Neutral.basics.drop (.call rfl) (gain a)) fun _ => pure rfl

/-- What follows on a visit. -/
theorem after {body : Operation α} {next : Except AttachError α → Operation β}
    {gain' : β → Multiset Token} (hb : Turns own body gain)
    (hn : ∀ r, Turns (orKept own gain r) (next r) gain') :
    Turns own (do
      let s ← Operation.state
      let r ← onHostThread s.registry.policy body
      next r) gain' := by
  rw [← visit_bind]
  exact hb.visit.bind hn

/-! ### References -/

theorem unpinCall : Turns {.last o} (Operation.call (.host (.unpin o))) fun _ => 0 := by
  refine callWith 0 (fun {op thread s h rest} hl => ?_) fun hl => hl.quiet rfl rfl
  rw [add_zero]
  exact hl.unpins_call

theorem lose : Turns {.last o} (Pure.pure () : Operation Unit) fun _ => 0 := by
  intro op thread after s h rest hl
  show Lent s h (rest + 0)
  rw [add_zero]
  exact hl.lose

theorem unpin : Turns {.last o} (Registry.unpin o) fun _ => 0 := by
  refine unpinCall.after fun result => ?_
  cases result with
  | ok _ => exact pure rfl
  | error e => exact bind (Neutral.bump _) fun _ => bind (Neutral.limitedError _) fun _ => lose

theorem giveBack : Turns {.loan id o} (Registry.giveBack id) fun _ => 0 := by
  refine bind (modifyGet lastOf fun hl => hl.giveBack rfl) fun last => ?_
  cases last with
  | none => exact pure rfl
  | some o => exact unpin

theorem look : Turns 0 (Registry.look id) (Does.borrowed id) := by
  unfold Registry.look
  split
  · exact pure rfl
  · refine bind (modifyGet (Does.lentOf id) fun {s h rest} hl => ?_) fun found => ?_
    · rw [add_zero] at hl
      cases hf : s.registry.listed? id with
      | none => rwa [Does.lentOf, add_zero]
      | some e => exact hl.lend hf
    · cases found with
      | some e => exact pure rfl
      | none => exact bind (Neutral.bump _) fun _ => pure rfl

/-! ### Registering -/

theorem pinCall : Turns 0 (Operation.call (.host (.pin o))) (Does.pinned 0) := by
  refine callWith 0 (fun hl => hl.quiet rfl rfl) fun {op thread r lost s h rest} hl => ?_
  cases r with
  | none => exact hl.quiet rfl rfl
  | some reference =>
    rw [Does.pinned, zero_add]
    rw [add_zero] at hl
    exact hl.pins_reply

theorem pin : Turns 0 (Registry.pin o) Does.freshOf := by
  refine pinCall.after fun result => ?_
  rcases result with e | (_ | reference)
  · exact bind (Neutral.bump _) fun _ => bind (Neutral.basics.emit _) fun _ => pure rfl
  · exact pure rfl
  · exact pure (zero_add _).symm

/-- What is in hand where a reference may have been listed. -/
def unlisted (reference : HostObject) : Except HandleError HandleId → Multiset Token
  | .ok _ => 0
  | .error _ => {.fresh reference}

theorem enter {kind : HandleKind} : Turns {.fresh o} (Registry.enter o kind) fun _ => 0 := by
  refine bind (modifyGet (unlisted o) fun {s h rest} hl => ?_) fun listed => ?_
  · rcases he : Registry.entering o kind s with ⟨e | id, s'⟩
    · obtain rfl := Registry.entering_error he
      exact hl
    · obtain ⟨r, henlist, rfl⟩ := Registry.entering_ok he
      show Lent _ h (rest + 0)
      rw [add_zero]
      exact (hl.enlist henlist).congr rfl
  · cases listed with
    | error e =>
      have discarded : Turns {.fresh o} (Registry.unpin o) fun _ => 0 :=
        fun op thread after s h rest hl => unpin op thread after s h rest hl.discard
      exact bind discarded fun _ => pure rfl
    | ok id => exact bind (Neutral.basics.breadcrumb _) fun _ => pure rfl

end Turns

/-! ### What the registry and the dispatcher offer -/

namespace Neutral

variable {id : HandleId} {o : HostObject} {kind : HandleKind}

theorem register : Neutral (Registry.register o kind) := by
  apply Turns.even
  rw [Registry.register_eq]
  refine .bind (basics.state 0) fun s => ?_
  split
  · exact .pure rfl
  · refine .bind .pin fun result => ?_
    cases result with
    | error e => exact .pure rfl
    | ok reference => exact .enter

theorem take : Neutral (Registry.take id) := by
  apply Turns.even
  rw [Registry.take_eq]
  refine .bind (.modifyGet (Does.lentOf id) fun {s h rest} hl => ?_) fun found => ?_
  · rw [add_zero] at hl
    unfold Registry.striking
    split
    · rwa [Does.lentOf, add_zero]
    · next e hf => exact (hl.delist hf).congr rfl
  · cases found with
    | none => exact .pure rfl
    | some e => exact .bind (basics.breadcrumb _) fun _ => .bind .giveBack fun _ => .pure rfl

theorem remove : Neutral (Registry.remove id) :=
  basics.remove take bump limitedError

theorem releaseRaw : Neutral (Registry.releaseRaw id) :=
  basics.releaseRaw remove

theorem releaseIfPresent : Neutral (Registry.releaseIfPresent id) :=
  basics.releaseIfPresent take

theorem close : Neutral Registry.close := by
  have unpins : ∀ free : List HostObject,
      Turns (Multiset.ofList (free.map .last)) (Registry.unpinAll free) fun _ => 0 := by
    intro free
    induction free with
    | nil => exact .pure rfl
    | cons o rest ih =>
      have split : Multiset.ofList ((o :: rest).map Token.last) =
          Multiset.ofList (rest.map .last) + {.last o} := by
        rw [List.map_cons, ← Multiset.cons_coe, ← Multiset.singleton_add, add_comm]
      rw [split]
      refine .bind (Turns.unpin.frame _) fun _ => ?_
      rw [add_zero]
      exact ih
  refine Turns.even (.bind (.modifyGet (fun free => Multiset.ofList (free.map .last))
    fun hl => ?_) unpins)
  rw [add_zero] at hl
  exact hl.clear rfl

theorem withTarget {shape : CallShape} {body : Registration → Operation (Except DispatchError α)}
    (hb : ∀ e, Turns {.loan id e.object} (body e) fun _ => {.loan id e.object}) :
    Neutral (Dispatch.withTarget shape id body) := by
  refine Turns.even (.bind .look fun found => ?_)
  cases found with
  | error e => exact .pure rfl
  | ok target =>
    dsimp only
    split
    · exact .bind (hb target) fun _ => .bind .giveBack fun _ => .pure rfl
    · exact .bind .giveBack fun _ => .pure rfl

theorem claim : Neutral (Registry.claim id) := by
  refine fun own => .modifyGet (fun _ => own) fun {s h rest} hl => ?_
  split
  · exact hl
  · next e hf => exact hl.claim hf

theorem dispatching : DispatchParts Neutral where
  toBasics := basics
  bump _ := bump
  limit := limit
  claim := claim
  use {c} hc := by
    refine basics.visit (call rfl) (call rfl) (call ?_)
    cases c with
    | protect | onResult => rfl
    | _ => cases hc
  withTarget hb := withTarget fun e => hb e _

end Neutral

/-! ### Questions -/

namespace Turns

variable {id : HandleId} {o : HostObject} {query : OwnerQuery}

theorem attached {body : Operation α} (hb : Turns own body fun _ => own) :
    Turns own (Dispatch.attached body) fun _ => own := by
  refine hb.after fun result => ?_
  cases result with
  | ok a => exact pure rfl
  | error e => exact bind (Neutral.bump _) fun _ => pure rfl

/-- One call of an inquiry.  The loan stays in hand over it. -/
theorem inquire {op : Nat} {thread : Thread} {after : α → State → Option HostObject}
    {post : α → State → History → Multiset Token → Prop} {c : HostCall}
    {resume : c.Reply → State → Progress α} {s : State} {h : History} {rest : Multiset Token}
    (hc : c.textless = false) (hl : Lent s h (rest + {.loan id o}))
    (before : ∀ op', inquirer? (.calls op thread (.host c)) = some op' → Asks h op' o)
    (asks : Asks (⟨.calls op thread (.host c), s⟩ :: h) op o)
    (next : ∀ r s' h' rest', Lent s' h' (rest' + {.loan id o}) → Asks h' op o →
      Keeps lending op thread after post (resume r s') h' rest') :
    Keeps lending op thread after post (.calling (.host c) s resume) h rest := by
  have called : Lent s (⟨.calls op thread (.host c), s⟩ :: h) (rest + {.loan id o}) := by
    refine hl.note ?_ fun op' hop => ⟨o, before op' hop, hl.mem_pinned⟩
    cases c with
    | resolve | readString | freeString => rfl
    | _ => cases hc
  refine ⟨{Token.loan id o}, trivial, called, fun r s₁ h₁ rest₁ hl₁ hs₁ _ _ => ?_⟩
  have hl₁ : Lent s₁ h₁ (rest₁ + {.loan id o}) := hl₁
  have asks₁ := asks.mono hs₁
  refine next r s₁ _ rest₁ (hl₁.note ?_ fun op' hop => ⟨o, ?_, hl₁.mem_pinned⟩)
    (asks₁.mono (List.suffix_cons _ h₁))
  · cases c with
    | resolve | readString | freeString => rfl
    | _ => cases hc
  · cases c with
    | resolve | readString | freeString => exact Option.some.inj hop ▸ asks₁
    | _ => cases hc

/-- The loan stays in hand until the answer was read and given back. -/
theorem askOwner : Turns {.loan id o} (Dispatch.askOwner o query) fun _ => {.loan id o} := by
  intro op thread after s h rest hl
  refine inquire rfl hl nofun ⟨query, thread, s, List.mem_cons_self ..⟩
    fun answer s₁ h₁ rest₁ hl₁ asks₁ => ?_
  cases answer with
  | none => exact hl₁
  | some text =>
    refine inquire rfl hl₁ (fun _ hop => Option.some.inj hop ▸ asks₁)
      (asks₁.mono (List.suffix_cons ..)) fun copy s₂ h₂ rest₂ hl₂ asks₂ => ?_
    exact inquire rfl hl₂ (fun _ hop => Option.some.inj hop ▸ asks₂)
      (asks₂.mono (List.suffix_cons ..)) fun _ _ _ _ hl₃ _ => hl₃

end Turns

/-! ### Every request -/

namespace Neutral

theorem resolveOwner {id : HandleId} {query : OwnerQuery} :
    Neutral (Dispatch.resolveOwner id query) :=
  dispatching.resolveOwner (withTarget fun _ => Turns.askOwner.attached)

theorem dispatch (d : DispatchRequest) : Neutral d.operation := by
  cases d with
  | resolveOwner id query => exact resolveOwner
  | protect | notify | deliverResult => exact dispatching.dispatch rfl

theorem serve (table : CallbackTable) (q : EngineRequest) : Neutral (table.serve q) :=
  basics.serve (fun _ => dispatch _) fun _ _ _ => releaseRaw

theorem calling : CallerParts Neutral where
  toBasics := basics
  register := register
  releaseRaw := releaseRaw
  dispatch := dispatching.dispatch
  launched := bump
  engine hc _ := call (Call.inert_of_toEngine hc)
  calls hc := call (Call.inert_of_toEngine hc)
  releaseIfPresent := releaseIfPresent
  slot hf := aside fun s => by
    obtain ⟨listener, hs⟩ := hf s
    rw [hs]
  logger hf := aside fun s => by
    obtain ⟨logger, hs⟩ := hf s
    rw [hs]
  limit := limit

variable {op : Nat} {thread : Thread} {s : State} {h : History} {rest : Multiset Token}

theorem keeps {after : α → State → Option HostObject} {m : Operation α} (hm : Neutral m)
    (hl : Lent s h rest) :
    Keeps lending op thread after (fun _ s' h' rest' => Lent s' h' rest') (m thread s) h rest := by
  have kept := hm 0 op thread after s h rest
  simp only [add_zero] at kept
  exact kept hl

end Neutral

variable {op : Nat} {thread : Thread} {s : State} {h : History} {rest : Multiset Token}

/-- A line that is logged changes nothing. -/
theorem Lent.emit {after : Unit → State → Option HostObject} {level : Log.Level}
    {b : Log.Breadcrumbs} {message : String} (hl : Lent s h rest) :
    Keeps lending op thread after (fun _ s' h' rest' => s' = s ∧ Lent s' h' rest')
      (Log.emit level b message thread s) h rest := by
  simp only [Log.emit, Operation.bind_apply, Operation.state_apply, Progress.bind]
  cases s.logger.line? level b message with
  | none => exact ⟨rfl, hl⟩
  | some line =>
    have called : Lent s (⟨.calls op thread (.log line), s⟩ :: h) (rest + 0) := by
      rw [add_zero]
      exact hl.quiet rfl rfl
    refine ⟨0, trivial, called, fun _ s' h' rest' hl' _ hq _ => ?_⟩
    obtain ⟨rfl, rfl, rfl⟩ := hq rfl
    rw [add_zero] at hl'
    have hl' : Lent s' _ rest' := hl'
    exact ⟨rfl, hl'.quiet rfl rfl⟩

/-- Where nothing is registered, a bridge may be created. -/
theorem Lent.create {after : Unit → State → Option HostObject} {options : BridgeOptions}
    (hl : Lent s h rest) (he : s.registry.entries = []) :
    Keeps lending op thread after (fun _ s' h' rest' => Lent s' h' rest')
      (Bridge.create .absent options thread s) h rest := by
  have announces : ∀ message : String, Neutral (do
      Engine.installCallbacks .absent
      Log.breadcrumb .boundary message) :=
    fun _ => Neutral.basics.bind (Neutral.basics.pure ()) fun _ => Neutral.basics.breadcrumb
  have created : Lent { s with
      registry := .new (DetachPolicy.ofFlag options.detachAfterCallback) options.maxHandles.toUInt64
      counters := .zero, listener := .empty, engine := .absent } h rest := hl.renew he rfl
  exact (announces _).keeps created

theorem Lent.initOnce {after : Except InitError Unit → State → Option HostObject}
    {methods : HostMethods} {options : BridgeOptions} (hl : Lent s h rest)
    (he : s.startup = none → s.registry.entries = []) :
    Keeps lending op thread after (fun _ s' h' rest' => Lent s' h' rest')
      (Entry.initOnce methods options thread s) h rest := by
  simp only [Entry.initOnce, Operation.bind_apply, Operation.state_apply, Progress.bind]
  cases hs : s.startup with
  | some outcome => cases outcome <;> exact hl
  | none =>
    cases methods.check with
    | error e => exact hl.congr rfl
    | ok _ =>
      refine Keeps.bind (hl.emit.mono ?_)
      rintro _ s₁ h₁ rest₁ ⟨rfl, hl₁⟩
      refine Keeps.bind ((hl₁.create (he hs)).mono fun _ s₂ h₂ rest₂ hl₂ => ?_)
      exact hl₂.congr rfl

theorem Lent.init {after : Int32 → State → Option HostObject} {methods : Option HostMethods}
    {options : Option BridgeOptions} (hl : Lent s h rest)
    (he : s.startup = none → s.registry.entries = []) :
    Keeps lending op thread after (fun _ s' h' rest' => Lent s' h' rest')
      (Entry.init methods options thread s) h rest := by
  have basics := Neutral.basics
  cases methods with
  | none => exact (basics.bind basics.emit fun _ => basics.pure _).keeps hl
  | some methods =>
    refine Keeps.bind ((hl.initOnce he).mono fun result s₁ h₁ rest₁ hl₁ => ?_)
    cases result with
    | ok _ => exact hl₁
    | error e => exact (basics.bind basics.emit fun _ => basics.pure _).keeps hl₁

/-- A request passes no loan to its caller, unless it is a look-up. -/
theorem Lent.ends {q : Request} {result : q.Result} (hl : Lent s h rest)
    (hq : ∀ id, q ≠ .registry (.look id)) : Lent s (⟨.ends op thread q result, s⟩ :: h) rest := by
  have unlent : lent? (.ends op thread q result) = none := by
    unfold lent?
    split
    · next heq =>
      cases heq
      exact absurd rfl (hq _)
    · rfl
  refine hl.quiet ?_ rfl
  simp only [unlent, handedOut?, takenBack?, returned?]

theorem lending_kept (q : Request) : lending.Kept q := by
  rintro thread s h rest hl ⟨careful, bare⟩
  have hl : Lent s h rest := hl
  have began : (∀ id, q ≠ .registry (.giveBack id)) →
      Lent s (⟨.begins h.begun thread q, s⟩ :: h) rest := by
    intro hq
    refine hl.quiet ?_ rfl
    simp only [returned?_begins hq, handedOut?, takenBack?, lent?]
  -- what is neutral from its beginning to its end
  have neutral : (∀ id, q ≠ .registry (.giveBack id)) → (∀ id, q ≠ .registry (.look id)) →
      Neutral q.operation →
      Keeps lending h.begun thread (fun _ _ => none) (lending.ends h.begun thread q)
        (q.operation thread s) (⟨.begins h.begun thread q, s⟩ :: h) rest :=
    fun hg hk hn => (hn.keeps (began hg)).mono fun _ _ _ _ hl' => hl'.ends hk
  cases q with
  | registry r =>
    cases r with
    | look id =>
      have looking : Lent s (⟨.begins h.begun thread (.registry (.look id)), s⟩ :: h)
          (rest + 0) := by
        rw [add_zero]
        exact began (by simp)
      refine (Turns.look h.begun thread (fun _ _ => none) s _ rest looking).mono
        fun result s' h' rest' hl' => ?_
      cases result with
      | ok target => exact hl'.look_ends
      | error e =>
        rw [Does.borrowed, add_zero] at hl'
        exact hl'.quiet rfl rfl
    | giveBack id =>
      obtain ⟨o, hl'⟩ := hl.giveBack_begins h.begun thread (careful id rfl)
      refine (Turns.giveBack h.begun thread (fun _ _ => none) s _ rest hl').mono
        fun _ s' h' rest' hl' => ?_
      rw [add_zero] at hl'
      exact hl'.ends (by simp)
    | register => exact neutral (by simp) (by simp) .register
    | release => exact neutral (by simp) (by simp) (Neutral.basics.release .remove)
    | releaseRaw => exact neutral (by simp) (by simp) .releaseRaw
    | releaseIfPresent => exact neutral (by simp) (by simp) .releaseIfPresent
    | close => exact neutral (by simp) (by simp) .close
  | entry q =>
    cases hi : q.initializes with
    | false => exact neutral (by simp) (by simp) (Neutral.calling.entry hi)
    | true =>
      cases q with
      | init methods options =>
        exact ((began (by simp)).init (bare _ _ _ rfl rfl)).mono fun _ _ _ _ hl' =>
          hl'.ends (by simp)
      | _ => cases hi
  | dispatch d => exact neutral (by simp) (by simp) (.dispatch d)
  | callback table q => exact neutral (by simp) (by simp) (.serve table q)
  | library q =>
    exact neutral (by simp) (by simp)
      (Neutral.basics.serveLibrary fun table => .serve table q)
  | bridge q => exact neutral (by simp) (by simp) (Neutral.calling.bridge q)
  | log q => exact neutral (by simp) (by simp) (Neutral.calling.log q)

/-! ### Runs -/

namespace Reaches

variable {root : State} {c : Situation}

theorem lends (run : Reaches (.initial root) c) (empty : root.registry.entries = [])
    (careful : c.history.Careful) (bare : c.history.CreatedBare) : lending.Stands c := by
  have initially : Lent root [] 0 :=
    ⟨.of_entries_nil empty, ⟨by simp [empty], by simp, by simp [held]⟩,
      ⟨[], fun o => by simp [empty, pinned]⟩, trivial⟩
  exact Rules.stands lending_kept run ⟨0, .nil, initially⟩ (careful.and bare)

/-- What is unpinned is pinned, and so is what was asked, from the question to
    the end of its answer. -/
theorem lawful_loans (run : Reaches (.initial root) c) (empty : root.registry.entries = [])
    (careful : c.history.Careful) (bare : c.history.CreatedBare) : c.history.Always Lends := by
  obtain ⟨total, -, hl⟩ := run.lends empty careful bare
  exact Lent.lawful hl

/-- So it is while the question is under way, or an answer is read or given
    back. -/
theorem pinned_of_inquiry (run : Reaches (.initial root) c) (empty : root.registry.entries = [])
    (careful : c.history.Careful) (bare : c.history.CreatedBare) {f : Frame} (hf : f ∈ c.stack)
    {call : HostCall} (hc : f.call = .host call) (ht : call.textless = false) :
    ∃ o, c.history.Asks f.op o ∧ o ∈ c.history.pinned := by
  have stands := run.lends empty careful bare
  have lawful : ∀ s h total, lending.holds s h total → h.Always Lends :=
    fun _ _ _ hl => Lent.lawful hl
  have heard := fun r => (stands.law_of_reply lawful hf r (lending_conduct rfl)).answerable
  obtain ⟨op, thread, q, _, resume⟩ := f
  simp only at hc heard
  subst hc
  cases call with
  | resolve => exact heard none op rfl
  | readString => exact heard .empty op rfl
  | freeString => exact heard () op rfl
  | _ => cases ht

end Reaches

end Run

end CallbackBridge
