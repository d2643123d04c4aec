import CallbackBridge.Run.Situation

/-! # The conduct of the outside world

    What hosts, engines and callers keep to, said of histories.  Laws about
    runs assume as little of this as they can.

    One thing is assumed of every run: no operation starts during a call of the
    log sink or of the operating system, neither in the call itself nor on another
    thread (`Call.mayReenter`).  `RepliesAtOnce` says what that comes to; a sink that
    uses the bridge while it is handed a line is not covered. -/

namespace CallbackBridge

namespace Request

/-- A request to the registry or to the dispatcher, before the registry is
    dropped. -/
def isCore : Request → Bool
  | .registry .close => false
  | .registry _ | .dispatch _ | .callback .. => true
  | .library _ | .bridge _ | .entry _ | .log _ => false

/-- A request to the registry or to the dispatcher; the registry may be
    dropped. -/
def isCoreOrClose : Request → Bool
  | .registry _ | .dispatch _ | .callback .. => true
  | .library _ | .bridge _ | .entry _ | .log _ => false

/-- A request to a bridge, by the application or by its engine. -/
def isBridge : Request → Bool
  | .bridge _ | .callback .. | .library _ => true
  | .registry _ | .dispatch _ | .entry _ | .log _ => false

/-- A call of an entry point. -/
def isEntry : Request → Bool
  | .entry _ => true
  | .registry _ | .dispatch _ | .callback .. | .library _ | .bridge _ | .log _ => false

/-- A request to set or to clear the event listener. -/
def setsListener : Request → Bool
  | .bridge (.setEventListener _) | .entry (.setEventListener _) => true
  | _ => false

end Request

namespace Run.History

/-! ### Callers -/

/-- Every operation was asked for by a request of one sort. -/
def Only (sort : Request → Bool) : History → Prop :=
  Always fun m _ => ∀ op thread q, m.event = .begins op thread q → sort q = true

instance (sort : Request → Bool) :
    (e : Event) → Decidable (∀ op thread q, e = .begins op thread q → sort q = true)
  | .begins _ _ q =>
    decidable_of_iff (sort q = true)
      ⟨fun h _ _ _ heq => by cases heq; exact h, fun h => h _ _ _ rfl⟩
  | .calls .. | .replies .. | .ends .. => .isTrue fun _ _ _ heq => by cases heq

instance (sort : Request → Bool) (h : History) : Decidable (Only sort h) :=
  inferInstanceAs (Decidable (Always (fun m _ =>
    ∀ op thread q, m.event = .begins op thread q → sort q = true) h))

/-- Callers give back only loans that they hold. -/
def Careful : History → Prop :=
  Always fun m before => ∀ id, returned? m.event = some id → id ∈ held before

instance (h : History) : Decidable (Careful h) :=
  inferInstanceAs (Decidable (Always (fun m before =>
    ∀ id ∈ returned? m.event, id ∈ held before) h))

/-- Nobody sets a listener while another one is being set. -/
def ListenersInTurn : History → Prop :=
  Always fun m _ => ∀ op thread q, m.event = .begins op thread q →
    q.setsListener = true → m.state.listener.locked = false

instance (unlocked : Bool) :
    (e : Event) → Decidable (∀ op thread q, e = .begins op thread q →
      q.setsListener = true → unlocked = true)
  | .begins _ _ q =>
    decidable_of_iff (q.setsListener = true → unlocked = true)
      ⟨fun h _ _ _ heq => by cases heq; exact h, fun h => h _ _ _ rfl⟩
  | .calls .. | .replies .. | .ends .. => .isTrue fun _ _ _ heq => by cases heq

instance (h : History) : Decidable (ListenersInTurn h) :=
  decidable_of_iff (Always (fun m _ => ∀ op thread q, m.event = .begins op thread q →
    q.setsListener = true → (!m.state.listener.locked) = true) h) (by simp [ListenersInTurn])

/-! ### The host -/

/-- The host hands out each reference once. -/
def FreshPins : History → Prop :=
  Always fun m before => ∀ reference, handedOut? m.event = some reference →
    reference ∉ handedOut before

instance (h : History) : Decidable (FreshPins h) :=
  inferInstanceAs (Decidable (Always (fun m before =>
    ∀ reference ∈ handedOut? m.event, reference ∉ handedOut before) h))

/-- An answer to an attachment tells whether the thread was attached before. -/
def tellsAttached (first : List Thread) (before : History) : Event → Bool
  | .replies _ thread (.host .attach) status _ =>
    match AttachState.ofStatus status with
    | .ok .attached => thread ∈ attached first before
    | .ok .newlyAttached => thread ∉ attached first before
    | .error _ => true
  | _ => true

/-- The host tells whether it attached the thread just now, and refuses as it
    likes.  `first` lists the threads that were attached to begin with. -/
def HonestAttach (first : List Thread) : History → Prop :=
  Always fun m before => tellsAttached first before m.event = true

instance (first : List Thread) (h : History) : Decidable (HonestAttach first h) :=
  inferInstanceAs (Decidable (Always (fun m before =>
    tellsAttached first before m.event = true) h))

/-! ### The log and the operating system -/

/-- What follows on a call of the log sink or of the operating system is the reply
    to it. -/
def RepliesAtOnce : History → Prop :=
  Always fun m before => ∀ op thread call s, before.head? = some ⟨.calls op thread call, s⟩ →
    call.mayReenter = false → ∃ reply lost, m.event = .replies op thread call reply lost

/-- A sink is installed at every moment. -/
def Watched : History → Prop :=
  Always fun m _ => m.state.logger.sink.isSome = true

instance (h : History) : Decidable h.Watched :=
  inferInstanceAs (Decidable (Always (fun m _ => m.state.logger.sink.isSome = true) h))

end Run.History

end CallbackBridge
