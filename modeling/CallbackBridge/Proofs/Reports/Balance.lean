import CallbackBridge.Proofs.Accounts
import CallbackBridge.Proofs.Reports.Lines
import CallbackBridge.Proofs.Run.Twins

/-! # What the log owes

    Failures are counted, and they are reported to the log.  In between an
    operation owes the log a line, and the limiter may hold lines back.  The
    difference of what was counted and of what was reported is the gap.

    Key ideas:

    1. A counter that rises widens the gap, and a line that is offered to the
       limiter closes it by one: the line is admitted, or it is held back and
       then counted with the next one that is admitted.
    2. Nothing is nested in a call of the clock or of the log.  So what the
       limiter admits is the next thing that the sink receives.
    3. `Owes` follows the gap through one operation.  Whatever is nested in its
       calls leaves the gap as it was. -/

namespace CallbackBridge

open Run Run.History

/-! ### What is to be reported -/

namespace Call

/-- The host answers a query with no string, or the string that it answered turns
    out to be no text. -/
def blank : (c : Call) → c.Reply → Bool
  | .host (.resolve ..), answer => answer.isNone
  | .host (.readString _), copy => copy.text?.isNone
  | _, _ => false

/-- The status with which the host answers a request to attach. -/
def status? : (c : Call) → c.Reply → Option Int32
  | .host .attach, status => some status
  | _, _ => none

end Call

namespace Request

/-- A request that registers an object, if it gets that far. -/
def registers : Request → Bool
  | .registry (.register ..) | .bridge (.startTunnel ..) | .bridge (.invokeAction ..)
  | .bridge (.setEventListener (some _)) => true
  | _ => false

/-- A request that installs or removes the sink, or changes its mask. -/
def setsSink : Request → Bool
  | .log (.install ..) | .log (.setMask _) => true
  | _ => false

end Request

namespace Run

/-- A query turns out to have no text for an answer. -/
def Event.isBlank : Event → Bool
  | .replies _ _ c r _ => c.blank r
  | .begins .. | .calls .. | .ends .. => false

/-- How many failures of category `c` the sink learns of at an event. -/
def Event.tells (l : Log.Logger) (c : Log.Category) : Event → Nat
  | .calls _ _ (.log line) => l.tells c line
  | _ => 0

namespace History

/-- How many failures of category `c` the sink has learnt of. -/
def reported (c : Log.Category) : History → Nat
  | [] => 0
  | m :: before => reported c before + m.event.tells m.state.logger c

/-- How the host has answered when operation `op` attached its thread, first
    answer first. -/
def statuses (op : Nat) : History → List Int32
  | [] => []
  | m :: before =>
    match m.event with
    | .replies op' _ call reply _ =>
      if op' = op then statuses op before ++ (call.status? reply).toList
      else statuses op before
    | _ => statuses op before

end History

namespace Ending

/-- The host has refused to attach the thread when it was asked the `n`-th
    time. -/
def refusedAt (e : Ending) (n : Nat) : Bool :=
  (e.history.statuses e.op)[n]?.any (Call.refused (.host .attach))

/-- An object was to be registered, and the thread was not attached. -/
def registerRefused (e : Ending) : Bool :=
  e.request.registers && e.refusedAt 0

/-- A call was to be made through a handle, and the thread was not attached.  The
    stand-in makes its call after it has registered the object. -/
def dispatchRefused (e : Ending) : Bool :=
  e.asked.dispatched?.isSome && e.refusedAt 0 || e.answered?.isSome && e.refusedAt 1

end Ending

/-- What the limiter admits, the sink receives: the limiter is asked right after
    the clock was read, and where it admits a line, that line is what happens
    next.  At no other moment the limiter changes. -/
def Moment.Heard (m : Moment) : History → Prop
  | [] => True
  | ⟨.replies op thread (.system .clock) now _, s⟩ :: _ =>
    ∃ c text, m.state.limiter = (s.limiter.offer now c).2 ∧
      ∀ k, (s.limiter.offer now c).1 = some k →
        m.event = .calls op thread (.log (m.state.logger.limited c text k))
  | last :: _ => m.state.limiter = last.state.limiter

/-! ### The gap -/

/-- How many failures of category `c` the counters and the history tell of.  A
    second result is reported twice: as such, and as a call that was dropped. -/
def owed (s : State) (h : History) : Log.Category → UInt64
  | .attachFailure =>
    s.counters.get .attachFailures - .ofNat (h.endings.countP (·.registerRefused))
  | .staleHandle =>
    s.counters.get .callbacksDropped - s.counters.get .resultsRejected -
      .ofNat (h.endings.countP (·.dispatchRefused))
  | .duplicateResult => s.counters.get .resultsRejected + s.counters.get .resultsRejected
  | .duplicateRelease => s.counters.get .duplicateReleases
  | .queryFailure => .ofNat (h.countP (·.event.isBlank))

/-- How many failures of category `c` the log knows of: those that the sink has
    learnt of, and those whose lines are held back. -/
def logged (s : State) (h : History) (c : Log.Category) : UInt64 :=
  .ofNat (h.reported c) + (s.limiter.slot c).suppressed

/-- What was counted and not reported. -/
def gap (s : State) (h : History) : Log.Category → UInt64 :=
  owed s h - logged s h

end Run

/-- What a count adds to the gap. -/
def Counter.due : Counter → Log.Category → UInt64
  | .attachFailures => Pi.single .attachFailure 1
  | .callbacksDropped => Pi.single .staleHandle 1
  | .resultsRejected =>
    Pi.single .duplicateResult 1 + Pi.single .duplicateResult 1 - Pi.single .staleHandle 1
  | .duplicateReleases => Pi.single .duplicateRelease 1
  | .handlesRegistered | .handlesReleased | .staleLookups | .callbacksDispatched
  | .helpersLaunched => 0

namespace Run

variable {e : Engine} {op : Nat} {thread : Thread} {s s' : State} {h h' : History} {c : Call}
  {event : Event}

theorem gap_bump (k : Counter) :
    gap { s with counters := s.counters.bump k } h = gap s h + k.due := by
  funext c
  cases k <;> cases c <;>
    simp [gap, owed, logged, Counter.due, Counters.bump, Counters.get] <;> grind

/-- A change that counts no failure leaves the gap as it is. -/
theorem gap_change (hc : ∀ k, k.ofTable = false → s'.counters.get k = s.counters.get k)
    (hl : s'.limiter = s.limiter) : gap s' h = gap s h := by
  have owed_eq : owed s' h = owed s h := by
    funext c
    cases c <;> simp only [owed, hc .attachFailures rfl, hc .callbacksDropped rfl,
      hc .resultsRejected rfl, hc .duplicateReleases rfl]
  unfold gap
  rw [owed_eq]
  unfold logged
  rw [hl]

/-! ### Ends of operations -/

namespace History

variable {p : Ending → Bool}

theorem ending?_eq_none (hn : ∀ m ∈ h, m.event.op ≠ op) : ending? op h = none := by
  induction h with
  | nil => rfl
  | cons m before ih =>
    rw [ending?_of_ne (hn m (List.mem_cons_self ..))]
    exact ih fun m hm => hn m (List.mem_cons_of_mem _ hm)

/-- Where an operation begins none has ended. -/
theorem countP_endings_begins {q : Request} (numbered : ∀ m ∈ h, m.event.op < h.begun) :
    (endings (⟨.begins h.begun thread q, s⟩ :: h)).countP p = h.endings.countP p := by
  have more : begun (⟨.begins h.begun thread q, s⟩ :: h) = h.begun + 1 := by
    rw [begun_cons]
    rfl
  have same : ∀ op, ending? op (⟨.begins h.begun thread q, s⟩ :: h) = ending? op h := fun _ => rfl
  have fresh : ending? h.begun h = none :=
    ending?_eq_none fun m hm => Nat.ne_of_lt (numbered m hm)
  rw [countP_endings, countP_endings, more, Finset.sum_range_succ]
  simp only [same, fresh]
  rfl

/-- Nor where it calls, or is replied to. -/
theorem endings_cons (hb : event.isBegin = false)
    (he : ∀ op thread q result, event ≠ .ends op thread q result) :
    endings (⟨event, s⟩ :: h) = h.endings := by
  have same : begun (⟨event, s⟩ :: h) = h.begun := by simp [begun_cons, hb]
  have none : ∀ op, ending? op (⟨event, s⟩ :: h) = ending? op h := by
    intro op
    cases event with
    | ends op' thread q result => exact (he op' thread q result rfl).elim
    | _ => rfl
  simp only [endings, same, none]

/-- Operation `op` is in progress since `s₀`. -/
structure Pending (op : Nat) (s₀ : State) (h : History) : Prop where
  begun : op < h.begun
  start : start? op h = some s₀
  unended : ending? op h = none

/-- An operation ends once. -/
theorem countP_endings_ends {s₀ : State} {q : Request} {result : q.Result}
    (hp : Pending op s₀ h) :
    (endings (⟨.ends op thread q result, s⟩ :: h)).countP p =
      h.endings.countP p + if p (Ending.now op thread q result s₀ s h) then 1 else 0 := by
  have same : begun (⟨.ends op thread q result, s⟩ :: h) = h.begun := by
    rw [begun_cons]
    rfl
  have own : ending? op (⟨.ends op thread q result, s⟩ :: h) =
      some (Ending.now op thread q result s₀ s h) := by
    have found : ending? op (⟨.ends op thread q result, s⟩ :: h) = _ := if_pos rfl
    rw [found, hp.start]
    rfl
  have others : ∀ op', op' ≠ op →
      ending? op' (⟨.ends op thread q result, s⟩ :: h) = ending? op' h :=
    fun op' hne => ending?_of_ne (Ne.symm hne)
  have mem : op ∈ Finset.range h.begun := Finset.mem_range.mpr hp.begun
  -- the sums differ in what this operation adds, and in nothing else
  rw [countP_endings, countP_endings, same, ← Finset.add_sum_erase _ _ mem,
    ← Finset.add_sum_erase _ _ mem, own, hp.unended]
  rw [Finset.sum_congr rfl fun op' hop' => by rw [others op' (Finset.ne_of_mem_erase hop')]]
  simp [Nat.add_comm]

/-- Whatever happens next but for the end of the operation, it is still in
    progress. -/
theorem Pending.cons {s₀ : State} (hp : Pending op s₀ h)
    (hb : ∀ thread q, event ≠ .begins op thread q)
    (he : ∀ thread q result, event ≠ .ends op thread q result) :
    Pending op s₀ (⟨event, s⟩ :: h) where
  begun := by
    have begun := hp.begun
    rw [begun_cons]
    omega
  start := by
    have start := hp.start
    cases event with
    | begins op' thread q =>
      have other : op' ≠ op := by
        rintro rfl
        exact hb thread q rfl
      exact (if_neg other).trans start
    | _ => exact start
  unended := by
    have unended := hp.unended
    cases event with
    | ends op' thread q result =>
      have other : op' ≠ op := by
        rintro rfl
        exact he thread q result rfl
      exact (if_neg other).trans unended
    | _ => exact unended

theorem Pending.begins {q : Request} (numbered : ∀ m ∈ h, m.event.op < h.begun) :
    Pending h.begun s (⟨.begins h.begun thread q, s⟩ :: h) where
  begun := by
    rw [begun_cons]
    exact Nat.lt_succ_self _
  start := if_pos rfl
  unended := by
    show ending? h.begun h = none
    exact ending?_eq_none fun m hm => Nat.ne_of_lt (numbered m hm)

/-- Operations that began later do not end it. -/
theorem Pending.later {s₀ : State} (hp : Pending op s₀ h) (hs : Since (op + 1) h h') :
    Pending op s₀ h' := by
  obtain ⟨later, rfl, younger⟩ := hs
  induction later with
  | nil => exact hp
  | cons m later ih =>
    obtain ⟨hm, hl⟩ := List.forall_mem_cons.mp younger
    have other : m.event.op ≠ op := by omega
    refine (ih hl).cons ?_ ?_
    · intro thread q heq
      exact other (by rw [heq]; rfl)
    · intro thread q result heq
      exact other (by rw [heq]; rfl)

end History

/-! ### How the gap changes -/

/-- One failure of category `c`, if `b`. -/
def once (c : Log.Category) (b : Bool) : Log.Category → UInt64 :=
  if b then Pi.single c 1 else 0

/-- What is counted of an operation when it has ended, and never reported as
    such. -/
def Ending.due (x : Ending) : Log.Category → UInt64 :=
  once .attachFailure x.registerRefused + once .staleHandle x.dispatchRefused

@[simp] theorem once_true (c : Log.Category) : once c true = Pi.single c 1 := rfl

@[simp] theorem once_false (c : Log.Category) : once c false = 0 := rfl

theorem gap_cons (hb : event.isBegin = false)
    (he : ∀ op thread q result, event ≠ .ends op thread q result) :
    gap s (⟨event, s'⟩ :: h) =
      gap s h + once .queryFailure event.isBlank -
        fun c => .ofNat (event.tells s'.logger c) := by
  have ended : endings (⟨event, s'⟩ :: h) = h.endings := endings_cons hb he
  have owes : owed s (⟨event, s'⟩ :: h) =
      owed s h + once .queryFailure event.isBlank := by
    funext c
    by_cases hq : event.isBlank = true <;> cases c <;>
      simp [owed, ended, hq, once, UInt64.ofNat_add]
  have learns : logged s (⟨event, s'⟩ :: h) =
      logged s h + fun c => .ofNat (event.tells s'.logger c) := by
    funext c
    simp only [logged, reported, UInt64.ofNat_add, Pi.add_apply]
    grind
  rw [gap, owes, learns, gap]
  grind

/-- Of all calls only a line of the log changes the gap. -/
theorem gap_calls : gap s (⟨.calls op thread c, s'⟩ :: h) =
    gap s h - fun d => .ofNat (Event.tells s'.logger d (.calls op thread c)) := by
  have known : Event.isBlank (.calls op thread c) = false := rfl
  rw [gap_cons rfl (fun _ _ _ _ heq => by cases heq), known, once_false, add_zero]

/-- Of all replies only one to a query does. -/
theorem gap_replies {r : c.Reply} {lost : Option HostObject} :
    gap s (⟨.replies op thread c r lost, s'⟩ :: h) =
      gap s h + once .queryFailure (c.blank r) := by
  have untold : (fun d => UInt64.ofNat (Event.tells s'.logger d (.replies op thread c r lost))) =
      0 := rfl
  have asked : Event.isBlank (.replies op thread c r lost) = c.blank r := rfl
  rw [gap_cons rfl (fun _ _ _ _ heq => by cases heq), untold, asked, sub_zero]

theorem gap_begins {q : Request} (numbered : ∀ m ∈ h, m.event.op < h.begun) :
    gap s (⟨.begins h.begun thread q, s'⟩ :: h) = gap s h := by
  have owes : owed s (⟨.begins h.begun thread q, s'⟩ :: h) = owed s h := by
    funext c
    cases c <;> simp only [owed, countP_endings_begins numbered]
    rfl
  rw [gap, owes]
  rfl

theorem gap_ends {s₀ : State} {q : Request} {result : q.Result} (hp : Pending op s₀ h) :
    gap s (⟨.ends op thread q result, s⟩ :: h) =
      gap s h - (Ending.now op thread q result s₀ s h).due := by
  have owes : owed s (⟨.ends op thread q result, s⟩ :: h) =
      owed s h - (Ending.now op thread q result s₀ s h).due := by
    funext c
    by_cases hr : (Ending.now op thread q result s₀ s h).registerRefused = true <;>
      by_cases hd : (Ending.now op thread q result s₀ s h).dispatchRefused = true <;>
      cases c <;>
      simp [owed, countP_endings_ends hp, Ending.due, once, hr, hd, UInt64.ofNat_add,
        Event.isBlank] <;>
      grind
  rw [gap, owes, gap]
  have same : logged s (⟨.ends op thread q result, s⟩ :: h) = logged s h := rfl
  rw [same]
  grind

/-- An operation stays in progress until it ends. -/
theorem Nests.pending {α : Type} {ν : Nesting} {post : α → State → History → Prop}
    {p : Progress α} {s₀ : State} (hp : Nests ν op thread post p h) (hs : Pending op s₀ h) :
    Nests ν op thread (fun a s h' => post a s h' ∧ Pending op s₀ h') p h := by
  induction p generalizing h with
  | finished a s => exact ⟨hp, hs⟩
  | calling call s resume ih =>
    obtain ⟨hlaw, hholds, hr⟩ := hp
    refine ⟨hlaw, hholds, fun r s' h' lost ho hc => ?_⟩
    refine (hr r s' h' lost ho hc).imp_right fun rest => ih r s' rest ?_
    have waits : Pending op s₀ (⟨.calls op thread call, s⟩ :: h) :=
      hs.cons (fun _ _ heq => by cases heq) fun _ _ _ heq => by cases heq
    -- what is nested in the call has later numbers
    exact (waits.later ho.since).cons (fun _ _ heq => by cases heq) fun _ _ _ heq => by cases heq

end Run

namespace Log.Limiter

variable {l l' : Limiter} {now : UInt64} {c : Category}

/-- A line that is held back is counted. -/
theorem offer_held (h : l.offer now c = (none, l')) :
    (fun d => (l.slot d).suppressed - (l'.slot d).suppressed) = -Pi.single c 1 := by
  funext d
  simp only [offer] at h
  split at h <;> cases h
  by_cases hd : d = c
  · subst hd
    simp
  · simp [hd]

/-- A line that is admitted tells of those that were held back. -/
theorem offer_admitted {n : UInt64} (h : l.offer now c = (some n, l')) :
    (fun d => (l.slot d).suppressed - (l'.slot d).suppressed) = Pi.single c n := by
  funext d
  simp only [offer] at h
  split at h <;> cases h
  by_cases hd : d = c
  · subst hd
    simp
  · simp [hd]

end Log.Limiter

namespace Log.Logger

variable {l : Logger} {c : Category} {text : String} {k : UInt64}

/-- A line about a failure of category `c` tells of no other category. -/
theorem ofNat_tells_limited (ht : Clear text) :
    (fun d => UInt64.ofNat (l.tells d (l.limited c text k))) = Pi.single c 1 + Pi.single c k := by
  funext d
  by_cases hd : d = c
  · subst hd
    simp [tells_limited ht, UInt64.ofNat_add]
  · simp [tells_limited ht, hd]

end Log.Logger

namespace Run

variable {e : Engine} {op : Nat} {thread : Thread} {s s' : State} {h h' : History} {c : Call}
  {event : Event}

/-! ### Reporting -/

/-- Operations leave the gap as it was.  A sink is installed at every moment. -/
def reporting (e : Engine) : Nesting where
  holds s h := Serves e s ∧ ∀ m : Moment, m.state.limiter = s.limiter → m.Heard h
  spans s h s' h' := gap s' h' = gap s h
  conduct m _ := m.state.logger.sink.isSome = true ∧ ∀ op thread q,
    m.event = .begins op thread q → (q.isCoreOrClose || q.isBridge || q.setsSink) = true
  law := Moment.Heard
  spans_refl _ _ := rfl
  spans_trans hs hs' := hs'.trans hs

/-- Operation `op` has come to a point where the gap is `g`, and where `R` holds of
    how the host has answered its attachments. -/
structure Owes (e : Engine) (g : Log.Category → UInt64) (R : List Int32 → Prop) (op : Nat)
    (s : State) (h : History) : Prop where
  serves : Serves e s
  sink : s.logger.sink.isSome = true
  /-- Nothing that the limiter has admitted is still to be heard. -/
  heard : ∀ m : Moment, m.state.limiter = s.limiter → m.Heard h
  gap_eq : gap s h = g
  answers : R (h.statuses op)

theorem gap_limiter (limiter : Log.Limiter) :
    gap { s with limiter } h = gap s h + fun c =>
      (s.limiter.slot c).suppressed - (limiter.slot c).suppressed := by
  have same : owed { s with limiter } h = owed s h := by
    funext c
    cases c <;> rfl
  funext c
  simp only [gap, same, logged, Pi.sub_apply, Pi.add_apply]
  grind

/-- The limiter is asked only after the clock was read. -/
theorem Moment.heard_cons (m : Moment) (hl : m.state.limiter = s.limiter)
    (hc : ∀ op thread now lost, event ≠ .replies op thread (.system .clock) now lost) :
    m.Heard (⟨event, s⟩ :: h) := by
  unfold Moment.Heard
  split
  · trivial
  · next heq =>
    obtain ⟨⟨⟩, -⟩ := List.cons.inj heq
    exact (hc _ _ _ _ rfl).elim
  · next heq =>
    obtain ⟨rfl, -⟩ := List.cons.inj heq
    exact hl

theorem statuses_of_ne {m : Moment} (hm : m.event.op ≠ op) :
    statuses op (m :: h) = statuses op h := by
  obtain ⟨event, s⟩ := m
  cases event with
  | replies => exact if_neg hm
  | _ => rfl

namespace Owes

variable {g : Log.Category → UInt64} {R R' : List Int32 → Prop} {α : Type}

theorem mono (ho : Owes e g R op s h) (hR : ∀ l, R l → R' l) : Owes e g R' op s h :=
  { ho with answers := hR _ ho.answers }

/-- A change that has nothing to do with it. -/
theorem change (ho : Owes e g R op s h) (hs : Steady s s') (hl : s'.logger = s.logger)
    (hm : s'.limiter = s.limiter) : Owes e g R op s' h where
  serves := Serves.lasts _ _ hs.sound hs.engine_eq ho.serves
  sink := by
    rw [hl]
    exact ho.sink
  heard m hx := ho.heard m (hx.trans hm)
  gap_eq := (gap_change hs.counters hm).trans ho.gap_eq
  answers := ho.answers

/-- What is counted is owed. -/
theorem bump (ho : Owes e g R op s h) (k : Counter) :
    Owes e (g + k.due) R op { s with counters := s.counters.bump k } h :=
  { ho with gap_eq := by rw [gap_bump, ho.gap_eq] }

/-- Foreign code is called.  What is nested in the call leaves the gap as it is. -/
theorem call (ho : Owes e g R op s h) (hl : ∀ line, c ≠ .log line) (hc : c ≠ .system .clock) :
    Nests (reporting e) op thread (fun r s' h' =>
      Owes e (g + once .queryFailure (c.blank r))
        (fun l => ∃ l', R l' ∧ l = l' ++ (c.status? r).toList) op s' h' ∧
      (c.mayReenter = false → s' = s)) (Operation.call c thread s) h := by
  have called : gap s (⟨.calls op thread c, s⟩ :: h) = gap s h := by
    have untold : (fun d => UInt64.ofNat (Event.tells s.logger d (.calls op thread c))) = 0 := by
      funext d
      cases c with
      | log line => exact (hl line rfl).elim
      | _ => rfl
    rw [gap_calls, untold, sub_zero]
  have waits : ∀ m : Moment, m.state.limiter = s.limiter →
      m.Heard (⟨.calls op thread c, s⟩ :: h) := fun m hm => m.heard_cons hm nofun
  refine ⟨ho.heard _ rfl, fun _ => ⟨ho.serves, waits⟩, fun r s' h' lost hopen conduct => ?_⟩
  -- the log and the system leave things as they are, and others keep to the nesting
  obtain ⟨serves, heard⟩ : Serves e s' ∧ ∀ m : Moment, m.state.limiter = s'.limiter →
      m.Heard h' := by
    cases hq : c.mayReenter with
    | true => exact hopen.holds hq
    | false =>
      obtain ⟨rfl, rfl⟩ := hopen.quiet hq
      exact ⟨ho.serves, waits⟩
  have same : statuses op h' = statuses op h :=
    hopen.since.unchanged fun _ _ => statuses_of_ne
  refine ⟨heard _ rfl, ⟨serves, conduct.1, fun m hm => m.heard_cons hm ?_, ?_, ?_⟩,
    fun hq => (hopen.quiet hq).1⟩
  · intro op' thread' now lost' heq
    cases heq
    exact hc rfl
  · have spans : gap s' h' = gap s h := hopen.spans.trans called
    rw [gap_replies, spans, ho.gap_eq]
  · refine ⟨statuses op h, ho.answers, ?_⟩
    show (if op = op then statuses op h' ++ (c.status? r).toList else _) = _
    rw [if_pos rfl, same]

/-- A line is handed to the sink, which has to hear it. -/
theorem line {line : Log.Line} (serves : Serves e s) (sink : s.logger.sink.isSome = true)
    (heard : Moment.Heard ⟨.calls op thread (.log line), s⟩ h) (hR : R (h.statuses op)) :
    Nests (reporting e) op thread (fun _ s' h' => s' = s ∧
      Owes e (gap s h - fun c => .ofNat (s.logger.tells c line)) R op s' h')
      (Operation.call (.log line) thread s) h := by
  refine ⟨heard, (fun hr => by cases hr), fun r s' h' lost hopen _ => ?_⟩
  -- the sink starts nothing
  obtain ⟨rfl, rfl⟩ := hopen.quiet rfl
  refine ⟨rfl, rfl, serves, sink, fun m hm => m.heard_cons hm nofun, ?_, ?_⟩
  · rw [gap_replies, gap_calls]
    simp [Call.blank, Event.tells]
  · show R (if op = op then h.statuses op ++ [] else _)
    rwa [if_pos rfl, List.append_nil]

/-- Lines below the level of an error tell of no failure. -/
theorem emit {level : Log.Level} {b : Log.Breadcrumbs} {message : String}
    (ho : Owes e g R op s h) (hl : level ≠ .error) :
    Nests (reporting e) op thread (fun _ s' h' => s' = s ∧ Owes e g R op s' h')
      (Log.emit level b message thread s) h := by
  simp only [Log.emit, Operation.bind_apply, Operation.state_apply, Progress.bind]
  cases heq : s.logger.line? level b message with
  | none => exact ⟨rfl, ho⟩
  | some line =>
    have below : line.level ≠ .error := by
      rw [Log.Logger.level_of_line? heq]
      exact hl
    refine (Owes.line ho.serves ho.sink (ho.heard _ rfl) ho.answers).mono ?_
    intro _ s' h' hx
    simp only [Log.Logger.tells_of_level below] at hx
    obtain ⟨same, hx⟩ := hx
    exact ⟨same, { hx with gap_eq := by rw [hx.gap_eq, ho.gap_eq]; exact sub_zero g }⟩

theorem breadcrumb {area : Log.Area} {message : String} (ho : Owes e g R op s h) :
    Nests (reporting e) op thread (fun _ s' h' => s' = s ∧ Owes e g R op s' h')
      (Log.breadcrumb area message thread s) h := by
  unfold Log.breadcrumb Log.detail
  split
  · exact ⟨rfl, ho⟩
  · exact ho.emit (by decide)

/-- A line that was admitted right after the clock was read is heard next. -/
theorem admitted {d : Log.Category} {text : String} {now n : UInt64} {limiter : Log.Limiter}
    {lost : Option HostObject} (ht : Log.Clear text)
    (ha : s.limiter.offer now d = (some n, limiter)) (serves : Serves e s)
    (sink : s.logger.sink.isSome = true)
    (hg : gap s (⟨.replies op thread (.system .clock) now lost, s⟩ :: h) = g)
    (hR : R (statuses op (⟨.replies op thread (.system .clock) now lost, s⟩ :: h))) :
    Nests (reporting e) op thread (fun _ s' h' =>
      s' = { s with limiter } ∧ Owes e (g - Pi.single d 1) R op s' h')
      (Log.error (d.message text n) thread { s with limiter })
      (⟨.replies op thread (.system .clock) now lost, s⟩ :: h) := by
  have line : s.logger.line? .error .plain (d.message text n) =
      some (s.logger.limited d text n) := Log.Logger.line?_limited sink ht
  have heard : Moment.Heard ⟨.calls op thread (.log (s.logger.limited d text n)),
      { s with limiter }⟩ (⟨.replies op thread (.system .clock) now lost, s⟩ :: h) := by
    refine ⟨d, text, by rw [ha], fun k hk => ?_⟩
    rw [ha] at hk
    cases hk
    rfl
  -- the line tells of this failure and of those that were held back
  have settled : gap { s with limiter } (⟨.replies op thread (.system .clock) now lost, s⟩ :: h) -
      (fun c => UInt64.ofNat (s.logger.tells c (s.logger.limited d text n))) =
      g - Pi.single d 1 := by
    rw [gap_limiter, hg, Log.Limiter.offer_admitted ha, Log.Logger.ofNat_tells_limited ht]
    grind
  simp only [Log.error, Log.emit, Operation.bind_apply, Operation.state_apply, Progress.bind, line]
  have serves' : Serves e { s with limiter } := serves
  refine (Owes.line serves' sink heard hR).mono fun _ s₁ h₁ hx => ?_
  obtain ⟨rfl, hx⟩ := hx
  exact ⟨rfl, settled ▸ hx⟩

/-- A line about a failure is offered: it is heard, or it is held back. -/
theorem limitedError {d : Log.Category} {text : String} (ht : Log.Clear text)
    (ho : Owes e g R op s h) :
    Nests (reporting e) op thread (fun _ s' h' =>
      s'.registry = s.registry ∧ Owes e (g - Pi.single d 1) R op s' h')
      (Log.limitedError d text thread s) h := by
  refine ⟨ho.heard _ rfl, (fun hr => by cases hr), fun now s' h' lost hopen _ => ?_⟩
  -- nothing is nested in the call of the clock
  obtain ⟨rfl, rfl⟩ := hopen.quiet rfl
  refine ⟨rfl, ?_⟩
  let k : History := ⟨.replies op thread (.system .clock) now lost, s'⟩ ::
    ⟨.calls op thread (.system .clock), s'⟩ :: h
  have gap_k : gap s' k = g := by
    rw [gap_replies, gap_calls, ← ho.gap_eq]
    simp [Call.blank, Event.tells]
    rfl
  have answers : R (statuses op k) := by
    show R (if op = op then h.statuses op ++ [] else _)
    rw [if_pos rfl, List.append_nil]
    exact ho.answers
  simp only [Progress.bind, Operation.bind_apply, Operation.modifyGet_apply]
  rcases hoffer : s'.limiter.offer now d with ⟨_ | n, limiter⟩
  · have held : gap { s' with limiter } k = g - Pi.single d 1 := by
      rw [gap_limiter, gap_k, Log.Limiter.offer_held hoffer]
      grind
    refine ⟨rfl, ho.serves, ho.sink, fun m hm => ⟨d, text, ?_, fun n hn => ?_⟩, held, answers⟩
    · rw [hoffer]
      exact hm
    · rw [hoffer] at hn
      cases hn
  · refine Nests.bind ((admitted ht hoffer ho.serves ho.sink gap_k answers).mono ?_)
    intro _ s₁ h₁ hx
    obtain ⟨rfl, hx⟩ := hx
    exact ⟨rfl, hx⟩

end Owes

end Run

end CallbackBridge
