import CallbackBridge.Proofs.Run.Entries
import CallbackBridge.Proofs.Run.Own

/-! # States without an engine

    The entry points of a process have the stand-in for their engine.  It
    answers each action at once and gives every handle back, so between two
    calls the table holds the listener and nothing else.

    Key ideas:

    1. The registrations that the listener slot does not hold are *loose*.
    2. Before the bridge is initialised nothing has happened: every entry point
       that does anything looks whether it is.
    3. A call changes its own registration and the counters, each in a few
       ways, and each of these keeps the state tidy. -/

namespace CallbackBridge

/-! ### What a state holds -/

namespace State

/-- Calls of host objects that were counted, whether they got through or not. -/
def handled (s : State) : UInt64 :=
  s.counters.get .callbacksDispatched + s.counters.get .callbacksDropped

/-- The registrations that the listener slot does not hold. -/
def loose (s : State) : List Registration :=
  s.registry.entries.filter fun e => s.listener.current ≠ some e.id

theorem mem_loose {s : State} {e : Registration} :
    e ∈ s.loose ↔ e ∈ s.registry.entries ∧ s.listener.current ≠ some e.id := by
  simp [loose]

theorem handled_bump {s : State} {k : Counter}
    (hk : k = .callbacksDispatched ∨ k = .callbacksDropped) :
    handled { s with counters := s.counters.bump k } = s.handled + 1 := by
  rcases hk with rfl | rfl
  · simp [handled]
    ac_rfl
  · simp [handled]
    ac_rfl

end State

/-- A counter that shows what the stand-in does. -/
def Counter.telling : Counter → Bool
  | .duplicateReleases | .staleLookups | .resultsRejected | .callbacksDispatched
  | .callbacksDropped => true
  | .handlesRegistered | .handlesReleased | .attachFailures | .helpersLaunched => false

/-- A counter that stays at zero. -/
def Counter.faultless : Counter → Bool
  | .duplicateReleases | .staleLookups | .resultsRejected => true
  | .handlesRegistered | .handlesReleased | .attachFailures | .helpersLaunched
  | .callbacksDispatched | .callbacksDropped => false

/-- A change that the table, the slot and the telling counters do not show. -/
structure Faint (s s' : State) : Prop where
  registry_eq : s'.registry = s.registry
  listener_eq : s'.listener = s.listener
  engine_eq : s'.engine = s.engine
  startup_eq : s'.startup = s.startup
  counters : ∀ k, k.telling = true → s'.counters.get k = s.counters.get k

namespace Faint

variable {s s' : State}

theorem of_bump {k : Counter} (hk : k.telling = false) :
    Faint s { s with counters := s.counters.bump k } :=
  ⟨rfl, rfl, rfl, rfl, fun l hl => Counters.get_bump_ne _ _ _ fun heq => by simp [← heq, hl] at hk⟩

theorem loose_eq (hf : Faint s s') : s'.loose = s.loose := by
  rw [State.loose, State.loose, hf.registry_eq, hf.listener_eq]

theorem handled_eq (hf : Faint s s') : s'.handled = s.handled := by
  rw [State.handled, State.handled, hf.counters _ rfl, hf.counters _ rfl]

theorem isReady_eq (hf : Faint s s') : Entry.isReady s' = Entry.isReady s := by
  rw [Entry.isReady, Entry.isReady, hf.startup_eq]

end Faint

/-- A state of a process whose engine is the stand-in. -/
structure Tidy (s : State) : Prop where
  engine_eq : s.engine = .absent
  sound : s.registry.Sound
  first : 1 ≤ s.registry.nextId
  known : ∀ e ∈ s.registry.entries, e.id.isNull = false
  /-- The slot holds a handle that is listed, and nobody else uses it. -/
  slot : ∀ id, s.listener.current = some id →
    ∃ e ∈ s.registry.entries, e.id = id ∧ e.listed = true ∧ e.loans = 0
  clean : ∀ k, k.faultless = true → s.counters.get k = 0
  /-- Nothing has happened before the bridge is initialised. -/
  idle : Entry.isReady s = false →
    s.registry.entries = [] ∧ s.listener = .empty ∧ s.handled = 0

namespace Tidy

variable {s s' : State}

theorem initial (processId : Nat) : Tidy (.initial processId) where
  engine_eq := rfl
  sound := .of_entries_nil rfl
  first := UInt64.le_refl _
  known := by simp [State.initial, Registry.new]
  slot := by simp [State.initial, ListenerSlot.empty]
  clean k _ := by cases k <;> rfl
  idle _ := ⟨rfl, rfl, rfl⟩

theorem faint (ht : Tidy s) (hf : Faint s s') : Tidy s' where
  engine_eq := hf.engine_eq.trans ht.engine_eq
  sound := hf.registry_eq ▸ ht.sound
  first := hf.registry_eq ▸ ht.first
  known := hf.registry_eq ▸ ht.known
  slot := by
    rw [hf.registry_eq, hf.listener_eq]
    exact ht.slot
  clean k hk := by
    have telling : k.telling = true := by cases k <;> first | rfl | cases hk
    rw [hf.counters k telling, ht.clean k hk]
  idle hi := by
    rw [hf.isReady_eq] at hi
    rw [hf.registry_eq, hf.listener_eq, hf.handled_eq]
    exact ht.idle hi

theorem ready_of_mem (ht : Tidy s) {e : Registration} (he : e ∈ s.registry.entries) :
    Entry.isReady s = true := by
  rw [← Bool.not_eq_false]
  intro unready
  rw [(ht.idle unready).1] at he
  cases he

/-- Once the bridge is initialised, things happen. -/
theorem of_ready (hr : Entry.isReady s = true) (engine_eq : s.engine = .absent)
    (sound : s.registry.Sound) (first : 1 ≤ s.registry.nextId)
    (known : ∀ e ∈ s.registry.entries, e.id.isNull = false)
    (slot : ∀ id, s.listener.current = some id →
      ∃ e ∈ s.registry.entries, e.id = id ∧ e.listed = true ∧ e.loans = 0)
    (clean : ∀ k, k.faultless = true → s.counters.get k = 0) : Tidy s :=
  ⟨engine_eq, sound, first, known, slot, clean, fun unready => by simp [hr] at unready⟩

theorem enter {pinned : HostObject} {kind : HandleKind} {id : HandleId} (ht : Tidy s)
    (hr : Entry.isReady s = true) (he : Registry.entering pinned kind s = (.ok id, s')) :
    Tidy s' := by
  obtain ⟨r, enlisted, rfl⟩ := Registry.entering_ok he
  have sound : r.Sound := ht.sound.enlist enlisted
  obtain ⟨-, below, rfl, rfl⟩ := Registry.enlist_ok enlisted
  refine .of_ready hr ht.engine_eq sound ?_ ?_ ?_ ?_
  · exact UInt64.le_trans ht.first (UInt64.le_of_lt (Registry.lt_next below))
  · intro e he
    rcases List.mem_cons.mp he with rfl | he
    · -- the first id that was issued is above the null handle
      show HandleId.isNull ⟨s.registry.nextId⟩ = false
      rw [Bool.eq_false_iff]
      intro hn
      have zero := congrArg HandleId.raw ((HandleId.isNull_iff _).mp hn)
      have first := ht.first
      rw [show s.registry.nextId = 0 from zero] at first
      exact absurd first (by decide)
    · exact ht.known e he
  · intro id hc
    obtain ⟨e, he, hx⟩ := ht.slot id hc
    exact ⟨e, List.mem_cons_of_mem _ he, hx⟩
  · intro k hk
    rw [Counters.get_bump_ne _ _ _ fun heq => by simp [heq, Counter.faultless] at hk]
    exact ht.clean k hk

theorem edit {f : Registration → Registration} {e : Registration} (ht : Tidy s)
    (hf : ∀ e, (f e).id = e.id) (sound : (s.registry.update e.id f).Sound) (he : e ∈ s.loose) :
    Tidy { s with registry := s.registry.update e.id f } := by
  obtain ⟨mem, unheld⟩ := State.mem_loose.mp he
  refine .of_ready (ht.ready_of_mem mem) ht.engine_eq sound ht.first ?_ ?_ ht.clean
  · intro e' he'
    obtain ⟨e₀, he₀, rfl⟩ := Registry.mem_update.mp he'
    have known := ht.known e₀ he₀
    by_cases hid : e₀.id = e.id <;> simpa [hid, hf] using known
  · -- the slot holds another one
    intro id hc
    obtain ⟨e', he', hid, hx⟩ := ht.slot id hc
    have other : e'.id ≠ e.id := fun heq => unheld (by rw [hc, ← heq, hid])
    exact ⟨e', Registry.mem_update.mpr ⟨e', he', if_neg other⟩, hid, hx⟩

theorem leave {e : Registration} (ht : Tidy s) (he : e ∈ s.loose) :
    Tidy { s with
      registry := { s.registry with entries := s.registry.entries.filter (·.id ≠ e.id) } } := by
  obtain ⟨mem, unheld⟩ := State.mem_loose.mp he
  refine .of_ready (ht.ready_of_mem mem) ht.engine_eq (ht.sound.filter _) ht.first ?_ ?_ ht.clean
  · exact fun e' he' => ht.known e' (List.mem_filter.mp he').1
  · intro id hc
    obtain ⟨e', he', hid, hx⟩ := ht.slot id hc
    have other : e'.id ≠ e.id := fun heq => unheld (by rw [hc, ← heq, hid])
    exact ⟨e', List.mem_filter.mpr ⟨he', by simpa using other⟩, hid, hx⟩

theorem handle {k : Counter} (ht : Tidy s) (hr : Entry.isReady s = true)
    (hk : k = .callbacksDispatched ∨ k = .callbacksDropped) :
    Tidy { s with counters := s.counters.bump k } := by
  refine .of_ready hr ht.engine_eq ht.sound ht.first ht.known ht.slot ?_
  intro l hl
  have other : l ≠ k := by
    rintro rfl
    rcases hk with rfl | rfl <;> cases hl
  rw [Counters.get_bump_ne _ _ _ other]
  exact ht.clean l hl

/-- Where nothing is loose, the table holds the handle in the slot, if there is
    one. -/
theorem table_of_loose (ht : Tidy s) (hl : s.loose = []) :
    s.registry.table.map (·.id) = s.listener.current.toList := by
  have held : ∀ e ∈ s.registry.entries, s.listener.current = some e.id := by
    intro e he
    by_contra hne
    have : e ∈ s.loose := State.mem_loose.mpr ⟨he, hne⟩
    simp [hl] at this
  cases hc : s.listener.current with
  | none =>
    -- no registration could be held by the slot
    have none : s.registry.entries = [] := by
      rw [List.eq_nil_iff_forall_not_mem]
      intro e he
      simpa [hc] using held e he
    simp [Registry.table, none]
  | some id =>
    obtain ⟨e, he, rfl, listed, -⟩ := ht.slot id hc
    -- all others would have the same id
    have only : s.registry.entries = [e] := by
      obtain ⟨front, back, heq, others⟩ := ht.sound.distinct.split he
      have none : front ++ back = [] := by
        rw [List.eq_nil_iff_forall_not_mem]
        intro e' he'
        have mem : e' ∈ s.registry.entries := by
          rw [heq]
          simp only [List.mem_append, List.mem_cons] at he' ⊢
          tauto
        have same := held e' mem
        rw [hc, Option.some.injEq] at same
        exact others e' he' same.symm
      rw [List.append_eq_nil_iff] at none
      simp [heq, none.1, none.2]
    simp [Registry.table, only, listed]

end Tidy

end CallbackBridge
