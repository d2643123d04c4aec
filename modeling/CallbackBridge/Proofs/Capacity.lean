import CallbackBridge.Proofs.Run.Registering
import CallbackBridge.Proofs.Ledger.Runs

/-! # Size, capacity and counts

    The size of the table is what was registered less what was released, and it
    stays within the capacity.  This holds at every moment, since a handle and
    its count change together, between two calls.

    Key ideas:

    1. Only entering the table and being struck off it change its size.
    2. Room is looked for a second time after the pin.  Whatever was nested in
       the pin, the table has room when the handle enters.
    3. A registration that finds no room found none as it began, or as the pin
       was over. -/

namespace CallbackBridge

/-! ### The size of the table -/

namespace Registry

variable {r r' : Registry} {id : HandleId} {e : Registration}

theorem size_eq (r : Registry) : r.size = r.entries.countP (·.listed) :=
  (List.countP_eq_length_filter ..).symm

theorem size_update {f : Registration → Registration} (hf : ∀ e, (f e).listed = e.listed) :
    (r.update id f).size = r.size := by
  rw [size_eq, size_eq, update, List.countP_map]
  apply List.countP_congr
  intro e _
  simp only [Function.comp_apply]
  split
  · rw [hf]
  · rfl

theorem size_returnLoan {last : Option HostObject} (hr : r.Sound)
    (h : r.returnLoan id = (last, r')) : r'.size = r.size := by
  cases last with
  | none =>
    rcases returnLoan_none h with ⟨-, rfl⟩ | ⟨-, -, -, rfl⟩
    · rfl
    · exact size_update fun _ => rfl
  | some o =>
    -- what leaves was not listed
    obtain ⟨e, hf, hl, -, -, rfl⟩ := returnLoan_some h
    obtain ⟨he, rfl⟩ := mem_of_find? hf
    obtain ⟨front, back, heq, others⟩ := hr.distinct.split he
    rw [size_eq, size_eq, filter_entries heq others, heq]
    simp [hl]

theorem size_delist (hr : r.Sound) (hf : r.listed? id = some e) :
    r.size = (r.delist id).size + 1 := by
  obtain ⟨he, rfl, hl⟩ := mem_of_listed? hf
  obtain ⟨front, back, heq, others⟩ := hr.distinct.split he
  rw [size_eq, size_eq, delist, entries_update heq others, heq]
  simp [hl]
  omega

theorem size_enlist {o : HostObject} {k : HandleKind} (h : r.enlist o k = (.ok id, r')) :
    r'.size = r.size + 1 := by
  obtain ⟨-, -, -, rfl⟩ := enlist_ok h
  rw [size_eq, size_eq]
  exact List.countP_cons_of_pos rfl

theorem atCapacity_iff : r.atCapacity = true ↔ r.capacity ≠ 0 ∧ r.capacity.toNat ≤ r.size := by
  simp [atCapacity]

theorem lt_of_not_atCapacity (h : r.atCapacity = false) (hc : r.capacity ≠ 0) :
    r.size < r.capacity.toNat := by
  by_contra hle
  rw [Nat.not_lt] at hle
  rw [atCapacity_iff.mpr ⟨hc, hle⟩] at h
  cases h

end Registry

/-! ### Counted tables -/

/-- What was counted agrees with the table, and the table is not too large. -/
structure State.TableCounted (capacity : UInt64) (s : State) : Prop where
  /-- What is listed was registered and has not been released; counters wrap. -/
  counted : s.counters.handlesRegistered =
    s.counters.handlesReleased + UInt64.ofNat s.registry.size
  /-- The capacity stays what it was. -/
  capacity_eq : s.registry.capacity = capacity
  /-- A capacity of zero is none. -/
  within : capacity ≠ 0 → s.registry.size ≤ capacity.toNat

/-- The table of a sound registry is counted. -/
structure State.Tallied (capacity : UInt64) (s : State) : Prop
    extends State.TableCounted capacity s where
  sound : s.registry.Sound

namespace State.Tallied

variable {capacity : UInt64} {s s' : State}

theorem of_empty (h : s.registry.entries = [])
    (hc : s.counters.handlesRegistered = s.counters.handlesReleased) :
    s.Tallied s.registry.capacity where
  counted := by simp [Registry.size_eq, h, hc]
  capacity_eq := rfl
  within _ := by simp [Registry.size_eq, h]
  sound := .of_entries_nil h

/-- The tally only looks at the table and at its two counters. -/
theorem congr (h : s.Tallied capacity) (hr : s.registry.Sound → s'.registry.Sound)
    (hn : s'.registry.size = s.registry.size) (hc : s'.registry.capacity = s.registry.capacity)
    (hreg : s'.counters.handlesRegistered = s.counters.handlesRegistered)
    (hrel : s'.counters.handlesReleased = s.counters.handlesReleased) : s'.Tallied capacity where
  counted := by rw [hreg, hrel, hn, h.counted]
  capacity_eq := hc.trans h.capacity_eq
  within hz := hn ▸ h.within hz
  sound := hr h.sound

theorem touch (h : s.Tallied capacity) (ht : Touch s s') : s'.Tallied capacity := by
  cases ht with
  | none => exact h
  | @bump k hk =>
    -- idle counters are other counters
    cases k with
    | handlesRegistered | handlesReleased | duplicateReleases => cases hk
    | _ => exact h.congr id rfl rfl rfl rfl
  | limit => exact h.congr id rfl rfl rfl rfl
  | lend id => exact h.congr (·.lend) (Registry.size_update fun _ => rfl) rfl rfl rfl
  | claim id => exact h.congr (·.markDelivered) (Registry.size_update fun _ => rfl) rfl rfl rfl
  | giveBack id =>
    have given : s.registry.returnLoan id = (_, (s.registry.returnLoan id).2) := rfl
    exact h.congr (·.returnLoan given) (Registry.size_returnLoan h.sound given)
      (Registry.Rises.returnLoan given).capacity rfl rfl

/-- A handle only enters where there is room for it. -/
theorem entering (h : s.Tallied capacity) (o : HostObject) (k : HandleKind) :
    (Registry.entering o k s).2.Tallied capacity := by
  unfold Registry.entering
  rcases he : s.registry.enlist o k with ⟨err | id, r⟩
  · exact h
  · obtain ⟨room, -, -, -⟩ := Registry.enlist_ok he
    have grown : r.size = s.registry.size + 1 := Registry.size_enlist he
    refine ⟨⟨?_, (Registry.Rises.enlist he).capacity.trans h.capacity_eq, fun hz => ?_⟩,
      h.sound.enlist he⟩
    · show s.counters.handlesRegistered + 1 = s.counters.handlesReleased + UInt64.ofNat r.size
      rw [grown, UInt64.ofNat_add, ← UInt64.add_assoc, ← h.counted]
      rfl
    · have hlt := Registry.lt_of_not_atCapacity room (h.capacity_eq ▸ hz)
      rw [h.capacity_eq] at hlt
      show r.size ≤ capacity.toNat
      omega

theorem striking (h : s.Tallied capacity) (id : HandleId) :
    (Registry.striking id s).2.Tallied capacity := by
  unfold Registry.striking
  cases hf : s.registry.listed? id with
  | none => exact h
  | some e =>
    have shrunk : s.registry.size = (s.registry.delist id).size + 1 :=
      Registry.size_delist h.sound hf
    refine ⟨⟨?_, h.capacity_eq, fun hz => ?_⟩, h.sound.delist⟩
    · show s.counters.handlesRegistered =
        s.counters.handlesReleased + 1 + UInt64.ofNat (s.registry.delist id).size
      rw [h.counted, shrunk, UInt64.ofNat_add, UInt64.add_assoc,
        UInt64.add_comm (UInt64.ofNat (s.registry.delist id).size)]
      rfl
    · have hle := h.within hz
      show (s.registry.delist id).size ≤ capacity.toNat
      omega

end State.Tallied

namespace Run

open History

/-- The table is counted at every moment. -/
def tallied (capacity : UInt64) : Nesting where
  holds s _ := s.Tallied capacity
  spans _ _ _ _ := True
  conduct m _ := ∀ op thread q, m.event = .begins op thread q → q.isCore = true
  law m _ := m.state.Tallied capacity
  spans_refl _ _ := trivial
  spans_trans _ _ := trivial

/-- Whatever part of an operation runs, the table stays counted. -/
theorem tallied_parts (capacity : UInt64) :
    TableParts (fun m => (tallied capacity).Carries (fun _ _ s _ => s.Tallied capacity) m) := by
  have basics : Basics (fun m => (tallied capacity).Carries (fun _ _ s _ => s.Tallied capacity) m) :=
    Nesting.Carries.basics fun _ _ _ _ _ _ h => ⟨h, fun _ _ => ⟨h, h⟩⟩
  have parts : Parts (fun m => (tallied capacity).Carries (fun _ _ s _ => s.Tallied capacity) m) := by
    refine basics.parts ?_ fun hf => .modifyGet fun _ _ s _ h => h.touch (hf s)
    intro c op thread s h hs
    exact ⟨hs, fun _ => hs, fun r s' h' lost ho _ => ⟨ho.holds rfl, ho.holds rfl⟩⟩
  exact {
    toParts := parts
    enter := .modifyGet fun _ _ s _ h => h.entering _ _
    strike := .modifyGet fun _ _ s _ h => h.striking _
    miss := fun _ _ _ _ h => h.congr id rfl rfl rfl rfl }

theorem tallied_kept (capacity : UInt64) (q : Request) : (tallied capacity).Kept q := by
  intro thread s h _ hs hq
  refine ⟨hs, ?_⟩
  have carried := (tallied_parts capacity).core (hq _ _ _ rfl)
  exact (carried h.begun thread s _ hs).mono fun _ _ _ h => ⟨h, h, trivial⟩

end Run

/-! ### Runs -/

namespace Run

open History

/-- Operation `op` was asked to register `object` and found `n` handles or more
    at one of the two times it looked: as it began, or as its pin was over. -/
def History.FoundFull (h : History) (op : Nat) (object : HostObject) (kind : HandleKind)
    (n : UInt64) : Prop :=
  ∃ thread s₀, ⟨.begins op thread (.registry (.register object kind)), s₀⟩ ∈ h ∧
    (n.toNat ≤ s₀.registry.size ∨
      ∃ pinned s₁ later told, exchanges op h = later ++ told ∧
        Visited s₀.registry.policy (.host (.pin object)) (some pinned) s₁ told ∧
        n.toNat ≤ s₁.registry.size)

variable {s : State} {c : Situation} {thread : Thread} {o : HostObject}

/-- A registration that fails for want of room found the table full. -/
theorem Reaches.foundFull (reaches : Reaches (.initial s) c) {capacity : UInt64}
    (counted : ∀ m ∈ c.history, m.state.TableCounted capacity) {op : Nat} {kind : HandleKind}
    {n : UInt64} {s' : State}
    (he : ⟨.ends op thread (.registry (.register o kind)) (.error (.capacityExceeded n)), s'⟩ ∈
      c.history) : n = capacity ∧ capacity ≠ 0 ∧ c.history.FoundFull op o kind n := by
  obtain ⟨later, before, heq⟩ := List.append_of_mem he
  have ha := reaches.accounted
  obtain ⟨-, s₀, began, -⟩ := (heq ▸ ha).split
  have hb : ⟨.begins op thread (.registry (.register o kind)), s₀⟩ ∈ c.history := by
    simp [heq, began]
  obtain ⟨-, found⟩ := ends_of_follows ha hb register_follows heq
  rcases found with ⟨rfl, full⟩ | ⟨pinned, s₁, rest, told, htold, visited, rfl, full⟩
  · obtain ⟨limited, hle⟩ := Registry.atCapacity_iff.mp full
    have same := (counted _ hb).capacity_eq
    exact ⟨same, same ▸ limited, thread, s₀, hb, .inl hle⟩
  · -- what the operation was told before it ended, it was told
    obtain ⟨front, hfront⟩ := exchanges_suffix (suffix_of_split heq) op
    have hall : exchanges op c.history = (front ++ rest) ++ told := by
      rw [← hfront, htold, List.append_assoc]
    obtain ⟨x, hx, rfl⟩ := visited.exists_last
    obtain ⟨_, _, hm⟩ := replies_of_mem_exchanges (hall ▸ List.mem_append_right _ hx)
    obtain ⟨limited, hle⟩ := Registry.atCapacity_iff.mp full
    have same : x.state.registry.capacity = capacity := (counted _ hm).capacity_eq
    exact ⟨same, same ▸ limited, thread, s₀, hb,
      .inr ⟨pinned, x.state, front ++ rest, told, hall, visited, hle⟩⟩

/-- Before teardown, what was counted agrees with the table at every moment, the
    capacity is kept, and a registration fails for want of room only where there
    was none. -/
theorem table_counted (reaches : Reaches (.initial s) c)
    (core : c.history.Only Request.isCore) (empty : s.registry.entries = [])
    (even : s.counters.handlesRegistered = s.counters.handlesReleased) :
    c.state.TableCounted s.registry.capacity ∧
    (∀ m ∈ c.history, m.state.TableCounted s.registry.capacity) ∧
    ∀ op thread object kind n s',
      ⟨.ends op thread (.registry (.register object kind)) (.error (.capacityExceeded n)), s'⟩ ∈
        c.history →
      n = s.registry.capacity ∧ n ≠ 0 ∧ c.history.FoundFull op object kind n := by
  have initially : s.Tallied s.registry.capacity := .of_empty empty even
  have stands := reaches.nested (tallied_kept s.registry.capacity) initially core
  have always : ∀ m ∈ c.history, m.state.TableCounted s.registry.capacity :=
    fun m hm => (always_iff.mp stands.always m hm).toTableCounted
  have now : c.state.TableCounted s.registry.capacity := by
    rcases reaches.last with rfl | ⟨m, hm, hstate⟩
    · exact initially.toTableCounted
    · exact hstate ▸ always m (List.mem_of_mem_head? hm)
  refine ⟨now, always, fun op thread object kind n s' he => ?_⟩
  obtain ⟨rfl, limited, full⟩ := reaches.foundFull always he
  exact ⟨rfl, limited, full⟩

/-- A process with room for one handle. -/
def roomForOne : State :=
  { State.initial 0 with registry := .new .detachOnExit 1 }

/-- A handle is registered from inside the pin of another, which finds no room
    then; after that the handle is released, and its object is being unpinned. -/
def registeredInside : Situation :=
  ((Situation.initial roomForOne).play?
    [.start ⟨"host"⟩ (.registry (.register Sample.object .tunnel)),
     .reply (.host .attach) (1 : Int32),
     .start ⟨"host"⟩ (.registry (.register Sample.object .listener)),
     .reply (.host .attach) (0 : Int32),
     .reply (.host (.pin Sample.object)) (some Sample.reference),
     .reply (.host (.pin Sample.object)) (some Sample.reference'),
     .reply (.host .detach) (),
     .reply (.host .attach) (1 : Int32),
     .reply (.host (.unpin Sample.reference')) (),
     .reply (.host .detach) (),
     .start ⟨"engine"⟩ (.registry (.releaseRaw ⟨1⟩)),
     .reply (.host .attach) (0 : Int32)]).get rfl

set_option maxRecDepth 4096 in
theorem table_counted_registeredInside :
    Reaches (.initial roomForOne) registeredInside ∧
    registeredInside.history.Only Request.isCore ∧
    registeredInside.state.counters.handlesReleased = 1 ∧
    registeredInside.state.TableCounted 1 ∧
    registeredInside.history.FoundFull 0 Sample.object .tunnel 1 := by
  have reaches : Reaches (.initial roomForOne) registeredInside := Situation.reaches_get_play? _
  have core : registeredInside.history.Only Request.isCore := by decide
  obtain ⟨now, -, full⟩ := table_counted reaches core rfl rfl
  have failed : ∃ s', (⟨.ends 0 ⟨"host"⟩ (.registry (.register Sample.object .tunnel))
      (.error (.capacityExceeded 1)), s'⟩ : Moment) ∈ registeredInside.history :=
    ⟨_, List.mem_of_getElem? (i := 4) rfl⟩
  obtain ⟨s', he⟩ := failed
  exact ⟨reaches, core, rfl, now, (full _ _ _ _ _ _ he).2.2⟩

end Run

end CallbackBridge
