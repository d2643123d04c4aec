import CallbackBridge.Proofs.Ledger.Books

/-! # Ids in the books

    Key ideas:

    1. An id leaves the table in the moment in which its release, or the end of
       the registry, begins.  After that it stays out.
    2. Each id is issued once, to one registration that is then told its
       caller once. -/

namespace CallbackBridge.Run

open History

/-! ### Leaving the table -/

/-- At this moment an operation begins that takes `id` out of the table. -/
def Moment.Removes (m : Moment) (id : HandleId) : Prop :=
  ∃ op thread q, m.event = .begins op thread q ∧ (q.released? = some id ∨ q = .registry .close)

section

variable {h : History} {r r' : Registry} {q : Request} {id : HandleId}
  {spent gained : Multiset Token}

theorem Opening.contains_false (ho : Opening h r q r' gained)
    (hq : q.released? = some id ∨ q = .registry .close) : r'.contains id = false := by
  cases ho with
  | releases hq' _ =>
    rcases hq with hq | rfl
    · obtain rfl := Option.some.inj (hq'.symm.trans hq)
      simp [Registry.contains_delist]
    · cases hq'
  | claims hq' =>
    rcases hq with hq | rfl
    · rw [Request.delivered?_eq_none_of_released? hq] at hq'
      cases hq'
    · cases hq'
  | closes hc => exact Registry.contains_clear hc
  | returns =>
    rcases hq with hq | hq
    · cases hq
    · cases hq
  | rest hr _ _ hc =>
    -- a release that finds nothing
    exact hq.elim (hr id) fun hq => absurd hq hc

theorem Opening.contains_of (ho : Opening h r q r' gained) (hc : r.contains id = true) :
    r'.contains id = true ∨ q.released? = some id ∨ q = .registry .close := by
  cases ho with
  | @releases _ id' _ hq _ =>
    by_cases hid : id = id'
    · exact .inr (.inl (hid ▸ hq))
    · exact .inl (by simp [Registry.contains_delist, hc, hid])
  | claims => exact .inl (Registry.contains_markDelivered.trans hc)
  | closes => exact .inr (.inr rfl)
  | returns => exact .inl hc
  | rest => exact .inl hc

theorem Change.contains_of (hch : Change h r spent r' gained) (hr : r.Sound)
    (hc : r.contains id = true) : r'.contains id = true := by
  cases hch with
  | lend => exact Registry.contains_lend.trans hc
  | giveBack hb => exact (Registry.contains_returnLoan hb hr.distinct).trans hc
  | enlist _ _ he => simp [Registry.contains_enlist he, hc]
  | discard => exact hc

end

namespace Booked

variable {s₀ s : State} {h : History} {tokens : Multiset Token} {id : HandleId}

/-- What was taken out of the table stays out. -/
theorem contains_removed (hb : Booked s₀ s h tokens) {m : Moment} (hm : m ∈ h)
    (hr : m.Removes id) (hid : id.raw < m.state.registry.nextId) :
    s.registry.contains id = false := by
  induction hb with
  | opens _ => simp at hm
  | begins hb ho ih =>
    rcases List.mem_cons.mp hm with rfl | hm
    · obtain ⟨op, thread, q, heq, hq⟩ := hr
      cases heq
      exact ho.contains_false hq
    · -- an id that was settled does not come back
      exact ho.rises.contains_false (UInt64.lt_of_lt_of_le hid (hb.rises hm).next) (ih hm)
  | notes _ hn ih =>
    rcases List.mem_cons.mp hm with rfl | hm
    · obtain ⟨op, thread, q, rfl, -⟩ := hr
      cases hn with
      | rest hb => cases hb
    · exact ih hm
  | changes hb hc ih =>
    exact hc.rises.contains_false (UInt64.lt_of_lt_of_le hid (hb.rises hm).next) (ih hm)
  | counts _ ih | tallies _ _ ih | limits _ ih => exact ih hm

/-- What the table listed at the last moment it still lists, unless it was
    taken out. -/
theorem contains_of_last (hb : Booked s₀ s h tokens) {m : Moment} (hm : m ∈ h.head?)
    (hc : m.state.registry.contains id = true) :
    s.registry.contains id = true ∨ m.Removes id := by
  induction hb with
  | opens _ => simp at hm
  | begins _ ho ih =>
    obtain rfl : _ = m := by simpa using hm
    exact (ho.contains_of hc).imp_right fun hq => ⟨_, _, _, rfl, hq⟩
  | notes _ _ _ =>
    obtain rfl : _ = m := by simpa using hm
    exact .inl hc
  | changes hb hch ih => exact (ih hm).imp_left (hch.contains_of hb.sound)
  | counts _ ih | tallies _ _ ih | limits _ ih => exact ih hm

end Booked

/-! ### Issuing -/

/-- Operation `op`, a registration, was issued `id` since it began. -/
structure Issued (h : History) (r : Registry) (op : Nat) (id : HandleId) : Prop where
  begun : ∃ m ∈ h, ∃ thread object kind,
    m.event = .begins op thread (.registry (.register object kind)) ∧
    m.state.registry.nextId ≤ id.raw
  lt_next : id.raw < r.nextId
  lt_limit : id.raw < HandleId.limit

theorem Issued.later {h h' : History} {r r' : Registry} {op : Nat} {id : HandleId}
    (hi : Issued h r op id) (hh : h ⊆ h') (hr : r.Rises r') : Issued h' r' op id where
  begun := hi.begun.imp fun _ ⟨hm, hx⟩ => ⟨hh hm, hx⟩
  lt_next := UInt64.lt_of_lt_of_le hi.lt_next hr.next
  lt_limit := hi.lt_limit

/-- The id that a token stands for. -/
def Token.issued? : Token → Option HandleId
  | .issued _ id => some id
  | _ => none

namespace Booked

variable {s₀ s : State} {h : History} {tokens : Multiset Token} {id : HandleId} {op : Nat}

theorem issued (hb : Booked s₀ s h tokens) (hm : .issued op id ∈ tokens) :
    Issued h s.registry op id := by
  induction hb with
  | opens _ => simp at hm
  | begins _ ho ih =>
    rcases Multiset.mem_add.mp hm with hm | hm
    · exact (ih hm).later (List.subset_cons_self ..) ho.rises
    · cases ho <;> simp at hm
  | notes _ hn ih =>
    rcases Multiset.mem_add.mp hm with hm | hm
    · exact (ih (Multiset.mem_add.mpr (.inl hm))).later (List.subset_cons_self ..) (.refl _)
    · cases hn <;> simp at hm
  | changes hb hc ih =>
    rcases Multiset.mem_add.mp hm with hm | hm
    · exact (ih (Multiset.mem_add.mpr (.inl hm))).later (fun _ h => h) hc.rises
    · cases hc with
      | @giveBack _ _ last => cases last <;> simp [lastOf] at hm
      | @enlist m _ _ _ _ _ _ _ hmem hev he =>
        -- the id was next, so it had not been issued when the operation began
        obtain ⟨rfl, rfl⟩ : op = _ ∧ id = _ := by simpa using hm
        obtain ⟨-, hlt, rfl, rfl⟩ := Registry.enlist_ok he
        exact ⟨⟨m, hmem, _, _, _, hev, (hb.rises hmem).next⟩, Registry.lt_next hlt, hlt⟩
      | _ => simp at hm
  | counts _ ih => exact ih (Multiset.mem_add.mpr (.inl hm))
  | tallies _ _ ih => exact ih hm
  | limits _ ih => exact ih hm

/-- A caller is told an id that was issued since it asked. -/
theorem issued_of_ends (hb : Booked s₀ s h tokens) :
    h.Always fun m before => ∀ op thread object kind handle,
      m.event = .ends op thread (.registry (.register object kind)) (.ok handle) →
      Issued before m.state.registry op handle.id := by
  induction hb with
  | opens _ => trivial
  | begins _ _ ih => exact ⟨fun _ _ _ _ _ heq => (by cases heq), ih⟩
  | notes hb hn ih =>
    refine ⟨fun op thread object kind handle heq => ?_, ih⟩
    subst heq
    cases hn with
    | issues => exact hb.issued (by simp)
    | rest _ _ _ _ _ _ ho => cases ho
  | changes _ _ ih | counts _ ih | tallies _ _ ih | limits _ ih => exact ih

/-- What a caller was told was issued, and the operation that was asked had
    begun. -/
theorem issued_of_mem (hb : Booked s₀ s h tokens) {m : Moment} (hm : m ∈ h) {thread : Thread}
    {object : HostObject} {kind : HandleKind} {handle : Handle}
    (heq : m.event = .ends op thread (.registry (.register object kind)) (.ok handle)) :
    Issued h m.state.registry op handle.id := by
  obtain ⟨later, before, rfl⟩ := List.append_of_mem hm
  have told := hb.issued_of_ends.split op thread object kind handle heq
  exact told.later (fun x hx => by simp [hx]) (.refl _)

end Booked

/-! ### Each id once -/

/-- How often `id` was told to callers, or is about to be. -/
def timesTold (h : History) (tokens : Multiset Token) (id : HandleId) : Nat :=
  tokens.countP (·.issued? = some id) + ((owned h).map (·.id)).count id

section

variable {h : History} {s : State} {op : Nat} {thread : Thread} {q : Request} {e : Event}
  {r r' : Registry} {tokens spent gained : Multiset Token} {id : HandleId}

theorem countP_issued_eq_zero (ht : ∀ t ∈ tokens, t.issued? = none) :
    tokens.countP (·.issued? = some id) = 0 := by
  rw [Multiset.countP_eq_zero]
  intro t hm
  simp [ht t hm]

/-- What the token of an issued id adds. -/
theorem countP_issued {id' : HandleId} :
    Multiset.countP (Token.issued? · = some id) {Token.issued op id'} =
      if id = id' then 1 else 0 := by
  by_cases hid : id = id'
  · rw [if_pos hid, ← Multiset.cons_zero,
      Multiset.countP_cons_of_pos _ (by simp [Token.issued?, hid]), Multiset.countP_zero]
  · rw [if_neg hid]
    apply Multiset.countP_eq_zero.mpr
    intro t hm
    rw [Multiset.mem_singleton.mp hm]
    simp [Token.issued?, Ne.symm hid]

theorem Opening.timesTold_eq (ho : Opening h r q r' gained) :
    timesTold (⟨.begins op thread q, s⟩ :: h) (tokens + gained) id = timesTold h tokens id := by
  have none : gained.countP (·.issued? = some id) = 0 :=
    countP_issued_eq_zero fun t hm => by
      cases ho with
      | closes =>
        obtain ⟨o, -, rfl⟩ := List.mem_map.mp (Multiset.mem_coe.mp hm)
        rfl
      | claims | rest => cases Multiset.notMem_zero _ hm
      | releases | returns =>
        rw [Multiset.mem_singleton.mp hm]
        rfl
  have same : owned (⟨.begins op thread q, s⟩ :: h) = owned h := rfl
  rw [timesTold, timesTold, Multiset.countP_add, none, same, add_zero]

theorem Note.timesTold_eq (hn : Note e spent gained) :
    timesTold (⟨e, s⟩ :: h) (tokens + gained) id = timesTold h (tokens + spent) id := by
  -- most events issue nothing and tell nothing
  have plain : owned? e = none → (∀ t ∈ spent, t.issued? = none) →
      (∀ t ∈ gained, t.issued? = none) →
      timesTold (⟨e, s⟩ :: h) (tokens + gained) id = timesTold h (tokens + spent) id := by
    intro ho hs hg
    have same : owned (⟨e, s⟩ :: h) = owned h := List.filterMap_cons_none ho
    rw [timesTold, timesTold, Multiset.countP_add, Multiset.countP_add, countP_issued_eq_zero hs,
      countP_issued_eq_zero hg, same]
  cases hn with
  | @issues op thread object kind handle =>
    -- the token goes, and the caller has its handle
    have more : owned (⟨.ends op thread (.registry (.register object kind)) (.ok handle), s⟩ :: h) =
        handle :: owned h := rfl
    rw [timesTold, timesTold, more, List.map_cons, List.count_cons, Multiset.countP_add,
      Multiset.countP_add, countP_issued, Multiset.countP_zero]
    simp only [beq_iff_eq, eq_comm (a := id)]
    omega
  | @refuses _ _ _ lost =>
    refine plain rfl ?_ (by simp [Token.issued?])
    cases lost <;> simp [lastOf, Token.issued?]
  | lends => exact plain rfl (by simp [Token.issued?]) (by simp)
  | unpins => exact plain rfl (by simp [Token.issued?]) (by simp)
  | pins => exact plain rfl (by simp) (by simp [Token.issued?])
  | rest _ _ _ _ _ _ ho => exact plain ho (by simp) (by simp)

theorem Opening.next_eq (ho : Opening h r q r' gained) : r'.nextId = r.nextId := by
  cases ho with
  | closes hc =>
    obtain ⟨-, rfl⟩ := Registry.clear_eq hc
    rfl
  | _ => rfl

/-- Only a registration issues an id, and it issues the next one. -/
theorem Change.timesTold_eq (hc : Change h r spent r' gained) (tokens : Multiset Token)
    (id : HandleId) :
    (r'.nextId = r.nextId ∧
      timesTold h (tokens + gained) id = timesTold h (tokens + spent) id) ∨
    (r.nextId < HandleId.limit ∧ r'.nextId = r.nextId + 1 ∧
      timesTold h (tokens + gained) id =
        timesTold h (tokens + spent) id + if id = ⟨r.nextId⟩ then 1 else 0) := by
  have plain : (∀ t ∈ spent, t.issued? = none) → (∀ t ∈ gained, t.issued? = none) →
      timesTold h (tokens + gained) id = timesTold h (tokens + spent) id := by
    intro hs hg
    rw [timesTold, timesTold, Multiset.countP_add, Multiset.countP_add, countP_issued_eq_zero hs,
      countP_issued_eq_zero hg]
  cases hc with
  | lend => exact .inl ⟨rfl, plain (by simp) (by simp [Token.issued?])⟩
  | @giveBack id object last r' hb =>
    refine .inl ⟨Registry.nextId_returnLoan hb, plain (by simp [Token.issued?]) ?_⟩
    cases last <;> simp [lastOf, Token.issued?]
  | @enlist _ _ _ _ reference _ _ _ _ _ he =>
    obtain ⟨-, hlt, rfl, rfl⟩ := Registry.enlist_ok he
    have fresh : Multiset.countP (Token.issued? · = some id) {.fresh reference} = 0 :=
      countP_issued_eq_zero (by simp [Token.issued?])
    refine .inr ⟨hlt, rfl, ?_⟩
    rw [timesTold, timesTold, Multiset.countP_add, Multiset.countP_add, countP_issued, fresh]
    omega
  | discard => exact .inl ⟨rfl, plain (by simp [Token.issued?]) (by simp [Token.issued?])⟩

end

namespace Booked

variable {s₀ s : State} {h : History} {tokens : Multiset Token}

/-- Each id from the first one up to the next one was told once. -/
theorem timesTold_eq (hb : Booked s₀ s h tokens) (id : HandleId) :
    timesTold h tokens id =
      if s₀.registry.nextId ≤ id.raw ∧ id.raw < s.registry.nextId then 1 else 0 := by
  induction hb with
  | opens _ =>
    simp [timesTold, owned]
  | begins _ ho ih =>
    rw [ho.timesTold_eq, ho.next_eq]
    exact ih
  | notes _ hn ih =>
    rw [hn.timesTold_eq]
    exact ih
  | @changes s h r tokens spent gained hb hc ih =>
    rcases hc.timesTold_eq tokens id with ⟨hn, ht⟩ | ⟨hlt, hn, ht⟩
    · rw [ht, hn]
      exact ih
    · -- the counter has passed just the id that was issued
      have hle := hb.rises_from.next
      have hid : id = ⟨s.registry.nextId⟩ ↔ id.raw = s.registry.nextId := by
        cases id
        simp
      rw [ht, ih, hn]
      simp only [Registry.lt_next_iff hlt, hid]
      by_cases heq : id.raw = s.registry.nextId
      · simp [heq, hle]
      · simp [heq]
  | @counts s h tokens _ ih =>
    have refused : Multiset.countP (Token.issued? · = some id) {.refusal} = 0 :=
      countP_issued_eq_zero (by simp [Token.issued?])
    rw [timesTold, Multiset.countP_add, refused] at ih
    exact ih
  | tallies _ _ ih | limits _ ih => exact ih

/-- Every registration came after the run began. -/
theorem first_le (hb : Booked s₀ s h tokens) {e : Registration} (he : e ∈ s.registry.entries) :
    s₀.registry.nextId ≤ e.id.raw := by
  by_contra hlt
  rw [UInt64.not_le] at hlt
  obtain ⟨e₀, he₀, -⟩ := hb.rises_from.kept e he hlt
  simp [hb.initially_empty] at he₀

/-- At rest the caller of each registration was told. -/
theorem told_at_rest (hb : Booked s₀ s h 0) {id : HandleId}
    (hle : s₀.registry.nextId ≤ id.raw) (hlt : id.raw < s.registry.nextId) :
    ((owned h).map (·.id)).count id = 1 := by
  have ht := hb.timesTold_eq id
  rwa [timesTold, Multiset.countP_zero, zero_add, if_pos ⟨hle, hlt⟩] at ht

end Booked

theorem History.exists_of_owned {h : History} {handle : Handle} (ho : handle ∈ owned h) :
    ∃ m ∈ h, ∃ op thread object kind,
      m.event = .ends op thread (.registry (.register object kind)) (.ok handle) := by
  obtain ⟨m, hm, heq⟩ := List.mem_filterMap.mp ho
  unfold owned? at heq
  split at heq
  · next hev =>
    obtain rfl := Option.some.inj heq
    exact ⟨m, hm, _, _, _, _, hev⟩
  · cases heq

end CallbackBridge.Run
