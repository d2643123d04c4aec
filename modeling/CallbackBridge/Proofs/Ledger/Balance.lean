import CallbackBridge.Proofs.Ledger.Books

/-! # The books balance

    Key ideas:

    1. `LoansMatch`: each loan that a registration counts is in the hand of
       one operation or of one caller.
    2. `PinsMatch`: each pinned reference is in one place, in the table, in
       the hand of an operation, or lost.
    3. Every refused attachment is counted once. -/

namespace CallbackBridge.Run

open History

/-! ### Loans -/

/-- Each loan is in somebody's hand: `held` by callers, or a token. -/
structure LoansMatch (r : Registry) (held : List HandleId) (tokens : Multiset Token) : Prop where
  counted : ∀ e ∈ r.entries, e.loans = tokens.count (.loan e.id e.object) + held.count e.id
  backed : ∀ id object, .loan id object ∈ tokens → ∃ e ∈ r.entries, e.id = id ∧ e.object = object
  known : ∀ id ∈ held, ∃ e ∈ r.entries, e.id = id

/-- Other loans than the one that comes or goes stay as they were. -/
theorem count_loan_of_ne (tokens : Multiset Token) {id : HandleId} {object : HostObject}
    {t : Token} (h : .loan id object ≠ t) :
    (tokens + {t}).count (.loan id object) = tokens.count (.loan id object) := by
  rw [Multiset.count_add, Multiset.count_singleton, if_neg h, add_zero]

namespace LoansMatch

variable {r r' : Registry} {held held' : List HandleId} {tokens tokens' : Multiset Token}
  {e e' : Registration} {front back : List Registration} {id : HandleId} {object : HostObject}

theorem of_count (hl : LoansMatch r held tokens)
    (ht : ∀ id object, tokens'.count (.loan id object) = tokens.count (.loan id object)) :
    LoansMatch r held tokens' := by
  refine ⟨fun e he => ?_, fun id object hm => ?_, hl.known⟩
  · rw [ht]
    exact hl.counted e he
  · rw [← Multiset.count_pos, ht, Multiset.count_pos] at hm
    exact hl.backed id object hm

/-- One registration changes, and with it who uses it. -/
theorem replace (hl : LoansMatch r held tokens) (h : r.entries = front ++ e :: back)
    (h' : r'.entries = front ++ e' :: back) (ho : ∀ x ∈ front ++ back, x.id ≠ e.id)
    (hid : e'.id = e.id) (hobj : e'.object = e.object)
    (hc : e'.loans = tokens'.count (.loan e.id e.object) + held'.count e.id)
    (ht : ∀ id object, .loan id object ≠ Token.loan e.id e.object →
      tokens'.count (.loan id object) = tokens.count (.loan id object))
    (hh : ∀ id ≠ e.id, held'.count id = held.count id) :
    LoansMatch r' held' tokens' := by
  have there : ∀ x ∈ r.entries, ∃ y ∈ r'.entries, y.id = x.id ∧ y.object = x.object := by
    intro x hx
    rw [h, List.mem_append, List.mem_cons] at hx
    rw [h']
    rcases hx with hx | rfl | hx
    · exact ⟨x, by simp [hx], rfl, rfl⟩
    · exact ⟨e', by simp, hid, hobj⟩
    · exact ⟨x, by simp [hx], rfl, rfl⟩
  have own : ∃ y ∈ r'.entries, y.id = e.id ∧ y.object = e.object := there e (by simp [h])
  refine ⟨fun x hx => ?_, fun id object hm => ?_, fun id hm => ?_⟩
  · rw [h', List.mem_append, List.mem_cons, or_left_comm, ← List.mem_append] at hx
    rcases hx with rfl | hx
    · -- the one that changes is counted as `hc` says
      rw [hid, hobj]
      exact hc
    · have hne := ho x hx
      rw [ht _ _ (by simp [hne]), hh _ hne]
      apply hl.counted x
      rw [h, List.mem_append, List.mem_cons, or_left_comm, ← List.mem_append]
      exact .inr hx
  · -- a loan is backed by what changes, or as it was before
    by_cases hx : Token.loan id object = .loan e.id e.object
    · obtain ⟨rfl, rfl⟩ : id = e.id ∧ object = e.object := by simpa using hx
      exact own
    · rw [← Multiset.count_pos, ht _ _ hx, Multiset.count_pos] at hm
      obtain ⟨x, hxr, rfl, rfl⟩ := hl.backed id object hm
      exact there x hxr
  · by_cases hx : id = e.id
    · obtain ⟨y, hy, hid, -⟩ := own
      exact ⟨y, hy, hid.trans hx.symm⟩
    · rw [← List.count_pos_iff, hh id hx, List.count_pos_iff] at hm
      obtain ⟨x, hxr, rfl⟩ := hl.known id hm
      obtain ⟨y, hy, hid, -⟩ := there x hxr
      exact ⟨y, hy, hid⟩

/-- A registration that nobody uses any more goes. -/
theorem remove (hl : LoansMatch r held tokens) (h : r.entries = front ++ e :: back)
    (h' : r'.entries = front ++ back) (ho : ∀ x ∈ front ++ back, x.id ≠ e.id)
    (hu : ∀ object, .loan e.id object ∉ tokens') (hh : e.id ∉ held)
    (ht : ∀ id ≠ e.id, ∀ object,
      tokens'.count (.loan id object) = tokens.count (.loan id object)) :
    LoansMatch r' held tokens' := by
  have there : ∀ x ∈ r.entries, x.id ≠ e.id → x ∈ r'.entries := by
    intro x hx hne
    rw [h, List.mem_append, List.mem_cons, or_left_comm, ← List.mem_append, ← h'] at hx
    rcases hx with rfl | hx
    · exact absurd rfl hne
    · exact hx
  refine ⟨fun x hx => ?_, fun id object hm => ?_, fun id hm => ?_⟩
  · rw [h'] at hx
    rw [ht _ (ho x hx)]
    apply hl.counted x
    rw [h, List.mem_append, List.mem_cons, or_left_comm, ← List.mem_append]
    exact .inr hx
  · -- nobody has a loan of what goes, so the others are backed as before
    have hne : id ≠ e.id := fun hid => hu object (hid ▸ hm)
    rw [← Multiset.count_pos, ht id hne, Multiset.count_pos] at hm
    obtain ⟨x, hxr, rfl, rfl⟩ := hl.backed id object hm
    exact ⟨x, there x hxr hne, rfl, rfl⟩
  · have hne : id ≠ e.id := fun hid => hh (hid ▸ hm)
    obtain ⟨x, hxr, rfl⟩ := hl.known id hm
    exact ⟨x, there x hxr hne, rfl⟩

/-- A registration changes and its uses do not. -/
theorem update {f : Registration → Registration} (hl : LoansMatch r held tokens)
    (hd : r.Distinct) (he : e ∈ r.entries)
    (hf : (f e).id = e.id ∧ (f e).object = e.object ∧ (f e).loans = e.loans) :
    LoansMatch (r.update e.id f) held tokens := by
  obtain ⟨front, back, h, ho⟩ := hd.split he
  refine hl.replace h (Registry.entries_update h ho) ho hf.1 hf.2.1 ?_ (fun _ _ _ => rfl)
    fun _ _ => rfl
  rw [hf.2.2]
  exact hl.counted e he

/-- One more loan is taken. -/
theorem lend {f : Registration → Registration} (hl : LoansMatch r held tokens)
    (hd : r.Distinct) (he : e ∈ r.entries)
    (hf : (f e).id = e.id ∧ (f e).object = e.object ∧ (f e).loans = e.loans + 1) :
    LoansMatch (r.update e.id f) held (tokens + {.loan e.id e.object}) := by
  obtain ⟨front, back, h, ho⟩ := hd.split he
  refine hl.replace h (Registry.entries_update h ho) ho hf.1 hf.2.1 ?_ ?_ fun _ _ => rfl
  · rw [hf.2.2, hl.counted e he, Multiset.count_add, Multiset.count_singleton_self]
    omega
  · intro id object hne
    exact count_loan_of_ne tokens hne

/-- A loan is given back. -/
theorem giveBack {last : Option HostObject} (hl : LoansMatch r held (tokens + {.loan id object}))
    (hd : r.Distinct) (h : r.returnLoan id = (last, r')) : LoansMatch r' held tokens := by
  obtain ⟨e, he, rfl, rfl⟩ := hl.backed id object (by simp)
  have hc := hl.counted e he
  rw [Multiset.count_add, Multiset.count_singleton_self] at hc
  have others : ∀ id object, .loan id object ≠ Token.loan e.id e.object →
      tokens.count (.loan id object) =
        (tokens + {.loan e.id e.object}).count (.loan id object) :=
    fun id object hne => (count_loan_of_ne tokens hne).symm
  obtain ⟨front, back, heq, ho⟩ := hd.split he
  cases last with
  | none =>
    -- the registration stays, with one loan less
    rcases Registry.returnLoan_none h with ⟨hf, -⟩ | ⟨e', hf, -, rfl⟩
    · rw [hd.find?_eq he] at hf
      cases hf
    · refine hl.replace heq (Registry.entries_update heq ho) ho rfl rfl ?_ others fun _ _ => rfl
      show e.loans - 1 = _
      omega
  | some o =>
    -- it was delisted and this was its only loan, so it goes
    obtain ⟨e', hf, -, hle, -, rfl⟩ := Registry.returnLoan_some h
    obtain rfl : e = e' := by simpa [hd.find?_eq he] using hf
    refine hl.remove heq (Registry.filter_entries heq ho) ho (fun object hm => ?_) ?_
      fun id hne object => others id object (by simp [hne])
    · -- another loan would be counted too
      obtain ⟨x, hx, hid, rfl⟩ := hl.backed _ _ (Multiset.mem_add.mpr (.inl hm))
      obtain rfl : x = e := hd.eq hx he hid
      have := Multiset.count_pos.mpr hm
      omega
    · rw [← List.count_eq_zero]
      omega

/-- A caller's loan passes to an operation. -/
theorem handIn (hl : LoansMatch r held tokens) (hd : r.Distinct) (hm : id ∈ held)
    (hf : r.find? id = some e) :
    LoansMatch r (held.erase id) (tokens + {.loan id e.object}) := by
  obtain ⟨he, rfl⟩ := Registry.mem_of_find? hf
  obtain ⟨front, back, heq, ho⟩ := hd.split he
  refine hl.replace heq heq ho rfl rfl ?_ ?_ fun id hne => List.count_erase_of_ne hne
  · have hpos := List.count_pos_iff.mpr hm
    rw [hl.counted e he, Multiset.count_add, Multiset.count_singleton_self,
      List.count_erase_self]
    omega
  · intro id object hne
    exact count_loan_of_ne tokens hne

/-- An operation's loan passes to a caller. -/
theorem handOut (hl : LoansMatch r held (tokens + {.loan id object})) (hd : r.Distinct) :
    LoansMatch r (id :: held) tokens := by
  obtain ⟨e, he, rfl, rfl⟩ := hl.backed id object (by simp)
  obtain ⟨front, back, heq, ho⟩ := hd.split he
  refine hl.replace heq heq ho rfl rfl ?_ ?_ fun id hne => List.count_cons_of_ne (Ne.symm hne)
  · rw [hl.counted e he, Multiset.count_add, Multiset.count_singleton_self,
      List.count_cons_self]
    omega
  · intro id object hne
    exact (count_loan_of_ne tokens hne).symm

theorem enlist {k : HandleKind} (hl : LoansMatch r held tokens) (hr : r.Sound)
    (h : r.enlist object k = (.ok id, r')) : LoansMatch r' held tokens := by
  obtain ⟨-, -, rfl, rfl⟩ := Registry.enlist_ok h
  have unissued : ∀ e ∈ r.entries, e.id ≠ ⟨r.nextId⟩ := fun e he hid => by
    have hlt := hr.issued e he
    rw [hid] at hlt
    exact UInt64.lt_irrefl _ hlt
  refine ⟨fun e he => ?_, fun id o hm => ?_, fun id hm => ?_⟩
  · rcases List.mem_cons.mp he with rfl | he
    · -- nobody can have a loan of an id that was not issued before
      have unlent : .loan ⟨r.nextId⟩ object ∉ tokens := fun hm => by
        obtain ⟨e, he, hid, -⟩ := hl.backed _ _ hm
        exact unissued e he hid
      have unheld : ⟨r.nextId⟩ ∉ held := fun hm => by
        obtain ⟨e, he, hid⟩ := hl.known _ hm
        exact unissued e he hid
      show 0 = tokens.count (.loan ⟨r.nextId⟩ object) + held.count ⟨r.nextId⟩
      rw [Multiset.count_eq_zero.mpr unlent, List.count_eq_zero.mpr unheld]
    · exact hl.counted e he
  · obtain ⟨e, he, h⟩ := hl.backed id o hm
    exact ⟨e, List.mem_cons_of_mem _ he, h⟩
  · obtain ⟨e, he, h⟩ := hl.known id hm
    exact ⟨e, List.mem_cons_of_mem _ he, h⟩

theorem clear {free : List HostObject} (hl : LoansMatch r held tokens)
    (h : r.clear = (free, r')) : LoansMatch r' held tokens := by
  obtain ⟨-, rfl⟩ := Registry.clear_eq h
  -- whatever is lent stays, delisted
  have there : ∀ e ∈ r.entries, 0 < e.loans →
      { e with listed := false } ∈
        (r.entries.filter (0 < ·.loans)).map fun e => { e with listed := false } :=
    fun e he hpos => List.mem_map.mpr ⟨e, List.mem_filter.mpr ⟨he, by simpa using hpos⟩, rfl⟩
  refine ⟨fun e' he' => ?_, fun id o hm => ?_, fun id hm => ?_⟩
  · obtain ⟨e, he, rfl⟩ := List.mem_map.mp he'
    exact hl.counted e (List.mem_filter.mp he).1
  · obtain ⟨e, he, rfl, rfl⟩ := hl.backed id o hm
    refine ⟨_, there e he ?_, rfl, rfl⟩
    rw [hl.counted e he]
    exact Nat.add_pos_left (Multiset.count_pos.mpr hm) _
  · obtain ⟨e, he, rfl⟩ := hl.known id hm
    refine ⟨_, there e he ?_, rfl⟩
    rw [hl.counted e he]
    exact Nat.add_pos_right _ (List.count_pos_iff.mpr hm)

end LoansMatch

/-! ### Pins -/

/-- Each pinned reference is in one place: in the table, in the hand of an
    operation, or lost. -/
def PinsMatch (r : Registry) (pinned lost : List HostObject) (tokens : Multiset Token) : Prop :=
  ∀ o, pinned.count o = r.entries.countP (·.object = o) + tokens.count (.fresh o) +
    tokens.count (.last o) + lost.count o

namespace PinsMatch

variable {r r' : Registry} {pinned lost : List HostObject} {tokens tokens' : Multiset Token}
  {e : Registration} {id : HandleId} {object : HostObject}

theorem of_count (hp : PinsMatch r pinned lost tokens)
    (ht : ∀ o, tokens'.count (.fresh o) + tokens'.count (.last o) =
      tokens.count (.fresh o) + tokens.count (.last o)) :
    PinsMatch r pinned lost tokens' := by
  intro o
  have := hp o
  have := ht o
  omega

theorem update {f : Registration → Registration} (hp : PinsMatch r pinned lost tokens)
    (hf : ∀ e, (f e).object = e.object) : PinsMatch (r.update id f) pinned lost tokens := by
  intro o
  rw [hp o, Registry.update, List.countP_map]
  congr 3
  apply List.countP_congr
  intro e _
  by_cases he : e.id = id <;> simp [he, hf]

theorem lend (hp : PinsMatch r pinned lost tokens) : PinsMatch (r.lend id) pinned lost tokens :=
  hp.update fun _ => rfl

theorem delist (hp : PinsMatch r pinned lost tokens) :
    PinsMatch (r.delist id) pinned lost tokens :=
  hp.update fun _ => rfl

theorem markDelivered (hp : PinsMatch r pinned lost tokens) :
    PinsMatch (r.markDelivered id) pinned lost tokens :=
  hp.update fun _ => rfl

theorem returnLoan {last : Option HostObject} (hp : PinsMatch r pinned lost tokens)
    (hd : r.Distinct) (h : r.returnLoan id = (last, r')) :
    PinsMatch r' pinned lost (tokens + lastOf last) := by
  cases last with
  | none =>
    have same : PinsMatch r' pinned lost tokens := by
      rcases Registry.returnLoan_none h with ⟨-, rfl⟩ | ⟨-, -, -, rfl⟩
      · exact hp
      · exact hp.update fun _ => rfl
    simpa [lastOf] using same
  | some object =>
    -- the registration goes, and its reference passes into a hand
    obtain ⟨e, hf, -, -, rfl, rfl⟩ := Registry.returnLoan_some h
    obtain ⟨he, rfl⟩ := Registry.mem_of_find? hf
    obtain ⟨front, back, heq, ho⟩ := hd.split he
    intro o
    have hpo := hp o
    rw [heq] at hpo
    simp only [Registry.filter_entries heq ho, lastOf, Multiset.count_add,
      Multiset.count_singleton, List.countP_append, List.countP_cons, decide_eq_true_eq] at hpo ⊢
    by_cases hoe : e.object = o
    · subst hoe
      simp at hpo ⊢
      omega
    · simp [hoe, Ne.symm hoe] at hpo ⊢
      omega

theorem enlist {k : HandleKind} (hp : PinsMatch r pinned lost (tokens + {.fresh object}))
    (h : r.enlist object k = (.ok id, r')) : PinsMatch r' pinned lost tokens := by
  obtain ⟨-, -, rfl, rfl⟩ := Registry.enlist_ok h
  intro o
  have hpo := hp o
  simp only [Multiset.count_add, Multiset.count_singleton, List.countP_cons, Registration.fresh,
    decide_eq_true_eq, reduceCtorEq, if_false, Token.fresh.injEq] at hpo ⊢
  by_cases hoe : object = o
  · simp [hoe] at hpo ⊢
    omega
  · simp [hoe, Ne.symm hoe] at hpo ⊢
    omega

theorem clear {free : List HostObject} (hp : PinsMatch r pinned lost tokens)
    (h : r.clear = (free, r')) :
    PinsMatch r' pinned lost (tokens + Multiset.ofList (free.map .last)) := by
  obtain ⟨rfl, rfl⟩ := Registry.clear_eq h
  intro o
  have freed : ∀ l : List Registration,
      ((l.map (·.object)).map Token.last).count (.last o) = l.countP (·.object = o) := by
    intro l
    rw [List.map_map, List.count, List.countP_map]
    exact List.countP_congr fun e _ => by simp
  have unfresh : ∀ l : List HostObject, (l.map Token.last).count (.fresh o) = 0 := by
    intro l
    rw [List.count_eq_zero]
    simp
  -- a registration is on loan and stays, or its reference is free
  have all := List.countP_eq_countP_filter_add r.entries (·.object = o) (0 < ·.loans)
  have hpo := hp o
  simp only [Multiset.count_add, Multiset.coe_count, freed, unfresh, List.countP_map] at hpo ⊢
  simp only [Function.comp_def] at hpo ⊢
  omega

end PinsMatch

/-! ### Booked runs -/

namespace History

variable {op : Nat} {thread : Thread} {q : Request} {s : State} {h : History}

theorem returned?_begins (hq : ∀ id, q ≠ .registry (.giveBack id)) :
    returned? (.begins op thread q) = none := by
  unfold returned?
  split
  · next heq =>
    cases heq
    exact absurd rfl (hq _)
  · rfl

theorem held_begins (hq : ∀ id, q ≠ .registry (.giveBack id)) :
    held (⟨.begins op thread q, s⟩ :: h) = held h := by
  simp only [held, returned?_begins hq, lent?]

end History

theorem Opening.loansMatch {h : History} {r r' : Registry} {q : Request} {op : Nat}
    {thread : Thread} {s : State} {tokens gained : Multiset Token}
    (ho : Opening h r q r' gained) (hr : r.Sound) (hl : LoansMatch r (held h) tokens) :
    LoansMatch r' (held (⟨.begins op thread q, s⟩ :: h)) (tokens + gained) := by
  cases ho with
  | releases hq hf =>
    obtain ⟨he, rfl, -⟩ := Registry.mem_of_listed? hf
    rw [held_begins fun id heq => by simp [heq, Request.released?] at hq]
    exact hl.lend hr.distinct he ⟨rfl, rfl, rfl⟩
  | claims hq hf =>
    obtain ⟨he, rfl, -⟩ := Registry.mem_of_listed? hf
    rw [held_begins fun id heq => by simp [heq, Request.delivered?] at hq, add_zero]
    exact hl.update hr.distinct he ⟨rfl, rfl, rfl⟩
  | closes hc =>
    rw [held_begins fun id heq => by simp at heq]
    apply (hl.clear hc).of_count
    intro id object
    rw [Multiset.count_add, Multiset.coe_count, List.count_eq_zero.mpr (by simp), add_zero]
  | returns hm hf => exact hl.handIn hr.distinct hm hf
  | rest _ _ hq _ =>
    rw [held_begins hq, add_zero]
    exact hl

theorem Note.loansMatch {h : History} {r : Registry} {e : Event} {s : State}
    {tokens spent gained : Multiset Token} (hn : Note e spent gained) (hr : r.Sound)
    (hl : LoansMatch r (held h) (tokens + spent)) :
    LoansMatch r (held (⟨e, s⟩ :: h)) (tokens + gained) := by
  -- most events touch no loan
  have same : ∀ {x y : Multiset Token}, (∀ id object, .loan id object ∉ x) →
      (∀ id object, .loan id object ∉ y) →
      LoansMatch r (held h) (tokens + x) → LoansMatch r (held h) (tokens + y) := by
    intro x y hx hy hl
    apply hl.of_count
    intro id object
    rw [Multiset.count_add, Multiset.count_add, Multiset.count_eq_zero.mpr (hx id object),
      Multiset.count_eq_zero.mpr (hy id object)]
  cases hn with
  | lends =>
    rw [add_zero]
    exact hl.handOut hr.distinct
  | issues => exact same (by simp) (by simp) hl
  | unpins => exact same (by simp) (by simp) hl
  | pins => exact same (by simp) (by simp) hl
  | @refuses op thread status lost =>
    exact same (by cases lost <;> simp [lastOf]) (by simp) hl
  | rest hb _ _ _ _ hlent =>
    have : returned? e = none := by
      cases e <;> first | rfl | cases hb
    simpa only [held, hlent, this] using hl

theorem Change.loansMatch {h : History} {r r' : Registry} {held : List HandleId}
    {tokens spent gained : Multiset Token} (hc : Change h r spent r' gained) (hr : r.Sound)
    (hl : LoansMatch r held (tokens + spent)) : LoansMatch r' held (tokens + gained) := by
  cases hc with
  | lend hf =>
    obtain ⟨he, rfl, -⟩ := Registry.mem_of_listed? hf
    rw [add_zero] at hl
    exact hl.lend hr.distinct he ⟨rfl, rfl, rfl⟩
  | @giveBack id object last r' hb =>
    apply (hl.giveBack hr.distinct hb).of_count
    intro id object
    cases last <;> simp [lastOf]
  | enlist _ _ he =>
    apply (hl.enlist hr he).of_count
    intro id object
    simp
  | discard => exact hl.of_count fun id object => by simp

/-- The loans match in every run that is booked. -/
theorem Booked.loansMatch {s₀ s : State} {h : History} {tokens : Multiset Token}
    (hb : Booked s₀ s h tokens) : LoansMatch s.registry (held h) tokens := by
  induction hb with
  | opens he => exact ⟨by simp [he], by simp, by simp [held]⟩
  | begins hb ho ih => exact ho.loansMatch hb.sound ih
  | notes hb hn ih => exact hn.loansMatch hb.sound ih
  | changes hb hc ih => exact hc.loansMatch hb.sound ih
  | counts _ ih => exact ih.of_count fun id object => by simp
  | tallies _ _ ih => exact ih
  | limits _ ih => exact ih

theorem Opening.pinsMatch {h : History} {r r' : Registry} {q : Request}
    {pinned lost : List HostObject} {tokens gained : Multiset Token}
    (ho : Opening h r q r' gained) (hp : PinsMatch r pinned lost tokens) :
    PinsMatch r' pinned lost (tokens + gained) := by
  cases ho with
  | releases => exact hp.delist.of_count fun o => by simp
  | claims => exact hp.markDelivered.of_count fun o => by simp
  | closes hc => exact hp.clear hc
  | returns => exact hp.of_count fun o => by simp
  | rest => exact hp.of_count fun o => by simp

theorem Change.pinsMatch {h : History} {r r' : Registry} {pinned lost : List HostObject}
    {tokens spent gained : Multiset Token} (hc : Change h r spent r' gained) (hr : r.Sound)
    (hp : PinsMatch r pinned lost (tokens + spent)) :
    PinsMatch r' pinned lost (tokens + gained) := by
  cases hc with
  | lend => exact hp.lend.of_count fun o => by simp
  | giveBack hb =>
    exact (hp.of_count fun o => by simp).returnLoan hr.distinct hb
  | enlist _ _ he => exact (hp.enlist he).of_count fun o => by simp
  | discard =>
    apply hp.of_count
    intro o
    simp only [Multiset.count_add, Multiset.count_singleton, Token.fresh.injEq,
      Token.last.injEq, reduceCtorEq, if_false]
    omega

namespace PinsMatch

variable {r : Registry} {pinned lost : List HostObject} {tokens : Multiset Token}
  {object : HostObject}

/-- What an operation gives back is pinned. -/
theorem mem_pinned (hp : PinsMatch r pinned lost tokens) (ho : .last object ∈ tokens) :
    object ∈ pinned := by
  have := Multiset.count_pos.mpr ho
  rw [← List.count_pos_iff, hp object]
  omega

/-- What is in the table is pinned. -/
theorem pinned_of_mem {e : Registration} (hp : PinsMatch r pinned lost tokens)
    (he : e ∈ r.entries) : e.object ∈ pinned := by
  have hpos : 0 < r.entries.countP (·.object = e.object) :=
    List.countP_pos_iff.mpr ⟨e, he, by simp⟩
  rw [← List.count_pos_iff, hp e.object]
  omega

/-- The reference in hand is pinned, so it can be taken back. -/
theorem takeBack (hp : PinsMatch r pinned lost (tokens + {.last object})) :
    PinsMatch r (pinned.erase object) lost tokens := by
  have hm : object ∈ pinned := hp.mem_pinned (by simp)
  have hpos := List.count_pos_iff.mpr hm
  intro o
  have hpo := hp o
  simp only [Multiset.count_add, Multiset.count_singleton, Token.last.injEq, reduceCtorEq,
    if_false] at hpo
  by_cases hoe : o = object
  · subst hoe
    rw [List.count_erase_self]
    simp only [if_true] at hpo
    omega
  · rw [List.count_erase_of_ne hoe]
    simp only [hoe, if_false] at hpo
    omega

/-- A new pin is in hand. -/
theorem handOut (hp : PinsMatch r pinned lost tokens) :
    PinsMatch r (object :: pinned) lost (tokens + {.fresh object}) := by
  intro o
  have hpo := hp o
  simp only [Multiset.count_add, Multiset.count_singleton, Token.fresh.injEq, reduceCtorEq,
    if_false, List.count_cons, beq_iff_eq, eq_comm (a := o)] at hpo ⊢
  omega

/-- What was to be given back is lost. -/
theorem lose (hp : PinsMatch r pinned lost (tokens + {.last object})) :
    PinsMatch r pinned (object :: lost) tokens := by
  intro o
  have hpo := hp o
  simp only [Multiset.count_add, Multiset.count_singleton, Token.last.injEq, reduceCtorEq,
    if_false, List.count_cons, beq_iff_eq, eq_comm (a := o)] at hpo ⊢
  omega

end PinsMatch

theorem Note.pinsMatch {h : History} {r : Registry} {e : Event} {s : State}
    {tokens spent gained : Multiset Token} (hn : Note e spent gained)
    (hp : PinsMatch r (pinned h) (lost h) (tokens + spent)) :
    PinsMatch r (pinned (⟨e, s⟩ :: h)) (lost (⟨e, s⟩ :: h)) (tokens + gained) := by
  cases hn with
  | lends => exact hp.of_count fun o => by simp
  | issues => exact hp.of_count fun o => by simp
  | unpins =>
    rw [add_zero]
    exact hp.takeBack
  | pins =>
    rw [add_zero] at hp
    exact hp.handOut
  | @refuses op thread status lost =>
    cases lost with
    | none => exact hp.of_count fun o => by simp [lastOf]
    | some object => exact hp.lose.of_count fun o => by simp
  | rest hb hh ht hlost =>
    have hpin : pinned (⟨e, s⟩ :: h) = pinned h := by simp only [pinned, hh, ht]
    have hlost : lost (⟨e, s⟩ :: h) = lost h := List.filterMap_cons_none hlost
    rw [hpin, hlost]
    exact hp

namespace Booked

variable {s₀ s : State} {h : History} {tokens : Multiset Token}

/-- The pins match in every run that is booked. -/
theorem pinsMatch (hb : Booked s₀ s h tokens) :
    PinsMatch s.registry (pinned h) (lost h) tokens := by
  induction hb with
  | opens he => exact fun o => by simp [he, pinned, lost]
  | begins _ ho ih => exact ho.pinsMatch ih
  | notes _ hn ih => exact hn.pinsMatch ih
  | changes hb hc ih => exact hc.pinsMatch hb.sound ih
  | counts _ ih => exact ih.of_count fun o => by simp
  | tallies _ _ ih => exact ih
  | limits _ ih => exact ih

/-- The host is only asked to take back what is pinned. -/
theorem takenBack_pinned (hb : Booked s₀ s h tokens) :
    h.Always fun m before => ∀ o, takenBack? m.event = some o → o ∈ pinned before := by
  induction hb with
  | opens _ => trivial
  | begins _ _ ih => exact ⟨fun o ho => by simp [takenBack?] at ho, ih⟩
  | notes hb hn ih =>
    refine ⟨fun o ho => ?_, ih⟩
    cases hn with
    | unpins =>
      obtain rfl : _ = o := by simpa [takenBack?, unpinned?] using ho
      exact hb.pinsMatch.mem_pinned (by simp)
    | rest _ _ ht => simp [ht] at ho
    | _ => simp [takenBack?] at ho
  | changes _ _ ih | counts _ ih | tallies _ _ ih | limits _ ih => exact ih

/-- A reference is lost with a refused attachment, and only there. -/
theorem isRefusal_of_lost (hb : Booked s₀ s h tokens) :
    ∀ m ∈ h, (lost? m.event).isSome → isRefusal m.event = true := by
  induction hb with
  | opens _ => simp
  | begins _ _ ih => exact List.forall_mem_cons.mpr ⟨by simp [lost?], ih⟩
  | notes _ hn ih =>
    refine List.forall_mem_cons.mpr ⟨fun hl => ?_, ih⟩
    cases hn with
    | refuses hs => simp [isRefusal, hs]
    | rest _ _ _ hlost => simp [hlost] at hl
    | _ => simp [lost?] at hl
  | changes _ _ ih | counts _ ih | tallies _ _ ih | limits _ ih => exact ih

end Booked

/-! ### Refusals -/

theorem Opening.refusal_not_mem {h : History} {r r' : Registry} {q : Request}
    {gained : Multiset Token} (ho : Opening h r q r' gained) : .refusal ∉ gained := by
  cases ho <;> simp

theorem Change.refusal_not_mem {h : History} {r r' : Registry} {spent gained : Multiset Token}
    (hc : Change h r spent r' gained) : .refusal ∉ spent ∧ .refusal ∉ gained := by
  cases hc with
  | @giveBack _ _ last => cases last <;> simp [lastOf]
  | _ => simp

theorem Note.count_refusal {e : Event} {spent gained : Multiset Token}
    (hn : Note e spent gained) :
    .refusal ∉ spent ∧ gained.count .refusal = if isRefusal e then 1 else 0 := by
  cases hn with
  | @refuses _ _ _ lost _ hs => cases lost <;> simp [lastOf, isRefusal, hs]
  | rest _ _ _ _ hf => simp [hf]
  | _ => simp [isRefusal]

/-- Every refusal is counted, or still to be counted. -/
theorem Booked.attachFailures {s₀ s : State} {h : History} {tokens : Multiset Token}
    (hb : Booked s₀ s h tokens) :
    s.counters.get .attachFailures + UInt64.ofNat (tokens.count .refusal) =
      s₀.counters.get .attachFailures + UInt64.ofNat (refusals h) := by
  induction hb with
  | opens _ => simp [refusals]
  | @begins s h op thread q _ _ _ _ ho ih =>
    have hr : refusals (⟨.begins op thread q, s⟩ :: h) = refusals h := by
      simp [refusals, isRefusal]
    rw [hr, Multiset.count_add, Multiset.count_eq_zero.mpr ho.refusal_not_mem, add_zero]
    exact ih
  | @notes s h e _ _ _ _ hn ih =>
    -- a refusal comes into hand with its event
    obtain ⟨hs, hg⟩ := hn.count_refusal
    have hr : refusals (⟨e, s⟩ :: h) = refusals h + if isRefusal e then 1 else 0 := by
      simp [refusals, List.countP_cons]
    rw [Multiset.count_add, Multiset.count_eq_zero.mpr hs, add_zero] at ih
    rw [hr, Multiset.count_add, hg, UInt64.ofNat_add, UInt64.ofNat_add, ← UInt64.add_assoc, ih,
      UInt64.add_assoc]
  | changes _ hc ih =>
    obtain ⟨hs, hg⟩ := hc.refusal_not_mem
    rw [Multiset.count_add, Multiset.count_eq_zero.mpr hs, add_zero] at ih
    rw [Multiset.count_add, Multiset.count_eq_zero.mpr hg, add_zero]
    exact ih
  | @counts s _ tokens _ ih =>
    -- and leaves it when it is counted; both words wrap alike
    rw [Multiset.count_add, Multiset.count_singleton_self, UInt64.ofNat_add] at ih
    rw [← ih, Counters.get_bump_self, UInt64.add_assoc, UInt64.add_comm 1]
    rfl
  | tallies hne _ ih =>
    rw [Counters.get_bump_ne _ _ _ (Ne.symm hne)]
    exact ih
  | limits _ ih => exact ih

end CallbackBridge.Run
