import CallbackBridge.Registry.Table
import Mathlib.Data.List.Nodup

/-! # Sound registries

    Ids are issued in rising order, so no two registrations share one.  What
    the table does to its registrations is said here once, update by update;
    later modules do not look inside the updates again.

    Key ideas:

    1. `Sound` is what every registry that is built by the updates keeps to.
    2. `Rises` compares a registry with a later one: ids below the counter of
       the earlier one are settled, and can only leave the table. -/

namespace CallbackBridge.Registry

variable {r r' : Registry} {id : HandleId} {e : Registration}

/-! ### Views -/

theorem contains_iff :
    r.contains id = true ↔ ∃ e ∈ r.entries, e.id = id ∧ e.listed = true := by
  simp [contains, listed?, List.find?_isSome]

theorem mem_of_listed? (h : r.listed? id = some e) :
    e ∈ r.entries ∧ e.id = id ∧ e.listed = true := by
  have hp := List.find?_some h
  simp only [Bool.and_eq_true, decide_eq_true_eq] at hp
  exact ⟨List.mem_of_find?_eq_some h, hp.1, hp.2⟩

theorem mem_of_find? (h : r.find? id = some e) : e ∈ r.entries ∧ e.id = id :=
  ⟨List.mem_of_find?_eq_some h, by simpa using List.find?_some h⟩

theorem listed?_eq_none_iff : r.listed? id = none ↔ r.contains id = false := by
  simp [contains]

theorem mem_table_ids : id ∈ r.table.map (·.id) ↔ r.contains id = true := by
  rw [contains_iff, List.mem_map]
  constructor
  · rintro ⟨e, he, rfl⟩
    obtain ⟨he, hl⟩ := List.mem_filter.mp he
    exact ⟨e, he, rfl, hl⟩
  · rintro ⟨e, he, rfl, hl⟩
    exact ⟨e, List.mem_filter.mpr ⟨he, hl⟩, rfl⟩

/-- No two registrations share an id. -/
def Distinct (r : Registry) : Prop := (r.entries.map (·.id)).Nodup

theorem Distinct.eq (hd : r.Distinct) {e e' : Registration} (he : e ∈ r.entries)
    (he' : e' ∈ r.entries) (hid : e.id = e'.id) : e = e' :=
  List.inj_on_of_nodup_map hd he he' hid

theorem Distinct.find?_eq (hd : r.Distinct) (he : e ∈ r.entries) : r.find? e.id = some e := by
  cases hf : r.find? e.id with
  | none =>
    have := List.find?_eq_none.mp hf e he
    simp at this
  | some e' =>
    obtain ⟨hm, hid⟩ := mem_of_find? hf
    rw [hd.eq hm he hid]

theorem Distinct.listed?_eq (hd : r.Distinct) (he : e ∈ r.entries) (hl : e.listed = true) :
    r.listed? e.id = some e := by
  cases hf : r.listed? e.id with
  | none =>
    have := List.find?_eq_none.mp hf e he
    simp [hl] at this
  | some e' =>
    obtain ⟨hm, hid, -⟩ := mem_of_listed? hf
    rw [hd.eq hm he hid]

/-- A registration stands in one place, and the others have other ids. -/
theorem Distinct.split (hd : r.Distinct) (he : e ∈ r.entries) :
    ∃ front back, r.entries = front ++ e :: back ∧ ∀ e' ∈ front ++ back, e'.id ≠ e.id := by
  obtain ⟨front, back, heq⟩ := List.append_of_mem he
  refine ⟨front, back, heq, fun e' he' hid => ?_⟩
  rw [Distinct, heq, List.map_append, List.map_cons, List.nodup_middle, List.nodup_cons,
    ← List.map_append] at hd
  exact hd.1 (List.mem_map.mpr ⟨e', he', hid⟩)

/-! ### Updates -/

theorem mem_update {f : Registration → Registration} {e' : Registration} :
    e' ∈ (r.update id f).entries ↔ ∃ e ∈ r.entries, (if e.id = id then f e else e) = e' := by
  simp [update]

/-- An update changes a registration in its place. -/
theorem entries_update {front back : List Registration} {f : Registration → Registration}
    (h : r.entries = front ++ e :: back) (ho : ∀ e' ∈ front ++ back, e'.id ≠ e.id) :
    (r.update e.id f).entries = front ++ f e :: back := by
  have same : ∀ l ⊆ front ++ back, l.map (fun e' => if e'.id = e.id then f e' else e') = l :=
    fun l hl => by
      rw [List.map_congr_left fun e' he' => if_neg (ho e' (hl he')), List.map_id']
  simp [update, h, same front (List.subset_append_left ..), same back (List.subset_append_right ..)]

theorem filter_entries {front back : List Registration} (h : r.entries = front ++ e :: back)
    (ho : ∀ e' ∈ front ++ back, e'.id ≠ e.id) :
    r.entries.filter (·.id ≠ e.id) = front ++ back := by
  rw [h, List.filter_append, List.filter_cons_of_neg (by simp), ← List.filter_append]
  exact List.filter_eq_self.mpr fun e' he' => by simpa using ho e' he'

/-- Updates of one registration in fields that do not meet commute. -/
theorem update_comm {f g : Registration → Registration} (hf : ∀ e, (f e).id = e.id)
    (hg : ∀ e, (g e).id = e.id) (hfg : ∀ e, f (g e) = g (f e)) :
    (r.update id f).update id g = (r.update id g).update id f := by
  simp only [update, List.map_map]
  congr 1
  apply List.map_congr_left
  intro e _
  by_cases he : e.id = id <;> simp [he, hf, hg, hfg]

theorem enlist_ok {o : HostObject} {k : HandleKind} (h : r.enlist o k = (.ok id, r')) :
    r.atCapacity = false ∧ r.nextId < HandleId.limit ∧ id = ⟨r.nextId⟩ ∧
      r' = { r with nextId := r.nextId + 1, entries := .fresh id o k :: r.entries } := by
  unfold enlist issue? at h
  by_cases hc : r.atCapacity = true
  · simp [hc] at h
  · by_cases hn : r.nextId < HandleId.limit
    · simp only [hc, hn, if_true, Bool.false_eq_true, if_false, Prod.mk.injEq,
        Except.ok.injEq] at h
      obtain ⟨rfl, rfl⟩ := h
      exact ⟨by simpa using hc, hn, rfl, rfl⟩
    · -- no id is left
      simp [hc, hn] at h

theorem enlist_error {o : HostObject} {k : HandleKind} {err : HandleError}
    (h : r.enlist o k = (.error err, r')) :
    r' = r ∧ (err = .idSpaceExhausted → ¬ r.nextId < HandleId.limit) := by
  unfold enlist issue? at h
  by_cases hc : r.atCapacity = true
  · simp only [hc, if_true, Prod.mk.injEq, Except.error.injEq] at h
    obtain ⟨rfl, rfl⟩ := h
    exact ⟨rfl, by simp⟩
  · by_cases hn : r.nextId < HandleId.limit
    · simp [hc, hn] at h
    · simp only [hc, hn, Bool.false_eq_true, if_false, Prod.mk.injEq] at h
      exact ⟨h.2.symm, fun _ => hn⟩

theorem returnLoan_none (h : r.returnLoan id = (none, r')) :
    (r.find? id = none ∧ r' = r) ∨
    ∃ e, r.find? id = some e ∧ (e.listed = true ∨ 1 < e.loans) ∧
      r' = r.update id fun e => { e with loans := e.loans - 1 } := by
  unfold returnLoan at h
  cases hf : r.find? id with
  | none => simp_all
  | some e =>
    by_cases hk : e.listed = true ∨ 1 < e.loans
    · have hb : (e.listed || decide (1 < e.loans)) = true := by simpa using hk
      simp only [hf, hb, if_true, Prod.mk.injEq, true_and] at h
      exact .inr ⟨e, rfl, hk, h.symm⟩
    · have hb : (e.listed || decide (1 < e.loans)) = false := by simpa using hk
      simp [hf, hb] at h

theorem returnLoan_some {o : HostObject} (h : r.returnLoan id = (some o, r')) :
    ∃ e, r.find? id = some e ∧ e.listed = false ∧ e.loans ≤ 1 ∧ e.object = o ∧
      r' = { r with entries := r.entries.filter (·.id ≠ id) } := by
  unfold returnLoan at h
  cases hf : r.find? id with
  | none => simp [hf] at h
  | some e =>
    by_cases hk : e.listed = true ∨ 1 < e.loans
    · have hb : (e.listed || decide (1 < e.loans)) = true := by simpa using hk
      simp [hf, hb] at h
    · have hb : (e.listed || decide (1 < e.loans)) = false := by simpa using hk
      simp only [hf, hb, Bool.false_eq_true, if_false, Prod.mk.injEq, Option.some.injEq] at h
      rw [not_or, Nat.not_lt] at hk
      exact ⟨e, rfl, by simpa using hk.1, hk.2, h.1, h.2.symm⟩

theorem nextId_returnLoan {last : Option HostObject} (h : r.returnLoan id = (last, r')) :
    r'.nextId = r.nextId := by
  cases last with
  | none => rcases returnLoan_none h with ⟨-, rfl⟩ | ⟨-, -, -, rfl⟩ <;> rfl
  | some o =>
    obtain ⟨-, -, -, -, -, rfl⟩ := returnLoan_some h
    rfl

theorem clear_eq {free : List HostObject} (h : r.clear = (free, r')) :
    free = (r.entries.filter fun e => !decide (0 < e.loans)).map (·.object) ∧
      r' = { r with entries :=
        (r.entries.filter (0 < ·.loans)).map fun e => { e with listed := false } } := by
  simp only [clear, List.partition_eq_filter_filter, Prod.mk.injEq] at h
  exact ⟨h.1.symm, h.2.symm⟩

theorem contains_update {f : Registration → Registration} {id' : HandleId}
    (hf : ∀ e, (f e).id = e.id ∧ (f e).listed = e.listed) :
    (r.update id f).contains id' = r.contains id' := by
  rw [Bool.eq_iff_iff, contains_iff, contains_iff]
  constructor
  · rintro ⟨e', he', hid, hl⟩
    obtain ⟨e, he, rfl⟩ := mem_update.mp he'
    refine ⟨e, he, ?_⟩
    split at hid <;> simp_all
  · rintro ⟨e, he, hid, hl⟩
    refine ⟨_, mem_update.mpr ⟨e, he, rfl⟩, ?_⟩
    split <;> simp_all

theorem contains_lend {id' : HandleId} : (r.lend id).contains id' = r.contains id' :=
  contains_update fun _ => ⟨rfl, rfl⟩

theorem contains_markDelivered {id' : HandleId} :
    (r.markDelivered id).contains id' = r.contains id' :=
  contains_update fun _ => ⟨rfl, rfl⟩

theorem contains_delist {id' : HandleId} :
    (r.delist id).contains id' = (r.contains id' && decide (id' ≠ id)) := by
  rw [Bool.eq_iff_iff, Bool.and_eq_true, decide_eq_true_eq, contains_iff, contains_iff]
  constructor
  · rintro ⟨e', he', hid, hl⟩
    obtain ⟨e, he, rfl⟩ := mem_update.mp he'
    by_cases h : e.id = id
    · simp [h] at hl
    · simp only [if_neg h] at hid hl
      exact ⟨⟨e, he, hid, hl⟩, hid ▸ h⟩
  · rintro ⟨⟨e, he, hid, hl⟩, hne⟩
    have h : e.id ≠ id := hid ▸ hne
    exact ⟨e, mem_update.mpr ⟨e, he, if_neg h⟩, hid, hl⟩

theorem contains_clear {free : List HostObject} (h : r.clear = (free, r')) :
    r'.contains id = false := by
  obtain ⟨-, rfl⟩ := clear_eq h
  rw [← Bool.not_eq_true, contains_iff]
  rintro ⟨e', he', -, hl⟩
  obtain ⟨e, -, rfl⟩ := List.mem_map.mp he'
  cases hl

/-- A registration leaves with its last reference, so it is not listed any
    more. -/
theorem contains_returnLoan {last : Option HostObject} {id' : HandleId}
    (h : r.returnLoan id = (last, r')) (hd : r.Distinct) : r'.contains id' = r.contains id' := by
  cases last with
  | none =>
    rcases returnLoan_none h with ⟨-, rfl⟩ | ⟨-, -, -, rfl⟩
    · rfl
    · exact contains_update fun _ => ⟨rfl, rfl⟩
  | some o =>
    -- what goes was not listed, and ids are distinct
    obtain ⟨e, hf, hl, -, -, rfl⟩ := returnLoan_some h
    obtain ⟨he, rfl⟩ := mem_of_find? hf
    rw [Bool.eq_iff_iff, contains_iff, contains_iff]
    constructor
    · rintro ⟨e', he', hid, hl'⟩
      exact ⟨e', (List.mem_filter.mp he').1, hid, hl'⟩
    · rintro ⟨e', he', hid, hl'⟩
      refine ⟨e', List.mem_filter.mpr ⟨he', ?_⟩, hid, hl'⟩
      apply decide_eq_true
      intro heq
      rw [hd.eq he' he heq, hl] at hl'
      cases hl'

theorem contains_enlist {o : HostObject} {k : HandleKind} {id' : HandleId}
    (h : r.enlist o k = (.ok id, r')) :
    r'.contains id' = (r.contains id' || decide (id' = id)) := by
  obtain ⟨-, -, rfl, rfl⟩ := enlist_ok h
  rw [Bool.eq_iff_iff, Bool.or_eq_true, decide_eq_true_eq, contains_iff, contains_iff]
  constructor
  · rintro ⟨e, he, hid, hl⟩
    rcases List.mem_cons.mp he with rfl | he
    · exact .inr hid.symm
    · exact .inl ⟨e, he, hid, hl⟩
  · rintro (⟨e, he, hid, hl⟩ | rfl)
    · exact ⟨e, List.mem_cons_of_mem _ he, hid, hl⟩
    · exact ⟨_, List.mem_cons_self .., rfl, rfl⟩

/-! ### Soundness -/

theorem toNat_next {n : UInt64} (h : n < HandleId.limit) : (n + 1).toNat = n.toNat + 1 := by
  -- below the limit the counter does not wrap
  have hn : n.toNat < 2 ^ 64 - 1 := by simpa [HandleId.limit] using UInt64.lt_iff_toNat_lt.mp h
  have hone : (1 : UInt64).toNat = 1 := rfl
  rw [UInt64.toNat_add, hone, Nat.mod_eq_of_lt (by omega)]

theorem lt_next {n : UInt64} (h : n < HandleId.limit) : n < n + 1 := by
  rw [UInt64.lt_iff_toNat_lt, toNat_next h]
  omega

theorem lt_next_iff {n m : UInt64} (h : n < HandleId.limit) : m < n + 1 ↔ m < n ∨ m = n := by
  rw [UInt64.lt_iff_toNat_lt, UInt64.lt_iff_toNat_lt, toNat_next h, ← UInt64.toNat_inj]
  omega

/-- What every registry that the updates build keeps to. -/
structure Sound (r : Registry) : Prop where
  /-- Later registrations have higher ids, and stand first. -/
  falling : r.entries.Pairwise fun e e' => e'.id.raw < e.id.raw
  /-- Every id was issued. -/
  issued : ∀ e ∈ r.entries, e.id.raw < r.nextId
  /-- What the table does not list is on loan. -/
  used : ∀ e ∈ r.entries, e.listed = false → 0 < e.loans

namespace Sound

theorem distinct (hr : r.Sound) : r.Distinct := by
  rw [Distinct, List.Nodup, List.pairwise_map]
  refine hr.falling.imp fun hlt heq => ?_
  rw [heq] at hlt
  exact UInt64.lt_irrefl _ hlt

theorem lt_next_of_contains (hr : r.Sound) (hc : r.contains id = true) : id.raw < r.nextId := by
  obtain ⟨e, he, rfl, -⟩ := contains_iff.mp hc
  exact hr.issued e he

theorem of_entries_nil (h : r.entries = []) : r.Sound :=
  ⟨by simp [h], by simp [h], by simp [h]⟩

theorem update (hr : r.Sound) {f : Registration → Registration} (hf : ∀ e, (f e).id = e.id)
    (hu : ∀ e ∈ r.entries, e.id = id → (f e).listed = false → 0 < (f e).loans) :
    (r.update id f).Sound := by
  have hid : ∀ e, (if e.id = id then f e else e).id = e.id := fun e => by
    split
    · exact hf e
    · rfl
  refine ⟨?_, ?_, ?_⟩
  · simpa only [Registry.update, List.pairwise_map, hid] using hr.falling
  · intro e' he'
    obtain ⟨e, he, rfl⟩ := mem_update.mp he'
    rw [hid]
    exact hr.issued e he
  · intro e' he' hl
    obtain ⟨e, he, rfl⟩ := mem_update.mp he'
    by_cases h : e.id = id
    · rw [if_pos h] at hl ⊢
      exact hu e he h hl
    · rw [if_neg h] at hl ⊢
      exact hr.used e he hl

theorem lend (hr : r.Sound) : (r.lend id).Sound :=
  hr.update (fun _ => rfl) fun _ _ _ _ => Nat.succ_pos _

theorem delist (hr : r.Sound) : (r.delist id).Sound :=
  hr.update (fun _ => rfl) fun _ _ _ _ => Nat.succ_pos _

theorem markDelivered (hr : r.Sound) : (r.markDelivered id).Sound :=
  hr.update (fun _ => rfl) fun e he _ => hr.used e he

theorem filter (hr : r.Sound) (p : Registration → Bool) :
    Sound { r with entries := r.entries.filter p } where
  falling := hr.falling.sublist List.filter_sublist
  issued e he := hr.issued e (List.mem_filter.mp he).1
  used e he := hr.used e (List.mem_filter.mp he).1

theorem returnLoan {last : Option HostObject} (hr : r.Sound) (h : r.returnLoan id = (last, r')) :
    r'.Sound := by
  cases last with
  | none =>
    rcases returnLoan_none h with ⟨-, rfl⟩ | ⟨e, hf, hk, rfl⟩
    · exact hr
    · obtain ⟨hm, hid⟩ := mem_of_find? hf
      refine hr.update (fun _ => rfl) fun e' he' hid' hl => ?_
      obtain rfl : e' = e := hr.distinct.eq he' hm (hid'.trans hid.symm)
      -- it is listed, or another loan is left
      rcases hk with hk | hk
      · simp [hk] at hl
      · exact Nat.sub_pos_of_lt hk
  | some o =>
    obtain ⟨e, -, -, -, -, rfl⟩ := returnLoan_some h
    exact hr.filter _

theorem enlist {o : HostObject} {k : HandleKind} (hr : r.Sound)
    (h : r.enlist o k = (.ok id, r')) : r'.Sound := by
  obtain ⟨-, hn, rfl, rfl⟩ := enlist_ok h
  refine ⟨List.pairwise_cons.mpr ⟨fun e he => hr.issued e he, hr.falling⟩, ?_, ?_⟩
  · intro e he
    rcases List.mem_cons.mp he with rfl | he
    · exact lt_next hn
    · exact UInt64.lt_trans (hr.issued e he) (lt_next hn)
  · intro e he hl
    rcases List.mem_cons.mp he with rfl | he
    · simp [Registration.fresh] at hl
    · exact hr.used e he hl

theorem clear {free : List HostObject} (hr : r.Sound) (h : r.clear = (free, r')) : r'.Sound := by
  obtain ⟨-, rfl⟩ := clear_eq h
  have hk := hr.filter (0 < ·.loans)
  refine ⟨?_, ?_, ?_⟩
  · simpa only [List.pairwise_map] using hk.falling
  · intro e' he'
    obtain ⟨e, he, rfl⟩ := List.mem_map.mp he'
    exact hk.issued e he
  · intro e' he' _
    obtain ⟨e, he, rfl⟩ := List.mem_map.mp he'
    simpa using (List.mem_filter.mp he).2

end Sound

/-! ### Later registries -/

/-- `r'` is a later state of `r`.  What `r` has issued is settled: it only
    leaves the table, and nothing else comes in under its ids. -/
structure Rises (r r' : Registry) : Prop where
  policy : r'.policy = r.policy
  capacity : r'.capacity = r.capacity
  next : r.nextId ≤ r'.nextId
  kept : ∀ e' ∈ r'.entries, e'.id.raw < r.nextId → ∃ e ∈ r.entries,
    e.id = e'.id ∧ e.object = e'.object ∧ e.kind = e'.kind ∧ (e'.listed = true → e.listed = true)

namespace Rises

theorem refl (r : Registry) : Rises r r :=
  ⟨rfl, rfl, UInt64.le_refl _, fun e he _ => ⟨e, he, rfl, rfl, rfl, fun h => h⟩⟩

theorem trans {r'' : Registry} (h : Rises r r') (h' : Rises r' r'') : Rises r r'' where
  policy := h'.policy.trans h.policy
  capacity := h'.capacity.trans h.capacity
  next := UInt64.le_trans h.next h'.next
  kept e'' he'' hn := by
    obtain ⟨e', he', hid', ho', hk', hl'⟩ := h'.kept e'' he'' (UInt64.lt_of_lt_of_le hn h.next)
    obtain ⟨e, he, hid, ho, hk, hl⟩ := h.kept e' he' (hid' ▸ hn)
    exact ⟨e, he, hid.trans hid', ho.trans ho', hk.trans hk', fun hx => hl (hl' hx)⟩

/-- An id that was settled and not in the table stays out of it. -/
theorem contains_false (h : Rises r r') (hn : id.raw < r.nextId) (hc : r.contains id = false) :
    r'.contains id = false := by
  rw [← Bool.not_eq_true, contains_iff] at hc ⊢
  rintro ⟨e', he', rfl, hl'⟩
  obtain ⟨e, he, hid, -, -, hl⟩ := h.kept e' he' hn
  exact hc ⟨e, he, hid, hl hl'⟩

theorem update {f : Registration → Registration}
    (hf : ∀ e, (f e).id = e.id ∧ (f e).object = e.object ∧ (f e).kind = e.kind ∧
      ((f e).listed = true → e.listed = true)) :
    Rises r (r.update id f) := by
  refine ⟨rfl, rfl, UInt64.le_refl _, fun e' he' _ => ?_⟩
  obtain ⟨e, he, rfl⟩ := mem_update.mp he'
  refine ⟨e, he, ?_⟩
  split
  · obtain ⟨hid, ho, hk, hl⟩ := hf e
    exact ⟨hid.symm, ho.symm, hk.symm, hl⟩
  · exact ⟨rfl, rfl, rfl, fun h => h⟩

theorem lend : Rises r (r.lend id) :=
  update fun _ => ⟨rfl, rfl, rfl, fun h => h⟩

theorem delist : Rises r (r.delist id) :=
  update fun _ => ⟨rfl, rfl, rfl, fun h => by simp at h⟩

theorem markDelivered : Rises r (r.markDelivered id) :=
  update fun _ => ⟨rfl, rfl, rfl, fun h => h⟩

theorem filter (p : Registration → Bool) : Rises r { r with entries := r.entries.filter p } :=
  ⟨rfl, rfl, UInt64.le_refl _,
    fun e he _ => ⟨e, (List.mem_filter.mp he).1, rfl, rfl, rfl, fun h => h⟩⟩

theorem returnLoan {last : Option HostObject} (h : r.returnLoan id = (last, r')) :
    Rises r r' := by
  cases last with
  | none =>
    rcases returnLoan_none h with ⟨-, rfl⟩ | ⟨-, -, -, rfl⟩
    · exact refl _
    · exact update fun _ => ⟨rfl, rfl, rfl, fun h => h⟩
  | some o =>
    obtain ⟨-, -, -, -, -, rfl⟩ := returnLoan_some h
    exact filter _

theorem enlist {o : HostObject} {k : HandleKind} (h : r.enlist o k = (.ok id, r')) :
    Rises r r' := by
  obtain ⟨-, hn, rfl, rfl⟩ := enlist_ok h
  refine ⟨rfl, rfl, UInt64.le_of_lt (lt_next hn), fun e he hlt => ?_⟩
  rcases List.mem_cons.mp he with rfl | he
  · -- the newcomer has the id that was next
    exact absurd hlt (UInt64.lt_irrefl _)
  · exact ⟨e, he, rfl, rfl, rfl, fun h => h⟩

theorem clear {free : List HostObject} (h : r.clear = (free, r')) : Rises r r' := by
  obtain ⟨-, rfl⟩ := clear_eq h
  refine ⟨rfl, rfl, UInt64.le_refl _, fun e' he' _ => ?_⟩
  obtain ⟨e, he, rfl⟩ := List.mem_map.mp he'
  exact ⟨e, (List.mem_filter.mp he).1, rfl, rfl, rfl, fun h => by simp at h⟩

end Rises

/-! ### Updates that claim nothing -/

/-- Each registration of `r'` stood in `r` already, and its result was claimed
    there if it is now. -/
def Retains (r r' : Registry) : Prop :=
  ∀ e' ∈ r'.entries, ∃ e ∈ r.entries,
    e.id = e'.id ∧ e.object = e'.object ∧ e.kind = e'.kind ∧ e.delivered = e'.delivered

namespace Retains

theorem refl (r : Registry) : Retains r r :=
  fun e he => ⟨e, he, rfl, rfl, rfl, rfl⟩

theorem update {f : Registration → Registration}
    (hf : ∀ e, (f e).id = e.id ∧ (f e).object = e.object ∧ (f e).kind = e.kind ∧
      (f e).delivered = e.delivered) : Retains r (r.update id f) := by
  intro e' he'
  obtain ⟨e, he, rfl⟩ := mem_update.mp he'
  refine ⟨e, he, ?_⟩
  split
  · obtain ⟨hid, ho, hk, hd⟩ := hf e
    exact ⟨hid.symm, ho.symm, hk.symm, hd.symm⟩
  · exact ⟨rfl, rfl, rfl, rfl⟩

theorem lend : Retains r (r.lend id) := update fun _ => ⟨rfl, rfl, rfl, rfl⟩

theorem delist : Retains r (r.delist id) := update fun _ => ⟨rfl, rfl, rfl, rfl⟩

theorem returnLoan {last : Option HostObject} (h : r.returnLoan id = (last, r')) :
    Retains r r' := by
  cases last with
  | none =>
    rcases returnLoan_none h with ⟨-, rfl⟩ | ⟨-, -, -, rfl⟩
    · exact refl _
    · exact update fun _ => ⟨rfl, rfl, rfl, rfl⟩
  | some o =>
    obtain ⟨e, -, -, -, -, rfl⟩ := returnLoan_some h
    exact fun e he => ⟨e, (List.mem_filter.mp he).1, rfl, rfl, rfl, rfl⟩

theorem clear {free : List HostObject} (h : r.clear = (free, r')) : Retains r r' := by
  obtain ⟨-, rfl⟩ := clear_eq h
  intro e' he'
  obtain ⟨e, he, rfl⟩ := List.mem_map.mp he'
  exact ⟨e, (List.mem_filter.mp he).1, rfl, rfl, rfl, rfl⟩

end Retains

/-! ### Updates that delist nothing -/

/-- Each registration that `r` lists is listed by `r'` as well, for the same use
    of the same object, unless its id is one of `gone`. -/
def Spares (gone : HandleId → Prop) (r r' : Registry) : Prop :=
  ∀ e ∈ r.entries, e.listed = true → gone e.id ∨
    ∃ e' ∈ r'.entries, e'.listed = true ∧ e'.id = e.id ∧ e'.object = e.object ∧ e'.kind = e.kind

namespace Spares

variable {gone gone' : HandleId → Prop}

theorem refl (r : Registry) : Spares gone r r :=
  fun e he hl => .inr ⟨e, he, hl, rfl, rfl, rfl⟩

theorem mono (h : Spares gone r r') (hg : ∀ id, gone id → gone' id) : Spares gone' r r' :=
  fun e he hl => (h e he hl).imp_left (hg e.id)

theorem trans {r'' : Registry} (h : Spares gone r r') (h' : Spares gone r' r'') :
    Spares gone r r'' := by
  intro e he hl
  rcases h e he hl with hg | ⟨e', he', hl', hid', ho', hk'⟩
  · exact .inl hg
  rcases h' e' he' hl' with hg | ⟨e'', he'', hl'', hid'', ho'', hk''⟩
  · exact .inl (hid' ▸ hg)
  · exact .inr ⟨e'', he'', hl'', hid''.trans hid', ho''.trans ho', hk''.trans hk'⟩

theorem update {f : Registration → Registration}
    (hf : ∀ e, (f e).id = e.id ∧ (f e).object = e.object ∧ (f e).kind = e.kind ∧
      (e.listed = true → gone e.id ∨ (f e).listed = true)) : Spares gone r (r.update id f) := by
  intro e he hl
  have there : (if e.id = id then f e else e) ∈ (r.update id f).entries :=
    mem_update.mpr ⟨e, he, rfl⟩
  split at there
  · obtain ⟨hid, ho, hk, hlist⟩ := hf e
    exact (hlist hl).imp_right fun hl' => ⟨f e, there, hl', hid, ho, hk⟩
  · exact .inr ⟨e, there, hl, rfl, rfl, rfl⟩

theorem lend : Spares gone r (r.lend id) := update fun _ => ⟨rfl, rfl, rfl, .inr⟩

theorem markDelivered : Spares gone r (r.markDelivered id) := update fun _ => ⟨rfl, rfl, rfl, .inr⟩

theorem returnLoan {last : Option HostObject} (hr : r.Sound) (h : r.returnLoan id = (last, r')) :
    Spares gone r r' := by
  cases last with
  | none =>
    rcases returnLoan_none h with ⟨-, rfl⟩ | ⟨-, -, -, rfl⟩
    · exact refl _
    · exact update fun _ => ⟨rfl, rfl, rfl, .inr⟩
  | some o =>
    -- what goes was not listed, and nothing else has its id
    obtain ⟨e₀, hf, hl₀, -, -, rfl⟩ := returnLoan_some h
    obtain ⟨he₀, rfl⟩ := mem_of_find? hf
    intro e he hl
    refine .inr ⟨e, List.mem_filter.mpr ⟨he, ?_⟩, hl, rfl, rfl, rfl⟩
    rw [decide_eq_true_eq]
    intro hid
    rw [hr.distinct.eq he he₀ hid, hl₀] at hl
    cases hl

theorem enlist {o : HostObject} {k : HandleKind} (h : r.enlist o k = (.ok id, r')) :
    Spares gone r r' := by
  obtain ⟨-, -, -, rfl⟩ := enlist_ok h
  exact fun e he hl => .inr ⟨e, List.mem_cons_of_mem _ he, hl, rfl, rfl, rfl⟩

/-- Only the id itself is struck off. -/
theorem delist : Spares (· = id) r (r.delist id) := by
  intro e he hl
  by_cases hid : e.id = id
  · exact .inl hid
  · exact .inr ⟨e, mem_update.mpr ⟨e, he, if_neg hid⟩, hl, rfl, rfl, rfl⟩

end Spares

end CallbackBridge.Registry
