import CallbackBridge.Proofs.Ledger.Ids

/-! # Claims and objects in the books

    Key ideas:

    1. The result of an invoke handle is claimed in the moment in which a
       delivery begins that finds it listed, and in no other.
    2. Where the host hands out each reference once, each reference is
       registered under one id for the whole run. -/

namespace CallbackBridge.Run

open History

/-! ### Claims -/

/-- At this moment a delivery begins that finds `id` in the table. -/
def Moment.Delivers (m : Moment) (id : HandleId) : Prop :=
  ∃ op thread q, m.event = .begins op thread q ∧ q.delivered? = some id ∧
    m.state.registry.contains id = true

/-- The results of invoke handles are claimed by the deliveries of a history. -/
def Claimed (h : History) (r : Registry) : Prop :=
  ∀ e ∈ r.entries, e.kind = .invoke → (e.delivered = true ↔ ∃ m ∈ h, m.Delivers e.id)

namespace Claimed

variable {h : History} {r r' : Registry} {m : Moment}

theorem retains (hc : Claimed h r) (hr : r.Retains r') : Claimed h r' := by
  intro e' he' hk
  obtain ⟨e, he, hid, -, hkind, hd⟩ := hr e' he'
  rw [← hid, ← hd]
  exact hc e he (hkind.trans hk)

/-- A moment claims nothing where it does not deliver. -/
theorem cons_iff (hc : Claimed h r) {e : Registration} (he : e ∈ r.entries) (hk : e.kind = .invoke)
    (hm : ¬ m.Delivers e.id) : e.delivered = true ↔ ∃ m' ∈ m :: h, m'.Delivers e.id := by
  rw [hc e he hk]
  constructor
  · rintro ⟨m', hm', hd⟩
    exact ⟨m', List.mem_cons_of_mem _ hm', hd⟩
  · rintro ⟨m', hm', hd⟩
    rcases List.mem_cons.mp hm' with rfl | hm'
    · exact absurd hd hm
    · exact ⟨m', hm', hd⟩

theorem cons (hc : Claimed h r)
    (hm : ∀ e ∈ r.entries, e.kind = .invoke → ¬ m.Delivers e.id) : Claimed (m :: h) r :=
  fun e he hk => hc.cons_iff he hk (hm e he hk)

end Claimed

theorem Moment.delivers_begins {op : Nat} {thread : Thread} {q : Request} {s : State}
    {id : HandleId} (hd : Moment.Delivers ⟨.begins op thread q, s⟩ id) :
    q.delivered? = some id ∧ s.registry.contains id = true := by
  obtain ⟨_, _, _, heq, hq, hc⟩ := hd
  cases heq
  exact ⟨hq, hc⟩

theorem Opening.claimed {h : History} {r' : Registry} {q : Request} {op : Nat} {thread : Thread}
    {s : State} {gained : Multiset Token} (ho : Opening h s.registry q r' gained)
    (hr : s.registry.Sound) (hc : Claimed h s.registry) :
    Claimed (⟨.begins op thread q, s⟩ :: h) r' := by
  have quiet : q.delivered? = none → Claimed (⟨.begins op thread q, s⟩ :: h) s.registry := by
    intro hq
    apply hc.cons
    intro e _ _ hd
    rw [(Moment.delivers_begins hd).1] at hq
    cases hq
  cases ho with
  | releases hq _ =>
    exact (quiet (Request.delivered?_eq_none_of_released? hq)).retains .delist
  | closes hcl =>
    -- what stays on loan keeps its claim
    exact (quiet rfl).retains (.clear hcl)
  | returns => exact quiet rfl
  | rest _ hk _ _ =>
    apply hc.cons
    intro e he hinv hd
    obtain ⟨hq, hlisted⟩ := Moment.delivers_begins hd
    obtain ⟨e', he', hid, hl⟩ := Registry.contains_iff.mp hlisted
    rw [hr.distinct.eq he' he hid] at hl
    exact hk e.id e hq (hr.distinct.listed?_eq he hl) hinv
  | @claims _ id e₀ hq hf hk =>
    intro e' he' hinv
    obtain ⟨e, he, rfl⟩ := Registry.mem_update.mp he'
    by_cases hid : e.id = id
    · -- this delivery claims the result, if no earlier one has
      have here : Moment.Delivers ⟨.begins op thread q, s⟩ id :=
        ⟨op, thread, q, rfl, hq, by rw [Registry.contains, hf, Option.isSome_some]⟩
      rw [if_pos hid]
      refine ⟨fun _ => ⟨_, List.mem_cons_self .., ?_⟩, fun _ => rfl⟩
      rw [← hid] at here
      exact here
    · rw [if_neg hid] at hinv ⊢
      refine hc.cons_iff he hinv fun hd => hid ?_
      exact Option.some.inj ((Moment.delivers_begins hd).1.symm.trans hq)

theorem Note.not_delivers {e : Event} {spent gained : Multiset Token} (hn : Note e spent gained)
    {s : State} {id : HandleId} : ¬ Moment.Delivers ⟨e, s⟩ id := by
  rintro ⟨op, thread, q, heq, -⟩
  cases hn with
  | rest hb =>
    simp only at heq
    rw [heq] at hb
    cases hb
  | _ => cases heq

namespace Booked

variable {s₀ s : State} {h : History} {tokens : Multiset Token}

theorem claimed (hb : Booked s₀ s h tokens) : Claimed h s.registry := by
  induction hb with
  | opens he => exact fun e hm => by simp [he] at hm
  | begins hb ho ih => exact ho.claimed hb.sound ih
  | notes _ hn ih => exact ih.cons fun _ _ _ => hn.not_delivers
  | changes hb hch ih =>
    cases hch with
    | lend => exact ih.retains .lend
    | giveBack hl => exact ih.retains (.returnLoan hl)
    | discard => exact ih
    | enlist _ _ he =>
      obtain ⟨-, -, rfl, rfl⟩ := Registry.enlist_ok he
      intro e hm hk
      rcases List.mem_cons.mp hm with rfl | hm
      · -- nobody has delivered to an id before it was issued
        refine ⟨fun hd => (by cases hd), fun ⟨m, hm, hd⟩ => ?_⟩
        obtain ⟨op, thread, q, -, -, hc⟩ := hd
        have rises := hb.rises hm
        obtain ⟨later, before, rfl⟩ := List.append_of_mem hm
        obtain ⟨_, hb'⟩ := hb.always.split
        have hlt := UInt64.lt_of_lt_of_le (hb'.sound.lt_next_of_contains hc) rises.next
        exact absurd hlt (UInt64.lt_irrefl _)
      · exact ih e hm hk
  | counts _ ih | tallies _ _ ih | limits _ ih => exact ih

end Booked

/-! ### Objects -/

/-- `o` is registered under `id`, or it was at some moment. -/
def Known (h : History) (r : Registry) (id : HandleId) (o : HostObject) : Prop :=
  (∃ e ∈ r.entries, e.id = id ∧ e.object = o) ∨
    ∃ m ∈ h, ∃ e ∈ m.state.registry.entries, e.id = id ∧ e.object = o

/-- Each reference is in one place: just pinned, or known under one id. -/
structure Unshared (h : History) (r : Registry) (tokens : Multiset Token) : Prop where
  fresh : ∀ o, tokens.count (.fresh o) ≤ 1
  unused : ∀ o id, .fresh o ∈ tokens → ¬ Known h r id o
  handed : ∀ o, (.fresh o ∈ tokens ∨ ∃ id, Known h r id o) → o ∈ handedOut h
  unique : ∀ id id' o, Known h r id o → Known h r id' o → id = id'

namespace Unshared

variable {h h' : History} {r r' : Registry} {tokens tokens' : Multiset Token} {s : State}
  {o : HostObject}

/-- Nothing new is known and nothing more was pinned. -/
theorem of_le (hu : Unshared h r tokens) (hk : ∀ id o, Known h' r' id o → Known h r id o)
    (ht : ∀ o, tokens'.count (.fresh o) ≤ tokens.count (.fresh o))
    (hh : handedOut h ⊆ handedOut h') : Unshared h' r' tokens' := by
  have mem : ∀ o, Token.fresh o ∈ tokens' → Token.fresh o ∈ tokens := by
    intro o hm
    rw [← Multiset.count_pos] at hm ⊢
    exact Nat.lt_of_lt_of_le hm (ht o)
  refine ⟨fun o => (ht o).trans (hu.fresh o), fun o id hm hx => ?_, fun o hx => ?_, ?_⟩
  · exact hu.unused o id (mem o hm) (hk id o hx)
  · refine hh (hu.handed o ?_)
    exact hx.imp (mem o) fun ⟨id, hx⟩ => ⟨id, hk id o hx⟩
  · exact fun id id' o hx hx' => hu.unique id id' o (hk id o hx) (hk id' o hx')

/-- A reference that was never handed out before is in one place. -/
theorem pins {e : Event} (hu : Unshared h s.registry tokens) (hh : handedOut? e = some o)
    (hk : ∀ id o, Known (⟨e, s⟩ :: h) s.registry id o → Known h s.registry id o)
    (hf : o ∉ handedOut h) : Unshared (⟨e, s⟩ :: h) s.registry (tokens + {.fresh o}) := by
  -- a reference that is known, or in hand, was handed out before
  have more : handedOut (⟨e, s⟩ :: h) = o :: handedOut h := List.filterMap_cons_some hh
  have absent : Token.fresh o ∉ tokens := fun hm => hf (hu.handed o (.inl hm))
  have mem : ∀ o', Token.fresh o' ∈ tokens + {.fresh o} → o' = o ∨ Token.fresh o' ∈ tokens := by
    intro o' hm
    simpa [or_comm] using hm
  refine ⟨fun o' => ?_, fun o' id hm hx => ?_, fun o' hx => ?_, ?_⟩
  · have := hu.fresh o'
    have hzero := Multiset.count_eq_zero.mpr absent
    by_cases ho : o' = o
    · subst ho
      simp [hzero]
    · simp [ho, this]
  · rcases mem o' hm with rfl | hm
    · exact hf (hu.handed o' (.inr ⟨id, hk id o' hx⟩))
    · exact hu.unused o' id hm (hk id o' hx)
  · rw [more]
    rcases hx with hm | ⟨id, hx⟩
    · rcases mem o' hm with rfl | hm
      · exact List.mem_cons_self ..
      · exact List.mem_cons_of_mem _ (hu.handed o' (.inl hm))
    · exact List.mem_cons_of_mem _ (hu.handed o' (.inr ⟨id, hk id o' hx⟩))
  · exact fun id id' o hx hx' => hu.unique id id' o (hk id o hx) (hk id' o hx')

/-- A reference that was just pinned is registered. -/
theorem enlist {k : HandleKind} {id : HandleId}
    (hu : Unshared h r (tokens + {.fresh o})) (he : r.enlist o k = (.ok id, r')) :
    Unshared h r' tokens := by
  -- what is known now is the newcomer, or it was known before
  have known : ∀ id' o', Known h r' id' o' → (id' = id ∧ o' = o) ∨ Known h r id' o' := by
    obtain ⟨-, -, rfl, rfl⟩ := Registry.enlist_ok he
    rintro id o' (⟨e, he, hid, ho⟩ | hx)
    · rcases List.mem_cons.mp he with rfl | he
      · exact .inl ⟨hid.symm, ho.symm⟩
      · exact .inr (.inl ⟨e, he, hid, ho⟩)
    · exact .inr (.inr hx)
  have here : Token.fresh o ∈ tokens + {.fresh o} := by simp
  have unknown : ∀ id, ¬ Known h r id o := fun id => hu.unused o id here
  have absent : Token.fresh o ∉ tokens := by
    have := hu.fresh o
    rw [Multiset.count_add, Multiset.count_singleton_self] at this
    exact Multiset.count_eq_zero.mp (by omega)
  have sub : ∀ o', Token.fresh o' ∈ tokens → Token.fresh o' ∈ tokens + {.fresh o} :=
    fun o' hm => Multiset.mem_add.mpr (.inl hm)
  refine ⟨fun o' => ?_, fun o' id hm hx => ?_, fun o' hx => ?_, fun id id' o' hx hx' => ?_⟩
  · have := hu.fresh o'
    rw [Multiset.count_add] at this
    omega
  · rcases known id o' hx with ⟨-, rfl⟩ | hx
    · exact absent hm
    · exact hu.unused o' id (sub o' hm) hx
  · rcases hx with hm | ⟨id, hx⟩
    · exact hu.handed o' (.inl (sub o' hm))
    · rcases known id o' hx with ⟨-, rfl⟩ | hx
      · exact hu.handed o' (.inl here)
      · exact hu.handed o' (.inr ⟨id, hx⟩)
  · rcases known id o' hx with ⟨rfl, rfl⟩ | hx
    · rcases known id' o' hx' with ⟨rfl, -⟩ | hx'
      · rfl
      · -- nobody knew the reference while it was in hand
        exact absurd hx' (unknown id')
    · rcases known id' o' hx' with ⟨rfl, rfl⟩ | hx'
      · exact absurd hx (unknown id)
      · exact hu.unique id id' o' hx hx'

end Unshared

theorem Known.of_subset {h : History} {r r' : Registry} {id : HandleId} {o : HostObject}
    (hr : ∀ e' ∈ r'.entries, ∃ e ∈ r.entries, e.id = e'.id ∧ e.object = e'.object)
    (hk : Known h r' id o) : Known h r id o := by
  apply hk.imp_left
  rintro ⟨e', he', rfl, rfl⟩
  exact hr e' he'

theorem Known.of_retains {h : History} {r r' : Registry} {id : HandleId} {o : HostObject}
    (hr : r.Retains r') (hk : Known h r' id o) : Known h r id o :=
  hk.of_subset fun e' he' => (hr e' he').imp fun _ hx => ⟨hx.1, hx.2.1, hx.2.2.1⟩

/-- A moment tells nothing that its state does not show. -/
theorem Known.of_cons {h : History} {e : Event} {s : State} {id : HandleId} {o : HostObject}
    (hk : Known (⟨e, s⟩ :: h) s.registry id o) : Known h s.registry id o := by
  rcases hk with hk | ⟨m, hm, hk⟩
  · exact .inl hk
  · rcases List.mem_cons.mp hm with rfl | hm
    · exact .inl hk
    · exact .inr ⟨m, hm, hk⟩

namespace Booked

variable {s₀ s : State} {h : History} {tokens : Multiset Token}

theorem unshared (hb : Booked s₀ s h tokens) (hf : h.FreshPins) :
    Unshared h s.registry tokens := by
  induction hb with
  | opens he =>
    have none : ∀ id o, ¬ Known [] s₀.registry id o := by
      rintro id o (⟨e, hm, -⟩ | ⟨m, hm, -⟩)
      · simp [he] at hm
      · cases hm
    refine ⟨by simp, by simp, fun o hx => ?_, fun id _ o hx => absurd hx (none id o)⟩
    simp [none] at hx
  | @begins s h op thread q r tokens gained hb ho ih =>
    refine (ih hf.2).of_le (fun id o hk => ?_) (fun o => ?_) fun o hm => hm
    · -- an operation that begins registers nothing
      refine Known.of_cons (e := .begins op thread q) (hk.of_subset fun e' he' => ?_)
      have settled := (ho.sound hb.sound).issued e' he'
      rw [ho.next_eq] at settled
      obtain ⟨e, he, hid, hobj, -⟩ := ho.rises.kept e' he' settled
      exact ⟨e, he, hid, hobj⟩
    · cases ho <;> simp
  | @notes s h e tokens spent gained hb hn ih =>
    cases hn with
    | pins =>
      have hu : Unshared h s.registry tokens :=
        (ih hf.2).of_le (fun _ _ h => h) (fun o => by simp) fun _ h => h
      exact hu.pins rfl (fun _ _ => Known.of_cons) (hf.1 _ rfl)
    | @refuses _ _ _ lost =>
      refine (ih hf.2).of_le (fun _ _ => Known.of_cons) (fun o => ?_) fun _ h => h
      cases lost <;> simp [lastOf]
    | rest _ hh =>
      apply (ih hf.2).of_le (fun _ _ => Known.of_cons) (fun o => by simp)
      intro o hm
      have same : handedOut (⟨e, s⟩ :: h) = handedOut h := List.filterMap_cons_none hh
      rwa [same]
    | _ => exact (ih hf.2).of_le (fun _ _ => Known.of_cons) (fun o => by simp) fun _ h => h
  | changes hb hch ih =>
    cases hch with
    | lend => exact (ih hf).of_le (fun _ _ => .of_retains .lend) (fun o => by simp) fun _ h => h
    | @giveBack _ _ last _ hl =>
      refine (ih hf).of_le (fun _ _ => .of_retains (.returnLoan hl)) (fun o => ?_) fun _ h => h
      cases last <;> simp [lastOf]
    | discard => exact (ih hf).of_le (fun _ _ h => h) (fun o => by simp) fun _ h => h
    | enlist _ _ he =>
      refine ((ih hf).enlist he).of_le (fun _ _ h => h) (fun o => by simp) fun _ h => h
  | counts _ ih => exact (ih hf).of_le (fun _ _ h => h) (fun o => by simp) fun _ h => h
  | tallies _ _ ih | limits _ ih => exact ih hf

end Booked

end CallbackBridge.Run
