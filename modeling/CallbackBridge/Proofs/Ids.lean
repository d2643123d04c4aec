import CallbackBridge.Proofs.Ledger.Runs
import CallbackBridge.Proofs.Run.Dispatching

/-! # Ids

    An id names one registration for ever.  It is never issued again, and once
    it has left the table it names nothing.

    Key ideas:

    1. A moment and the one before it show which ids have come into the table
       between them; `entered` lists these, newest first.
    2. Ids below the counter are settled: they can leave the table, and none
       comes into it.  So what comes in later is higher, and at the limit
       nothing comes in any more.
    3. What an operation on a dead id does follows from the table as it begins,
       whatever is nested in it. -/

namespace CallbackBridge.Run

open History

/-! ### Entering the table -/

namespace History

/-- The table lists `id` at the last moment. -/
def lists (h : History) (id : HandleId) : Bool :=
  h.head?.any (·.state.registry.contains id)

/-- The ids that a moment finds in the table and the one before it did not. -/
def came (m : Moment) (before : History) : List HandleId :=
  (m.state.registry.table.map (·.id)).filter (!lists before ·)

/-- The ids of all registrations, in the order in which they entered the table,
    newest first. -/
def entered : History → List HandleId
  | [] => []
  | m :: before => came m before ++ entered before

end History

/-- The registry is sound, and a later state of what it was at each moment
    before. -/
def Moment.Settled (m : Moment) (before : History) : Prop :=
  m.state.registry.Sound ∧ ∀ m' ∈ before, m'.state.registry.Rises m.state.registry

theorem Booked.settled {s₀ s : State} {h : History} {tokens : Multiset Token}
    (hb : Booked s₀ s h tokens) : h.Always Moment.Settled :=
  hb.always.imp fun _ _ ⟨_, hb⟩ => ⟨hb.sound, fun _ hm => hb.rises hm⟩

namespace History

variable {h before : History} {m : Moment} {id : HandleId}

theorem sound_of_mem (hs : h.Always Moment.Settled) (hm : m ∈ h) : m.state.registry.Sound := by
  obtain ⟨later, before, rfl⟩ := List.append_of_mem hm
  exact hs.split.1

theorem mem_came :
    id ∈ came m before ↔ m.state.registry.contains id = true ∧ lists before id = false := by
  rw [came, List.mem_filter, Registry.mem_table_ids, Bool.not_eq_true']

theorem mem_entered_cons : id ∈ entered (m :: before) ↔ id ∈ came m before ∨ id ∈ entered before :=
  List.mem_append

/-- What the table lists at some moment has entered it. -/
theorem mem_entered_of_contains (hm : m ∈ h) (hc : m.state.registry.contains id = true) :
    id ∈ entered h := by
  induction h generalizing m with
  | nil => cases hm
  | cons m' before ih =>
    rw [mem_entered_cons]
    rcases List.mem_cons.mp hm with rfl | hm
    · cases hl : lists before id with
      | false => exact .inl (mem_came.mpr ⟨hc, hl⟩)
      | true =>
        cases before with
        | nil => cases hl
        | cons m₀ older => exact .inr (ih (List.mem_cons_self ..) hl)
    · exact .inr (ih hm hc)

theorem exists_of_mem_entered (hid : id ∈ entered h) :
    ∃ m ∈ h, m.state.registry.contains id = true := by
  induction h with
  | nil => cases hid
  | cons m before ih =>
    rcases mem_entered_cons.mp hid with hid | hid
    · exact ⟨m, List.mem_cons_self .., (mem_came.mp hid).1⟩
    · exact (ih hid).imp fun _ hx => hx.imp_left (List.mem_cons_of_mem _)

/-- What enters the table was not settled at any moment before. -/
theorem settled_le (hs : Always Moment.Settled (m :: before)) (hid : id ∈ came m before)
    {m' : Moment} (hm' : m' ∈ before) : m'.state.registry.nextId ≤ id.raw := by
  obtain ⟨hc, hl⟩ := mem_came.mp hid
  cases before with
  | nil => cases hm'
  | cons m₀ older =>
    have rises₀ : m₀.state.registry.Rises m.state.registry := hs.1.2 m₀ (List.mem_cons_self ..)
    -- if it had been settled, it would not have come in
    have young : m₀.state.registry.nextId ≤ id.raw := by
      by_contra hlt
      rw [UInt64.not_le] at hlt
      rw [rises₀.contains_false hlt hl] at hc
      cases hc
    rcases List.mem_cons.mp hm' with rfl | hm'
    · exact young
    · exact UInt64.le_trans (hs.2.1.2 m' hm').next young

/-- Ids enter the table in rising order. -/
theorem pairwise_entered (hs : h.Always Moment.Settled) :
    (entered h).Pairwise fun id earlier => earlier.raw < id.raw := by
  induction h with
  | nil => exact .nil
  | cons m before ih =>
    rw [entered, List.pairwise_append]
    refine ⟨?_, ih hs.2, fun id hid earlier he => ?_⟩
    · -- those that come in together stand in the order of the table
      apply List.Pairwise.filter _
      rw [List.pairwise_map]
      exact hs.1.1.falling.sublist List.filter_sublist
    · obtain ⟨m', hm', hc'⟩ := exists_of_mem_entered he
      have issued := (sound_of_mem hs.2 hm').lt_next_of_contains hc'
      exact UInt64.lt_of_lt_of_le issued (settled_le hs hid hm')

/-- What has entered the table stays on the list, and what enters it after a
    moment was not settled then. -/
theorem entered_append {later : History} (hs : Always Moment.Settled (later ++ m :: before)) :
    ∃ new, entered (later ++ m :: before) = new ++ entered (m :: before) ∧
      ∀ id ∈ new, m.state.registry.nextId ≤ id.raw := by
  induction later with
  | nil => exact ⟨[], rfl, by simp⟩
  | cons m' later ih =>
    obtain ⟨new, heq, hnew⟩ := ih hs.2
    refine ⟨came m' (later ++ m :: before) ++ new, ?_, fun id hid => ?_⟩
    · rw [List.cons_append, entered, heq, List.append_assoc]
    · rcases List.mem_append.mp hid with hid | hid
      · exact settled_le hs hid (by simp)
      · exact hnew id hid

/-- Of two moments one is the later one. -/
theorem rises_or_rises (hs : h.Always Moment.Settled) {m' : Moment} (hm : m ∈ h) (hm' : m' ∈ h) :
    m.state.registry.Rises m'.state.registry ∨ m'.state.registry.Rises m.state.registry := by
  induction h with
  | nil => cases hm
  | cons m₀ before ih =>
    rcases List.mem_cons.mp hm with rfl | older
    · rcases List.mem_cons.mp hm' with rfl | older'
      · exact .inl (.refl _)
      · exact .inr (hs.1.2 m' older')
    · rcases List.mem_cons.mp hm' with rfl | older'
      · exact .inl (hs.1.2 m older)
      · exact ih hs.2 older older'

/-- From a moment on, the registry is a later state of what it was then. -/
theorem rises_since {later : History} (hs : Always Moment.Settled (later ++ m :: before))
    {m' : Moment} (hm' : m' ∈ later ++ [m]) : m.state.registry.Rises m'.state.registry := by
  rcases List.mem_append.mp hm' with hm' | hm'
  · obtain ⟨later', earlier, rfl⟩ := List.append_of_mem hm'
    rw [List.append_assoc] at hs
    exact hs.split.2 m (by simp)
  · rw [List.mem_singleton.mp hm']
    exact .refl _

end History

/-- An id is issued to a registration that the table lists. -/
theorem Change.contains_of_lt_next {h : History} {r r' : Registry} {spent gained : Multiset Token}
    {id : HandleId} (hc : Change h r spent r' gained) (hlt : id.raw < r'.nextId) :
    id.raw < r.nextId ∨ r'.contains id = true := by
  cases hc with
  | lend => exact .inl hlt
  | giveBack hb => exact .inl (Registry.nextId_returnLoan hb ▸ hlt)
  | enlist _ _ he =>
    rw [Registry.contains_enlist he]
    obtain ⟨-, hn, rfl, rfl⟩ := Registry.enlist_ok he
    apply ((Registry.lt_next_iff hn).mp hlt).imp_right
    intro heq
    have : id = ⟨r.nextId⟩ := by rw [← heq]
    simp [this]
  | discard => exact .inl hlt

namespace Booked

variable {s₀ s : State} {h : History} {tokens : Multiset Token} {id : HandleId}

/-- An id that was issued has entered the table, or it is there now. -/
theorem entered_or_contains (hb : Booked s₀ s h tokens) (hle : s₀.registry.nextId ≤ id.raw)
    (hlt : id.raw < s.registry.nextId) : id ∈ entered h ∨ s.registry.contains id = true := by
  induction hb with
  | opens _ => exact absurd hle (UInt64.not_le.mpr hlt)
  | begins _ ho ih =>
    rw [ho.next_eq] at hlt
    refine .inl ((ih hlt).elim (fun he => mem_entered_cons.mpr (.inr he)) fun hc => ?_)
    exact mem_entered_of_contains (List.mem_cons_self ..) hc
  | notes _ _ ih =>
    exact (ih hlt).imp_left fun he => mem_entered_cons.mpr (.inr he)
  | changes hb hch ih =>
    rcases hch.contains_of_lt_next hlt with hlt | hc
    · exact (ih hlt).imp_right (hch.contains_of hb.sound)
    · exact .inr hc
  | counts _ ih | tallies _ _ ih | limits _ ih => exact ih hlt

/-- What entered the table was issued in the run. -/
theorem issued_of_entered (hb : Booked s₀ s h tokens) (hid : id ∈ entered h) :
    s₀.registry.nextId ≤ id.raw ∧ id.raw < s.registry.nextId := by
  obtain ⟨m, hm, hc⟩ := exists_of_mem_entered hid
  have rises := hb.rises hm
  obtain ⟨later, before, rfl⟩ := List.append_of_mem hm
  obtain ⟨_, hb'⟩ := hb.always.split
  obtain ⟨e, he, rfl, -⟩ := Registry.contains_iff.mp hc
  exact ⟨hb'.first_le he, UInt64.lt_of_lt_of_le (hb'.sound.issued e he) rises.next⟩

end Booked

/-! ### Rising ids -/

variable {s : State} {c : Situation}

theorem le_limit (n : UInt64) : n ≤ HandleId.limit := by
  have hn := n.toNat_lt
  rw [UInt64.le_iff_toNat_le]
  show n.toNat ≤ 2 ^ 64 - 1
  omega

/-- Ids are issued in rising order, and none after the last one. -/
structure IdsRise (s : State) (c : Situation) : Prop where
  /-- Each id that enters the table is higher than all before. -/
  rising : c.history.entered.Pairwise fun id earlier => earlier.raw < id.raw
  /-- Ids start at the first one, stay below the limit and are not null. -/
  bounds : ∀ id ∈ c.history.entered,
    s.registry.nextId ≤ id.raw ∧ id.raw < HandleId.limit ∧ id ≠ .null
  /-- Callers are told ids that entered the table, each one once. -/
  told : (c.history.owned.map (·.id)).Subperm c.history.entered
  /-- At rest every id was told. -/
  toldAll : c.AtRest → (c.history.owned.map (·.id)).Perm c.history.entered
  /-- Once the counter has come to the limit it stays there, nothing enters the
      table, and no registration that begins succeeds. -/
  exhausted : ∀ later m before, c.history = later ++ m :: before →
    ¬ m.state.registry.nextId < HandleId.limit →
    c.state.registry.nextId = m.state.registry.nextId ∧
    c.history.entered = entered (m :: before) ∧
    ∀ op thread object kind s', ⟨.begins op thread (.registry (.register object kind)), s'⟩ ∈
        later ++ [m] →
      ∀ thread' object' kind' handle s'',
        ⟨.ends op thread' (.registry (.register object' kind')) (.ok handle), s''⟩ ∉ c.history

namespace CoreRun

/-- The ids that have entered the table are those that were issued. -/
theorem mem_entered_iff (run : CoreRun s c) {id : HandleId} :
    id ∈ c.history.entered ↔
      s.registry.nextId ≤ id.raw ∧ id.raw < c.state.registry.nextId := by
  obtain ⟨tokens, hb, -⟩ := run.booked
  refine ⟨hb.issued_of_entered, fun ⟨hle, hlt⟩ => ?_⟩
  -- what is in the table now was there at the last moment
  rcases run.reaches.last with rfl | ⟨m, hm, hstate⟩
  · exact absurd hle (UInt64.not_le.mpr hlt)
  · rcases hb.entered_or_contains hle hlt with he | hc
    · exact he
    · rw [← hstate] at hc
      exact mem_entered_of_contains (List.mem_of_mem_head? hm) hc

theorem nodup_entered (run : CoreRun s c) : c.history.entered.Nodup := by
  obtain ⟨tokens, hb, -⟩ := run.booked
  refine (pairwise_entered hb.settled).imp fun hlt heq => ?_
  rw [heq] at hlt
  exact UInt64.lt_irrefl _ hlt

/-- A caller is told an id that was issued, and told it once. -/
theorem count_owned_le (run : CoreRun s c) (id : HandleId) :
    (c.history.owned.map (·.id)).count id ≤ if id ∈ c.history.entered then 1 else 0 := by
  obtain ⟨tokens, hb, -⟩ := run.booked
  simp only [run.mem_entered_iff, ← hb.timesTold_eq id]
  exact Nat.le_add_left ..

theorem nodup_owned (run : CoreRun s c) : (c.history.owned.map (·.id)).Nodup := by
  refine List.nodup_iff_count_le_one.mpr fun id => (run.count_owned_le id).trans ?_
  split <;> omega

theorem owned_subset_entered (run : CoreRun s c) :
    c.history.owned.map (·.id) ⊆ c.history.entered := by
  intro id hid
  have hpos := List.count_pos_iff.mpr hid
  have hle := run.count_owned_le id
  by_contra hne
  rw [if_neg hne] at hle
  omega

theorem idsRise (run : CoreRun s c) (first : 1 ≤ s.registry.nextId) : IdsRise s c := by
  obtain ⟨tokens, hb, -⟩ := run.booked
  have bounds : ∀ id ∈ c.history.entered,
      s.registry.nextId ≤ id.raw ∧ id.raw < HandleId.limit ∧ id ≠ .null := by
    intro id hid
    obtain ⟨hle, hlt⟩ := run.mem_entered_iff.mp hid
    refine ⟨hle, UInt64.lt_of_lt_of_le hlt (le_limit _), ?_⟩
    rintro rfl
    have hzero : (1 : UInt64) ≤ 0 := UInt64.le_trans first hle
    exact absurd hzero (by decide)
  refine ⟨pairwise_entered hb.settled, bounds, ?_, fun rest => ?_, ?_⟩
  · exact List.subperm_of_subset run.nodup_owned run.owned_subset_entered
  · apply (List.perm_ext_iff_of_nodup run.nodup_owned run.nodup_entered).mpr
    intro id
    refine ⟨fun hid => run.owned_subset_entered hid, fun hid => ?_⟩
    obtain ⟨hle, hlt⟩ := run.mem_entered_iff.mp hid
    rw [← List.count_pos_iff, (run.booked_at_rest rest).told_at_rest hle hlt]
    exact Nat.one_pos
  · intro later m before heq full
    have hs := hb.settled
    rw [heq] at hs
    rw [UInt64.not_lt] at full
    have rises : m.state.registry.Rises c.state.registry := hb.rises (by simp [heq])
    refine ⟨?_, ?_, ?_⟩
    · exact UInt64.le_antisymm (UInt64.le_trans (le_limit _) full) rises.next
    · obtain ⟨new, hnew, hle⟩ := entered_append hs
      cases new with
      | nil => rw [heq, hnew, List.nil_append]
      | cons id new =>
        -- a newcomer would be above the limit
        obtain ⟨-, hlt, -⟩ := bounds id (by simp [heq, hnew])
        have hge := UInt64.le_trans full (hle id (List.mem_cons_self ..))
        exact absurd hge (UInt64.not_le.mpr hlt)
    · -- what it would issue is not settled as it begins, and that is above the limit
      intro op thread object kind s' hbegins thread' object' kind' handle s'' hends
      obtain ⟨⟨m₀, hm₀, thread₀, object₀, kind₀, hev, hle⟩, -, hlt⟩ := hb.issued_of_mem hends rfl
      have hmem : ⟨.begins op thread (.registry (.register object kind)), s'⟩ ∈ c.history := by
        rw [heq, List.append_cons]
        exact List.mem_append_left _ hbegins
      obtain ⟨e₀, s₀⟩ := m₀
      simp only at hev hle
      subst hev
      obtain ⟨-, -, rfl⟩ := begins_unique run.reaches.accounted hmem hm₀
      have late : m.state.registry.nextId ≤ s'.registry.nextId := (rises_since hs hbegins).next
      have hge := UInt64.le_trans full (UInt64.le_trans late hle)
      exact absurd hge (UInt64.not_le.mpr hlt)

end CoreRun

/-! ### Released ids -/

/-- At this moment an operation begins that takes `id` out of the table: a
    release of any kind that finds it there. -/
def Moment.releases (m : Moment) (id : HandleId) : Bool :=
  match m.event with
  | .begins _ _ q => q.released? = some id && m.state.registry.contains id
  | _ => false

theorem Moment.releases_iff {m : Moment} {id : HandleId} :
    m.releases id = true ↔ m.state.registry.contains id = true ∧
      ∃ op thread q, m.event = .begins op thread q ∧ q.released? = some id := by
  unfold releases
  split
  · next op thread q heq =>
    rw [Bool.and_eq_true, decide_eq_true_eq]
    constructor
    · rintro ⟨hq, hc⟩
      exact ⟨hc, op, thread, q, heq, hq⟩
    · rintro ⟨hc, op', thread', q', heq', hq⟩
      rw [heq] at heq'
      cases heq'
      exact ⟨hq, hc⟩
  · next hne =>
    constructor
    · intro h
      cases h
    · rintro ⟨-, op, thread, q, heq, -⟩
      exact absurd heq (hne op thread q)

/-- `id` is dead since some moments: whatever is asked of it finds nothing. -/
structure Dead (id : HandleId) (since : List Moment) (c : Situation) : Prop where
  unlisted : ∀ m ∈ since, m.state.registry.contains id = false
  unlistedNow : c.state.registry.contains id = false
  look : ∀ op thread s, ⟨.begins op thread (.registry (.look id)), s⟩ ∈ since →
    ∀ thread' result s', ⟨.ends op thread' (.registry (.look id)) result, s'⟩ ∈ c.history →
      result = .error (.released id)
  releaseRaw : ∀ op thread s, ⟨.begins op thread (.registry (.releaseRaw id)), s⟩ ∈ since →
    ∀ thread' found s', ⟨.ends op thread' (.registry (.releaseRaw id)) found, s'⟩ ∈ c.history →
      found = false
  releaseIfPresent : ∀ op thread s,
    ⟨.begins op thread (.registry (.releaseIfPresent id)), s⟩ ∈ since →
    ∀ thread' found s',
      ⟨.ends op thread' (.registry (.releaseIfPresent id)) found, s'⟩ ∈ c.history → found = false
  /-- A call that begins now uses no host object. -/
  unused : ∀ op thread q d s, ⟨.begins op thread q, s⟩ ∈ since → q.dispatched? = some d →
    d.target = id → ∀ call, c.history.Calls op call → target? call = none

/-- Released ids stay so. -/
structure IdsDie (c : Situation) : Prop where
  /-- Of all releases of an id, by whichever operation, one succeeds. -/
  once : ∀ id, c.history.countP (·.releases id) ≤ 1
  /-- A release tells whether it succeeded. -/
  releaseRaw : ∀ op thread id found s,
    ⟨.ends op thread (.registry (.releaseRaw id)) found, s⟩ ∈ c.history →
    ∃ s', ⟨.begins op thread (.registry (.releaseRaw id)), s'⟩ ∈ c.history ∧
      found = Moment.releases ⟨.begins op thread (.registry (.releaseRaw id)), s'⟩ id
  releaseIfPresent : ∀ op thread id found s,
    ⟨.ends op thread (.registry (.releaseIfPresent id)) found, s⟩ ∈ c.history →
    ∃ s', ⟨.begins op thread (.registry (.releaseIfPresent id)), s'⟩ ∈ c.history ∧
      found = Moment.releases ⟨.begins op thread (.registry (.releaseIfPresent id)), s'⟩ id
  /-- An id that entered the table and is not there any more is dead. -/
  dead : ∀ later m before id, c.history = later ++ m :: before → id ∈ entered (m :: before) →
    m.state.registry.contains id = false → Dead id (later ++ [m]) c

/-- What happens at no two moments happens at one at most. -/
theorem History.AtMostOnce.countP_le_one {p : Moment → Bool} {h : History}
    (hp : h.AtMostOnce fun m => p m = true) : h.countP p ≤ 1 := by
  induction h with
  | nil => exact Nat.zero_le _
  | cons m before ih =>
    rw [List.countP_cons]
    split
    · next hm =>
      have none : before.countP p = 0 := by
        rw [List.countP_eq_zero]
        exact fun m' hm' => hp.1 hm m' hm'
      omega
    · exact ih hp.2

namespace CoreRun

theorem settled (run : CoreRun s c) : c.history.Always Moment.Settled := by
  obtain ⟨_, hb, -⟩ := run.booked
  exact hb.settled

/-- The null handle is never registered. -/
theorem known (run : CoreRun s c) (first : 1 ≤ s.registry.nextId) {m : Moment}
    (hm : m ∈ c.history) {e : Registration} (he : e ∈ m.state.registry.entries) :
    e.id.isNull = false := by
  obtain ⟨_, hb, -⟩ := run.booked
  obtain ⟨later, before, heq⟩ := List.append_of_mem hm
  obtain ⟨_, hb'⟩ := (heq ▸ hb.always).split
  rw [Bool.eq_false_iff]
  intro hnull
  have hzero := UInt64.le_trans first (hb'.first_le he)
  rw [e.id.isNull_iff.mp hnull] at hzero
  exact absurd hzero (by decide)

/-- Where a call is refused, nobody but the log and the clock is called. -/
theorem quiet_of_refusal (run : CoreRun s c) {op : Nat} {thread : Thread} {q : Request} {s' : State}
    {d : DispatchRequest} {err : HandleError} (hb : ⟨.begins op thread q, s'⟩ ∈ c.history)
    (hd : q.dispatched? = some d) (hn : d.target.isNull = false)
    (hr : Dispatch.refusal? s'.registry d.shape d.target = some err) :
    ∀ call, c.history.Calls op call → call.mayReenter = false := by
  intro call ⟨thread₂, s₂, hm⟩
  exact calls_of_within run.reaches.accounted hb (Request.follows_of_quiet hd
    (DispatchRequest.refused hn (sound_of_mem run.settled hb) hr)) hm

theorem releases_once (run : CoreRun s c) (id : HandleId) :
    c.history.countP (·.releases id) ≤ 1 := by
  obtain ⟨tokens, hb, -⟩ := run.booked
  refine AtMostOnce.countP_le_one (hb.always.imp fun m before ⟨_, hb'⟩ hm m' hm' hx => ?_)
  obtain ⟨hc, -⟩ := Moment.releases_iff.mp hm
  obtain ⟨hc', op, thread, q, hev, hq⟩ := Moment.releases_iff.mp hx
  -- after the earlier release the id is gone
  have settled : id.raw < m'.state.registry.nextId := by
    obtain ⟨later, older, rfl⟩ := List.append_of_mem hm'
    obtain ⟨_, hb''⟩ := hb'.always.split
    exact hb''.sound.lt_next_of_contains hc'
  rw [hb'.contains_removed hm' ⟨op, thread, q, hev, .inl hq⟩ settled] at hc
  cases hc

/-- What an operation results in follows from how it began. -/
theorem exists_begins (run : CoreRun s c) {op : Nat} {thread : Thread} {q : Request}
    {result : q.Result} {s' : State} (he : ⟨.ends op thread q result, s'⟩ ∈ c.history) :
    ∃ s₀, ⟨.begins op thread q, s₀⟩ ∈ c.history ∧
      ∀ p post, (q.operation thread s₀).Follows (.within p [] post) [] → post result := by
  obtain ⟨later, before, heq⟩ := List.append_of_mem he
  obtain ⟨-, s₀, hb, -⟩ := (heq ▸ run.reaches.accounted).split
  have began : ⟨.begins op thread q, s₀⟩ ∈ c.history := by simp [heq, hb]
  exact ⟨s₀, began, fun p post hp => result_of_within run.reaches.accounted began hp he⟩

theorem dead_of_released (run : CoreRun s c) (first : 1 ≤ s.registry.nextId) {m : Moment}
    {later before : History} {id : HandleId} (heq : c.history = later ++ m :: before)
    (hid : id ∈ entered (m :: before)) (hgone : m.state.registry.contains id = false) :
    Dead id (later ++ [m]) c := by
  obtain ⟨tokens, hb, -⟩ := run.booked
  have ha := run.reaches.accounted
  have hs := hb.settled
  rw [heq] at hs
  -- it was in the table once, so it was issued before it left
  have settled : id.raw < m.state.registry.nextId := by
    obtain ⟨m', hm', hc⟩ := exists_of_mem_entered hid
    have rises : m'.state.registry.Rises m.state.registry := by
      rcases List.mem_cons.mp hm' with rfl | hm'
      · exact .refl _
      · exact hs.split.2 m' hm'
    have sound := sound_of_mem hs (List.mem_append_right later hm')
    exact UInt64.lt_of_lt_of_le (sound.lt_next_of_contains hc) rises.next
  have known : id.isNull = false := by
    obtain ⟨new, hnew, -⟩ := entered_append hs
    have hne := ((run.idsRise first).bounds id (by rw [heq, hnew]; simp [hid])).2.2
    rw [Bool.eq_false_iff]
    exact fun hn => hne (id.isNull_iff.mp hn)
  have unlisted : ∀ m' ∈ later ++ [m], m'.state.registry.contains id = false :=
    fun m' hm' => (rises_since hs hm').contains_false settled hgone
  have mem : ∀ m' ∈ later ++ [m], m' ∈ c.history := by
    intro m' hm'
    rw [heq, List.append_cons]
    exact List.mem_append_left _ hm'
  refine ⟨unlisted, ?_, ?_, ?_, ?_, ?_⟩
  · exact (hb.rises (mem m (by simp))).contains_false settled hgone
  · intro op thread s₀ hbegins thread' result s' hends
    exact result_of_within ha (mem _ hbegins)
      (Registry.look_follows known (unlisted _ hbegins)) hends
  · intro op thread s₀ hbegins thread' found s' hends
    have told := result_of_within ha (mem _ hbegins) Registry.releaseRaw_follows hends
    rw [told, unlisted _ hbegins, Bool.and_false]
  · intro op thread s₀ hbegins thread' found s' hends
    have told := result_of_within ha (mem _ hbegins) Registry.releaseIfPresent_follows hends
    rw [told, unlisted _ hbegins, Bool.and_false]
  · -- a call through it is refused, so only the log hears of it
    intro op thread q d s₀ hbegins hd htarget call hcalls
    subst htarget
    exact Upkeep.of_quiet (run.quiet_of_refusal (mem _ hbegins) hd known
      (Dispatch.refusal?_released (unlisted _ hbegins)) call hcalls)

end CoreRun

/-- Ids rise, are never used again, and stay dead once they are released. -/
theorem ids_never_reused (run : CoreRun s c) (first : 1 ≤ s.registry.nextId) :
    IdsRise s c ∧ IdsDie c := by
  refine ⟨run.idsRise first, run.releases_once, ?_, ?_, ?_⟩
  · intro op thread id found s' he
    obtain ⟨s₀, hb, hp⟩ := run.exists_begins he
    refine ⟨s₀, hb, (hp Upkeep _ Registry.releaseRaw_follows).trans ?_⟩
    cases hn : id.isNull <;> simp [Moment.releases, Request.released?, hn]
  · intro op thread id found s' he
    obtain ⟨s₀, hb, hp⟩ := run.exists_begins he
    refine ⟨s₀, hb, (hp Upkeep _ Registry.releaseIfPresent_follows).trans ?_⟩
    cases hn : id.isNull <;> simp [Moment.releases, Request.released?, hn]
  · exact fun later m before id heq hid hgone => run.dead_of_released first heq hid hgone

/-- One id is left. -/
def oneIdLeft : State :=
  { State.initial 0 with registry := ⟨.keepAttached, 0, 0xFFFFFFFFFFFFFFFE, []⟩ }

/-- The last id is issued; the next registration fails and gives its pin back;
    then the id is released, looked up and called. -/
def lastIdReleased : Situation :=
  ((Situation.initial oneIdLeft).play?
    [.start ⟨"host"⟩ (.registry (.register Sample.object .tunnel)),
     .reply (.host .attach) (0 : Int32),
     .reply (.host (.pin Sample.object)) (some Sample.reference),
     .start ⟨"host"⟩ (.registry (.register Sample.object .tunnel)),
     .reply (.host .attach) (0 : Int32),
     .reply (.host (.pin Sample.object)) (some Sample.reference'),
     .reply (.host .attach) (0 : Int32),
     .reply (.host (.unpin Sample.reference')) (),
     .start ⟨"engine"⟩ (.registry (.releaseRaw ⟨0xFFFFFFFFFFFFFFFE⟩)),
     .reply (.host .attach) (0 : Int32),
     .reply (.host (.unpin Sample.reference)) (),
     .start ⟨"engine"⟩ (.registry (.look ⟨0xFFFFFFFFFFFFFFFE⟩)),
     .start ⟨"engine"⟩ (.dispatch (.protect ⟨0xFFFFFFFFFFFFFFFE⟩ 3)),
     .reply (.system .clock) (0 : UInt64)]).get rfl

set_option maxRecDepth 4096 in
theorem ids_never_reused_atLimit :
    CoreRun oneIdLeft lastIdReleased ∧ 1 ≤ oneIdLeft.registry.nextId ∧
      lastIdReleased.history.entered = [⟨0xFFFFFFFFFFFFFFFE⟩] ∧
      lastIdReleased.history.countP (·.releases ⟨0xFFFFFFFFFFFFFFFE⟩) = 1 ∧
      IdsRise oneIdLeft lastIdReleased ∧ IdsDie lastIdReleased := by
  have run : CoreRun oneIdLeft lastIdReleased :=
    ⟨rfl, Situation.reaches_get_play? _, by decide, by decide⟩
  have first : 1 ≤ oneIdLeft.registry.nextId := by decide
  exact ⟨run, first, rfl, rfl, ids_never_reused run first⟩

end CallbackBridge.Run
