import CallbackBridge.Proofs.Ledger.Runs

/-! # Pins

    A pinned reference keeps a host object alive.  The bridge gives each one
    back once, never while it is in use, and forgets none.

    Key ideas:

    1. A reference is given back while it is pinned, and only then, so never
       twice; whatever a host object is called on stays pinned until the call
       returns, also where it is released meanwhile.
    2. At rest a reference is pinned for one of three reasons: it is in the
       table, a caller still holds it, or the host refused the thread on which
       its last use ended. -/

namespace CallbackBridge.Run

open History

namespace History

/-! ### Counting references -/

theorem takenBack?_of_handedOut? {e : Event} {r : HostObject} (h : handedOut? e = some r) :
    takenBack? e = none := by
  cases e <;> first | rfl | cases h

/-- What was handed out is pinned, or it was taken back. -/
theorem count_handedOut {h : History}
    (ht : h.Always fun m before => ∀ r, takenBack? m.event = some r → r ∈ pinned before)
    (r : HostObject) : (handedOut h).count r = (pinned h).count r + (takenBack h).count r := by
  induction h with
  | nil => rfl
  | cons m before ih =>
    have ih := ih ht.2
    cases hh : handedOut? m.event with
    | some r' =>
      have htb := takenBack?_of_handedOut? hh
      simp only [handedOut, takenBack, pinned, List.filterMap_cons, hh, htb] at ih ⊢
      rw [List.count_cons, List.count_cons]
      omega
    | none =>
      cases htb : takenBack? m.event with
      | none =>
        simp only [handedOut, takenBack, pinned, List.filterMap_cons, hh, htb] at ih ⊢
        exact ih
      | some r' =>
        -- what is taken back was pinned, so one pin less is left
        have hpos := List.count_pos_iff.mpr (ht.1 r' htb)
        simp only [handedOut, takenBack, pinned, List.filterMap_cons, hh, htb] at ih ⊢
        by_cases hr : r = r'
        · subst hr
          rw [List.count_erase_self, List.count_cons_self]
          omega
        · rw [List.count_erase_of_ne hr, List.count_cons_of_ne (Ne.symm hr)]
          omega

theorem nodup_handedOut {h : History} (hf : h.FreshPins) : (handedOut h).Nodup := by
  induction h with
  | nil => exact List.nodup_nil
  | cons m before ih =>
    cases hh : handedOut? m.event with
    | none =>
      simp only [handedOut, List.filterMap_cons, hh]
      exact ih hf.2
    | some r =>
      simp only [handedOut, List.filterMap_cons, hh]
      exact List.nodup_cons.mpr ⟨hf.1 r hh, ih hf.2⟩

end History

/-! ### No use after the end -/

variable {s : State} {c d : Situation}

/-- References are used only while they are pinned. -/
structure PinsSafe (c : Situation) : Prop where
  /-- The host is asked to take back each reference at most once. -/
  once : c.history.takenBack.Nodup
  /-- It is asked to take back only what is pinned. -/
  whilePinned : c.history.Always fun m before =>
    ∀ r, takenBack? m.event = some r → r ∈ pinned before
  /-- A reference is pinned for as long as a host object is called on it. -/
  inUse : ∀ f ∈ c.stack, ∀ r, target? f.call = some r → r ∈ c.history.pinned

theorem pins_safe (run : CoreRun s c) (fresh : c.history.FreshPins) : PinsSafe c := by
  obtain ⟨tokens, hb, hstack⟩ := run.booked
  refine ⟨?_, hb.takenBack_pinned, fun f hf r hr => ?_⟩
  · rw [List.nodup_iff_count_le_one]
    intro r
    -- more could not be taken back than was handed out
    have handed := List.nodup_iff_count_le_one.mp (nodup_handedOut fresh) r
    have split := count_handedOut hb.takenBack_pinned r
    omega
  · -- the loan that the caller has in hand keeps the registration, and that the pin
    obtain ⟨id, hl⟩ := hstack f hf r hr
    obtain ⟨e, he, -, rfl⟩ := hb.loansMatch.backed id r hl
    have hpos : 0 < c.state.registry.entries.countP (·.object = e.object) :=
      List.countP_pos_iff.mpr ⟨e, he, by simp⟩
    rw [← List.count_pos_iff, hb.pinsMatch e.object]
    omega

/-- A tunnel is released from inside a call that is made on it. -/
def releasedInside : Situation :=
  ((Situation.initial (.initial 0)).play?
    [.start ⟨"host"⟩ (.registry (.register Sample.object .tunnel)),
     .reply (.host .attach) (0 : Int32),
     .reply (.host (.pin Sample.object)) (some Sample.reference),
     .start ⟨"engine"⟩ (.dispatch (.protect ⟨1⟩ 3)),
     .reply (.host .attach) (0 : Int32),
     .start ⟨"engine"⟩ (.registry (.releaseRaw ⟨1⟩))]).get rfl

theorem pins_safe_releasedInside :
    CoreRun (.initial 0) releasedInside ∧ releasedInside.history.FreshPins ∧
      releasedInside.stack.length = 1 ∧ PinsSafe releasedInside := by
  have run : CoreRun (.initial 0) releasedInside :=
    ⟨rfl, Situation.reaches_get_play? _, by decide, by decide⟩
  exact ⟨run, by decide, rfl, pins_safe run (by decide)⟩

/-! ### No leak -/

namespace History

/-- The id and the reference that a look-up hands to its caller. -/
def loan? : Event → Option (HandleId × HostObject)
  | .ends _ _ (.registry (.look id)) (.ok target) => some (id, target.object)
  | _ => none

/-- Each lost reference comes with a refusal of its own. -/
theorem refusals_eq {h : History}
    (hl : ∀ m ∈ h, (lost? m.event).isSome → isRefusal m.event = true) :
    refusals h = (lost h).length +
      h.countP fun m => isRefusal m.event && (lost? m.event).isNone := by
  induction h with
  | nil => rfl
  | cons m before ih =>
    have ih := ih fun m hm => hl m (List.mem_cons_of_mem _ hm)
    have here := hl m (List.mem_cons_self ..)
    unfold refusals lost at ih ⊢
    cases hlost : lost? m.event with
    | none => simp [List.countP_cons, hlost, ih, Nat.add_assoc]
    | some r =>
      rw [hlost] at here
      simp [hlost, here rfl, ih]
      omega

/-- A caller holds a loan of the reference. -/
def Borrowed (h : History) (r : HostObject) : Prop :=
  ∃ id ∈ held h, ∃ m ∈ h, loan? m.event = some (id, r)

theorem exists_loan_of_held {h : History} {id : HandleId} (hm : id ∈ held h) :
    ∃ m ∈ h, ∃ r, loan? m.event = some (id, r) := by
  induction h with
  | nil => simp [held] at hm
  | cons m before ih =>
    have older : id ∈ held before → ∃ m' ∈ m :: before, ∃ r, loan? m'.event = some (id, r) :=
      fun hm => (ih hm).imp fun _ hx => hx.imp_left (List.mem_cons_of_mem _)
    unfold held at hm
    split at hm
    · next id' _ hl =>
      rcases List.mem_cons.mp hm with rfl | hm
      · unfold lent? at hl
        split at hl
        · next target heq =>
          obtain rfl := Option.some.inj hl
          refine ⟨m, List.mem_cons_self .., target.object, ?_⟩
          rw [heq]
          rfl
        · cases hl
      · exact older hm
    · exact older (List.mem_of_mem_erase hm)
    · exact older hm

end History

namespace Booked

variable {s₀ : State} {h : History} {tokens : Multiset Token}

/-- What a look-up hands out was registered at that time. -/
theorem registered_of_loan (hb : Booked s₀ s h tokens) :
    h.Always fun m _ => ∀ id r, loan? m.event = some (id, r) →
      ∃ e ∈ m.state.registry.entries, e.id = id ∧ e.object = r := by
  induction hb with
  | opens _ => trivial
  | begins _ _ ih => exact ⟨fun _ _ hl => (by cases hl), ih⟩
  | notes hb hn ih =>
    refine ⟨fun id r hl => ?_, ih⟩
    cases hn with
    | lends =>
      obtain ⟨rfl, rfl⟩ : _ = id ∧ _ = r := by simpa [loan?] using hl
      exact hb.loansMatch.backed _ _ (by simp)
    | @rest e _ _ _ _ _ hlent =>
      unfold loan? at hl
      split at hl
      · next heq =>
        simp only at heq
        rw [heq] at hlent
        cases hlent
      · cases hl
    | _ => cases hl
  | changes _ _ ih | counts _ ih | tallies _ _ ih | limits _ ih => exact ih

/-- A caller that looked an id up has the reference that is registered. -/
theorem object_of_loan (hb : Booked s₀ s h tokens) {m : Moment} (hm : m ∈ h) {r : HostObject}
    {e : Registration} (hl : loan? m.event = some (e.id, r)) (he : e ∈ s.registry.entries) :
    e.object = r := by
  have rises := hb.rises hm
  obtain ⟨later, before, rfl⟩ := List.append_of_mem hm
  obtain ⟨_, hb'⟩ := hb.always.split
  -- the id was settled when it was looked up, so it still stands for the same
  obtain ⟨e₀, he₀, hid₀, rfl⟩ := hb.registered_of_loan.split e.id r hl
  have settled : e.id.raw < m.state.registry.nextId := hid₀ ▸ hb'.sound.issued e₀ he₀
  obtain ⟨e₁, he₁, hid₁, hobj, -⟩ := rises.kept e he settled
  rw [← hobj, hb'.sound.distinct.eq he₁ he₀ (hid₁.trans hid₀.symm)]

end Booked

/-- At rest every pin has its reason, and every refusal is counted. -/
structure PinsConserved (s : State) (c : Situation) : Prop where
  /-- A reference is pinned exactly if it is in the table, or a caller holds
      it, or it was lost. -/
  pinned_iff : ∀ r, r ∈ c.history.pinned ↔
    (∃ e ∈ c.state.registry.table, e.object = r) ∨ c.history.Borrowed r ∨ r ∈ c.history.lost
  /-- A reference is lost where the host refuses to attach the thread. -/
  lost_refused : ∀ m ∈ c.history, (lost? m.event).isSome → isRefusal m.event = true
  /-- Each refusal is counted once, so each lost reference is. -/
  counted : c.state.counters.get .attachFailures = s.counters.get .attachFailures +
    UInt64.ofNat c.history.lost.length +
    UInt64.ofNat (c.history.countP fun m => isRefusal m.event && (lost? m.event).isNone)

/-- A request to give back a loan. -/
def Request.isGiveBack : Request → Bool
  | .registry (.giveBack _) => true
  | _ => false

theorem CoreRun.pinsConserved (run : CoreRun s c) (rest : c.AtRest) : PinsConserved s c := by
  have hb := run.booked_at_rest rest
  refine ⟨fun r => ?_, hb.isRefusal_of_lost, ?_⟩
  · have registered : r ∈ c.history.pinned ↔
        (∃ e ∈ c.state.registry.entries, e.object = r) ∨ r ∈ c.history.lost := by
      have hcount := hb.pinsMatch r
      simp only [Multiset.count_zero, add_zero] at hcount
      rw [← List.count_pos_iff, hcount, Nat.add_pos_iff_pos_or_pos, List.countP_pos_iff,
        List.count_pos_iff]
      simp only [decide_eq_true_eq]
    rw [registered, ← or_assoc]
    refine or_congr_left ⟨?_, ?_⟩
    · rintro ⟨e, he, rfl⟩
      by_cases hl : e.listed = true
      · exact .inl ⟨e, List.mem_filter.mpr ⟨he, hl⟩, rfl⟩
      · -- what is not listed is on loan, at rest to a caller
        have hpos := hb.sound.used e he (by simpa using hl)
        rw [hb.loansMatch.counted e he, Multiset.count_zero, zero_add, List.count_pos_iff] at hpos
        obtain ⟨m, hm, r, hloan⟩ := exists_loan_of_held hpos
        refine .inr ⟨e.id, hpos, m, hm, ?_⟩
        rw [hloan, hb.object_of_loan hm hloan he]
    · rintro (⟨e, he, rfl⟩ | ⟨id, hheld, m, hm, hloan⟩)
      · exact ⟨e, (List.mem_filter.mp he).1, rfl⟩
      · obtain ⟨e, he, rfl⟩ := hb.loansMatch.known id hheld
        exact ⟨e, he, hb.object_of_loan hm hloan he⟩
  · have counted := hb.attachFailures
    rw [Multiset.count_zero, refusals_eq hb.isRefusal_of_lost, UInt64.ofNat_add,
      ← UInt64.add_assoc] at counted
    rw [← counted]
    exact (UInt64.add_zero _).symm

/-- Once the table is dropped at rest and loans are only given back, nothing
    is listed. -/
theorem CoreRun.unlisted_after_close (run : CoreRun s c) (after : CoreRun s d)
    (rest : c.AtRest) (rest' : d.AtRest) (reaches : Reaches c d) {later : History} {op : Nat}
    {thread : Thread}
    (hd : d.history = later ++ ⟨.begins op thread (.registry .close), c.state⟩ :: c.history)
    (only : later.Only Request.isGiveBack) {e : Registration}
    (he : e ∈ d.state.registry.entries) : e.listed = false := by
  have hbc := run.booked_at_rest rest
  have hbd := after.booked_at_rest rest'
  by_contra hl
  rw [Bool.not_eq_false] at hl
  have young : ¬ e.id.raw < c.state.registry.nextId := by
    -- what was listed before was taken out
    intro hlt
    have gone := hbd.contains_removed (m := ⟨.begins op thread (.registry .close), c.state⟩)
      (by simp [hd]) ⟨op, thread, _, rfl, .inr rfl⟩ hlt
    rw [← Bool.not_eq_true, Registry.contains_iff] at gone
    exact gone ⟨e, he, rfl, hl⟩
  -- so a registration issued it, ended after the rest, and thus began after it
  have told := hbd.told_at_rest (hbd.first_le he) (hbd.sound.issued e he)
  have hmem : e.id ∈ (owned d.history).map (·.id) := by
    rw [← List.count_pos_iff, told]
    exact Nat.one_pos
  obtain ⟨handle, howned, hid⟩ := List.mem_map.mp hmem
  obtain ⟨mₑ, hmₑ, op', _, object, kind, hends⟩ := exists_of_owned howned
  obtain ⟨⟨m, hm, _, _, _, hbegins, -⟩, -, -⟩ := hbd.issued_of_mem hmₑ hends
  have ended_late : mₑ ∉ c.history := by
    intro hmₑ
    refine young (hid ▸ UInt64.lt_of_lt_of_le (hbc.issued_of_mem hmₑ hends).lt_next ?_)
    exact (hbc.rises hmₑ).next
  have began_early : m ∈ c.history := by
    rw [hd, List.mem_append, List.mem_cons] at hm
    rcases hm with hm | rfl | hm
    · have := always_iff.mp only m hm _ _ _ hbegins
      cases this
    · cases hbegins
    · exact hm
  obtain ⟨⟨since, heq, hops⟩, -⟩ := reaches.follow rest
  have hsince : mₑ ∈ since := by
    rw [heq, List.mem_append] at hmₑ
    exact hmₑ.resolve_right ended_late
  have hge := hops mₑ hsince
  have hlt := run.reaches.op_lt m began_early
  rw [hends] at hge
  rw [hbegins] at hlt
  exact absurd hlt (Nat.not_lt.mpr hge)

/-- At rest every pin has its reason.  Once the table is dropped as well and
    no caller holds a loan any more, what is still pinned is what was lost; so
    nothing is where the host refused no thread that had a pin to give back. -/
theorem pins_conserved (run : CoreRun s c) (rest : c.AtRest) :
    PinsConserved s c ∧
    ∀ (d : Situation) (later : History) (op : Nat) (thread : Thread), Reaches c d →
      d.history = later ++ ⟨.begins op thread (.registry .close), c.state⟩ :: c.history →
      later.Only Request.isGiveBack → d.history.Careful → d.AtRest → d.history.held = [] →
      d.history.pinned.Perm d.history.lost ∧
        (d.history.lost = [] → d.history.pinned = []) := by
  refine ⟨run.pinsConserved rest, fun d later op thread reaches hd only careful rest' none => ?_⟩
  have after : CoreRun s d := by
    refine ⟨run.empty, run.reaches.trans reaches, ?_, careful⟩
    rw [hd]
    apply always_iff.mpr
    intro m hm
    rw [List.mem_append, List.mem_cons] at hm
    rcases hm with hm | rfl | hm
    · intro op thread q heq
      have := always_iff.mp only m hm op thread q heq
      unfold Request.isGiveBack at this
      split at this
      · rfl
      · cases this
    · rintro _ _ _ ⟨⟩
      rfl
    · exact always_iff.mp run.core m hm
  have hb := after.booked_at_rest rest'
  have cleared : d.state.registry.entries = [] := by
    rw [List.eq_nil_iff_forall_not_mem]
    intro e he
    have hl := run.unlisted_after_close after rest rest' reaches hd only he
    have hpos := hb.sound.used e he hl
    rw [hb.loansMatch.counted e he, none] at hpos
    simp at hpos
  have perm : d.history.pinned.Perm d.history.lost := by
    rw [List.perm_iff_count]
    intro r
    rw [hb.pinsMatch r, cleared]
    simp
  exact ⟨perm, fun hl => (hl ▸ perm).eq_nil⟩

/-- A caller has looked an id up. -/
def lookedUp : Situation :=
  ((Situation.initial (.initial 0)).play?
    [.start ⟨"host"⟩ (.registry (.register Sample.object .tunnel)),
     .reply (.host .attach) (0 : Int32),
     .reply (.host (.pin Sample.object)) (some Sample.reference),
     .start ⟨"engine"⟩ (.registry (.look ⟨1⟩))]).get rfl

/-- The table is dropped, and the caller gives its loan back on a thread that
    the host refuses. -/
def givenBackLate : Situation :=
  (lookedUp.play?
    [.start ⟨"host"⟩ (.registry .close),
     .start ⟨"engine"⟩ (.registry (.giveBack ⟨1⟩)),
     .reply (.host .attach) (5 : Int32),
     .reply (.system .clock) (0 : UInt64)]).get rfl

set_option maxRecDepth 2048 in
theorem pins_conserved_givenBackLate :
    CoreRun (.initial 0) lookedUp ∧ lookedUp.AtRest ∧ PinsConserved (.initial 0) lookedUp ∧
      givenBackLate.history.lost = [Sample.reference] ∧
      givenBackLate.history.pinned.Perm givenBackLate.history.lost := by
  have run : CoreRun (.initial 0) lookedUp :=
    ⟨rfl, Situation.reaches_get_play? _, by decide, by decide⟩
  have reaches : Reaches lookedUp givenBackLate := Situation.reaches_get_play? _
  have ⟨conserved, closed⟩ := pins_conserved run rfl
  refine ⟨run, rfl, conserved, rfl, ?_⟩
  refine (closed givenBackLate (givenBackLate.history.take 7) 2 ⟨"host"⟩ reaches rfl ?_ ?_ rfl
    rfl).1
  · decide
  · decide

end CallbackBridge.Run
