import Mathlib.Data.List.Induction
import Mathlib.Tactic.Common
import CallbackBridge.Log.Limiter

/-! # What the limiter admits and what it reports

    The limiter keeps one slot a category: two words, read and written on two
    branches.  Here the slot is tied to the whole past, whatever the clock
    does and however the categories alternate.

    Proof structure:

    1. A *record* is the list of offers with their answers.  It grows at its
       end: an offer is answered by the slots that the offers before it left.
    2. The slot of a category holds the reading of its last admitted offer
       and the number of offers held back since (`slot_after`).
    3. Spacing and the reports are then facts about the record alone. -/

namespace CallbackBridge.Log

/-! ### Records -/

/-- An offer and the answer it got. -/
structure Offered where
  /-- What the clock read. -/
  reading : UInt64
  /-- The category of the line. -/
  category : Category
  /-- The lines reported as held back, or `none` where this one is held back. -/
  answer : Option UInt64
  deriving DecidableEq, Repr

namespace Limiter

/-- The limiter after a list of offers. -/
def after (l : Limiter) (steps : List (UInt64 × Category)) : Limiter :=
  steps.foldl (fun l step => (l.offer step.1 step.2).2) l

/-- The offers with their answers, first one first. -/
def record (l : Limiter) (steps : List (UInt64 × Category)) : List Offered :=
  List.zipWith (fun step answer => ⟨step.1, step.2, answer⟩) steps (l.offers steps)

@[simp] theorem after_nil (l : Limiter) : l.after [] = l := rfl

@[simp] theorem after_cons (l : Limiter) (step : UInt64 × Category)
    (rest : List (UInt64 × Category)) :
    l.after (step :: rest) = (l.offer step.1 step.2).2.after rest := rfl

@[simp] theorem record_nil (l : Limiter) : l.record [] = [] := rfl

@[simp] theorem record_cons (l : Limiter) (step : UInt64 × Category)
    (rest : List (UInt64 × Category)) :
    l.record (step :: rest) =
      ⟨step.1, step.2, (l.offer step.1 step.2).1⟩ ::
        (l.offer step.1 step.2).2.record rest := rfl

theorem after_append (l : Limiter) (steps rest : List (UInt64 × Category)) :
    l.after (steps ++ rest) = (l.after steps).after rest := by
  simp [after]

theorem record_append (l : Limiter) (steps rest : List (UInt64 × Category)) :
    l.record (steps ++ rest) = l.record steps ++ (l.after steps).record rest := by
  induction steps generalizing l with
  | nil => rfl
  | cons step steps ih => simp [ih]

/-- The record after one more offer. -/
theorem record_concat (l : Limiter) (steps : List (UInt64 × Category))
    (step : UInt64 × Category) :
    l.record (steps ++ [step]) = l.record steps ++
      [⟨step.1, step.2, ((l.after steps).offer step.1 step.2).1⟩] := by
  rw [record_append]
  rfl

@[simp] theorem length_record (l : Limiter) (steps : List (UInt64 × Category)) :
    (l.record steps).length = steps.length := by
  induction steps generalizing l with
  | nil => rfl
  | cons step steps ih => simp [ih]

theorem map_answer_record (l : Limiter) (steps : List (UInt64 × Category)) :
    (l.record steps).map (·.answer) = l.offers steps := by
  induction steps generalizing l with
  | nil => rfl
  | cons step steps ih => simp [offers, ih]

theorem map_step_record (l : Limiter) (steps : List (UInt64 × Category)) :
    (l.record steps).map (fun o => (o.reading, o.category)) = steps := by
  induction steps generalizing l with
  | nil => rfl
  | cons step steps ih => simp [ih]

/-- Each entry of a record answers its own offer, made to the limiter that the
    offers before it left. -/
theorem record_split {l : Limiter} {steps : List (UInt64 × Category)}
    {earlier later : List Offered} {o : Offered}
    (h : l.record steps = earlier ++ o :: later) :
    ∃ before, earlier = l.record before ∧ (o.reading, o.category) ∈ steps ∧
      o.answer = ((l.after before).offer o.reading o.category).1 := by
  let before := steps.take earlier.length
  let rest := steps.drop earlier.length
  have hsteps : steps = before ++ rest := (List.take_append_drop ..).symm
  have hlen : (l.record before).length = earlier.length := by
    have := congrArg List.length h
    simp only [length_record, List.length_append, List.length_cons] at this
    simp only [length_record, before, List.length_take]
    omega
  rw [hsteps, record_append] at h
  obtain ⟨hbefore, hrest⟩ := List.append_inj h hlen
  cases hr : rest with
  | nil => simp [hr] at hrest
  | cons step rest' =>
    rw [hr, record_cons] at hrest
    obtain ⟨rfl, -⟩ := List.cons.inj hrest
    refine ⟨before, hbefore.symm, ?_, rfl⟩
    rw [hsteps, hr]
    exact List.mem_append_right _ List.mem_cons_self

/-! ### One category -/

/-- What an offer can do: it is due and empties the slot's count, or it is
    held back and counted. -/
theorem offer_cases (l : Limiter) (now : UInt64) (c : Category) :
    ((l.slot c).due l.interval now = true ∧
        l.offer now c = (some (l.slot c).suppressed, l.setSlot c ⟨now, 0⟩)) ∨
      ((l.slot c).due l.interval now = false ∧
        l.offer now c =
          (none, l.setSlot c { l.slot c with suppressed := (l.slot c).suppressed + 1 })) := by
  cases h : (l.slot c).due l.interval now with
  | true => exact .inl ⟨rfl, by simp [offer, h]⟩
  | false => exact .inr ⟨rfl, by simp [offer, h]⟩

@[simp] theorem interval_offer (l : Limiter) (now : UInt64) (c : Category) :
    (l.offer now c).2.interval = l.interval := by
  rcases offer_cases l now c with ⟨-, h⟩ | ⟨-, h⟩ <;> simp [h]

@[simp] theorem interval_after (l : Limiter) (steps : List (UInt64 × Category)) :
    (l.after steps).interval = l.interval := by
  induction steps generalizing l with
  | nil => rfl
  | cons step steps ih => simp [ih]

/-- An offer leaves the slots of the other categories. -/
theorem slot_offer_ne {l : Limiter} (now : UInt64) {c d : Category} (h : d ≠ c) :
    (l.offer now c).2.slot d = l.slot d := by
  rcases offer_cases l now c with ⟨-, ho⟩ | ⟨-, ho⟩ <;> simp [ho, h]

/-- An offer reads the interval and the slot of its category, and no other. -/
theorem offer_congr {l k : Limiter} (now : UInt64) {c : Category}
    (hi : l.interval = k.interval) (hs : l.slot c = k.slot c) :
    (l.offer now c).1 = (k.offer now c).1 ∧
      (l.offer now c).2.slot c = (k.offer now c).2.slot c := by
  simp only [offer, hi, hs]
  cases (k.slot c).due k.interval now <;> simp

/-- The entries of one category are those of a limiter that was offered
    nothing else. -/
theorem filter_record {l k : Limiter} {c : Category}
    (steps : List (UInt64 × Category))
    (hi : l.interval = k.interval) (hs : l.slot c = k.slot c) :
    (l.record steps).filter (·.category = c) =
      k.record (steps.filter (·.2 = c)) := by
  induction steps generalizing l k with
  | nil => rfl
  | cons step steps ih =>
    obtain ⟨now, d⟩ := step
    by_cases hd : d = c
    · subst hd
      have hsame := offer_congr now hi hs
      simp only [record_cons, List.filter_cons, decide_true, if_true, hsame.1]
      rw [ih (by simpa using hi) hsame.2]
    · have hkept := slot_offer_ne (l := l) now (Ne.symm hd)
      simp only [record_cons, List.filter_cons, hd, decide_false]
      exact ih (by simpa using hi) (hkept.trans hs)

end Limiter

/-! ### The past of a category -/

namespace Offered

/-- The reading of the last admitted line of a category. -/
def lastAdmitted? (r : List Offered) (c : Category) : Option UInt64 :=
  ((r.filter (·.category = c)).reverse.find? (·.answer.isSome)).map (·.reading)

/-- How many lines of a category were held back since its last admitted one,
    or since the start. -/
def heldBack (r : List Offered) (c : Category) : Nat :=
  ((r.filter (·.category = c)).reverse.takeWhile (·.answer.isNone)).length

/-- How many lines of a category were held back in all. -/
def suppressed (r : List Offered) (c : Category) : Nat :=
  r.countP (fun o => o.category = c && o.answer.isNone)

/-- The sum of the counts that the admitted lines of a category reported. -/
def reported (r : List Offered) (c : Category) : Nat :=
  ((r.filter (·.category = c)).filterMap (·.answer)).foldl (fun total n => total + n.toNat) 0

/-- The admitted lines of a category. -/
def admitted (r : List Offered) (c : Category) : List Offered :=
  r.filter (fun o => o.category = c && o.answer.isSome)

variable {r : List Offered} {o : Offered} {c : Category}

/-- An entry of another category changes nothing. -/
theorem past_concat_ne (h : o.category ≠ c) :
    lastAdmitted? (r ++ [o]) c = lastAdmitted? r c ∧
      heldBack (r ++ [o]) c = heldBack r c ∧
      suppressed (r ++ [o]) c = suppressed r c ∧
      reported (r ++ [o]) c = reported r c ∧
      admitted (r ++ [o]) c = admitted r c := by
  simp [lastAdmitted?, heldBack, suppressed, reported, admitted, List.filter_append,
    List.countP_append, h]

theorem past_concat_none (h : o.category = c) (ha : o.answer = none) :
    lastAdmitted? (r ++ [o]) c = lastAdmitted? r c ∧
      heldBack (r ++ [o]) c = heldBack r c + 1 ∧
      suppressed (r ++ [o]) c = suppressed r c + 1 ∧
      reported (r ++ [o]) c = reported r c ∧
      admitted (r ++ [o]) c = admitted r c := by
  simp [lastAdmitted?, heldBack, suppressed, reported, admitted, List.filter_append,
    List.countP_append, h, ha]

theorem past_concat_some {n : UInt64} (h : o.category = c) (ha : o.answer = some n) :
    lastAdmitted? (r ++ [o]) c = some o.reading ∧
      heldBack (r ++ [o]) c = 0 ∧
      suppressed (r ++ [o]) c = suppressed r c ∧
      reported (r ++ [o]) c = reported r c + n.toNat ∧
      admitted (r ++ [o]) c = admitted r c ++ [o] := by
  simp [lastAdmitted?, heldBack, suppressed, reported, admitted, List.filter_append,
    List.countP_append, h, ha]

theorem mem_of_lastAdmitted? {t : UInt64} (h : lastAdmitted? r c = some t) :
    ∃ e ∈ r, e.category = c ∧ e.reading = t := by
  obtain ⟨e, he, rfl⟩ := Option.map_eq_some_iff.mp h
  have hmem := List.mem_reverse.mp (List.mem_of_find?_eq_some he)
  obtain ⟨hr, hc⟩ := List.mem_filter.mp hmem
  exact ⟨e, hr, of_decide_eq_true hc, rfl⟩

/-- No more lines were held back since the last admitted one than in all. -/
theorem heldBack_le_suppressed (r : List Offered) (c : Category) :
    heldBack r c ≤ suppressed r c := by
  induction r using List.reverseRecOn with
  | nil => exact Nat.le_refl 0
  | append_singleton r o ih =>
    by_cases hc : o.category = c
    · cases ha : o.answer with
      | none =>
        obtain ⟨-, hheld, hsupp, -⟩ := past_concat_none (r := r) hc ha
        omega
      | some n =>
        obtain ⟨-, hheld, -⟩ := past_concat_some (r := r) hc ha
        omega
    · obtain ⟨-, hheld, hsupp, -⟩ := past_concat_ne (r := r) hc
      omega

end Offered

namespace Limiter

open Offered

/-! ### What a slot holds -/

/-- The slot of a category holds the reading of its last admitted line and the
    number of lines held back since. -/
theorem slot_after (interval : UInt64) (steps : List (UInt64 × Category)) (c : Category) :
    ((new interval).after steps).slot c =
      ⟨(lastAdmitted? ((new interval).record steps) c).getD never,
        .ofNat (heldBack ((new interval).record steps) c)⟩ := by
  induction steps using List.reverseRecOn with
  | nil => rfl
  | append_singleton steps step ih =>
    obtain ⟨now, d⟩ := step
    let l := (new interval).after steps
    let o : Offered := ⟨now, d, (l.offer now d).1⟩
    rw [record_concat, after_append]
    change (l.offer now d).2.slot c = ⟨(lastAdmitted? (_ ++ [o]) c).getD never,
      .ofNat (heldBack (_ ++ [o]) c)⟩
    by_cases hd : d = c
    · subst hd
      rcases offer_cases l now d with ⟨-, ho⟩ | ⟨-, ho⟩
      · obtain ⟨hlast, hheld, -⟩ := past_concat_some (r := (new interval).record steps)
          (o := o) rfl (congrArg Prod.fst ho)
        rw [hlast, hheld, ho, setSlot_self]
        rfl
      · obtain ⟨hlast, hheld, -⟩ := past_concat_none (r := (new interval).record steps)
          (o := o) rfl (congrArg Prod.fst ho)
        rw [hlast, hheld, ho, setSlot_self, ih, UInt64.ofNat_add]
        rfl
    · obtain ⟨hlast, hheld, -⟩ := past_concat_ne (r := (new interval).record steps)
        (o := o) hd
      rw [hlast, hheld, slot_offer_ne now (Ne.symm hd), ih]

/-- An entry is admitted where the slot that its past left is due, and then
    reports what that slot counted. -/
theorem answer_eq {interval : UInt64} {steps : List (UInt64 × Category)}
    {earlier later : List Offered} {o : Offered}
    (h : (new interval).record steps = earlier ++ o :: later) :
    let s : Slot := ⟨(lastAdmitted? earlier o.category).getD never,
      .ofNat (heldBack earlier o.category)⟩
    o.answer = if s.due interval o.reading then some s.suppressed else none := by
  obtain ⟨before, rfl, -, ha⟩ := record_split h
  have hi : ((new interval).after before).interval = interval := interval_after ..
  rcases offer_cases ((new interval).after before) o.reading o.category with
    ⟨hdue, ho⟩ | ⟨hdue, ho⟩ <;>
  · rw [slot_after, hi] at hdue
    rw [ha, ho, slot_after]
    simp [hdue]

/-! ### Spacing -/

/-- A slot is due where it has no line or the clock reads an interval above
    its last one: a clock that went back is below it. -/
theorem due_iff {s : Slot} {interval now : UInt64} (h : 1 ≤ interval) :
    s.due interval now = true ↔
      s.last = never ∨ s.last.toNat + interval.toNat ≤ now.toNat := by
  have hpos : 1 ≤ interval.toNat := UInt64.le_iff_toNat_le.mp h
  by_cases hle : s.last ≤ now
  · have hle' := UInt64.le_iff_toNat_le.mp hle
    simp only [Slot.due, hle, if_true, Bool.or_eq_true, decide_eq_true_eq, ge_iff_le,
      UInt64.le_iff_toNat_le, UInt64.toNat_sub_of_le _ _ hle]
    exact or_congr_right (by omega)
  · have hlt : now.toNat < s.last.toNat := by
      simpa [UInt64.le_iff_toNat_le] using hle
    simp only [Slot.due, hle, if_false, Bool.or_eq_true, decide_eq_true_eq, ge_iff_le,
      UInt64.le_iff_toNat_le, UInt64.toNat_zero]
    exact or_congr_right (by omega)

/-- An entry is admitted where its category had no line or the last one is an
    interval below. -/
theorem isSome_answer_iff {interval : UInt64} {steps : List (UInt64 × Category)}
    (hi : 1 ≤ interval) (hs : ∀ step ∈ steps, step.1 < never)
    {earlier later : List Offered} {o : Offered}
    (h : (new interval).record steps = earlier ++ o :: later) :
    o.answer.isSome ↔
      lastAdmitted? earlier o.category = none ∨
        ∃ t, lastAdmitted? earlier o.category = some t ∧
          t.toNat + interval.toNat ≤ o.reading.toNat := by
  rw [answer_eq h, Option.isSome_ite, due_iff hi]
  cases hl : lastAdmitted? earlier o.category with
  | none => simp
  | some t =>
    -- an admitted reading is never taken for the mark of an empty slot
    obtain ⟨e, he, -, rfl⟩ := mem_of_lastAdmitted? hl
    have hstep : (e.reading, e.category) ∈ steps := by
      rw [← map_step_record (new interval) steps, h]
      exact List.mem_map_of_mem (List.mem_append_left _ he)
    have hne : e.reading ≠ never := UInt64.ne_of_lt (hs _ hstep)
    simp [hne]

/-- The admitted lines of a category rise by an interval each, and none of
    them is above the last one. -/
theorem pairwise_admitted {interval : UInt64} {steps : List (UInt64 × Category)}
    (hi : 1 ≤ interval) (hs : ∀ step ∈ steps, step.1 < never) (c : Category) :
    (admitted ((new interval).record steps) c).Pairwise
        (fun o o' => o.reading.toNat + interval.toNat ≤ o'.reading.toNat) ∧
      ∀ o ∈ admitted ((new interval).record steps) c,
        ∃ t, lastAdmitted? ((new interval).record steps) c = some t ∧
          o.reading.toNat ≤ t.toNat := by
  induction steps using List.reverseRecOn with
  | nil => exact ⟨.nil, by simp [admitted]⟩
  | append_singleton steps step ih =>
    obtain ⟨hpair, hlast⟩ := ih fun step h => hs step (List.mem_append_left _ h)
    have hadm := isSome_answer_iff hi hs (record_concat (new interval) steps step)
    rw [record_concat]
    generalize hr : (new interval).record steps = r at hpair hlast hadm ⊢
    generalize ho : (⟨step.1, step.2, _⟩ : Offered) = o at hadm ⊢
    by_cases hc : o.category = c
    · cases ha : o.answer with
      | none =>
        obtain ⟨hl, -, -, -, hadd⟩ := past_concat_none (r := r) hc ha
        rw [hl, hadd]
        exact ⟨hpair, hlast⟩
      | some n =>
        obtain ⟨hl, -, -, -, hadd⟩ := past_concat_some (r := r) hc ha
        -- the new line is an interval above the last one, and so above all
        have hup : ∀ a ∈ admitted r c, a.reading.toNat + interval.toNat ≤ o.reading.toNat := by
          intro a hmem
          obtain ⟨t, ht, hle⟩ := hlast a hmem
          rcases hadm.mp (by simp [ha]) with hnone | ⟨t', ht', hle'⟩
          · simp [hc, ht] at hnone
          · rw [hc, ht] at ht'
            obtain rfl := Option.some.inj ht'
            omega
        rw [hl, hadd]
        refine ⟨List.pairwise_append.mpr ⟨hpair, List.pairwise_singleton .., ?_⟩, ?_⟩
        · intro a hmem b hb
          rw [List.mem_singleton.mp hb]
          exact hup a hmem
        · intro a hmem
          refine ⟨_, rfl, ?_⟩
          rcases List.mem_append.mp hmem with hmem | hmem
          · exact Nat.le_of_add_right_le (hup a hmem)
          · obtain rfl := List.mem_singleton.mp hmem
            exact Nat.le_refl _
    · obtain ⟨hl, -, -, -, hadd⟩ := past_concat_ne (r := r) hc
      rw [hl, hadd]
      exact ⟨hpair, hlast⟩

/-- How a limiter spaces the lines of `steps`. -/
structure Spaced (interval : UInt64) (steps : List (UInt64 × Category)) : Prop where
  /-- A category is answered as if it were alone. -/
  alone : ∀ c, (((new interval).record steps).filter (·.category = c)).map (·.answer) =
    (new interval).offers (steps.filter (·.2 = c))
  /-- A line is admitted exactly where its category had none or the last one
      is at least an interval below. -/
  admitted_iff : ∀ {earlier o later}, (new interval).record steps = earlier ++ o :: later →
    (o.answer.isSome ↔
      lastAdmitted? earlier o.category = none ∨
        ∃ t, lastAdmitted? earlier o.category = some t ∧
          t.toNat + interval.toNat ≤ o.reading.toNat)
  /-- Any two admitted lines of a category are an interval apart, the later
      one above. -/
  apart : ∀ c, (admitted ((new interval).record steps) c).Pairwise
    fun o o' => o.reading.toNat + interval.toNat ≤ o'.reading.toNat
  /-- The first line of a category is admitted. -/
  first : ∀ {earlier o later}, (new interval).record steps = earlier ++ o :: later →
    (∀ e ∈ earlier, e.category ≠ o.category) → o.answer.isSome

/-- Whatever the clock does, a limiter admits the first line of a category and
    then one at least an interval above the last, and no category is noticed
    in another. -/
theorem spaced_offers (interval : UInt64) (steps : List (UInt64 × Category))
    (hi : 1 ≤ interval) (hs : ∀ step ∈ steps, step.1 < never) : Spaced interval steps where
  alone c := by
    rw [filter_record steps (k := new interval) rfl rfl, map_answer_record]
  admitted_iff h := isSome_answer_iff hi hs h
  apart c := (pairwise_admitted hi hs c).1
  first h hfirst := by
    refine (isSome_answer_iff hi hs h).mpr (.inl (Option.eq_none_iff_forall_ne_some.mpr ?_))
    intro t ht
    obtain ⟨e, he, hc, -⟩ := mem_of_lastAdmitted? ht
    exact hfirst e he hc

/-- The readings of a clock that goes back: a line is held back until the clock
    is an interval above the last one again. -/
theorem spaced_offers_clock_back :
    let steps : List (UInt64 × Category) :=
      [(5000, .staleHandle), (100, .staleHandle), (5900, .queryFailure),
        (6000, .staleHandle), (0, .queryFailure), (6900, .queryFailure)]
    (1 : UInt64) ≤ 1000 ∧ (∀ step ∈ steps, step.1 < never) ∧
      (new 1000).offers steps = [some 0, none, some 0, some 1, none, some 1] ∧
      Spaced 1000 steps :=
  ⟨by decide, by decide, by decide, spaced_offers 1000 _ (by decide) (by decide)⟩

/-! ### Reports -/

/-- The books of one category: no line that was held back is forgotten or
    reported twice. -/
structure Reckoned (interval : UInt64) (steps : List (UInt64 × Category))
    (c : Category) : Prop where
  /-- Each line that was held back is reported or still counted. -/
  total : reported ((new interval).record steps) c +
      (((new interval).after steps).slot c).suppressed.toNat =
    suppressed ((new interval).record steps) c
  /-- An admitted line reports the lines held back since the one before. -/
  report : ∀ {earlier o later n}, (new interval).record steps = earlier ++ o :: later →
    o.category = c → o.answer = some n → n.toNat = heldBack earlier c

/-- An admitted line reports what was held back since the one before, as long
    as a word can count it. -/
theorem report_eq {interval : UInt64} {steps : List (UInt64 × Category)} {c : Category}
    (hc : suppressed ((new interval).record steps) c < UInt64.size)
    {earlier later : List Offered} {o : Offered} {n : UInt64}
    (h : (new interval).record steps = earlier ++ o :: later)
    (ho : o.category = c) (hn : o.answer = some n) : n.toNat = heldBack earlier c := by
  have hle : suppressed earlier c ≤ suppressed ((new interval).record steps) c := by
    rw [h]
    simp only [suppressed, List.countP_append]
    exact Nat.le_add_right ..
  have hfits : heldBack earlier c < UInt64.size := by
    have := heldBack_le_suppressed earlier c
    omega
  have hword : n = .ofNat (heldBack earlier c) := by
    have ha := answer_eq h
    simp only [hn, ho, Option.some_eq_ite_none_right] at ha
    exact Option.some.inj ha.2
  rw [hword, UInt64.toNat_ofNat_of_lt' hfits]

/-- What was reported and what was held back since make up all that was held
    back. -/
theorem reported_add_heldBack {interval : UInt64} {steps : List (UInt64 × Category)}
    {c : Category} (hc : suppressed ((new interval).record steps) c < UInt64.size) :
    reported ((new interval).record steps) c + heldBack ((new interval).record steps) c =
      suppressed ((new interval).record steps) c := by
  induction steps using List.reverseRecOn with
  | nil => rfl
  | append_singleton steps step ih =>
    have hreport n := report_eq (n := n) hc (record_concat (new interval) steps step)
    rw [record_concat] at hc ⊢
    generalize (new interval).record steps = r at ih hc hreport ⊢
    generalize (⟨step.1, step.2, _⟩ : Offered) = o at hc hreport ⊢
    by_cases ho : o.category = c
    · cases ha : o.answer with
      | none =>
        obtain ⟨-, hheld, hsupp, hrep, -⟩ := past_concat_none (r := r) ho ha
        rw [hsupp] at hc
        rw [hheld, hsupp, hrep, ← ih (by omega)]
        rfl
      | some n =>
        obtain ⟨-, hheld, hsupp, hrep, -⟩ := past_concat_some (r := r) ho ha
        rw [hsupp] at hc
        rw [hheld, hsupp, hrep, hreport n ho ha]
        exact ih hc
    · obtain ⟨-, hheld, hsupp, hrep, -⟩ := past_concat_ne (r := r) ho
      rw [hsupp] at hc
      rw [hheld, hsupp, hrep]
      exact ih hc

/-- For every interval and every clock, the counts of a category add up. -/
theorem reckoned_offers (interval : UInt64) (steps : List (UInt64 × Category)) (c : Category)
    (hc : suppressed ((new interval).record steps) c < UInt64.size) :
    Reckoned interval steps c where
  total := by
    have hfits : heldBack ((new interval).record steps) c < UInt64.size :=
      Nat.lt_of_le_of_lt (heldBack_le_suppressed ..) hc
    rw [slot_after, UInt64.toNat_ofNat_of_lt' hfits]
    exact reported_add_heldBack hc
  report h ho hn := report_eq hc h ho hn

/-- Three lines are held back, two of them are reported, and one is still
    counted. -/
theorem reckoned_offers_burst :
    let steps : List (UInt64 × Category) :=
      [(7, .attachFailure), (3, .attachFailure), (9, .duplicateRelease),
        (16, .attachFailure), (18, .attachFailure), (20, .attachFailure)]
    suppressed ((new 10).record steps) .attachFailure < UInt64.size ∧
      (new 10).offers steps = [some 0, none, some 0, none, some 2, none] ∧
      Reckoned 10 steps .attachFailure :=
  ⟨by decide, by decide, reckoned_offers 10 _ _ (by decide)⟩

end Limiter

end CallbackBridge.Log
