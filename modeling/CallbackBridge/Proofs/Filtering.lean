import Mathlib.Data.List.Induction
import Mathlib.Data.Nat.Bitwise
import CallbackBridge.Log.History
import CallbackBridge.Proofs.Reports.Lines

/-! # What reaches the sink

    The logger keeps one sink: a mask that was cut down to the known bits, and
    a level.  Here both are tied to the whole past of the logger, and a line to
    the call that logged it.

    Proof structure:

    1. A step *settles* whether there is a sink; the last one that did decides.
       Changes of the mask count from there on (`sink_after_iff`).
    2. Words of breadcrumbs are taken apart bit by bit: masks and breadcrumbs
       meet in an area, and the first area of a word has its lowest bit.
    3. Only a NUL in the message can keep a line from being whole, since the
       mark and the labels hold none. -/

namespace CallbackBridge.Log

/-! ### Levels -/

namespace Level

/-- The words that ask for a level.  Any other one asks for `info`. -/
def words : Level → List String
  | .error => ["error", "err"]
  | .warn => ["warn", "warning"]
  | .info => []
  | .debug => ["debug", "dbg", "trace"]

/-- A text, or none at all, asks for a level: in lower case it is one of the
    words for it, or it is no word for any. -/
def Asked (text : Option String) (level : Level) : Prop :=
  (∃ name, text = some name ∧ name.toLower ∈ level.words) ∨
    level = .info ∧ ∀ name, text = some name → ∀ other : Level, name.toLower ∉ other.words

theorem eq_of_mem_words {word : String} {a b : Level} (ha : word ∈ a.words)
    (hb : word ∈ b.words) : a = b := by
  cases a <;> cases b <;> grind [words]

theorem ofName_cases (name : String) :
    name.toLower ∈ (ofName name).words ∨
      ofName name = .info ∧ ∀ other : Level, name.toLower ∉ other.words := by
  unfold ofName
  split
  case h_8 =>
    refine .inr ⟨rfl, fun other => ?_⟩
    cases other <;> simp_all [words]
  all_goals
    next h => exact .inl (by simp [h, words])

/-- A sink gets the level that was asked for. -/
theorem asked_iff {text : Option String} {level : Level} :
    Asked text level ↔ (text.map ofName).getD .info = level := by
  cases text with
  | none => simp [Asked, eq_comm]
  | some name =>
    simp only [Asked, Option.some.injEq, exists_eq_left', forall_eq', Option.map_some,
      Option.getD_some]
    obtain word | ⟨info, other⟩ := ofName_cases name
    · constructor
      · rintro (hw | ⟨-, no⟩)
        · exact eq_of_mem_words word hw
        · exact absurd word (no _)
      · rintro rfl
        exact .inl word
    · simp [info, other, eq_comm]

end Level

/-! ### Breadcrumbs, bit by bit -/

namespace Area

/-- Which bit of a word stands for an area, the lowest one being the first. -/
def index : Area → Nat
  | .handle => 0
  | .attachment => 1
  | .dispatch => 2
  | .process => 3
  | .engine => 4
  | .boundary => 5

theorem toNat_bit (a : Area) : a.bit.toNat = 1 <<< a.index := by
  cases a <;> rfl

theorem exists_index {i : Nat} (h : i < 6) : ∃ a : Area, a.index = i := by
  have all : ∀ i : Fin 6, ∃ a ∈ Area.all, a.index = i := by decide
  obtain ⟨a, -, ha⟩ := all ⟨i, h⟩
  exact ⟨a, ha⟩

end Area

namespace Breadcrumbs

/-- A word has an area where the bit of the area is set. -/
theorem has_iff_testBit {b : Breadcrumbs} {a : Area} :
    b.has a = true ↔ b.bits.toNat.testBit a.index = true := by
  rw [has, decide_eq_true_iff, ne_eq, ← UInt32.toNat_inj, UInt32.toNat_and, a.toNat_bit,
    Nat.one_shiftLeft, Nat.and_two_pow]
  cases b.bits.toNat.testBit a.index <;> simp

/-- A mask and some breadcrumbs meet in an area that both of them have. -/
theorem known_meets_iff {mask b : Breadcrumbs} :
    mask.known.meets b = true ↔ ∃ a, mask.has a = true ∧ b.has a = true := by
  have bit : ∀ i, (mask.bits &&& knownBits &&& b.bits).toNat.testBit i = true ↔
      i < 6 ∧ mask.bits.toNat.testBit i = true ∧ b.bits.toNat.testBit i = true := by
    intro i
    have known : knownBits.toNat.testBit i = decide (i < 6) := Nat.testBit_two_pow_sub_one 6 i
    rw [UInt32.toNat_and, UInt32.toNat_and, Nat.testBit_and, Nat.testBit_and, known]
    simp only [Bool.and_eq_true, decide_eq_true_eq]
    rw [and_comm (b := i < 6), and_assoc]
  rw [meets, decide_eq_true_iff, ne_eq, ← UInt32.toNat_inj, UInt32.toNat_zero, ← ne_eq]
  constructor
  · intro ne
    obtain ⟨i, hi⟩ := Nat.exists_testBit_of_ne_zero ne
    obtain ⟨small, hm, hb⟩ := (bit i).mp hi
    obtain ⟨a, rfl⟩ := Area.exists_index small
    exact ⟨a, has_iff_testBit.mpr hm, has_iff_testBit.mpr hb⟩
  · rintro ⟨a, hm, hb⟩ zero
    have small : a.index < 6 := by cases a <;> decide
    have set := (bit a.index).mpr ⟨small, has_iff_testBit.mp hm, has_iff_testBit.mp hb⟩
    change (mask.bits &&& knownBits &&& b.bits).toNat = 0 at zero
    rw [zero, Nat.zero_testBit] at set
    cases set

/-- The lowest of the areas that a word has. -/
structure Lowest (b : Breadcrumbs) (a : Area) : Prop where
  has : b.has a = true
  least : ∀ other : Area, b.has other = true → a.bit ≤ other.bit

theorem lowest_of_area? {b : Breadcrumbs} {a : Area} (h : b.area? = some a) : b.Lowest a := by
  obtain ⟨has, before, after, all, missing⟩ := List.find?_eq_some_iff_append.mp h
  refine ⟨has, fun other ho => ?_⟩
  have rising : Area.all.Pairwise (·.bit ≤ ·.bit) := by decide
  have mem : other ∈ before ++ a :: after := all ▸ Area.mem_all other
  rw [all, List.pairwise_append] at rising
  rcases List.mem_append.mp mem with hb | hb
  · exact absurd ho (by simpa using missing other hb)
  rcases List.mem_cons.mp hb with rfl | hb
  · exact Std.le_refl _
  · exact (List.pairwise_cons.mp rising.2.1).1 other hb

theorem exists_area? {b : Breadcrumbs} {a : Area} (h : b.has a = true) :
    ∃ first, b.area? = some first :=
  Option.isSome_iff_exists.mp (List.find?_isSome.mpr ⟨a, Area.mem_all a, h⟩)

/-- No bits, no areas. -/
theorem area?_of_bits {b : Breadcrumbs} (h : b.bits = 0) : b.area? = none := by
  simp [area?, has, h]

theorem bits_ne_zero {b : Breadcrumbs} {a : Area} (h : b.has a = true) : b.bits ≠ 0 := by
  intro zero
  simp [has, zero] at h

end Breadcrumbs

/-! ### What was asked for last -/

namespace LoggerStep

/-- The step installs a sink or removes it, and does not fail. -/
def Settles : LoggerStep → Prop
  | .install none _ => True
  | .install (some r) _ => r.hasCallback = true
  | .setMask _ | .log .. => False

/-- The mask that a step asks for. -/
def mask? : LoggerStep → Option UInt32
  | .setMask mask => some mask
  | .install .. | .log .. => none

end LoggerStep

/-- The last step that settled whether there is a sink installed one, as asked
    for by `r` with the level `text`; the steps in `later` came after it. -/
structure Installed (steps : List LoggerStep) (r : SinkRequest) (text : Option String)
    (later : List LoggerStep) : Prop where
  split : ∃ earlier, steps = earlier ++ .install (some r) text :: later
  callback : r.hasCallback = true
  last : ∀ step ∈ later, ¬ step.Settles

/-- The mask that was asked for last, or the sink's own one. -/
def lastMask (own : UInt32) (later : List LoggerStep) : UInt32 :=
  (later.filterMap LoggerStep.mask?).getLast?.getD own

/-- After `steps` there is a sink, with a mask and a level. -/
def InForce (steps : List LoggerStep) (mask : UInt32) (level : Level) : Prop :=
  ∃ r text later, Installed steps r text later ∧ mask = lastMask r.mask later ∧ level.Asked text

namespace Installed

variable {steps later : List LoggerStep} {step : LoggerStep} {r : SinkRequest}
  {text : Option String}

theorem not_nil : ¬ Installed [] r text later := by
  rintro ⟨⟨earlier, split⟩, -, -⟩
  simp at split

/-- A step that settles whether there is a sink leaves nothing of the past. -/
theorem concat_settles (hs : step.Settles) :
    Installed (steps ++ [step]) r text later ↔ step = .install (some r) text ∧ later = [] := by
  constructor
  · rintro ⟨⟨earlier, split⟩, -, last⟩
    obtain rfl | ⟨more, final, rfl⟩ := List.eq_nil_or_concat later
    · exact ⟨(List.append_inj' split rfl).2 |> List.cons.inj |>.1, rfl⟩
    · -- the last step would be among those that settle nothing
      rw [List.concat_eq_append, ← List.cons_append, ← List.append_assoc] at split
      obtain rfl := (List.cons.inj (List.append_inj' split rfl).2).1
      exact absurd hs (last _ (by simp))
  · rintro ⟨rfl, rfl⟩
    exact ⟨⟨steps, rfl⟩, hs, nofun⟩

/-- Any other step comes after the last one that did. -/
theorem concat_other (hs : ¬ step.Settles) :
    Installed (steps ++ [step]) r text later ↔
      ∃ before, later = before ++ [step] ∧ Installed steps r text before := by
  constructor
  · rintro ⟨⟨earlier, split⟩, callback, last⟩
    obtain rfl | ⟨more, final, rfl⟩ := List.eq_nil_or_concat later
    · obtain rfl := (List.cons.inj (List.append_inj' split rfl).2).1
      exact absurd callback hs
    · rw [List.concat_eq_append] at last split ⊢
      rw [← List.cons_append, ← List.append_assoc] at split
      obtain ⟨split, same⟩ := List.append_inj' split rfl
      exact ⟨more, by rw [same], ⟨earlier, split⟩, callback,
        fun s hm => last s (List.mem_append_left _ hm)⟩
  · rintro ⟨before, rfl, ⟨earlier, rfl⟩, callback, last⟩
    refine ⟨⟨earlier, by simp⟩, callback, fun s hm => ?_⟩
    rcases List.mem_append.mp hm with hm | hm
    · exact last s hm
    · rwa [List.mem_singleton.mp hm]

end Installed

theorem lastMask_concat {own : UInt32} {later : List LoggerStep} {step : LoggerStep} :
    lastMask own (later ++ [step]) = step.mask?.getD (lastMask own later) := by
  cases h : step.mask? <;> simp [lastMask, List.filterMap_append, h]

/-! ### The logger after a history -/

/-- The sink that was asked for with a mask and a level. -/
def sinkOf (mask : UInt32) (text : Option String) : Sink :=
  ⟨(⟨mask⟩ : Breadcrumbs).known, (text.map Level.ofName).getD .info⟩

/-- It takes plain lines by level, and the others by what they share with the
    mask. -/
theorem accepts_sinkOf {mask : UInt32} {text : Option String} {level : Level}
    {b : Breadcrumbs} :
    (sinkOf mask text).accepts level b = true ↔
      b.bits = 0 ∧ level.rank ≤ (sinkOf mask text).level.rank ∨
        ∃ a, (⟨mask⟩ : Breadcrumbs).has a = true ∧ b.has a = true := by
  by_cases hb : b.bits = 0
  · have none : ∀ a, ¬ b.has a = true := fun a ha => Breadcrumbs.bits_ne_zero ha hb
    simp [Sink.accepts, Breadcrumbs.isEmpty, hb, none, Level.within]
  · rw [Sink.accepts, Breadcrumbs.isEmpty, decide_eq_false hb, ← Breadcrumbs.known_meets_iff]
    simp [hb, sinkOf]

namespace Logger

variable {l : Logger} {step : LoggerStep} {steps : List LoggerStep} {sink : Sink}

theorem after_concat (l : Logger) (steps : List LoggerStep) (step : LoggerStep) :
    l.after (steps ++ [step]) = ((l.after steps).step step).2 := by
  simp [after]

/-- Each step of a history leads to what it would lead to by itself, after the
    ones before it. -/
theorem play_at (l : Logger) (before : List LoggerStep) (step : LoggerStep)
    (rest : List LoggerStep) :
    (l.play (before ++ step :: rest))[before.length]? = some ((l.after before).step step).1 := by
  induction before generalizing l with
  | nil => rfl
  | cons first before ih => exact ih _

theorem processId_step : (l.step step).2.processId = l.processId := by
  cases step with
  | log | setMask => rfl
  | install request text =>
    cases request with
    | none => rfl
    | some r => cases hr : r.hasCallback <;> simp [Logger.step, install, hr]

theorem processId_after : (l.after steps).processId = l.processId := by
  induction steps using List.reverseRecOn with
  | nil => rfl
  | append_singleton steps step ih => rw [after_concat, processId_step, ih]

/-- A step that settles whether there is a sink brings the sink it asks for, or
    none. -/
theorem sink_step_settles (hs : step.Settles) :
    (l.step step).2.sink = some sink ↔
      ∃ r text, step = .install (some r) text ∧ sink = sinkOf r.mask text := by
  cases step with
  | log | setMask => cases hs
  | install request text =>
    cases request with
    | none => simp [Logger.step, install]
    | some r =>
      have callback : r.hasCallback = true := hs
      simp [Logger.step, install, callback, sinkOf, eq_comm]

/-- Any other step leaves the sink, but for the mask that it may ask for. -/
theorem sink_step_other (hs : ¬ step.Settles) :
    (l.step step).2.sink = l.sink.map fun s =>
      { s with mask := (step.mask?.map fun mask => (⟨mask⟩ : Breadcrumbs).known).getD s.mask } := by
  cases step with
  | log => simp [Logger.step, LoggerStep.mask?]
  | setMask => rfl
  | install request text =>
    cases request with
    | none => exact absurd trivial hs
    | some r =>
      have callback : r.hasCallback = false := by simpa [LoggerStep.Settles] using hs
      simp [Logger.step, install, callback, LoggerStep.mask?]

/-- The sink is the one that was installed last, with the mask that was asked
    for last. -/
theorem sink_after_iff {pid : Nat} :
    ((initial pid).after steps).sink = some sink ↔
      ∃ r text later,
        Installed steps r text later ∧ sink = sinkOf (lastMask r.mask later) text := by
  -- at the end of the history, since it is the latest step that counts
  induction steps using List.reverseRecOn generalizing sink with
  | nil => simp [after, initial, Installed.not_nil]
  | append_singleton steps step ih =>
    rw [after_concat]
    by_cases hs : step.Settles
    · simp only [sink_step_settles hs, Installed.concat_settles hs]
      constructor
      · rintro ⟨r, text, rfl, rfl⟩
        exact ⟨r, text, [], ⟨rfl, rfl⟩, rfl⟩
      · rintro ⟨r, text, _, ⟨rfl, rfl⟩, rfl⟩
        exact ⟨r, text, rfl, rfl⟩
    · have masked : ∀ own before text, sinkOf (lastMask own (before ++ [step])) text =
          { sinkOf (lastMask own before) text with
            mask := (step.mask?.map fun mask => (⟨mask⟩ : Breadcrumbs).known).getD
              (sinkOf (lastMask own before) text).mask } := by
        intro own before text
        rw [lastMask_concat]
        cases step.mask? <;> rfl
      simp only [sink_step_other hs, Installed.concat_other hs, Option.map_eq_some_iff, ih]
      constructor
      · rintro ⟨_, ⟨r, text, before, installed, rfl⟩, rfl⟩
        exact ⟨r, text, _, ⟨before, rfl, installed⟩, (masked ..).symm⟩
      · rintro ⟨r, text, _, ⟨before, rfl, installed⟩, rfl⟩
        exact ⟨_, ⟨r, text, before, installed, rfl⟩, (masked ..).symm⟩

/-! ### Lines -/

/-- A line holds a NUL only where the message does. -/
theorem nul_mem_text_iff {b : Breadcrumbs} {message : String} :
    '\x00' ∈ (l.text b message).toList ↔ '\x00' ∈ message.toList := by
  have label : ∀ a : Area, '\x00' ∉ a.label.toList := fun a => by cases a <;> simp [Area.label]
  unfold text
  split <;> simp [toString, nul_not_mem_mark, label]

/-- A message reaches the sink where the sink takes it and it is all there. -/
theorem line?_eq_some_iff {level : Level} {b : Breadcrumbs} {message : String} {line : Line} :
    l.line? level b message = some line ↔
      message ≠ "" ∧ '\x00' ∉ message.toList ∧
        (∃ sink, l.sink = some sink ∧ sink.accepts level b = true) ∧
        line = ⟨level, l.text b message, b⟩ := by
  have whole : (l.text b message).contains '\x00' = true ↔ '\x00' ∈ message.toList := by
    rw [String.contains_char_eq, decide_eq_true_iff, nul_mem_text_iff]
  by_cases empty : message = ""
  · simp [line?, empty]
  have said : message.isEmpty = false := by simpa using empty
  cases hsink : l.sink with
  | none => simp [line?, said, hsink]
  | some sink =>
    by_cases nul : '\x00' ∈ message.toList
    · simp [line?, said, hsink, whole.mpr nul, nul]
    · have clear := eq_false_of_ne_true (mt whole.mp nul)
      cases taken : sink.accepts level b <;> simp [line?, said, hsink, taken, clear, nul, empty,
        @eq_comm _ line]

/-! ### The whole past -/

/-- A message with breadcrumbs passes, given what was done to the logger before:
    it is there and can be handed over whole, and the sink in force wants it. -/
def Passes (before : List LoggerStep) (level : Level) (b : Breadcrumbs) (message : String) :
    Prop :=
  message ≠ "" ∧ '\x00' ∉ message.toList ∧ ∃ mask limit, InForce before mask limit ∧
    (b.bits = 0 ∧ level.rank ≤ limit.rank ∨
      ∃ a, (⟨mask⟩ : Breadcrumbs).has a = true ∧ b.has a = true)

/-- How a message is worded: after the mark of the process, and the lowest area
    of its breadcrumbs in brackets exactly where it has breadcrumbs. -/
def Worded (pid : Nat) (b : Breadcrumbs) (message text : String) : Prop :=
  b.bits = 0 ∧ text = s!"[tb-p{pid}] {message}" ∨
    b.bits ≠ 0 ∧ ∃ a, b.Lowest a ∧ text = s!"[tb-p{pid}] [{a.label}] {message}"

variable {pid : Nat} {level : Level} {b : Breadcrumbs} {message : String} {mask : UInt32}
  {limit : Level}

/-- What is in force is what the sink was made from. -/
theorem inForce_iff : InForce steps mask limit ↔
    ∃ r text later, Installed steps r text later ∧ mask = lastMask r.mask later ∧
      limit = (sinkOf mask text).level := by
  simp only [InForce, Level.asked_iff, sinkOf, eq_comm]

theorem exists_sink_iff :
    (∃ sink, ((initial pid).after steps).sink = some sink ∧ sink.accepts level b = true) ↔
      ∃ mask limit, InForce steps mask limit ∧
        (b.bits = 0 ∧ level.rank ≤ limit.rank ∨
          ∃ a, (⟨mask⟩ : Breadcrumbs).has a = true ∧ b.has a = true) := by
  simp only [sink_after_iff, inForce_iff]
  constructor
  · rintro ⟨_, ⟨r, text, later, installed, rfl⟩, taken⟩
    exact ⟨_, _, ⟨r, text, later, installed, rfl, rfl⟩, accepts_sinkOf.mp taken⟩
  · rintro ⟨_, _, ⟨r, text, later, installed, rfl, rfl⟩, wanted⟩
    exact ⟨_, ⟨r, text, later, installed, rfl⟩, accepts_sinkOf.mpr wanted⟩

/-- Nothing is in force exactly where there is no sink. -/
theorem sink_after_eq_none_iff :
    ((initial pid).after steps).sink = none ↔ ∀ mask limit, ¬ InForce steps mask limit := by
  simp only [inForce_iff, Option.eq_none_iff_forall_ne_some, ne_eq, sink_after_iff]
  constructor
  · rintro none mask limit ⟨r, text, later, installed, -, -⟩
    exact none _ ⟨r, text, later, installed, rfl⟩
  · rintro none sink ⟨r, text, later, installed, -⟩
    exact none _ _ ⟨r, text, later, installed, rfl, rfl⟩

/-- What passes has the words that it should. -/
theorem worded_text (hl : l.processId = pid) (h : b.bits = 0 ∨ ∃ a, b.has a = true) :
    Worded pid b message (l.text b message) := by
  obtain zero | ⟨a, ha⟩ := h
  · refine .inl ⟨zero, ?_⟩
    simp [text, Breadcrumbs.area?_of_bits zero, mark, hl, toString, String.append_assoc]
  · obtain ⟨first, hf⟩ := Breadcrumbs.exists_area? ha
    refine .inr ⟨Breadcrumbs.bits_ne_zero ha, first, Breadcrumbs.lowest_of_area? hf, ?_⟩
    simp [text, hf, mark, hl, toString, String.append_assoc]

/-- **What reaches the sink.**  Wherever a call of the log stands in a history,
    its message reaches a sink exactly where it passes, as it was worded, and
    with the level and the breadcrumbs it was logged with.  A request without a
    function to call fails and changes nothing, and a mask that is asked for
    while there is no sink changes nothing either. -/
theorem log_reaches_sink (pid : Nat) (before : List LoggerStep) :
    (∀ level b message rest, ∃ answer,
      ((initial pid).play (before ++ .log level b message :: rest))[before.length]? =
        some (.ok answer) ∧
      (answer.isSome = true ↔ Passes before level b message) ∧
      ∀ line, answer = some line →
        line.level = level ∧ line.breadcrumbs = b ∧ Worded pid b message line.text) ∧
    (∀ r text, r.hasCallback = false →
      ((initial pid).after before).step (.install (some r) text) =
        (.error .missingCallback, (initial pid).after before)) ∧
    ∀ mask, (∀ own limit, ¬ InForce before own limit) →
      ((initial pid).after before).step (.setMask mask) =
        (.ok none, (initial pid).after before) := by
  refine ⟨fun level b message rest => ?_, fun r text hr => ?_, fun mask none => ?_⟩
  · refine ⟨_, play_at .., ?_, fun line hline => ?_⟩
    · rw [Option.isSome_iff_exists]
      simp only [line?_eq_some_iff, exists_sink_iff, Passes, ← and_assoc, exists_and_left,
        exists_eq, and_true]
    · obtain ⟨-, -, taken, rfl⟩ := line?_eq_some_iff.mp hline
      obtain ⟨mask, limit, -, wanted⟩ := exists_sink_iff.mp taken
      have known := wanted.imp And.left (Exists.imp fun _ => And.right)
      exact ⟨rfl, rfl, worded_text processId_after known⟩
  · simp [Logger.step, install, hr]
  · have gone : ((initial pid).after before).sink = Option.none := sink_after_eq_none_iff.mpr none
    simp only [Logger.step, setMask, gone, Option.map_none]
    rw [← gone]

/-- A sink at `warn` is installed, another one fails to be, and a mask with an
    unknown bit is asked for. -/
def Sample.remasked : List LoggerStep :=
  [.install (some ⟨0x44, true⟩) (some "WARN"), .log .error .plain "kept",
    .install (some ⟨0xFF, false⟩) (some "debug"), .setMask 0x80000018]

/-- A message with three areas and an unknown bit passes by two of the areas,
    and is labelled by the third one.  A plain one at `info` is held back. -/
theorem log_reaches_sink_labelled :
    (∃ line, ((initial 7).play (Sample.remasked ++ [.log .debug ⟨0x4000001C⟩ "sent"]))[4]? =
        some (.ok (some line)) ∧
      line = ⟨.debug, "[tb-p7] [DISPATCH] sent", ⟨0x4000001C⟩⟩) ∧
    ((initial 7).play (Sample.remasked ++ [.log .info .plain "sent"]))[4]? = some (.ok none) ∧
    ((initial 7).after Sample.remasked).step (.install (some ⟨1, false⟩) none) =
      (.error .missingCallback, (initial 7).after Sample.remasked) ∧
    (initial 7).step (.setMask 1) = (.ok none, initial 7) := by
  have lower : "WARN".toLower ∈ Level.warn.words := by decide +kernel
  have inForce : InForce Sample.remasked 0x80000018 .warn :=
    ⟨_, _, _, ⟨⟨[], rfl⟩, rfl, by simp [LoggerStep.Settles]⟩, rfl, .inl ⟨_, rfl, lower⟩⟩
  obtain ⟨calls, failed, -⟩ := log_reaches_sink 7 Sample.remasked
  obtain ⟨-, -, idle⟩ := log_reaches_sink 7 []
  obtain ⟨answer, told, passes, line⟩ := calls .debug ⟨0x4000001C⟩ "sent" []
  obtain ⟨⟨level, text, b⟩, rfl⟩ := Option.isSome_iff_exists.mp <| passes.mpr
    ⟨by decide, by decide, _, _, inForce, .inr ⟨.process, by decide, by decide⟩⟩
  obtain ⟨rfl, rfl, ⟨zero, -⟩ | ⟨-, a, lowest, rfl⟩⟩ := line _ rfl
  · cases zero
  · have only : ∀ a ∈ Area.all, (⟨0x4000001C⟩ : Breadcrumbs).has a = true →
        a.bit ≤ Area.dispatch.bit → a = .dispatch := by decide
    obtain rfl := only a (Area.mem_all a) lowest.has (lowest.least _ (by decide))
    refine ⟨⟨_, told, rfl⟩, by decide +kernel, failed _ _ rfl, idle _ ?_⟩
    rintro own limit ⟨_, _, _, installed, -, -⟩
    exact installed.not_nil

end Logger

end CallbackBridge.Log
