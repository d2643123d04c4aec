import CallbackBridge.Dispatch
import CallbackBridge.Proofs.Numerals

/-! # Reading the lines of the log

    A line about a failure that may repeat tells its category, and how many
    lines of that category were held back before it.  Here is how a reader of
    the log gets both back from the text.

    Key ideas:

    1. The label of the category follows the mark of the process, in brackets.
       No label is the beginning of another one that is closed by a bracket.
    2. The number stands at the very end.  A text of a failure never ends as
       such a line does, so a line without a number is not mistaken for one.
    3. A sink takes each such line, whatever its level and mask, as an error is
       within every level and no text of a failure holds a NUL. -/

namespace CallbackBridge

namespace Log

/-! ### The reader -/

/-- The number of lines that were held back, which a line tells at its very
    end. -/
def Line.heldBack (line : Line) : Nat :=
  match " suppressed)".toList.reverse.isPrefixOf? line.text.toList.reverse with
  | none => 0
  | some rest =>
    if " (".toList.reverse.isPrefixOf (rest.dropWhile Char.isDigit) then
      (Text.Decimal.natural? (rest.takeWhile Char.isDigit).reverse).getD 0
    else 0

/-- A line is about a failure of category `c`: an error that has the label of
    `c` in brackets, after the mark of the process. -/
def Logger.files (l : Logger) (c : Category) (line : Line) : Bool :=
  line.level = .error && s!"{l.mark} [{c.label}] ".toList.isPrefixOf line.text.toList

/-- How many failures of category `c` a line tells of: one, and those whose
    lines were held back. -/
def Logger.tells (l : Logger) (c : Category) (line : Line) : Nat :=
  if l.files c line then 1 + line.heldBack else 0

/-- A line of another level tells of no failure. -/
theorem Logger.tells_of_level {l : Logger} {c : Category} {line : Line}
    (h : line.level ≠ .error) : l.tells c line = 0 := by
  simp [tells, files, h]

theorem Logger.level_of_line? {l : Logger} {level : Level} {b : Breadcrumbs} {message : String}
    {line : Line} (h : l.line? level b message = some line) : line.level = level := by
  simp only [line?] at h
  split at h
  · cases h
  split at h
  · cases h
  split at h
  · split at h <;> cases h
    rfl
  · cases h

/-! ### Texts of failures -/

/-- A text that a sink takes as it is, and that does not end as a number of lines
    that were held back does. -/
structure Clear (text : String) : Prop where
  noNul : '\x00' ∉ text.toList
  ends : ∃ b a rest, text.toList.reverse = b :: a :: rest ∧ (b = ')' → a ≠ 'd')

namespace Clear

variable {pre text : String}

/-- What comes first does not matter to the end. -/
theorem append (hp : '\x00' ∉ pre.toList) (ht : Clear text) : Clear (pre ++ text) := by
  obtain ⟨noNul, b, a, rest, ends, other⟩ := ht
  exact ⟨by simp [hp, noNul], b, a, rest ++ pre.toList.reverse, by simp [ends], other⟩

/-- A text that ends in a number. -/
theorem number (hp : '\x00' ∉ pre.toList) (hne : pre ≠ "") (n : Int) :
    Clear (pre ++ Text.Decimal.ofInt n) := by
  obtain ⟨d, more, ends, digit⟩ := Text.Decimal.exists_last_ofInt n
  obtain ⟨a, rest, hrest⟩ : ∃ a rest, more ++ pre.toList.reverse = a :: rest :=
    List.exists_cons_of_ne_nil (by simp [hne])
  refine ⟨by simp [hp, Text.Decimal.nul_not_mem_ofInt], d, a, rest, by simp [ends, hrest], ?_⟩
  rintro rfl
  cases digit

/-- A text that ends in a number in brackets. -/
theorem bracketed (hp : '\x00' ∉ pre.toList) (n : Int) :
    Clear (pre ++ Text.Decimal.ofInt n ++ ")") := by
  obtain ⟨d, more, ends, digit⟩ := Text.Decimal.exists_last_ofInt n
  refine ⟨by simp [hp, Text.Decimal.nul_not_mem_ofInt], ')', d, more ++ pre.toList.reverse,
    by simp [ends], ?_⟩
  rintro - rfl
  cases digit

theorem handleId (id : HandleId) : Clear id.text := by
  have written : id.text = "#" ++ Text.Decimal.ofInt id.raw.toNat := by
    simp [HandleId.text, Text.Decimal.ofInt, Text.Decimal.ofNat, toString,
      Nat.repr_eq_ofList_toDigits]
  rw [written]
  exact number (by simp) (by simp) _

theorem attachError (e : AttachError) : Clear e.message := by
  cases e with
  | refused status =>
    show Clear ("host runtime refused to attach the current thread (status " ++
      Text.Decimal.ofInt status.toInt ++ ")")
    exact bracketed (by simp) _

/-- A text that ends in a word. -/
theorem word {b : Char} (hn : '\x00' ∉ text.toList) (hl : 2 ≤ text.toList.length)
    (hb : text.toList.reverse.head? = some b) (hne : b ≠ ')') : Clear text := by
  have long : 2 ≤ text.toList.reverse.length := by simpa using hl
  match hr : text.toList.reverse with
  | [] | [_] =>
    rw [hr] at long
    simp at long
  | b' :: a :: rest =>
    obtain rfl : b' = b := by simpa [hr] using hb
    exact ⟨hn, b', a, rest, hr, fun heq => absurd heq hne⟩

theorem handleError (e : HandleError) : Clear e.message := by
  cases e with
  | null =>
    show Clear "null handle"
    exact word (b := 'e') (by simp) (by simp) (by simp) (by decide)
  | pinFailed =>
    show Clear "host refused to pin the callback object"
    exact word (b := 't') (by simp) (by simp) (by simp) (by decide)
  | idSpaceExhausted =>
    show Clear "handle ids no longer fit a pointer"
    exact word (b := 'r') (by simp) (by simp) (by simp) (by decide)
  | released id =>
    show Clear s!"handle {id.text} was released or never registered"
    refine word (b := 'd') ?_ ?_ ?_ (by decide) <;> simp [toString, (handleId id).noNul]
  | wrongKind id kind =>
    show Clear s!"handle {id.text} is a {kind.name} handle"
    refine word (b := 'e') ?_ ?_ ?_ (by decide) <;> cases kind <;>
      simp [toString, (handleId id).noNul, HandleKind.name]
  | capacityExceeded capacity =>
    show Clear s!"handle capacity of {capacity.toNat} reached"
    refine word (b := 'd') ?_ ?_ ?_ (by decide) <;>
      simp [toString, Nat.repr_eq_ofList_toDigits, Text.Decimal.nul_not_mem_toDigits]

theorem dispatchError (e : DispatchError) : Clear e.message := by
  cases e with
  | handle e =>
    show Clear (HandleError.message e)
    exact handleError e
  | attach e =>
    show Clear (AttachError.message e)
    exact attachError e
  | alreadyDelivered id =>
    show Clear s!"result already delivered for handle {id.text}"
    exact append (by simp [toString]) (handleId id)

/-! ### The texts that there are -/

theorem leak (o : HostObject) (e : AttachError) :
    Clear s!"leaking host reference {Text.Decimal.hex o.address.toNat}: {e.message}" :=
  append (by simp [Text.Decimal.hex, toString, Text.Decimal.nul_not_mem_toDigits]) (attachError e)

theorem drop (shape : CallShape) (id : HandleId) (e : DispatchError) :
    Clear s!"dropped {shape.name} for {id.text}: {e.message}" :=
  append (by cases shape <;> simp [toString, CallShape.name, (handleId id).noNul])
    (dispatchError e)

theorem second (id : HandleId) : Clear s!"dropping second result for handle {id.text}" :=
  append (by simp [toString]) (handleId id)

theorem unknown (id : HandleId) : Clear s!"ignoring release of unknown handle {id.text}" :=
  append (by simp [toString]) (handleId id)

theorem ownerless (id : HandleId) (n : Int) :
    Clear s!"resolve_process on {id.text}: host had no owner for uid {Text.Decimal.ofInt n}" :=
  number (by simp [toString, (handleId id).noNul]) (by simp [toString]) n

end Clear

/-! ### Labels -/

namespace Category

theorem label_injective {c d : Category} (h : c.label = d.label) : c = d := by
  cases c <;> cases d <;> first | rfl | exact absurd h (by decide)

theorem bracket_not_mem_label (c : Category) : ']' ∉ c.label.toList := by
  cases c <;> simp [label]

theorem nul_not_mem_label (c : Category) : '\x00' ∉ c.label.toList := by
  cases c <;> simp [label]

end Category

/-- What stands before the first closing bracket is known from any beginning that
    reaches it. -/
theorem eq_of_closed_prefix {a b x y : List Char} (ha : ']' ∉ a) (hb : ']' ∉ b)
    (h : a ++ ']' :: x <+: b ++ ']' :: y) : a = b := by
  induction a generalizing b with
  | nil =>
    cases b with
    | nil => rfl
    | cons d b =>
      obtain ⟨rfl, -⟩ := List.cons_prefix_cons.mp h
      exact absurd (List.mem_cons_self ..) hb
  | cons c a ih =>
    cases b with
    | nil =>
      obtain ⟨rfl, -⟩ := List.cons_prefix_cons.mp h
      exact absurd (List.mem_cons_self ..) ha
    | cons d b =>
      obtain ⟨rfl, rest⟩ := List.cons_prefix_cons.mp h
      rw [ih (fun hm => ha (by simp [hm])) (fun hm => hb (by simp [hm])) rest]

/-! ### Reading back -/

namespace Line

variable {line : Line}

theorem heldBack_of_clear {b a : Char} {rest : List Char}
    (h : line.text.toList.reverse = b :: a :: rest) (other : b = ')' → a ≠ 'd') :
    line.heldBack = 0 := by
  obtain ⟨more, tail⟩ : ∃ more, " suppressed)".toList.reverse = ')' :: 'd' :: more := ⟨_, rfl⟩
  -- one of the last two characters is not that of the mark
  have unmarked : (')' :: 'd' :: more).isPrefixOf? (b :: a :: rest) = none := by
    by_cases hb : b = ')'
    · simp [List.isPrefixOf?, Ne.symm (other hb)]
    · simp [List.isPrefixOf?, Ne.symm hb]
  rw [heldBack, h, tail, unmarked]

theorem heldBack_of_number {before : List Char} {n : Nat}
    (h : line.text.toList = before ++
      (" (".toList ++ (Nat.toDigits 10 n ++ " suppressed)".toList))) : line.heldBack = n := by
  have digits : ∀ c ∈ (Nat.toDigits 10 n).reverse, c.isDigit = true := fun c hc =>
    Nat.isDigit_of_mem_toDigits (by decide) (by decide) (List.mem_reverse.mp hc)
  have reversed : line.text.toList.reverse = " suppressed)".toList.reverse ++
      ((Nat.toDigits 10 n).reverse ++ '(' :: ' ' :: before.reverse) := by
    simp [h]
  have marked : " suppressed)".toList.reverse.isPrefixOf? line.text.toList.reverse =
      some ((Nat.toDigits 10 n).reverse ++ '(' :: ' ' :: before.reverse) :=
    List.isPrefixOf?_eq_some_iff_append_eq.mpr reversed.symm
  rw [heldBack, marked]
  -- the digits end at the bracket
  simp only [List.dropWhile_append_of_pos digits, List.takeWhile_append_of_pos digits]
  have closed : Char.isDigit '(' = false := rfl
  simp [closed, List.isPrefixOf, Text.Decimal.natural?_toDigits]

end Line

namespace Logger

variable {l : Logger} {c d : Category} {text : String} {k : UInt64}

/-- What the sink receives about a failure. -/
def limited (l : Logger) (c : Category) (text : String) (k : UInt64) : Line :=
  ⟨.error, l.text .plain (c.message text k), .plain⟩

theorem nul_not_mem_mark : '\x00' ∉ l.mark.toList := by
  simp [mark, toString, Nat.repr_eq_ofList_toDigits, Text.Decimal.nul_not_mem_toDigits]

theorem toList_heading :
    s!"{l.mark} [{c.label}] ".toList =
      (l.mark ++ " [").toList ++ (c.label.toList ++ [']', ' ']) := by
  simp [toString]

theorem toList_limited : (l.limited c text k).text.toList =
    s!"{l.mark} [{c.label}] ".toList ++ (text.toList ++
      if k = 0 then [] else
        " (".toList ++ (Nat.toDigits 10 k.toNat ++ " suppressed)".toList)) := by
  have plain : Breadcrumbs.plain.area? = none := by decide
  by_cases hk : k = 0 <;>
    simp [limited, Logger.text, plain, Category.message, hk, toString, Nat.repr_eq_ofList_toDigits]

/-- A sink takes each line about a failure. -/
theorem line?_limited (hs : l.sink.isSome = true) (ht : Clear text) :
    l.line? .error .plain (c.message text k) = some (l.limited c text k) := by
  obtain ⟨sink, hsink⟩ := Option.isSome_iff_exists.mp hs
  have said : (c.message text k).isEmpty = false := by
    rw [Category.message]
    split <;> simp [String.isEmpty_eq_false_iff, toString]
  have taken : sink.accepts .error .plain = true := by
    simp [Sink.accepts, Breadcrumbs.isEmpty, Breadcrumbs.plain, Level.within, Level.rank]
  have whole : (l.text .plain (c.message text k)).contains '\x00' = false := by
    have read : (l.text .plain (c.message text k)).toList = _ := l.toList_limited
    rw [String.contains_char_eq, decide_eq_false_iff_not, read, toList_heading]
    split <;> simp [nul_not_mem_mark, c.nul_not_mem_label, ht.noNul,
      Text.Decimal.nul_not_mem_toDigits]
  simp only [line?, said, hsink, taken, whole]
  rfl

/-- It is about a failure of its category, and of no other. -/
theorem files_limited : l.files d (l.limited c text k) = decide (d = c) := by
  have error : (l.limited c text k).level = .error := rfl
  rw [files, error, decide_eq_true rfl, Bool.true_and, Bool.eq_iff_iff, List.isPrefixOf_iff_prefix,
    decide_eq_true_iff, toList_limited]
  constructor
  · rw [toList_heading, toList_heading, List.append_assoc, List.prefix_append_right_inj,
      List.append_assoc]
    intro h
    -- the mark of the process is the same, and a bracket closes each label
    have labels : d.label.toList = c.label.toList :=
      eq_of_closed_prefix d.bracket_not_mem_label c.bracket_not_mem_label h
    exact Category.label_injective (String.toList_inj.mp labels)
  · rintro rfl
    exact List.prefix_append ..

/-- It tells how many lines were held back. -/
theorem heldBack_limited (ht : Clear text) : (l.limited c text k).heldBack = k.toNat := by
  by_cases hk : k = 0
  · obtain ⟨b, a, rest, ends, other⟩ := ht.ends
    have read : (l.limited c text k).text.toList.reverse =
        b :: a :: (rest ++ s!"{l.mark} [{c.label}] ".toList.reverse) := by
      rw [toList_limited, if_pos hk, List.append_nil, List.reverse_append, ends]
      rfl
    rw [Line.heldBack_of_clear read other, hk]
    rfl
  · have read : (l.limited c text k).text.toList =
        (s!"{l.mark} [{c.label}] ".toList ++ text.toList) ++
          (" (".toList ++ (Nat.toDigits 10 k.toNat ++ " suppressed)".toList)) := by
      rw [toList_limited, if_neg hk, List.append_assoc]
    exact Line.heldBack_of_number read

/-- All in all, it tells of its own failure and of those before it. -/
theorem tells_limited (ht : Clear text) :
    l.tells d (l.limited c text k) = if d = c then 1 + k.toNat else 0 := by
  simp [tells, files_limited, heldBack_limited ht]

end Logger

end Log

end CallbackBridge
