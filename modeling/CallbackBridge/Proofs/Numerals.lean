import CallbackBridge.Text.Decimal
import Mathlib.Data.List.Basic

/-! # Decimal numerals

    Which texts are numbers, said without the reader: one or more digits, after
    at most one sign.  Leading zeros do not matter, and a minus sign before a
    zero does not either.

    A number is read from a text exactly where the text writes it and the width
    of the number has room for it.  The plain forms, which the bridge prints,
    are such texts. -/

namespace CallbackBridge.Text.Decimal

/-! ### Digits -/

/-- One or more digits with the value `n`, the highest one first. -/
structure Digits (cs : List Char) (n : Nat) : Prop where
  ne_nil : cs ≠ []
  digits : ∀ c ∈ cs, c.isDigit = true
  value : Nat.ofDigitChars 10 cs 0 = n

theorem digit?_of_isDigit {c : Char} (h : c.isDigit = true) :
    digit? c = some (c.toNat - '0'.toNat) :=
  if_pos (by simpa [Char.isDigit, Char.le_def] using h)

theorem isDigit_of_digit? {c : Char} {d : Nat} (h : digit? c = some d) : c.isDigit = true := by
  simp only [digit?, Option.ite_none_right_eq_some] at h
  simpa [Char.isDigit, Char.le_def] using h.1

/-- Digits read back as the number that they were written for. -/
theorem readOnto_digits {cs : List Char} (h : ∀ c ∈ cs, c.isDigit = true) (acc : Nat) :
    readOnto acc cs = some (Nat.ofDigitChars 10 cs acc) := by
  induction cs generalizing acc with
  | nil => rfl
  | cons c rest ih =>
    obtain ⟨hc, hrest⟩ := List.forall_mem_cons.mp h
    rw [readOnto, digit?_of_isDigit hc, Option.bind_some, ih hrest, Nat.ofDigitChars_cons,
      Nat.mul_comm]

/-- Only digits are read. -/
theorem isDigit_of_readOnto {cs : List Char} {acc n : Nat} (h : readOnto acc cs = some n) :
    ∀ c ∈ cs, c.isDigit = true := by
  induction cs generalizing acc with
  | nil => simp
  | cons c rest ih =>
    obtain ⟨d, hd, hrest⟩ := Option.bind_eq_some_iff.mp h
    exact List.forall_mem_cons.mpr ⟨isDigit_of_digit? hd, ih hrest⟩

theorem natural?_eq_some_iff {cs : List Char} {n : Nat} :
    natural? cs = some n ↔ Digits cs n := by
  have read : cs ≠ [] → natural? cs = readOnto 0 cs := by
    cases cs with
    | nil => simp
    | cons c rest => exact fun _ => rfl
  constructor
  · intro h
    have ne : cs ≠ [] := by
      rintro rfl
      cases h
    rw [read ne] at h
    have digits := isDigit_of_readOnto h
    rw [readOnto_digits digits] at h
    exact ⟨ne, digits, Option.some.inj h⟩
  · intro h
    rw [read h.ne_nil, readOnto_digits h.digits, h.value]

theorem digits_toDigits (n : Nat) : Digits (Nat.toDigits 10 n) n :=
  ⟨Nat.toDigits_ne_nil, fun _ => Nat.isDigit_of_mem_toDigits (by decide) (by decide),
    Nat.ofDigitChars_ten_toDigits⟩

theorem natural?_toDigits (n : Nat) : natural? (Nat.toDigits 10 n) = some n :=
  natural?_eq_some_iff.mpr (digits_toDigits n)

/-- No numeral begins with a sign where digits stand. -/
theorem Digits.ne_sign {c sign : Char} {cs : List Char} {n : Nat} (h : Digits (c :: cs) n)
    (hs : sign.isDigit = false) : c ≠ sign := by
  rintro rfl
  have digit := h.digits c (List.mem_cons_self ..)
  simp [hs] at digit

/-! ### Signs -/

/-- `text` writes the number `n`, with a plus sign or without one. -/
def Unsigned (text : String) (n : Nat) : Prop :=
  ∃ cs, Digits cs n ∧ (text.toList = cs ∨ text.toList = '+' :: cs)

/-- `text` writes the number `i`, with either sign or without one. -/
def Signed (text : String) (i : Int) : Prop :=
  (∃ n : Nat, Unsigned text n ∧ i = n) ∨
    ∃ (cs : List Char) (n : Nat), Digits cs n ∧ text.toList = '-' :: cs ∧ i = -n

theorem unsigned_ofNat (n : Nat) : Unsigned (ofNat n) n :=
  ⟨Nat.toDigits 10 n, digits_toDigits n, .inl String.toList_ofList⟩

/-- The plain form of a number writes it. -/
theorem signed_ofInt (i : Int) : Signed (ofInt i) i := by
  cases i with
  | ofNat n => exact .inl ⟨n, unsigned_ofNat n, rfl⟩
  | negSucc n =>
    exact .inr ⟨Nat.toDigits 10 (n + 1), n + 1, digits_toDigits (n + 1), by simp [ofInt, ofNat],
      by omega⟩

section Cases

variable {text : String} {cs : List Char}

theorem unsigned_of_plus {n : Nat} (h : text.toList = '+' :: cs) :
    Unsigned text n ↔ Digits cs n := by
  constructor
  · rintro ⟨ds, hd, heq | heq⟩
    · exact absurd rfl ((h.symm.trans heq ▸ hd).ne_sign rfl)
    · obtain ⟨-, rfl⟩ := List.cons.inj (h.symm.trans heq)
      exact hd
  · exact fun hd => ⟨cs, hd, .inr h⟩

theorem unsigned_of_bare {n : Nat} (h : ∀ cs, text.toList ≠ '+' :: cs) :
    Unsigned text n ↔ Digits text.toList n := by
  constructor
  · rintro ⟨ds, hd, rfl | heq⟩
    · exact hd
    · exact absurd heq (h ds)
  · exact fun hd => ⟨_, hd, .inl rfl⟩

theorem signed_of_minus {i : Int} (h : text.toList = '-' :: cs) :
    Signed text i ↔ ∃ n : Nat, Digits cs n ∧ i = -n := by
  constructor
  · rintro (⟨n, ⟨ds, hd, heq | heq⟩, -⟩ | ⟨ds, n, hd, heq, hi⟩)
    · exact absurd rfl ((h.symm.trans heq ▸ hd).ne_sign rfl)
    · cases h.symm.trans heq
    · obtain ⟨-, rfl⟩ := List.cons.inj (h.symm.trans heq)
      exact ⟨n, hd, hi⟩
  · exact fun ⟨n, hd, hi⟩ => .inr ⟨cs, n, hd, h, hi⟩

theorem signed_of_not_minus {i : Int} (h : ∀ cs, text.toList ≠ '-' :: cs) :
    Signed text i ↔ ∃ n : Nat, Unsigned text n ∧ i = n := by
  constructor
  · rintro (positive | ⟨ds, n, -, heq, -⟩)
    · exact positive
    · exact absurd heq (h ds)
  · exact .inl

end Cases

/-! ### Widths -/

/-- A number within the width is the one that it is stored as. -/
theorem int32_ofInt_eq_iff {z : Int} {i : Int32} (low : -0x80000000 ≤ z)
    (high : z < 0x80000000) : Int32.ofInt z = i ↔ i.toInt = z := by
  constructor
  · rintro rfl
    exact Int32.toInt_ofInt_of_le low high
  · rintro rfl
    exact Int32.ofInt_toInt i

/-- A number is stored where there is room for it. -/
theorem stored_iff {cs : List Char} {i : Int32} {room : Nat → Prop} [DecidablePred room]
    {value : Nat → Int} (hr : ∀ n, room n ↔ -0x80000000 ≤ value n ∧ value n < 0x80000000) :
    ((natural? cs).bind fun n => if room n then some (Int32.ofInt (value n)) else none) = some i ↔
      ∃ n : Nat, Digits cs n ∧ i.toInt = value n := by
  simp only [Option.bind_eq_some_iff, natural?_eq_some_iff, Option.ite_none_right_eq_some,
    Option.some.injEq]
  refine exists_congr fun n => and_congr_right fun _ => ?_
  constructor
  · rintro ⟨fits, eq⟩
    obtain ⟨low, high⟩ := (hr n).mp fits
    exact (int32_ofInt_eq_iff low high).mp eq
  · intro eq
    have low : -0x80000000 ≤ value n := eq ▸ Int32.le_toInt i
    have high : value n < 0x80000000 := eq ▸ Int32.toInt_lt i
    exact ⟨(hr n).mpr ⟨low, high⟩, (int32_ofInt_eq_iff low high).mpr eq⟩

theorem int32?_eq_some_iff {text : String} {i : Int32} :
    int32? text = some i ↔ Signed text i.toInt := by
  unfold int32?
  split
  · next cs h => rw [stored_iff fun n => by omega, signed_of_minus h]
  · next cs h =>
    have notMinus : ∀ cs', text.toList ≠ '-' :: cs' := by simp [h]
    rw [stored_iff fun n => by omega, signed_of_not_minus notMinus]
    simp only [unsigned_of_plus h]
  · next notMinus notPlus =>
    rw [stored_iff fun n => by omega, signed_of_not_minus notMinus]
    simp only [unsigned_of_bare notPlus]

theorem uint64?_eq_some_iff {text : String} {n : UInt64} :
    uint64? text = some n ↔ Unsigned text n.toNat := by
  have stored : ∀ cs, ((natural? cs).bind fun m =>
      if m < UInt64.size then some (UInt64.ofNat m) else none) = some n ↔ Digits cs n.toNat := by
    intro cs
    simp only [Option.bind_eq_some_iff, natural?_eq_some_iff, Option.ite_none_right_eq_some,
      Option.some.injEq]
    constructor
    · rintro ⟨m, hm, room, rfl⟩
      rwa [UInt64.toNat_ofNat_of_lt' room]
    · exact fun h => ⟨n.toNat, h, n.toNat_lt, UInt64.ofNat_toNat⟩
  unfold uint64?
  split
  · next cs h => rw [stored, unsigned_of_plus h]
  · next notPlus => rw [stored, unsigned_of_bare notPlus]

/-- A descriptor reads back from its plain form. -/
theorem int32?_ofInt (i : Int32) : int32? (ofInt i.toInt) = some i :=
  int32?_eq_some_iff.mpr (signed_ofInt _)

/-! ### Characters of plain forms -/

theorem nul_not_mem_toDigits {b : Nat} (hb : 1 < b) (n : Nat) : '\x00' ∉ Nat.toDigits b n := by
  induction n using Nat.strongRecOn with
  | _ n ih =>
    have digit : ∀ d, '\x00' ≠ Nat.digitChar d := fun d => (Nat.digitChar_ne _ (by decide)).symm
    rw [Nat.toDigits_eq_if hb]
    split
    · simp [digit]
    · have older := ih (n / b) (Nat.div_lt_self (by omega) hb)
      simp [older, digit]

theorem nul_not_mem_ofInt (n : Int) : '\x00' ∉ (ofInt n).toList := by
  cases n <;> simp [ofInt, ofNat, nul_not_mem_toDigits]

/-- A number ends in a digit. -/
theorem exists_last_ofInt (n : Int) :
    ∃ d more, (ofInt n).toList.reverse = d :: more ∧ d.isDigit = true := by
  have natural : ∀ n, ∃ d more, (Nat.toDigits 10 n).reverse = d :: more ∧ d.isDigit = true := by
    intro n
    obtain ⟨d, more, hd⟩ := List.exists_cons_of_ne_nil
      (List.reverse_ne_nil_iff.mpr (Nat.toDigits_ne_nil (n := n) (b := 10)))
    have mem : d ∈ Nat.toDigits 10 n := List.mem_reverse.mp (by rw [hd]; simp)
    exact ⟨d, more, hd, Nat.isDigit_of_mem_toDigits (by decide) (by decide) mem⟩
  cases n with
  | ofNat n => simpa [ofInt, ofNat] using natural n
  | negSucc n =>
    obtain ⟨d, more, hd, digit⟩ := natural (n + 1)
    exact ⟨d, more ++ ['-'], by simp [ofInt, ofNat, hd], digit⟩

end CallbackBridge.Text.Decimal
