/-! # UTF-8 text

    Bytes arrive from foreign code without any promise about their encoding.
    They are read in two ways:

    1. `decode?` accepts exactly the valid encodings.
    2. `decodeLossy` never fails: each maximal part that cannot be continued
       to a valid character reads as one replacement character.

    On valid text the two readings agree (`decodeLossy_of_decode?`). -/

namespace CallbackBridge.Text.Utf8

/-- The text that `bytes` encode, if they are valid UTF-8: no surrogates, no
    overlong forms, nothing above U+10FFFF. -/
def decode? (bytes : ByteArray) : Option String :=
  String.fromUTF8? bytes

/-! ### Repair of invalid bytes -/

/-- What a lead byte announces: how many continuation bytes follow, and the
    bounds of the first of them.  The bounds rule out overlong forms,
    surrogates and values above U+10FFFF. -/
structure Lead where
  /-- Payload bits of the lead byte. -/
  payload : Nat
  /-- Number of continuation bytes. -/
  count : Nat
  /-- Least admissible first continuation byte. -/
  low : UInt8
  /-- Greatest admissible first continuation byte. -/
  high : UInt8

/-- The lead byte `b`, or `none` where no character starts with `b`. -/
def Lead.ofByte? (b : UInt8) : Option Lead :=
  let n := b.toNat
  if n < 0x80 then some ⟨n, 0, 0x80, 0xBF⟩
  else if n < 0xC2 then none
  else if n < 0xE0 then some ⟨n - 0xC0, 1, 0x80, 0xBF⟩
  else if n = 0xE0 then some ⟨0, 2, 0xA0, 0xBF⟩
  else if n = 0xED then some ⟨0xD, 2, 0x80, 0x9F⟩
  else if n < 0xF0 then some ⟨n - 0xE0, 2, 0x80, 0xBF⟩
  else if n = 0xF0 then some ⟨0, 3, 0x90, 0xBF⟩
  else if n < 0xF4 then some ⟨n - 0xF0, 3, 0x80, 0xBF⟩
  else if n = 0xF4 then some ⟨4, 3, 0x80, 0x8F⟩
  else none

/-- Reads `count` continuation bytes, the first between `low` and `high`, onto
    the value `acc`.  Yields the value, or `none` where a byte does not fit or
    is missing, and the bytes from there on. -/
def readTail : (count : Nat) → (low high : UInt8) → (acc : Nat) → List UInt8 →
    Option Nat × List UInt8
  | 0, _, _, acc, rest => (some acc, rest)
  | _ + 1, _, _, _, [] => (none, [])
  | count + 1, low, high, acc, b :: rest =>
    if low ≤ b ∧ b ≤ high then
      readTail count 0x80 0xBF (acc * 64 + (b.toNat - 0x80)) rest
    else (none, b :: rest)

theorem length_readTail_le (count : Nat) (low high : UInt8) (acc : Nat) (bytes : List UInt8) :
    (readTail count low high acc bytes).2.length ≤ bytes.length := by
  induction bytes generalizing count low high acc with
  | nil => cases count <;> simp [readTail]
  | cons b rest ih =>
    cases count with
    | zero => simp [readTail]
    | succ count =>
      simp only [readTail]
      split
      · exact Nat.le_succ_of_le (ih ..)
      · exact Nat.le_refl _

/-- The characters of `bytes`, each broken part standing as U+FFFD. -/
def repair : List UInt8 → List Char
  | [] => []
  | b :: rest =>
    match Lead.ofByte? b with
    | none => '\uFFFD' :: repair rest
    | some lead =>
      match h : readTail lead.count lead.low lead.high lead.payload rest with
      | (value, rest') =>
        have : rest'.length ≤ rest.length := by
          have := length_readTail_le lead.count lead.low lead.high lead.payload rest
          rw [h] at this
          exact this
        match value with
        | some n => Char.ofNat n :: repair rest'
        | none => '\uFFFD' :: repair rest'
  termination_by bytes => bytes.length
  decreasing_by all_goals (simp only [List.length_cons]; omega)

/-- The text of `bytes`, with U+FFFD for each maximal invalid part. -/
def decodeLossy (bytes : ByteArray) : String :=
  (decode? bytes).getD (String.ofList (repair bytes.data.toList))

/-! ### Laws -/

/-- Text reads back from its own encoding. -/
@[simp] theorem decode?_toUTF8 (s : String) : decode? s.toUTF8 = some s := by
  unfold decode? String.fromUTF8?
  rw [String.toUTF8_eq_toByteArray, dif_pos s.isValidUTF8]
  rfl

/-- Only the encoding of a text reads as that text. -/
theorem toUTF8_of_decode? {bytes : ByteArray} {s : String} (h : decode? bytes = some s) :
    s.toUTF8 = bytes := by
  unfold decode? String.fromUTF8? at h
  split at h
  · next hv =>
    rw [Option.some.injEq] at h
    subst h
    rfl
  · contradiction

/-- Valid text needs no repair. -/
theorem decodeLossy_of_decode? {bytes : ByteArray} {s : String} (h : decode? bytes = some s) :
    decodeLossy bytes = s := by
  simp [decodeLossy, h]

end CallbackBridge.Text.Utf8
