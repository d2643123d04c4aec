/-! # Decimal numbers in text

    Numbers on a command line: one or more ASCII digits after an optional
    sign, leading zeros allowed, no blanks, no separators.  A number that does
    not fit its width is refused. -/

namespace CallbackBridge.Text.Decimal

/-- The value of a digit. -/
def digit? (c : Char) : Option Nat :=
  if '0' ≤ c ∧ c ≤ '9' then some (c.toNat - '0'.toNat) else none

/-- Reads further digits onto the value `acc`. -/
def readOnto (acc : Nat) : List Char → Option Nat
  | [] => some acc
  | c :: rest => (digit? c).bind fun d => readOnto (acc * 10 + d) rest

/-- The value of one or more digits. -/
def natural? : List Char → Option Nat
  | [] => none
  | cs => readOnto 0 cs

/-- A signed 32-bit number; both signs are allowed. -/
def int32? (text : String) : Option Int32 :=
  match text.toList with
  | '-' :: cs => (natural? cs).bind fun n =>
      if n ≤ 0x80000000 then some (Int32.ofInt (-n)) else none
  | '+' :: cs => (natural? cs).bind fun n =>
      if n < 0x80000000 then some (Int32.ofInt n) else none
  | cs => (natural? cs).bind fun n =>
      if n < 0x80000000 then some (Int32.ofInt n) else none

/-- An unsigned 64-bit number; a plus sign is allowed. -/
def uint64? (text : String) : Option UInt64 :=
  let cs := match text.toList with
    | '+' :: cs => cs
    | cs => cs
  (natural? cs).bind fun n => if n < UInt64.size then some (UInt64.ofNat n) else none

/-- The plain decimal form of a natural number. -/
def ofNat (n : Nat) : String :=
  String.ofList (Nat.toDigits 10 n)

/-- The plain decimal form, with a minus sign below zero. -/
def ofInt : Int → String
  | .ofNat n => ofNat n
  | .negSucc n => "-" ++ ofNat (n + 1)

/-- Lower-case hexadecimal after `0x`. -/
def hex (n : Nat) : String :=
  "0x" ++ String.ofList (Nat.toDigits 16 n)

end CallbackBridge.Text.Decimal
