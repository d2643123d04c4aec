import CallbackBridge.Text.Decimal

/-! # Durations in text

    A duration prints in the largest of its units that is not below one, with
    the fraction that is left and no trailing zeros: `2ms`, `2s`, `2.5s`. -/

namespace CallbackBridge.Text.Duration

/-- The digits of a fraction of a second given in milliseconds, without
    trailing zeros. -/
def fraction (millis : Nat) : List Char :=
  let digits := Nat.toDigits 10 (1000 + millis % 1000)
  (digits.drop 1).reverse.dropWhile (· == '0') |>.reverse

/-- A whole number of milliseconds as text. -/
def ofMillis (millis : Nat) : String :=
  if millis = 0 then "0ns"
  else if millis < 1000 then Decimal.ofNat millis ++ "ms"
  else
    let seconds := Decimal.ofNat (millis / 1000)
    match fraction millis with
    | [] => seconds ++ "s"
    | digits => seconds ++ "." ++ String.ofList digits ++ "s"

end CallbackBridge.Text.Duration
