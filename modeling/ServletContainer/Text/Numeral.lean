namespace ServletContainer.Text

/-!
# Decimal numerals with a bound

* `readNumeral` — reads an unsigned decimal numeral, an optional `+` first, that is at most a bound.
* `NumeralError` — the first thing that is wrong with one that is refused.
-/

/-- Why a text is not the numeral of a number within the bound. -/
inductive NumeralError where
  | empty
  | invalidDigit
  | tooLarge
  deriving DecidableEq, Repr

/-- The text of the error. -/
def NumeralError.message : NumeralError → String
  | .empty => "cannot parse integer from empty string"
  | .invalidDigit => "invalid digit found in string"
  | .tooLarge => "number too large to fit in target type"

/-- The value of a decimal digit. -/
def digitValue? (c : Char) : Option Nat := if c.isDigit then some (c.toNat - '0'.toNat) else none

/-- Reads digits after a number `acc`; the first offence from the left is the one reported. -/
def readDigits (bound acc : Nat) : List Char → Except NumeralError Nat
  | [] => .ok acc
  | c :: r =>
    match digitValue? c with
    | none => .error .invalidDigit
    | some d => if acc * 10 + d ≤ bound then readDigits bound (acc * 10 + d) r else .error .tooLarge

/-- Reads a numeral of at most `bound`. -/
def readNumeral (bound : Nat) : List Char → Except NumeralError Nat
  | [] => .error .empty
  | '+' :: [] => .error .invalidDigit
  | '+' :: c :: r => readDigits bound 0 (c :: r)
  | c :: r => readDigits bound 0 (c :: r)

/-- The largest number that a 32-bit word holds. -/
def max32 : Nat := 4294967295

/-- The largest number that a 64-bit word holds. -/
def max64 : Nat := 18446744073709551615

/-- Whether a signed 64-bit word holds a number. -/
def fitsInt64 (n : Int) : Bool := -9223372036854775808 ≤ n && n ≤ 9223372036854775807

end ServletContainer.Text
