namespace ServletContainer.Text.Base64

/-!
# Base64

The standard alphabet. Text is written with canonical padding, and read strictly or loosely.

* `encode` — writes three bytes as four digits.
* `decode?` — reads groups of four digits; padding only closes the last group, and the bits it stands for are zero.
* `decodeLoose?` — reads the same groups, where the last one may lack its padding and no one looks at the bits
  that are left over.
-/

/-! ### Digits -/

/-- The digit for a value below 64. -/
def digit (n : Nat) : Char :=
  if n < 26 then Char.ofNat ('A'.toNat + n)
  else if n < 52 then Char.ofNat ('a'.toNat + (n - 26))
  else if n < 62 then Char.ofNat ('0'.toNat + (n - 52))
  else if n = 62 then '+'
  else '/'

/-- The value of a digit. -/
def value? (c : Char) : Option Nat :=
  let n := c.toNat
  if 'A'.toNat ≤ n ∧ n ≤ 'Z'.toNat then some (n - 'A'.toNat)
  else if 'a'.toNat ≤ n ∧ n ≤ 'z'.toNat then some (n - 'a'.toNat + 26)
  else if '0'.toNat ≤ n ∧ n ≤ '9'.toNat then some (n - '0'.toNat + 52)
  else if c = '+' then some 62
  else if c = '/' then some 63
  else none

theorem value?_digit {n : Nat} (h : n < 64) : value? (digit n) = some n := by
  have : ∀ m < 64, value? (digit m) = some m := by decide
  exact this n h

/-! ### Writing and reading -/

/-- The text of a list of bytes. -/
def encode : List UInt8 → List Char
  | [] => []
  | [a] => [digit (a.toNat / 4), digit (a.toNat % 4 * 16), '=', '=']
  | [a, b] =>
    [digit (a.toNat / 4), digit (a.toNat % 4 * 16 + b.toNat / 16), digit (b.toNat % 16 * 4), '=']
  | a :: b :: c :: r =>
    digit (a.toNat / 4) :: digit (a.toNat % 4 * 16 + b.toNat / 16)
      :: digit (b.toNat % 16 * 4 + c.toNat / 64) :: digit (c.toNat % 64) :: encode r

/-- The bytes of a full group of digit values. -/
def groupBytes (a b c d : Nat) : List UInt8 :=
  [UInt8.ofNat (a * 4 + b / 16), UInt8.ofNat (b % 16 * 16 + c / 4), UInt8.ofNat (c % 4 * 64 + d)]

/-- The bytes of a last group, which may be padded. -/
def lastGroup? (a b c d : Char) : Option (List UInt8) := do
  let x ← value? a
  let y ← value? b
  if c = '=' ∧ d = '=' then
    if y % 16 = 0 then some [UInt8.ofNat (x * 4 + y / 16)] else none
  else
    let z ← value? c
    if d = '=' then
      if z % 4 = 0 then some [UInt8.ofNat (x * 4 + y / 16), UInt8.ofNat (y % 16 * 16 + z / 4)] else none
    else
      let w ← value? d
      some (groupBytes x y z w)

/-- Reads a text as the engine `STANDARD` does, which credentials are decoded with; none if no bytes have it as their
`encode`. Padding is canonical: `=` or `==` closes a last group that is short, and stands nowhere else. No trailing
bits are let pass: what is left over in the last digit is zero (`y % 16 = 0` and `z % 4 = 0` in `lastGroup?`). -/
def decode? : List Char → Option (List UInt8)
  | [] => some []
  | [a, b, c, d] => lastGroup? a b c d
  | a :: b :: c :: d :: r => do
    let x ← value? a
    let y ← value? b
    let z ← value? c
    let w ← value? d
    let rest ← decode? r
    some (groupBytes x y z w ++ rest)
  | _ => none

/-! ### Loose reading -/

/-- The bytes of a last group whose padding may be missing. Bits that fill no byte are dropped. -/
def looseGroup? : List Char → Option (List UInt8)
  | [] => some []
  | [a, b] | [a, b, '=', '='] => do
    let x ← value? a
    let y ← value? b
    some [UInt8.ofNat (x * 4 + y / 16)]
  | [a, b, c] | [a, b, c, '='] => do
    let x ← value? a
    let y ← value? b
    let z ← value? c
    some [UInt8.ofNat (x * 4 + y / 16), UInt8.ofNat (y % 16 * 16 + z / 4)]
  | [a, b, c, d] => do
    let x ← value? a
    let y ← value? b
    let z ← value? c
    let w ← value? d
    some (groupBytes x y z w)
  | _ => none

/-- Reads a text of digits, padded or not. None if a character is no digit, if padding stands anywhere but at the
end of a group of four that is the last, or if a single digit is left over. -/
def decodeLoose? : List Char → Option (List UInt8)
  | a :: b :: c :: d :: e :: r => do
    let x ← value? a
    let y ← value? b
    let z ← value? c
    let w ← value? d
    let rest ← decodeLoose? (e :: r)
    some (groupBytes x y z w ++ rest)
  | last => looseGroup? last

end ServletContainer.Text.Base64
