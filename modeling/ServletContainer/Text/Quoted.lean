import ServletContainer.Text.Hidden

namespace ServletContainer.Text

/-!
# Quoted text

The form in which error messages show a text of unknown content: between double quotes, with escapes for
quotes, backslashes and characters that have no shown form.
-/

/-- The lower-case hexadecimal digits of a code point, without leading zeros. -/
def codePointDigits (c : Char) : List Char := Nat.toDigits 16 c.toNat

/-- One character of a quoted text. -/
def quoteChar (c : Char) : List Char :=
  if c = '"' then ['\\', '"']
  else if c = '\\' then ['\\', '\\']
  else if c = '\t' then ['\\', 't']
  else if c = '\r' then ['\\', 'r']
  else if c = '\n' then ['\\', 'n']
  else if c = '\x00' then ['\\', '0']
  else if ' ' ≤ c ∧ c ≤ '~' then [c]
  else if isHidden c then ['\\', 'u', '\x7b'] ++ codePointDigits c ++ ['\x7d']
  else [c]

/-- The quoted form of a text. -/
def quote (s : String) : String := String.ofList ('"' :: s.toList.flatMap quoteChar ++ ['"'])

end ServletContainer.Text
