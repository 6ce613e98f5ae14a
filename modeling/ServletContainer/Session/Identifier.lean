namespace ServletContainer

/-!
# Session ids

An id is the upper-case hexadecimal text of a block of sixteen random bytes.
-/

/-- A block of random bytes. -/
abbrev Block := Vector UInt8 16

/-- The text of a session id. -/
abbrev SessionId := String

/-- The hexadecimal digit of a value below 16. -/
def hexDigit (n : Nat) : Char :=
  if n < 10 then Char.ofNat ('0'.toNat + n) else Char.ofNat ('A'.toNat + (n - 10))

/-- The two digits of a byte. -/
def hexByte (b : UInt8) : List Char := [hexDigit (b.toNat / 16), hexDigit (b.toNat % 16)]

/-- The session id of a block. -/
def Block.id (b : Block) : SessionId := String.ofList (b.toList.flatMap hexByte)

end ServletContainer
