namespace ServletContainer

/-!
# Attribute values

The values that request and session attributes hold, and from which settings objects are read.
-/

/-- A value: a scalar, a list of values, or an object with named fields. -/
inductive Value where
  | null
  | bool (b : Bool)
  | int (n : Int)
  /-- The number `mantissa / 10 ^ places`, written with a fraction or an exponent. -/
  | decimal (mantissa : Int) (places : Nat)
  | text (s : String)
  | list (vs : List Value)
  | object (fields : List (String × Value))
  deriving Inhabited

namespace Value

/-- The text that a value is, if it is one. -/
def text? : Value → Option String
  | .text s => some s
  | _ => none

/-- The whole number that a value is, if it is one. -/
def int? : Value → Option Int
  | .int n => some n
  | _ => none

/-- The number of a count; a value that is not a whole number counts as nothing yet. -/
def count (v : Option Value) : Int := (v.bind int?).getD 0

end Value

end ServletContainer
