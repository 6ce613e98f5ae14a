namespace ServletContainer

/-!
# Tokens and request methods
-/

/-! ### Tokens -/

/-- The characters of a token besides letters and digits. -/
def tokenMarks : List Char := ['!', '#', '$', '%', '&', '\x27', '*', '+', '-', '.', '^', '_', '\x60', '|', '~']

/-- Whether a character may occur in a token. -/
def isTokenChar (c : Char) : Bool := c.isAlphanum || tokenMarks.contains c

/-- Whether a text is a token: one or more token characters. -/
def isToken (s : String) : Bool := !s.toList.isEmpty && s.toList.all isTokenChar

/-! ### Methods -/

/-- A request method: one of the nine registered ones, or any other token. -/
inductive Method where
  | get
  | head
  | post
  | put
  | delete
  | connect
  | options
  | trace
  | patch
  | extension (token : String)
  deriving DecidableEq, Repr

namespace Method

/-- The token of a method. -/
def token : Method → String
  | .get => "GET"
  | .head => "HEAD"
  | .post => "POST"
  | .put => "PUT"
  | .delete => "DELETE"
  | .connect => "CONNECT"
  | .options => "OPTIONS"
  | .trace => "TRACE"
  | .patch => "PATCH"
  | .extension t => t

/-- The registered methods. -/
def registered : List Method :=
  [.get, .head, .post, .put, .delete, .connect, .options, .trace, .patch]

/-- The method with a given token; letter case counts. -/
def ofToken (t : String) : Method := (registered.find? fun m => m.token == t).getD (.extension t)

theorem token_ofToken (t : String) : (ofToken t).token = t := by
  unfold ofToken
  cases h : registered.find? fun m => m.token == t with
  | none => rfl
  | some m => simpa using List.find?_some h

/-- Whether a method asks for nothing to be changed. -/
def isSafe : Method → Bool
  | .get | .head | .options | .trace => true
  | _ => false

/-- Whether a method is not a registered one. -/
def isExtension : Method → Bool
  | .extension _ => true
  | _ => false

end Method

end ServletContainer
