import ServletContainer.Routing.Pattern
import ServletContainer.Security.Guard
import ServletContainer.Text.Base64

namespace ServletContainer

/-!
# Basic authentication

A guard that asks for credentials on constrained paths.

* `credentials?` — the user name and password that a request carries.
* `BasicAuth.check?` — the decision; a session not yet bound to the caller gets a fresh id first.
-/

/-- A pattern of paths that ask for credentials, and the roles of which one is needed, if any. -/
structure SecurityConstraint where
  pattern : UrlPattern
  roles : List String
  deriving DecidableEq, Repr

/-- Whether the roles of a caller suffice. -/
def SecurityConstraint.permits (c : SecurityConstraint) (p : Principal) : Bool :=
  c.roles.isEmpty || c.roles.any p.hasRole

/-- The attribute under which a session names the caller that logged in on it. -/
def principalAttribute : String := "security.principal"

/-- The user name and password of a text `user:password` in base64. -/
def decodeCredentials? (encoded : List Char) : Option (String × String) := do
  let bytes ← Text.Base64.decode? encoded
  let text ← Text.Utf8.decode? bytes
  Text.cut ':' text

/-- The user name and password that header fields carry. -/
def credentials? (h : Headers) : Option (String × String) := do
  let field ← h.get? "authorization"
  let (scheme, encoded) ← Text.cut ' ' (Text.trim field)
  if sameName scheme "basic" then decodeCredentials? (Text.trim encoded).toList else none

/-- A guard by credentials. -/
structure BasicAuth where
  realm : String
  constraints : List SecurityConstraint
  identities : Authority

namespace BasicAuth

/-- The answer that asks for credentials. -/
def challenge (g : BasicAuth) : Decision := .deny 401 (some ("Basic realm=\"" ++ g.realm ++ "\""))

/-- The constraint on a path: the first whose pattern covers it. -/
def constraint? (g : BasicAuth) (path : String) : Option SecurityConstraint :=
  g.constraints.find? fun c => c.pattern.covers path

/-- Whether a session attribute names a caller. -/
def names (name : String) (v : Option Value) : Bool := (v.bind Value.text?) == some name

/-- Records the caller on the session of the exchange, if there is one. Where the session did not name the
caller before, it moves to a fresh id. -/
def bindSession? (x : Exchange) (p : Principal) : Option Exchange :=
  match x.currentSession with
  | (none, x) => some x
  | (some id, x) =>
    let (bound, x) := x.onSessions fun now s => s.getAttribute now id principalAttribute
    if names p.name bound then some x
    else
      x.changeSessionId?.map fun
        | (.error _, x) => x
        | (.ok _, x) =>
          match x.currentSession with
          | (none, x) => x
          | (some id, x) =>
            (x.onSessions fun now s => s.setAttribute now id principalAttribute (.text p.name)).2

/-- Decides about a request. -/
def check? (g : BasicAuth) (x : Exchange) : Option (Decision × Exchange) :=
  match g.constraint? x.request.relativePath with
  | none => some (.allow, x)
  | some c =>
    match credentials? x.request.head.headers with
    | none => some (g.challenge, x)
    | some (user, password) =>
      match g.identities.validate? user password with
      | none => some (g.challenge, x)
      | some p =>
        if c.permits p then
          (bindSession? x p).map fun x =>
            (.allow, x.mapRequest fun r => { r with principal := some p })
        else some (.deny 403 none, x)

/-- The guard. -/
def guard (g : BasicAuth) : Guard := ⟨g.check?, id⟩

end BasicAuth

end ServletContainer
