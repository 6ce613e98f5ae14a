import ServletContainer.Http.Headers
import ServletContainer.Session.Config
import ServletContainer.Text.Blank
import ServletContainer.Text.Split

namespace ServletContainer

/-!
# Session cookies

* `CookieConfig.headerValue` — the value of the field that hands a session id to the client.
* `cookieValue?` — the value under which the client hands a cookie back.
-/

namespace CookieConfig

/-- The pair that the client sends back. -/
def pair (c : CookieConfig) (id : String) : String := c.name ++ "=" ++ id

/-- The path that the cookie is valid for. -/
def pathFor (c : CookieConfig) (contextPath : String) : String :=
  match c.path with
  | some path => path
  | none => if contextPath = "" then "/" else contextPath

/-- The text of an attribute with a value, if it has one. -/
def attributeText (name : String) : Option String → String
  | some v => "; " ++ name ++ "=" ++ v
  | none => ""

/-- The text of an attribute without a value. -/
def flagText (name : String) (on : Bool) : String := if on then "; " ++ name else ""

/-- The field value that hands `id` to the client. -/
def headerValue (c : CookieConfig) (id contextPath : String) (secureConnection : Bool) : String :=
  c.pair id ++ "; Path=" ++ c.pathFor contextPath ++ attributeText "Domain" c.domain
    ++ attributeText "Max-Age" (c.maxAge.map toString) ++ flagText "Secure" (c.secure || secureConnection)
    ++ flagText "HttpOnly" c.httpOnly

end CookieConfig

/-- The name and value of one pair of a cookie field. -/
def cookiePair? (piece : String) : Option (String × String) := Text.cut '=' (Text.trim piece)

/-- The pairs of all cookie fields, in order. -/
def cookiePairs (h : Headers) : List (String × String) :=
  ((h.getAll "cookie").flatMap (Text.pieces ';')).filterMap cookiePair?

/-- The value of the first cookie of a name, without surrounding blanks and quotes. -/
def cookieValue? (h : Headers) (name : String) : Option String :=
  ((cookiePairs h).find? fun p => p.1 == name).map fun p => Text.trimMark '"' (Text.trim p.2)

end ServletContainer
