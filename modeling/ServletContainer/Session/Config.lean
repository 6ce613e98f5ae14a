import ServletContainer.Text.Numeral
import ServletContainer.Value

namespace ServletContainer

/-!
# Session settings

* `CookieConfig`, `SessionConfig` — the settings, each with defaults.
* `CookieConfig.ofValue?`, `SessionConfig.ofValue?` — reads settings from a value. What is left out has its
  default and unknown fields do not count; a list gives the fields in the order of their declaration.
-/

/-- How a session id travels between client and server. -/
inductive TrackingMode where
  | cookie
  | url
  deriving DecidableEq, Repr

/-- The settings of the session cookie. -/
structure CookieConfig where
  name : String
  domain : Option String
  /-- The path of the cookie; where it is absent, the context path. -/
  path : Option String
  httpOnly : Bool
  /-- Whether the cookie is marked secure on plain connections too. -/
  secure : Bool
  maxAge : Option Int
  deriving DecidableEq, Repr

/-- The settings of an application's sessions. -/
structure SessionConfig where
  /-- The idle limit in seconds; 0 means none. -/
  timeoutSecs : Nat
  trackingModes : List TrackingMode
  cookie : CookieConfig
  /-- The path parameter that carries the id. -/
  urlParameter : String
  deriving DecidableEq, Repr

/-- The cookie settings where none are given. -/
def CookieConfig.standard : CookieConfig := ⟨"JSESSIONID", none, none, true, false, none⟩

/-- The session settings where none are given. -/
def SessionConfig.standard : SessionConfig := ⟨1800, [.cookie, .url], .standard, "jsessionid"⟩

instance : Inhabited CookieConfig := ⟨.standard⟩

instance : Inhabited SessionConfig := ⟨.standard⟩

namespace SessionConfig

/-- The idle limit in milliseconds, if there is one. -/
def timeoutMillis? (c : SessionConfig) : Option Nat :=
  if 0 < c.timeoutSecs then some (c.timeoutSecs * 1000) else none

/-- Whether ids travel by cookie. -/
def tracksCookies (c : SessionConfig) : Bool := c.trackingModes.contains .cookie

/-- Whether ids travel by path parameter. -/
def tracksUrl (c : SessionConfig) : Bool := c.trackingModes.contains .url

end SessionConfig

/-! ### Reading fields of values -/

namespace Value

/-- The field of a name; of several the last one counts. -/
def field? (name : String) (fields : List (String × Value)) : Option Value :=
  (fields.reverse.find? fun f => f.1 == name).map Prod.snd

/-- The members of an object or list that stand for the declared fields, in order; none for another value and
for a list that is too long. -/
def members? (names : List String) : Value → Option (List (Option Value))
  | .object fields => some (names.map fun n => field? n fields)
  | .list vs => if vs.length ≤ names.length then some ((List.range names.length).map fun i => vs[i]?) else none
  | _ => none

/-- Reads a member, which has a default where it is left out. -/
def member {α : Type} (read : Value → Option α) (default : α) : Option Value → Option α
  | none => some default
  | some v => read v

/-- Reads null as absent. -/
def optional {α : Type} (read : Value → Option α) : Value → Option (Option α)
  | .null => some none
  | v => (read v).map some

/-- Reads a truth value. -/
def bool? : Value → Option Bool
  | .bool b => some b
  | _ => none

/-- Reads a whole number from 0 up to a bound. -/
def natUpTo? (bound : Nat) : Value → Option Nat
  | .int n => if 0 ≤ n ∧ n ≤ bound then some n.toNat else none
  | _ => none

/-- Reads a whole number that a signed 64-bit word holds. -/
def int64? : Value → Option Int
  | .int n => if Text.fitsInt64 n then some n else none
  | _ => none

end Value

/-- Reads a tracking mode. -/
def TrackingMode.ofValue? : Value → Option TrackingMode
  | .text "cookie" => some .cookie
  | .text "url" => some .url
  | .object [("cookie", .null)] => some .cookie
  | .object [("url", .null)] => some .url
  | _ => none

/-- Reads a list of tracking modes. -/
def TrackingMode.listOfValue? : Value → Option (List TrackingMode)
  | .list vs => vs.mapM TrackingMode.ofValue?
  | _ => none

/-- Reads cookie settings. -/
def CookieConfig.ofValue? (v : Value) : Option CookieConfig := do
  let d := CookieConfig.standard
  let [name, domain, path, httpOnly, secure, maxAge] ←
    v.members? ["name", "domain", "path", "http_only", "secure", "max_age"] | none
  let name ← Value.member Value.text? d.name name
  let domain ← Value.member (Value.optional Value.text?) d.domain domain
  let path ← Value.member (Value.optional Value.text?) d.path path
  let httpOnly ← Value.member Value.bool? d.httpOnly httpOnly
  let secure ← Value.member Value.bool? d.secure secure
  let maxAge ← Value.member (Value.optional Value.int64?) d.maxAge maxAge
  some ⟨name, domain, path, httpOnly, secure, maxAge⟩

/-- Reads session settings. -/
def SessionConfig.ofValue? (v : Value) : Option SessionConfig := do
  let d := SessionConfig.standard
  let [timeout, modes, cookie, parameter] ←
    v.members? ["timeout_secs", "tracking_modes", "cookie", "url_parameter"] | none
  let timeout ← Value.member (Value.natUpTo? Text.max64) d.timeoutSecs timeout
  let modes ← Value.member TrackingMode.listOfValue? d.trackingModes modes
  let cookie ← Value.member CookieConfig.ofValue? d.cookie cookie
  let parameter ← Value.member Value.text? d.urlParameter parameter
  some ⟨timeout, modes, cookie, parameter⟩

end ServletContainer
