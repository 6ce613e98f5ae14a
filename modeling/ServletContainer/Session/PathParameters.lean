import ServletContainer.Text.Split

namespace ServletContainer

/-!
# Path parameters

A segment of a path may carry parameters behind semicolons. A session id travels in those of the last one.

* `stripPathParameters` — the path without parameters, and the parameters of its last segment.
* `encodeUrl` — adds a parameter to the path of a URL, in front of query and fragment.
* `isRelativeUrl` — whether a URL has neither scheme nor authority.
-/

/-- The name and value of a parameter; without an equals sign the value is empty. -/
def parameterOf (p : List Char) : String × String :=
  match Text.splitOnce '=' p with
  | some (name, value) => (String.ofList name, String.ofList value)
  | none => (String.ofList p, "")

/-- The parameters of a segment; empty ones do not count. -/
def segmentParameters (segment : List Char) : List (String × String) :=
  ((Text.fields ';' segment).tail.filter fun p => !p.isEmpty).map parameterOf

/-- A segment without its parameters. -/
def cleanSegment (segment : List Char) : List Char := segment.takeWhile (· ≠ ';')

/-- The path without parameters, and the parameters of its last segment. -/
def stripPathParameters (path : String) : String × List (String × String) :=
  let segments := Text.fields '/' path.toList
  (String.ofList (Text.joinFields '/' (segments.map cleanSegment)),
    segmentParameters (segments.getLastD []))

/-- Whether a URL has neither scheme nor authority. -/
def isRelativeUrl (url : String) : Bool :=
  if Text.startsWith "//" url then false
  else match Text.splitOnce ':' url.toList with
    | some (before, _) => Text.hasAny ['/', '?', '#'] before
    | none => true

/-- Whether a character starts the query or the fragment of a URL. -/
def endsPath (c : Char) : Bool := c = '?' || c = '#'

/-- The URL with `;param=id` behind its path. -/
def encodeUrl (url param id : String) : String :=
  let path := url.toList.takeWhile fun c => !endsPath c
  let rest := url.toList.dropWhile fun c => !endsPath c
  String.ofList path ++ ";" ++ param ++ "=" ++ id ++ String.ofList rest

end ServletContainer
