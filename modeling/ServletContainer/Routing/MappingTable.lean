import ServletContainer.Routing.Pattern
import ServletContainer.Table

namespace ServletContainer

/-!
# Mapping tables

A mapping table sends context-relative paths to servlet names. The patterns are tried by shape: the path
itself, then the longest path above it, then its extension, then the default.

* `MappingTable.add` — registers a pattern; a pattern belongs to one servlet.
* `MappingTable.map?` — the servlet of a path, and how the path divides at it.
-/

/-- The servlet that a path is mapped to. -/
structure MappingMatch where
  servletName : String
  /-- The pattern by which it was chosen. -/
  pattern : UrlPattern
  /-- The part of the path that the pattern names. -/
  servletPath : String
  /-- The part of the path below that. -/
  pathInfo : Option String
  deriving DecidableEq, Repr

/-- The whole path that was mapped. -/
def MappingMatch.path (m : MappingMatch) : String := m.servletPath ++ m.pathInfo.getD ""

/-- Which servlet each pattern belongs to. -/
structure MappingTable where
  exact : Table String String
  /-- The paths whose sub-paths are mapped, longest first. -/
  below : List (String × String)
  extension : Table String String
  default : Option String

namespace MappingTable

/-- The table without patterns. -/
def empty : MappingTable := ⟨.empty, [], .empty, none⟩

instance : Inhabited MappingTable := ⟨empty⟩

/-- The servlet that a pattern belongs to. -/
def owner? (t : MappingTable) : UrlPattern → Option String
  | .exact p => t.exact.get? p
  | .below p => Table.find? p t.below
  | .extension e => t.extension.get? e
  | .default => t.default

/-- Puts an entry behind the entries of at least its length. -/
def insertByLength (e : String × String) : List (String × String) → List (String × String)
  | [] => [e]
  | f :: r => if e.1.utf8ByteSize ≤ f.1.utf8ByteSize then f :: insertByLength e r else e :: f :: r

/-- Gives a pattern to a servlet. -/
def assign (t : MappingTable) (servlet : String) : UrlPattern → MappingTable
  | .exact p => { t with exact := t.exact.insert p servlet }
  | .below p => { t with below := insertByLength (p, servlet) t.below }
  | .extension e => { t with extension := t.extension.insert e servlet }
  | .default => { t with default := some servlet }

/-- Registers a pattern for a servlet. Doing so again changes nothing; a pattern of another servlet is refused. -/
def add (t : MappingTable) (pattern servlet : String) : Except MappingError MappingTable :=
  match UrlPattern.parse pattern with
  | .error e => .error e
  | .ok parsed =>
    match t.owner? parsed with
    | some existing => if existing = servlet then .ok t else .error (.conflict parsed.text existing)
    | none => .ok (t.assign servlet parsed)

/-- The number of patterns. -/
def size (t : MappingTable) : Nat :=
  t.exact.size + t.below.length + t.extension.size + (if t.default.isSome then 1 else 0)

/-- Whether there is no pattern. -/
def isEmpty (t : MappingTable) : Bool := t.size == 0

/-! ### Look-up -/

/-- The path that stands for the empty one. -/
def rooted (path : String) : String := if path = "" then "/" else path

/-- The match by the path itself. -/
def matchExact? (t : MappingTable) (path : String) : Option MappingMatch :=
  (t.exact.get? path).map fun name => ⟨name, .exact path, path, none⟩

/-- The match at the first entry that the path is at or below. -/
def matchBelow? (path : String) : List (String × String) → Option MappingMatch
  | [] => none
  | e :: r =>
    match UrlPattern.restBelow? e.1 path with
    | some [] => some ⟨e.2, .below e.1, e.1, none⟩
    | some (c :: s) => some ⟨e.2, .below e.1, e.1, some (String.ofList (c :: s))⟩
    | none => matchBelow? path r

/-- The match by extension. -/
def matchExtension? (t : MappingTable) (path : String) : Option MappingMatch := do
  let ext ← UrlPattern.extensionOf? path
  let name ← t.extension.get? ext
  some ⟨name, .extension ext, path, none⟩

/-- The match by the default pattern. -/
def matchDefault? (t : MappingTable) (path : String) : Option MappingMatch :=
  t.default.map fun name => ⟨name, .default, path, none⟩

/-- The servlet of a context-relative path; the empty path is read as `/`. -/
def map? (t : MappingTable) (path : String) : Option MappingMatch :=
  let path := rooted path
  (t.matchExact? path).or ((matchBelow? path t.below).or ((t.matchExtension? path).or (t.matchDefault? path)))

end MappingTable

end ServletContainer
