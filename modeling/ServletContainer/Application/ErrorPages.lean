import ServletContainer.Failure
import ServletContainer.Table

namespace ServletContainer

/-!
# Error pages

* `ErrorPage` — the location that answers a type of failure, a status, or any failure.
* `ErrorPages.find?` — the location for a failure: by its type, else by its status, else the default. Of two
  pages for the same thing the later one counts.
-/

/-- What an error page is for. -/
inductive ErrorSelector where
  | status (code : Nat)
  | kind (tag : String)
  | any
  deriving DecidableEq, Repr

/-- An error page. -/
structure ErrorPage where
  selector : ErrorSelector
  location : String
  deriving DecidableEq, Repr

/-- The page for failed reads and writes. -/
def ErrorPage.forIo (location : String) : ErrorPage := ⟨.kind ServletError.ioKind, location⟩

/-- The locations by what they are for. -/
structure ErrorPages where
  byStatus : Table Nat String
  byKind : Table String String
  default : Option String

namespace ErrorPages

/-- No pages. -/
def empty : ErrorPages := ⟨.empty, .empty, none⟩

instance : Inhabited ErrorPages := ⟨empty⟩

/-- Adds a page. -/
def insert (t : ErrorPages) (p : ErrorPage) : ErrorPages :=
  match p.selector with
  | .status code => { t with byStatus := t.byStatus.insert code p.location }
  | .kind tag => { t with byKind := t.byKind.insert tag p.location }
  | .any => { t with default := some p.location }

/-- The pages of a list of declarations. -/
def ofList (ps : List ErrorPage) : ErrorPages := ps.foldl insert empty

/-- The location for a failure. -/
def find? (t : ErrorPages) (kind : Option String) (status : Nat) : Option String :=
  (kind.bind t.byKind.get?).or ((t.byStatus.get? status).or t.default)

/-- Whether there is no page. -/
def isEmpty (t : ErrorPages) : Bool := t.byStatus.isEmpty && t.byKind.isEmpty && t.default.isNone

end ErrorPages

end ServletContainer
