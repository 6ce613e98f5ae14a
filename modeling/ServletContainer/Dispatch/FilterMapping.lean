import ServletContainer.Routing.Pattern

namespace ServletContainer

/-!
# Filter mappings

* `DispatcherKind` — why a request comes to its target.
* `FilterMapping` — which targets a filter stands in front of, and for which kinds of dispatch.
-/

/-- Why a request comes to its target. -/
inductive DispatcherKind where
  | request
  | forward
  | inclusion
  | async
  | error
  deriving DecidableEq, Repr

namespace DispatcherKind

/-- Every kind. -/
def all : List DispatcherKind := [.request, .forward, .inclusion, .async, .error]

/-- The name of a kind. -/
def label : DispatcherKind → String
  | .request => "REQUEST"
  | .forward => "FORWARD"
  | .inclusion => "INCLUDE"
  | .async => "ASYNC"
  | .error => "ERROR"

/-- The kind of a name. -/
def ofLabel? (s : String) : Option DispatcherKind := all.find? fun k => k.label == s

theorem ofLabel?_label (k : DispatcherKind) : ofLabel? k.label = some k := by cases k <;> rfl

end DispatcherKind

/-- What a filter mapping selects by. -/
inductive FilterTarget where
  | url (pattern : UrlPattern)
  /-- The servlet of a name, or every servlet for the name `*`. -/
  | servlet (name : String)
  deriving DecidableEq, Repr

/-- One mapping of a filter. -/
structure FilterMapping where
  target : FilterTarget
  /-- The kinds of dispatch; none stands for requests alone. -/
  kinds : List DispatcherKind
  deriving DecidableEq, Repr

namespace FilterMapping

/-- The mapping by a URL pattern. -/
def ofUrl (pattern : String) (kinds : List DispatcherKind) : Except MappingError FilterMapping :=
  (UrlPattern.parse pattern).map fun p => ⟨.url p, kinds⟩

/-- Whether the mapping counts for a kind of dispatch. -/
def appliesTo (m : FilterMapping) (kind : DispatcherKind) : Bool :=
  if m.kinds.isEmpty then kind == .request else m.kinds.contains kind

/-- Whether the mapping selects a path that leads to a servlet. -/
def selects (m : FilterMapping) (path servlet : String) : Bool :=
  match m.target with
  | .url pattern => pattern.covers path
  | .servlet name => name == "*" || name == servlet

/-- Whether the filter stands in front of a dispatch. -/
def covers (m : FilterMapping) (path servlet : String) (kind : DispatcherKind) : Bool :=
  m.appliesTo kind && m.selects path servlet

end FilterMapping

end ServletContainer
