import ServletContainer.Application.ErrorPages
import ServletContainer.Application.Resources
import ServletContainer.Routing.MappingTable
import ServletContainer.Security.Guard

namespace ServletContainer

/-!
# Applications

* `Component` — the code of a filter or servlet with the outcome of its life-cycle calls.
* `Blueprint` — the registrations that an application is made from.
* `Application` — a checked application; it does not change after it is built.
* `Blueprint.build` — checks the registrations in order; the first fault is the one reported.
-/

/-! ### Registrations -/

/-- A filter's or servlet's code. -/
structure Component where
  service : Program
  /-- The failure of the `n`-th call to initialize the component, if it fails. -/
  initFailure : (n : Nat) → Option ServletError
  /-- Whether the component notes its life-cycle calls in the journal. -/
  notesLifecycle : Bool

/-- The component that serves resources. It has nothing to set up, so initializing it never fails. -/
def Resources.component (resources : Option Resources) : Component :=
  ⟨Resources.program resources, fun _ => none, false⟩

/-- A servlet. -/
structure Servlet where
  name : String
  component : Component

/-- A filter with the mappings that place it in front of dispatches. -/
structure Filter where
  name : String
  mappings : List FilterMapping
  component : Component

/-- Whether a filter stands in front of a dispatch. -/
def Filter.covers (f : Filter) (path servlet : String) (kind : DispatcherKind) : Bool :=
  f.mappings.any fun m => m.covers path servlet kind

/-- A servlet with the texts of its patterns. -/
structure ServletRegistration where
  servlet : Servlet
  patterns : List String

/-- What an application is made from. -/
structure Blueprint where
  contextPath : String
  displayName : Option String
  servlets : List ServletRegistration
  filters : List Filter
  errorPages : List ErrorPage
  sessionConfig : SessionConfig
  guard : Option Guard
  resources : Option Resources

/-! ### Applications -/

/-- Where an application is in its life. -/
inductive LifecycleState where
  | constructed
  | initialized
  | started
  | stopped
  | destroyed
  deriving DecidableEq, Repr

/-- The name of a state. -/
def LifecycleState.label : LifecycleState → String
  | .constructed => "CONSTRUCTED"
  | .initialized => "INITIALIZED"
  | .started => "STARTED"
  | .stopped => "STOPPED"
  | .destroyed => "DESTROYED"

/-- Why an application cannot be built or moved on in its life. -/
inductive ApplicationError where
  | invalidContextPath (path : String)
  | duplicateServlet (name : String)
  | duplicateFilter (name : String)
  | mapping (e : MappingError)
  | unknownServlet (filter servlet : String)
  | invalidTransition (source target : LifecycleState)
  | init (component : ComponentRef) (e : ServletError)
  deriving DecidableEq, Repr

/-- The text of the error. -/
def ApplicationError.message : ApplicationError → String
  | .invalidContextPath path => "invalid context path " ++ Text.quote path
  | .duplicateServlet name => "servlet " ++ Text.quote name ++ " is registered twice"
  | .duplicateFilter name => "filter " ++ Text.quote name ++ " is registered twice"
  | .mapping e => e.message
  | .unknownServlet filter servlet =>
    "filter " ++ Text.quote filter ++ " is mapped to unknown servlet " ++ Text.quote servlet
  | .invalidTransition source target => "cannot move from " ++ source.label ++ " to " ++ target.label
  | .init component e =>
    component.kind.label ++ " " ++ component.name ++ " failed to initialize: " ++ e.text

/-- A checked application. -/
structure Application where
  /-- The normal form of the context path; empty for the root. -/
  contextPath : String
  displayName : String
  /-- In the order of registration. -/
  servlets : List Servlet
  /-- In the order of registration. -/
  filters : List Filter
  mapper : MappingTable
  errorPages : ErrorPages
  sessionConfig : SessionConfig
  guard : Option Guard
  resources : Option Resources

namespace Application

/-- The servlet of a name. -/
def servlet? (a : Application) (name : String) : Option Servlet := a.servlets.find? fun s => s.name == name

/-- The filters in front of a dispatch, in the order of registration. -/
def filtersFor (a : Application) (path servlet : String) (kind : DispatcherKind) : List Filter :=
  a.filters.filter fun f => f.covers path servlet kind

/-- The resource at a path. -/
def resource? (a : Application) (path : String) : Option Resource := a.resources.bind fun t => t.get? path

end Application

/-! ### Building -/

/-- Whether a text is a context path other than that of the root. -/
def isContextPath (path : List Char) : Bool :=
  path.head? == some '/' && path.getLast? != some '/' && !Text.occurs ['/', '/'] path
    && !Text.hasAny ['*', '?', ';', '#'] path

/-- The normal form of a context path. -/
def normalizeContextPath (path : String) : Except ApplicationError String :=
  if path = "" ∨ path = "/" then .ok ""
  else if isContextPath path.toList then .ok path
  else .error (.invalidContextPath path)

/-- The name under which an application is shown. -/
def shownName (displayName : Option String) (contextPath : String) : String :=
  displayName.getD (if contextPath = "" then "ROOT" else contextPath)

/-- Registers the patterns of a servlet. -/
def addPatterns (servlet : String) : List String → MappingTable → Except ApplicationError MappingTable
  | [], t => .ok t
  | p :: r, t =>
    match t.add p servlet with
    | .error e => .error (.mapping e)
    | .ok t => addPatterns servlet r t

/-- Registers servlets after those with the names `seen`. -/
def addServlets : List String → List ServletRegistration → MappingTable →
    Except ApplicationError MappingTable
  | _, [], t => .ok t
  | seen, s :: r, t =>
    if seen.contains s.servlet.name then .error (.duplicateServlet s.servlet.name)
    else match addPatterns s.servlet.name s.patterns t with
      | .error e => .error e
      | .ok t => addServlets (s.servlet.name :: seen) r t

/-- Checks the mappings of a filter by servlet name. -/
def checkMappings (filter : String) (servlets : List String) :
    List FilterMapping → Except ApplicationError Unit
  | [] => .ok ()
  | m :: r =>
    match m.target with
    | .url _ => checkMappings filter servlets r
    | .servlet name =>
      if name = "*" ∨ servlets.contains name then checkMappings filter servlets r
      else .error (.unknownServlet filter name)

/-- Checks filters after those with the names `seen`. -/
def checkFilters (servlets : List String) : List String → List Filter → Except ApplicationError Unit
  | _, [] => .ok ()
  | seen, f :: r =>
    if seen.contains f.name then .error (.duplicateFilter f.name)
    else match checkMappings f.name servlets f.mappings with
      | .error e => .error e
      | .ok () => checkFilters servlets (f.name :: seen) r

/-- Builds an application: the context path is checked first, then the servlets, then the filters. -/
def Blueprint.build (b : Blueprint) : Except ApplicationError Application := do
  let contextPath ← normalizeContextPath b.contextPath
  let mapper ← addServlets [] b.servlets .empty
  let servlets := b.servlets.map ServletRegistration.servlet
  checkFilters (servlets.map Servlet.name) [] b.filters
  return {
    contextPath
    displayName := shownName b.displayName contextPath
    servlets
    filters := b.filters
    mapper
    errorPages := .ofList b.errorPages
    sessionConfig := b.sessionConfig
    guard := b.guard
    resources := b.resources }

end ServletContainer
