import ServletContainer.Application.Basic

namespace ServletContainer

/-!
# Deployments

A deployment is an application in operation: its place in its life, its availability, and its sessions.

* `Deployment.init`, `start`, `stop`, `destroy` — the steps of its life. Components are initialized servlets
  first, and destroyed in the reverse order.
* `Deployment.history` — the life-cycle calls that its components received.
-/

/-- The two life-cycle calls of a component. -/
inductive LifecyclePhase where
  | init
  | destroy
  deriving DecidableEq, Repr

/-- A life-cycle call that a component received. -/
structure LifecycleCall where
  phase : LifecyclePhase
  component : ComponentRef
  succeeded : Bool
  deriving DecidableEq, Repr

/-- An application in operation. -/
structure Deployment where
  app : Application
  state : LifecycleState
  /-- Whether the application is out of service for the moment. -/
  unavailable : Bool
  sessions : SessionStore
  history : List LifecycleCall

/-- The components of an application, servlets first. -/
def Application.components (a : Application) : List (ComponentRef × Component) :=
  (a.servlets.map fun s => (⟨.servlet, s.name⟩, s.component))
    ++ a.filters.map fun f => (⟨.filter, f.name⟩, f.component)

namespace Deployment

/-- An application that was just built. -/
def ofApplication (a : Application) : Deployment := ⟨a, .constructed, false, .empty a.sessionConfig, []⟩

/-- Whether requests are served: the application is started and in service. -/
def isAvailable (d : Deployment) : Bool := d.state = .started && !d.unavailable

/-- How often a component was asked to initialize. -/
def initCount (history : List LifecycleCall) (c : ComponentRef) : Nat :=
  history.countP fun call => call.phase = .init && call.component = c

/-- Initializes components up to the first that fails. -/
def initAll : List (ComponentRef × Component) → List LifecycleCall →
    Except ApplicationError Unit × List LifecycleCall
  | [], history => (.ok (), history)
  | (ref, c) :: r, history =>
    match c.initFailure (initCount history ref) with
    | some e => (.error (.init ref e), history ++ [⟨.init, ref, false⟩])
    | none => initAll r (history ++ [⟨.init, ref, true⟩])

/-- Initializes the components; after a failure the application is still only constructed. -/
def init (d : Deployment) : Except ApplicationError Unit × Deployment :=
  if d.state = .constructed then
    match initAll d.app.components d.history with
    | (.ok (), history) => (.ok (), { d with state := .initialized, history })
    | (.error e, history) => (.error e, { d with history })
  else (.error (.invalidTransition d.state .initialized), d)

/-- Moves on to a state from one of those given. -/
def move (d : Deployment) (sources : List LifecycleState) (target : LifecycleState) :
    Except ApplicationError Unit × Deployment :=
  if sources.contains d.state then (.ok (), { d with state := target })
  else (.error (.invalidTransition d.state target), d)

/-- Opens the application for requests. -/
def start (d : Deployment) : Except ApplicationError Unit × Deployment := d.move [.initialized] .started

/-- Closes the application for requests. -/
def stop (d : Deployment) : Except ApplicationError Unit × Deployment := d.move [.started] .stopped

/-- Destroys the components of an application that was initialized, and drops its sessions. -/
def destroy (d : Deployment) : Except ApplicationError Unit × Deployment :=
  match d.move [.constructed, .initialized, .stopped] .destroyed with
  | (.error e, _) => (.error e, d)
  | (.ok (), moved) =>
    let calls := if d.state = .constructed then []
      else d.app.components.reverse.map fun c => ⟨.destroy, c.1, true⟩
    (.ok (), { moved with sessions := d.sessions.invalidateAll, history := d.history ++ calls })

/-- The note of a life-cycle call, if its component leaves one. -/
def noteOf? (d : Deployment) (call : LifecycleCall) : Option Note := do
  let (_, component) ← d.app.components.find? fun c => c.1 = call.component
  if component.notesLifecycle then
    some (match call.phase with
      | .init => .initialized call.component d.app.contextPath
      | .destroy => .destroyed call.component)
  else none

/-- The notes of the calls after the first `n`. -/
def notesAfter (d : Deployment) (n : Nat) : List Note := (d.history.drop n).filterMap d.noteOf?

end Deployment

end ServletContainer
