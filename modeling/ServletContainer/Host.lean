import ServletContainer.Application.Deployment
import ServletContainer.Dispatch.Serve

namespace ServletContainer

/-!
# Hosts

A host keeps applications and publishes them under their context paths.

* `Host.deploy`, `Host.undeploy` — publish an application and take it back.
* `Host.find?` — the application whose context path is the longest one at or above a path.
* `Host.serve` — serves a request by the application it belongs to.
-/

/-- Why an application cannot be published or taken back. -/
inductive RegistryError where
  | duplicateContext (path : String)
  | notDeployed (path : String)
  | application (e : ApplicationError)
  deriving DecidableEq, Repr

/-- The text of the error. -/
def RegistryError.message : RegistryError → String
  | .duplicateContext path => "an application is already deployed at " ++ Text.quote path
  | .notDeployed path => "no application is deployed at " ++ Text.quote path
  | .application e => e.message

/-- The number of an application within its host. -/
abbrev AppId := Nat

/-- The applications of a host. -/
structure Host where
  /-- Every application that was built, by number. -/
  deployments : List Deployment
  /-- The published applications by context path. -/
  published : Table String AppId
  /-- The clock, in milliseconds. -/
  now : Nat
  /-- The supply of random blocks for session ids. -/
  supply : List Block
  /-- What the components noted and the requests passed through. -/
  journal : List Event

namespace Host

/-- A host without applications. -/
def start (supply : List Block) : Host := ⟨[], .empty, 0, supply, []⟩

/-- Takes in an application that was just built. -/
def add (h : Host) (a : Application) : AppId × Host :=
  (h.deployments.length, { h with deployments := h.deployments ++ [.ofApplication a] })

/-- The application of a number. -/
def deployment? (h : Host) (id : AppId) : Option Deployment := h.deployments[id]?

/-- Replaces the application of a number. -/
def put (h : Host) (id : AppId) (d : Deployment) : Host := { h with deployments := h.deployments.set id d }

/-- Lets time pass. -/
def advance (h : Host) (millis : Nat) : Host := { h with now := h.now + millis }

/-- The journal, which starts anew. -/
def takeJournal (h : Host) : List Event × Host := (h.journal, { h with journal := [] })

/-! ### Life cycle -/

/-- Takes a step of an application's life; the journal gets what its components note. -/
def step (h : Host) (id : AppId) (f : Deployment → Except ApplicationError Unit × Deployment) :
    Except ApplicationError Unit × Host :=
  match h.deployment? id with
  | none => (.ok (), h)
  | some d =>
    let (result, after) := f d
    let notes := after.notesAfter d.history.length
    (result, { h.put id after with journal := h.journal ++ notes.map Event.noted })

/-- Takes a step of an application's life if it is in a given state. -/
def stepFrom (state : LifecycleState) (f : Deployment → Except ApplicationError Unit × Deployment)
    (d : Deployment) : Except ApplicationError Unit × Deployment :=
  if d.state = state then f d else (.ok (), d)

/-- Takes two steps of an application's life, the second only after the first succeeded. -/
def andThen (f g : Deployment → Except ApplicationError Unit × Deployment) (d : Deployment) :
    Except ApplicationError Unit × Deployment :=
  match f d with
  | (.error e, d) => (.error e, d)
  | (.ok (), d) => g d

/-- Brings an application into service. -/
def launch (d : Deployment) : Except ApplicationError Unit × Deployment :=
  if d.state = .stopped ∨ d.state = .destroyed then (.error (.invalidTransition d.state .started), d)
  else andThen (stepFrom .constructed Deployment.init) (stepFrom .initialized Deployment.start) d

/-- Takes an application out of service for good. -/
def retire (d : Deployment) : Except ApplicationError Unit × Deployment :=
  andThen (stepFrom .started Deployment.stop) Deployment.destroy d

/-- Publishes an application, once it is in service. -/
def deploy (h : Host) (id : AppId) : Except RegistryError Unit × Host :=
  match h.deployment? id with
  | none => (.ok (), h)
  | some d =>
    if h.published.contains d.app.contextPath then (.error (.duplicateContext d.app.contextPath), h)
    else match h.step id launch with
      | (.error e, h) => (.error (.application e), h)
      | (.ok (), h) => (.ok (), { h with published := h.published.insert d.app.contextPath id })

/-- Takes back the application of a context path, and then out of service. -/
def undeploy (h : Host) (contextPath : String) : Except RegistryError AppId × Host :=
  match h.published.get? contextPath with
  | none => (.error (.notDeployed contextPath), h)
  | some id =>
    match Host.step { h with published := h.published.erase contextPath } id retire with
    | (.error e, h) => (.error (.application e), h)
    | (.ok (), h) => (.ok id, h)

/-! ### Look-up -/

/-- The application published at a context path. -/
def get? (h : Host) (contextPath : String) : Option AppId := h.published.get? contextPath

/-- The context paths that may stand above a path, longest first. -/
def ancestors (path : List Char) : List String :=
  let path := Text.trimTail '/' path
  (path :: (Text.slashHeads path).reverse).map String.ofList

/-- The application that a path belongs to. -/
def find? (h : Host) (path : String) : Option AppId :=
  ((ancestors path.toList).findSome? h.published.get?).or (h.published.get? "")

/-! ### Requests -/

/-- A request that has been served. -/
structure Served where
  /-- The application it was served by. -/
  app : Option AppId
  exchange : Exchange

/-- The exchange of a request without a method: the answer is a bare 400. -/
def refuse (x : Exchange) : Exchange :=
  x.mapResponse fun r => (r.setStatus StatusCode.badRequest.code).writeHeaders

/-- Serves a request that belongs to an application. -/
def serveBy (limits : Limits) (timeout : Nat) (d : Deployment) (params : List (String × String))
    (x : Exchange) : Option Exchange :=
  let x := { x with sessions := d.sessions, request.contextPath := d.app.contextPath }
  if d.isAvailable then
    let requested := requestedSession? d.app.sessionConfig x.request.head.headers params
    serveWithin limits timeout d.app { x with request.requestedSession := requested }
  else some (x.mapResponse (·.writeDefaultError StatusCode.serviceUnavailable.code))

/-- Serves an exchange by the application that its path belongs to. -/
def serveExchange (h : Host) (limits : Limits) (timeout : Nat) (x : Exchange) : Option Served :=
  if x.request.head.method.isNone then some ⟨none, refuse x⟩
  else
    let (path, params) := stripPathParameters x.request.uri
    let x := { x with request.uri := path }
    match h.find? path with
    | none => some ⟨none, x.mapResponse (·.writeDefaultError StatusCode.notFound.code)⟩
    | some id =>
      match h.deployment? id with
      | none => some ⟨none, x⟩
      | some d => (serveBy limits timeout d params x).map fun x => ⟨some id, x⟩

/-- Takes over what an exchange leaves: the clock, the supply, the journal, and the sessions of its
application. -/
def settleExchange (h : Host) (served : Served) : Host :=
  let x := served.exchange
  let h := { h with now := x.now, supply := x.supply, journal := h.journal ++ x.journal }
  match served.app with
  | none => h
  | some id =>
    match h.deployment? id with
    | none => h
    | some d => h.put id { d with sessions := x.sessions }

/-- Serves a request. -/
def serve (h : Host) (limits : Limits) (timeout : Nat) (request : Request) (input : Option Source)
    (response : Response) : Option (Served × Host) :=
  (h.serveExchange limits timeout (.start request input response h.now h.supply)).map fun served =>
    (served, h.settleExchange served)

end Host

end ServletContainer
