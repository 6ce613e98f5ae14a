import ServletContainer.Dispatch.FilterMapping
import ServletContainer.Http.Request
import ServletContainer.Http.Response
import ServletContainer.Session.Cookie
import ServletContainer.Session.PathParameters
import ServletContainer.Session.Store

namespace ServletContainer

/-!
# Exchanges

An exchange is one request with its response and everything that is bound to them while they are served.

* `Exchange` — the state that filters and servlets work on.
* `Snapshot` — what they can see of it.
* `Event` — an entry of the journal that the exchange keeps of the components it passes through.
* `Exchange.session?`, `Exchange.changeSessionId?`, `Exchange.encodeUrl` — its session.
-/

/-! ### What application code sees -/

/-- What application code sees of a response. -/
structure ResponseView where
  status : Nat
  reason : Option String
  state : ResponseState
  committed : Bool
  locked : Bool
  headers : Headers
  bodyWritten : Nat
  head : Bytes
  body : Bytes
  deriving DecidableEq, Repr

/-- The view of a response. -/
def Response.view (r : Response) : ResponseView :=
  ⟨r.status, r.reason, r.state, r.isCommitted, r.locked, r.headers, r.bodyWritten, r.head, r.body⟩

/-- What application code sees of an exchange. -/
structure Snapshot where
  request : Request
  response : ResponseView
  dispatcher : DispatcherKind
  servletName : Option String
  asyncStarted : Bool

/-! ### The journal -/

/-- The kinds of components. -/
inductive ComponentKind where
  | servlet
  | filter
  deriving DecidableEq, Repr

/-- The name of a kind of components. -/
def ComponentKind.label : ComponentKind → String
  | .servlet => "servlet"
  | .filter => "filter"

/-- A component by kind and name. -/
structure ComponentRef where
  kind : ComponentKind
  name : String
  deriving DecidableEq, Repr

/-- A note that application code leaves. -/
inductive Note where
  /-- A look at the exchange. -/
  | saw (tag : String) (view : Snapshot)
  /-- A value under a label. -/
  | told (label : String) (v : Value)
  /-- The number of filters that follow in the chain, as it is continued. -/
  | chain (remaining : Nat)
  /-- There is no chain to continue. -/
  | noChain
  /-- How a part of a program ended. -/
  | tried (result : Outcome)
  /-- What reading the body gave. -/
  | body (result : Except IoError Bytes)
  /-- The session that was found. -/
  | session (state : Option SessionStore.HandleState)
  /-- A component was initialized for a context path. -/
  | initialized (component : ComponentRef) (contextPath : String)
  /-- A component was destroyed. -/
  | destroyed (component : ComponentRef)

/-- An entry of the journal. -/
inductive Event where
  /-- The chain in front of a servlet starts, with that many filters. -/
  | dispatched (servlet : String) (kind : DispatcherKind) (filters : Nat)
  /-- A filter or servlet starts to run. -/
  | entered (component : ComponentRef) (view : Snapshot)
  /-- A filter or servlet has run. -/
  | left (component : ComponentRef) (result : Outcome)
  /-- A note of application code. -/
  | noted (n : Note)

/-! ### Exchanges -/

/-- What the holder of a deferred request does in the end. -/
inductive Continuation where
  /-- The response is finished as it stands. -/
  | complete (attributes : List (String × Value))
  /-- The request goes on at a context-relative path. -/
  | dispatch (attributes : List (String × Value)) (path : String)
  /-- The request is given up. -/
  | abandon
  /-- Nothing is heard in time. -/
  | unanswered

/-- One request and its response while they are served. -/
structure Exchange where
  request : Request
  /-- The unread input behind the request head. -/
  input : Option Source
  response : Response
  /-- The sessions of the application that the request was routed to. -/
  sessions : SessionStore
  /-- The session bound to the exchange. -/
  sessionId : Option SessionId
  dispatcher : DispatcherKind
  /-- The servlet that is being dispatched to. -/
  servletName : Option String
  /-- The continuation that is being waited for. -/
  pending : Option Continuation
  /-- The clock, in milliseconds. -/
  now : Nat
  /-- The supply of random blocks for session ids. -/
  supply : List Block
  journal : List Event

namespace Exchange

/-- The exchange of a request that is not routed yet. -/
def start (request : Request) (input : Option Source) (response : Response) (now : Nat)
    (supply : List Block) : Exchange where
  request := request
  input := input
  response := response
  sessions := .empty .standard
  sessionId := none
  dispatcher := .request
  servletName := none
  pending := none
  now := now
  supply := supply
  journal := []

/-- What application code sees. -/
def snapshot (x : Exchange) : Snapshot :=
  ⟨x.request, x.response.view, x.dispatcher, x.servletName, x.pending.isSome⟩

/-- Adds an entry to the journal. -/
def log (x : Exchange) (e : Event) : Exchange := { x with journal := x.journal ++ [e] }

/-- Changes the request. -/
def mapRequest (x : Exchange) (f : Request → Request) : Exchange := { x with request := f x.request }

/-- Changes the response. -/
def mapResponse (x : Exchange) (f : Response → Response) : Exchange := { x with response := f x.response }

/-- Runs an operation of the response. -/
def onResponse {α : Type} (x : Exchange) (f : Response → α × Response) : α × Exchange :=
  let (a, r) := f x.response
  (a, { x with response := r })

/-- Runs an operation of the session store. -/
def onSessions {α : Type} (x : Exchange) (f : Nat → SessionStore → α × SessionStore) : α × Exchange :=
  let (a, s) := f x.now x.sessions
  (a, { x with sessions := s })

/-- Reads the body of the request. -/
def readBody (x : Exchange) (limit : Nat) : Except IoError Bytes × Exchange :=
  let (result, input) := x.request.readBody limit x.input
  (result, { x with input := input })

/-- Redirects the client. Within an include this does nothing. -/
def sendRedirect (x : Exchange) (location : String) : Outcome × Exchange :=
  if x.response.isCommitted then (.error .committed, x)
  else if x.response.locked then (.ok (), x)
  else (.ok (), x.mapResponse fun r =>
    (r.resetBuffer.2.setStatus StatusCode.found.code).setHeader "Location" location)

/-- Defers the request; only one continuation can be waited for. -/
def startAsync (x : Exchange) (c : Continuation) : Outcome × Exchange :=
  if x.pending.isSome then (.error (.illegalState "async already started"), x)
  else (.ok (), { x with pending := some c })

/-! ### The session of an exchange -/

/-- Looks a session up and binds it to the exchange. -/
def bindSession (x : Exchange) (id : SessionId) : Bool × Exchange :=
  let (found, x) := x.onSessions fun now s => s.find now id
  (found, { x with sessionId := if found then some id else none })

/-- The live session of the exchange: the one bound to it, or else the one that the client asked for. -/
def currentSession (x : Exchange) : Option SessionId × Exchange :=
  let (bound, x) : Option SessionId × Exchange :=
    match x.sessionId with
    | none => (none, x)
    | some id =>
      let (found, x) := x.bindSession id
      (if found then some id else none, x)
  match bound with
  | some id => (some id, x)
  | none =>
    match x.request.requestedSession with
    | none => (none, x)
    | some (id, _) =>
      let (found, x) := x.bindSession id
      (if found then some id else none, x)

/-- Hands a session id to the client, if ids travel by cookie. -/
def addSessionCookie (x : Exchange) (id : SessionId) : Exchange :=
  let config := x.sessions.config
  if config.tracksCookies then
    x.mapResponse fun r =>
      r.addHeader "Set-Cookie" (config.cookie.headerValue id x.request.contextPath x.request.secure)
  else x

/-- The session of the exchange. Where there is none and `create` is set, one is started; none if the supply of
random blocks runs dry. -/
def session? (x : Exchange) (create : Bool) : Option (Option SessionId × Exchange) :=
  match x.currentSession with
  | (some id, x) => some (some id, x)
  | (none, x) =>
    if create then
      (x.sessions.create? x.now x.supply).map fun (id, supply, sessions) =>
        (some id, ({ x with sessions, supply, sessionId := some id } : Exchange).addSessionCookie id)
    else some (none, x)

/-- Moves the session of the exchange to a fresh id. -/
def changeSessionId? (x : Exchange) : Option (Except ServletError SessionId × Exchange) :=
  match x.currentSession with
  | (none, x) => some (.error (.illegalState "no session to change"), x)
  | (some id, x) =>
    (x.sessions.changeId? x.now id x.supply).map fun (changed, supply, sessions) =>
      let x := { x with sessions, supply }
      match changed with
      | none => (.error (.illegalState "session invalidated concurrently"), x)
      | some new => (.ok new, ({ x with sessionId := some new } : Exchange).addSessionCookie new)

/-- Whether the session that the client asked for is live. -/
def requestedSessionIsValid (x : Exchange) : Bool × Exchange :=
  match x.request.requestedSession with
  | none => (false, x)
  | some (id, _) => x.onSessions fun now s => s.contains now id

/-- Adds the session id to a relative URL, unless the client is known to send cookies. -/
def encodeUrl (x : Exchange) (url : String) : String × Exchange :=
  let config := x.sessions.config
  if (config.tracksCookies && x.request.sessionFromCookie) || !config.tracksUrl || !isRelativeUrl url then
    (url, x)
  else
    match x.currentSession with
    | (none, x) => (url, x)
    | (some id, x) => (ServletContainer.encodeUrl url config.urlParameter id, x)

end Exchange

end ServletContainer
