import ServletContainer.Dispatch.ErrorPage

namespace ServletContainer

/-!
# Serving a request within an application

* `routeWithin` — from an available application to the end of the request's own dispatch.
* `settle` — follows the continuations of a deferred request until none is left.
-/

/-- What a run may use up before it is given up. -/
structure Limits where
  /-- The number of dispatches within one another. -/
  depth : Nat
  /-- The number of continuations after one another. -/
  rounds : Nat
  deriving DecidableEq, Repr

/-- The session id that a request asks for: by cookie, or else by a parameter of its last path segment. -/
def requestedSession? (config : SessionConfig) (h : Headers) (params : List (String × String)) :
    Option (String × SessionIdSource) :=
  let byCookie := if config.tracksCookies then cookieValue? h config.cookie.name else none
  let byUrl := if config.tracksUrl then params.find? fun p => p.1 == config.urlParameter else none
  (byCookie.map fun id => (id, .cookie)).or (byUrl.map fun p => (p.2, .url))

/-- Answers a request that is turned away. -/
def deny (status : Nat) (challenge : Option String) (x : Exchange) : Exchange :=
  x.mapResponse fun r =>
    (match challenge with
      | some c => r.setHeader "WWW-Authenticate" c
      | none => r).writeDefaultError status

/-- Dispatches a request to the servlet that its path is mapped to. -/
def dispatchRequest (invoke : Invoker) (app : Application) (x : Exchange) : Option Exchange :=
  let path := x.request.relativePath
  match app.mapper.map? path with
  | none => handleError invoke app (.status 404 (some ("no servlet mapped for " ++ path))) x
  | some target =>
    (invoke target .request (x.mapRequest fun r =>
        { r with servletPath := target.servletPath, pathInfo := target.pathInfo })).bind fun
      | (.ok (), x) => some x
      | (.error e, x) => handleError invoke app e x

/-- Serves a request of an application, the guard being asked first. -/
def routeWithin (invoke : Invoker) (app : Application) (x : Exchange) : Option Exchange :=
  match app.guard with
  | none => dispatchRequest invoke app x
  | some guard =>
    (guard.check x).bind fun
      | (.deny status challenge, x) => some (deny status challenge x)
      | (.allow, x) => (dispatchRequest invoke app x).map guard.after

/-- Sets the attributes that a continuation brings. -/
def setAttributes (attributes : List (String × Value)) (r : Request) : Request :=
  attributes.foldl (fun r a => r.setAttribute a.1 a.2) r

/-- Continues a deferred request at a context-relative path. -/
def dispatchAsync (invoke : Invoker) (app : Application) (location : String) (x : Exchange) : Run :=
  match x.response.resetBuffer with
  | (.error e, _) => some (.error e, x)
  | (.ok (), response) =>
    let x := { x with response }
    let (path, query) := Request.splitTarget location
    match app.resolve path with
    | .error e => some (.error e, x)
    | .ok target => invoke target .async (x.mapRequest (retarget app path query target))

/-- What a continuation does; nothing is heard for `timeout` milliseconds from one that does not answer. -/
def continueWith (invoke : Invoker) (app : Application) (timeout : Nat) (c : Continuation) (x : Exchange) :
    Option Exchange :=
  match c with
  | .complete attributes => some (x.mapRequest (setAttributes attributes))
  | .dispatch attributes path =>
    (dispatchAsync invoke app path (x.mapRequest (setAttributes attributes))).bind fun
      | (.ok (), x) => some x
      | (.error e, x) => handleError invoke app e x
  | .abandon => handleError invoke app (.status 500 (some "async request abandoned")) x
  | .unanswered =>
    handleError invoke app (.status 500 (some "async request timed out")) { x with now := x.now + timeout }

/-- Follows continuations until none is waited for, at most `rounds` of them. -/
def settle (invoke : Invoker) (app : Application) (timeout : Nat) : (rounds : Nat) → Exchange → Option Exchange
  | rounds, x =>
    match x.pending with
    | none => some x
    | some c =>
      match rounds with
      | 0 => none
      | rounds + 1 =>
        (continueWith invoke app timeout c { x with pending := none }).bind (settle invoke app timeout rounds)

/-- Serves a request of an available application to its end. -/
def serveWithin (limits : Limits) (timeout : Nat) (app : Application) (x : Exchange) : Option Exchange :=
  (routeWithin (invoke app limits.depth) app x).bind
    (settle (invoke app limits.depth) app timeout limits.rounds)

end ServletContainer
