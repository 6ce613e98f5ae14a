import ServletContainer.Dispatch.Chain

namespace ServletContainer

/-!
# Dispatching to a target

* `invokeWith` — runs the chain in front of a mapped servlet.
* `forwardWith`, `includeWith` — hand the exchange to another target of the application and put back what they
  changed. A forward gives the target the request's paths; an include shows them in attributes only.
* `invoke` — the dispatch with nested forwards and includes up to a depth.
-/

/-! ### Attribute names -/

namespace ForwardAttribute

def requestUri : String := "forward.request_uri"
def contextPath : String := "forward.context_path"
def servletPath : String := "forward.servlet_path"
def pathInfo : String := "forward.path_info"
def queryString : String := "forward.query_string"

/-- The attributes that describe the request before it was forwarded. -/
def all : List String := [requestUri, contextPath, servletPath, pathInfo, queryString]

end ForwardAttribute

namespace IncludeAttribute

def requestUri : String := "include.request_uri"
def contextPath : String := "include.context_path"
def servletPath : String := "include.servlet_path"
def pathInfo : String := "include.path_info"
def queryString : String := "include.query_string"

/-- The attributes that describe the included target. -/
def all : List String := [requestUri, contextPath, servletPath, pathInfo, queryString]

end IncludeAttribute

/-! ### Targets -/

/-- Runs the chain in front of a mapped servlet. -/
abbrev Invoker := MappingMatch → DispatcherKind → Exchange → Run

/-- The target at a context-relative path. -/
def Application.resolve (app : Application) (path : String) : Except ServletError MappingMatch :=
  match app.mapper.map? path with
  | some target => .ok target
  | none => .error (.status 404 (some ("no mapping for " ++ path)))

/-- Points the paths of a request at a target; the query stays unless there is another one. -/
def retarget (app : Application) (path : String) (query : Option String) (target : MappingMatch)
    (r : Request) : Request :=
  { r with
    uri := app.contextPath ++ path
    query := query.or r.query
    servletPath := target.servletPath
    pathInfo := target.pathInfo }

/-- Runs the chain in front of a mapped servlet, and records it. Its kind and name are set for as long. -/
def invokeWith (dispatch : Dispatcher) (app : Application) : Invoker := fun target kind x =>
  match app.servlet? target.servletName with
  | none => some (.error (.ofStatus 404), x)
  | some servlet =>
    let filters := app.filtersFor target.path target.servletName kind
    (runChain dispatch servlet filters
        { x.log (.dispatched target.servletName kind filters.length) with
          dispatcher := kind, servletName := some target.servletName }).map
      fun (result, y) => (result, { y with dispatcher := x.dispatcher, servletName := x.servletName })

/-! ### Forwards -/

/-- Sets the attributes that describe a request before it is forwarded. -/
def describeForward (app : Application) (r : Request) : Request :=
  let p := r.pathState
  ((((r.setAttribute ForwardAttribute.requestUri (.text p.uri)).setAttribute
    ForwardAttribute.contextPath (.text app.contextPath)).setAttribute
    ForwardAttribute.servletPath (.text p.servletPath)).putAttribute
    ForwardAttribute.pathInfo (p.pathInfo.map Value.text)).putAttribute
    ForwardAttribute.queryString (p.query.map Value.text)

/-- Removes attributes. -/
def removeAttributes (names : List String) (r : Request) : Request :=
  names.foldl (fun r n => r.removeAttribute n) r

/-- Forwards to a context-relative path. Output that is not committed is discarded; the attributes describe the
request before the first of nested forwards. -/
def forwardWith (invoke : Invoker) (app : Application) (location : String) (x : Exchange) : Run :=
  if x.response.locked then some (.error (.illegalState "forward from within an include"), x)
  else match x.response.resetBuffer with
    | (.error e, _) => some (.error e, x)
    | (.ok (), response) =>
      let x := { x with response }
      let (path, query) := Request.splitTarget location
      match app.resolve path with
      | .error e => some (.error e, x)
      | .ok target =>
        let saved := x.request.pathState
        let first := (x.request.attribute? ForwardAttribute.requestUri).isNone
        let x := if first then x.mapRequest (describeForward app) else x
        (invoke target .forward (x.mapRequest (retarget app path query target))).map fun (result, x) =>
          let x := x.mapRequest (·.withPathState saved)
          (result, if first then x.mapRequest (removeAttributes ForwardAttribute.all) else x)

/-! ### Includes -/

/-- Sets the attributes that describe an included target. -/
def describeInclude (app : Application) (path : String) (query : Option String) (target : MappingMatch)
    (r : Request) : Request :=
  ((((r.setAttribute IncludeAttribute.requestUri (.text (app.contextPath ++ path))).setAttribute
    IncludeAttribute.contextPath (.text app.contextPath)).setAttribute
    IncludeAttribute.servletPath (.text target.servletPath)).putAttribute
    IncludeAttribute.pathInfo (target.pathInfo.map Value.text)).putAttribute
    IncludeAttribute.queryString (query.map Value.text)

/-- Puts the attributes of the given names back to what they were in another request. -/
def restoreAttributes (names : List String) (before : Request) (r : Request) : Request :=
  names.foldl (fun r n => r.putAttribute n (before.attribute? n)) r

/-- Includes the output of a context-relative path. Status and header fields are locked for as long. -/
def includeWith (invoke : Invoker) (app : Application) (location : String) (x : Exchange) : Run :=
  let (path, query) := Request.splitTarget location
  match app.resolve path with
  | .error e => some (.error e, x)
  | .ok target =>
    let before := x.request
    let wasLocked := x.response.locked
    let x := (x.mapRequest (describeInclude app path query target)).mapResponse (·.setLocked true)
    (invoke target .inclusion x).map fun (result, x) =>
      (result, (x.mapResponse (·.setLocked wasLocked)).mapRequest
        (restoreAttributes IncludeAttribute.all before))

/-! ### Nesting -/

/-- Forwards and includes within an application. -/
def dispatchWith (invoke : Invoker) (app : Application) : Dispatcher
  | .forward, path, x => forwardWith invoke app path x
  | .inclusion, path, x => includeWith invoke app path x

/-- Runs the chain in front of a mapped servlet, with at most `depth` dispatches within one another. -/
def invoke (app : Application) : (depth : Nat) → Invoker
  | 0 => fun _ _ _ => none
  | depth + 1 => invokeWith (dispatchWith (invoke app depth) app) app

end ServletContainer
