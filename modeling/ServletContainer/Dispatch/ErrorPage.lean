import ServletContainer.Dispatch.Target

namespace ServletContainer

/-!
# Answering failures

* `handleError` — turns a failure into a response: by the error page that is declared for it, or else by the
  container's own line of text. A failure while an error page runs is not answered by another page.
-/

namespace ErrorAttribute

def statusCode : String := "error.status_code"
def exceptionType : String := "error.exception_type"
def message : String := "error.message"
def requestUri : String := "error.request_uri"
def servletName : String := "error.servlet_name"

end ErrorAttribute

/-- Sets the attributes that describe a failure. -/
def describeError (e : ServletError) (servletName : Option String) (r : Request) : Request :=
  ((((r.setAttribute ErrorAttribute.statusCode (.int e.statusCode)).putAttribute
    ErrorAttribute.exceptionType (e.kind?.map Value.text)).putAttribute
    ErrorAttribute.message (e.detail?.map Value.text)).setAttribute
    ErrorAttribute.requestUri (.text r.uri)).putAttribute
    ErrorAttribute.servletName (servletName.map Value.text)

/-- Runs an error page, and puts the paths of the request back. -/
def runErrorPage (invoke : Invoker) (app : Application) (path : String) (query : Option String)
    (target : MappingMatch) (e : ServletError) (x : Exchange) : Run :=
  let saved := x.request.pathState
  let x := x.mapRequest fun r => retarget app path query target (describeError e x.servletName r)
  (invoke target .error x).map fun (result, x) => (result, x.mapRequest (·.withPathState saved))

/-- The exchange in which a failure is answered: nothing is deferred, and the response starts over with the
status of the failure. -/
def prepareError (status : Nat) (x : Exchange) : Exchange :=
  { x with
    pending := none
    response := ((x.response.setLocked false).resetBuffer.2).setStatus status }

/-- The location of the error page for a failure; there is none while an error page runs. -/
def errorPage? (app : Application) (e : ServletError) (x : Exchange) : Option String :=
  if x.dispatcher = .error then none else app.errorPages.find? e.kind? e.statusCode

/-- Turns a failure into a response, unless part of the response has been sent. -/
def handleError (invoke : Invoker) (app : Application) (e : ServletError) (x : Exchange) :
    Option Exchange :=
  if x.response.isCommitted then some x
  else
    let x := prepareError e.statusCode x
    let plain (x : Exchange) : Exchange := x.mapResponse (·.writeDefaultError e.statusCode)
    match errorPage? app e x with
    | none => some (plain x)
    | some location =>
      let (path, query) := Request.splitTarget location
      match app.mapper.map? path with
      | none => some (plain x)
      | some target =>
        (runErrorPage invoke app path query target e x).map fun
          | (.ok (), x) => x
          | (.error _, x) => if x.response.isCommitted then x else plain x

end ServletContainer
