import ServletContainer.Exchange.Program

namespace ServletContainer

/-!
# Static resources

* `Resources` — content by context-relative path.
* `Resources.program` — the servlet that answers with the resource at the path it was dispatched to.
-/

/-- A resource. -/
structure Resource where
  contentType : String
  body : Bytes
  deriving DecidableEq, Repr

/-- The resources of an application by path. -/
abbrev Resources := Table String Resource

/-- The path that a request was mapped by: the servlet path and what is below it. -/
def Request.mappedPath (r : Request) : String := r.servletPath ++ r.pathInfo.getD ""

/-- Answers with a resource. -/
def Resource.send (r : Resource) : Program :=
  .perform (.setHeader "Content-Type" r.contentType)
    (.perform (.setHeader "Content-Length" (toString r.body.length))
      (.write r.body .done))

/-- The servlet that serves resources; there is a table only where the application has some. -/
def Resources.program (resources : Option Resources) : Program :=
  .observe fun view =>
    match resources.bind fun t => t.get? view.request.mappedPath with
    | some r => r.send
    | none => .fail (.ofStatus 404)

end ServletContainer
