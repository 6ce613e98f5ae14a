import ServletContainer.Http.RequestHead
import ServletContainer.Security.Identity
import ServletContainer.Text.Numeral
import ServletContainer.Value

namespace ServletContainer

/-!
# Requests

A request is a head together with what routing finds out about it.

* `Request.ofHead` — the request of a head; path and query are cut at the first question mark.
* `Request.relativePath` — the path below the context path.
* `PathState` — the part that a dispatch replaces and puts back.
* `Request.readBody` — the declared number of bytes from the input behind the head.
-/

/-- How a client asked for a session. -/
inductive SessionIdSource where
  | cookie
  | url
  deriving DecidableEq, Repr

/-- The name of a way. -/
def SessionIdSource.label : SessionIdSource → String
  | .cookie => "cookie"
  | .url => "url"

/-- A request. -/
structure Request where
  head : RequestHead
  /-- The address of the peer. -/
  peer : Option String
  /-- Whether the connection is encrypted. -/
  secure : Bool
  /-- The path of the request, without the query. -/
  uri : String
  query : Option String
  contextPath : String
  servletPath : String
  pathInfo : Option String
  /-- The session id that the client asked for, and how. -/
  requestedSession : Option (String × SessionIdSource)
  attributes : Table String Value
  principal : Option Principal

namespace Request

/-- The path and the query of a request target. -/
def splitTarget (target : String) : String × Option String :=
  match Text.cut '?' target with
  | some (path, query) => (path, some query)
  | none => (target, none)

/-- The request of a head. -/
def ofHead (head : RequestHead) : Request where
  head := head
  peer := none
  secure := false
  uri := (splitTarget head.target).1
  query := (splitTarget head.target).2
  contextPath := ""
  servletPath := ""
  pathInfo := none
  requestedSession := none
  attributes := .empty
  principal := none

instance : Inhabited Request := ⟨ofHead .blank⟩

/-- The request of a bare request line: a target or protocol that is left out has its default. -/
def ofLine (line : String) : Request :=
  let words := Text.words line
  ofHead {
    method := words[0]?.map Method.ofToken
    target := words[1]?.getD "/"
    protocol := words[2]?.getD "HTTP/1.1"
    headers := .empty }

/-- The request as it came from a peer. -/
def fromPeer (r : Request) (peer : String) (secure : Bool) : Request :=
  { r with peer := some peer, secure := secure }

/-- The path below the context path; the whole path where it is not below it. -/
def relativePath (r : Request) : String := (Text.after? r.contextPath r.uri).getD r.uri

/-- Whether the caller is authenticated and holds a role. -/
def isUserInRole (r : Request) (role : String) : Bool :=
  match r.principal with
  | none => false
  | some p => p.hasRole role

/-- Whether the client asked for a session by cookie. -/
def sessionFromCookie (r : Request) : Bool :=
  match r.requestedSession with
  | some (_, .cookie) => true
  | _ => false

/-! ### Attributes -/

/-- The attribute of a name. -/
def attribute? (r : Request) (name : String) : Option Value := r.attributes.get? name

/-- Sets an attribute. -/
def setAttribute (r : Request) (name : String) (v : Value) : Request :=
  { r with attributes := r.attributes.insert name v }

/-- Removes an attribute. -/
def removeAttribute (r : Request) (name : String) : Request :=
  { r with attributes := r.attributes.erase name }

/-- Sets an attribute, or removes it where there is no value. -/
def putAttribute (r : Request) (name : String) : Option Value → Request
  | some v => r.setAttribute name v
  | none => r.removeAttribute name

/-! ### Paths -/

/-- The part of a request that a dispatch replaces. -/
structure PathState where
  uri : String
  query : Option String
  servletPath : String
  pathInfo : Option String
  deriving DecidableEq, Repr

/-- The path state of a request. -/
def pathState (r : Request) : PathState := ⟨r.uri, r.query, r.servletPath, r.pathInfo⟩

/-- The request with another path state. -/
def withPathState (r : Request) (p : PathState) : Request :=
  { r with uri := p.uri, query := p.query, servletPath := p.servletPath, pathInfo := p.pathInfo }

@[simp] theorem pathState_withPathState (r : Request) (p : PathState) :
    (r.withPathState p).pathState = p := rfl

/-! ### The body -/

/-- The declared length of the body, if it is a number. -/
def contentLength? (r : Request) : Option Nat := do
  let text ← r.head.headers.get? "content-length"
  (Text.readNumeral Text.max64 (Text.trim text).toList).toOption

/-- Reads the body of the declared length, which is at most `limit`, from the input behind the head. The buffer of that
length is taken to be there: to ask for its memory is assumed to succeed, whatever the `limit` lets pass. -/
def readBody (r : Request) (limit : Nat) (body : Option Source) :
    Except IoError Bytes × Option Source :=
  let length := r.contentLength?.getD 0
  if limit < length then (.error (.bodyTooLong length limit), body)
  else match body with
    | none => (.ok [], none)
    | some source =>
      let (result, source) := source.take length
      (result, some source)

end Request

end ServletContainer
