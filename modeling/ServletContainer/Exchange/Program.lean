import ServletContainer.Exchange.Basic

namespace ServletContainer

/-!
# Programs

Application code as a tree: what it asks of the container, and how it goes on with each answer.

* `Op` — the calls that touch the exchange alone, each with the type of its answer.
* `Program` — a filter's or servlet's code: calls, dispatches to other targets, and the chain it stands in.
* `Op.perform` — what a call does to the exchange.
-/

/-! ### Calls -/

/-- A call that touches the exchange alone. -/
inductive Op where
  | observe
  | note (n : Note)
  | setStatus (code : Nat)
  | setStatusWithReason (code : Nat) (reason : String)
  | addHeader (name value : String)
  | setHeader (name value : String)
  | writeStatusLine
  | writeHeaders
  | write (data : Bytes)
  | flush
  | stream (data : Bytes)
  | close
  | resetBuffer
  | sendRedirect (location : String)
  | setAttribute (name : String) (v : Value)
  | removeAttribute (name : String)
  | setRequestHeader (name value : String)
  | removeRequestHeader (name : String)
  | readBody (limit : Nat)
  | startAsync (c : Continuation)
  | session (create : Bool)
  | changeSessionId
  | requestedSessionIsValid
  | encodeUrl (url : String)
  | handleState (id : SessionId)
  | sessionAttribute (id : SessionId) (name : String)
  | setSessionAttribute (id : SessionId) (name : String) (v : Value)
  | removeSessionAttribute (id : SessionId) (name : String)
  | sessionAttributeNames (id : SessionId)
  | setSessionLimit (id : SessionId) (limit : Option Nat)
  | invalidateSession (id : SessionId)

namespace Op

/-- The type of the answer to a call. -/
abbrev Reply : Op → Type
  | .observe => Snapshot
  | .note _ => Unit
  | .setStatus _ => Unit
  | .setStatusWithReason _ _ => Unit
  | .addHeader _ _ => Unit
  | .setHeader _ _ => Unit
  | .writeStatusLine => Unit
  | .writeHeaders => Unit
  | .write _ => Except IoError Unit
  | .flush => Except IoError Unit
  | .stream _ => Except IoError Unit
  | .close => Except IoError Unit
  | .resetBuffer => Outcome
  | .sendRedirect _ => Outcome
  | .setAttribute _ _ => Unit
  | .removeAttribute _ => Option Value
  | .setRequestHeader _ _ => Unit
  | .removeRequestHeader _ => Unit
  | .readBody _ => Except IoError Bytes
  | .startAsync _ => Outcome
  | .session _ => Option SessionId
  | .changeSessionId => Except ServletError SessionId
  | .requestedSessionIsValid => Bool
  | .encodeUrl _ => String
  | .handleState _ => SessionStore.HandleState
  | .sessionAttribute _ _ => Option Value
  | .setSessionAttribute _ _ _ => Bool
  | .removeSessionAttribute _ _ => Option Value
  | .sessionAttributeNames _ => List String
  | .setSessionLimit _ _ => Unit
  | .invalidateSession _ => Bool

/-- Carries a call out; none if a new session id is needed and the supply of random blocks has run dry. -/
def perform : (op : Op) → Exchange → Option (op.Reply × Exchange)
  | .observe, x => some (x.snapshot, x)
  | .note n, x => some ((), x.log (.noted n))
  | .setStatus code, x => some ((), x.mapResponse (·.setStatus code))
  | .setStatusWithReason code reason, x => some ((), x.mapResponse (·.setStatusWithReason code reason))
  | .addHeader name value, x => some ((), x.mapResponse (·.addHeader name value))
  | .setHeader name value, x => some ((), x.mapResponse (·.setHeader name value))
  | .writeStatusLine, x => some ((), x.mapResponse (·.writeStatusLine))
  | .writeHeaders, x => some ((), x.mapResponse (·.writeHeaders))
  | .write data, x => some (x.onResponse (·.write data))
  | .flush, x => some (x.onResponse (·.flush))
  | .stream data, x => some (x.onResponse (·.stream data))
  | .close, x => some (x.onResponse (·.close))
  | .resetBuffer, x => some (x.onResponse (·.resetBuffer))
  | .sendRedirect location, x => some (x.sendRedirect location)
  | .setAttribute name v, x => some ((), x.mapRequest (·.setAttribute name v))
  | .removeAttribute name, x => some (x.request.attribute? name, x.mapRequest (·.removeAttribute name))
  | .setRequestHeader name value, x =>
    some ((), x.mapRequest fun r => { r with head.headers := r.head.headers.set name value })
  | .removeRequestHeader name, x =>
    some ((), x.mapRequest fun r => { r with head.headers := r.head.headers.remove name })
  | .readBody limit, x => some (x.readBody limit)
  | .startAsync c, x => some (x.startAsync c)
  | .session create, x => x.session? create
  | .changeSessionId, x => x.changeSessionId?
  | .requestedSessionIsValid, x => some x.requestedSessionIsValid
  | .encodeUrl url, x => some (x.encodeUrl url)
  | .handleState id, x => some (x.onSessions fun now s => s.handleState now id)
  | .sessionAttribute id name, x => some (x.onSessions fun now s => s.getAttribute now id name)
  | .setSessionAttribute id name v, x => some (x.onSessions fun now s => s.setAttribute now id name v)
  | .removeSessionAttribute id name, x => some (x.onSessions fun now s => s.removeAttribute now id name)
  | .sessionAttributeNames id, x => some (x.onSessions fun now s => s.attributeNames now id)
  | .setSessionLimit id limit, x => some (x.onSessions fun now s => ((), s.setMaxInactive now id limit))
  | .invalidateSession id, x => some (x.onSessions fun _ s => s.invalidate id)

end Op

/-! ### Programs -/

/-- The two ways in which a program hands the exchange to another target and gets it back. -/
inductive Jump where
  | forward
  | inclusion
  deriving DecidableEq, Repr

/-- The code of a filter or servlet. -/
inductive Program where
  /-- The code has run. -/
  | done (result : Outcome)
  /-- A call, and how to go on with its answer. -/
  | call (op : Op) (k : op.Reply → Program)
  /-- A dispatch to a context-relative path, and how to go on with its result. -/
  | jump (j : Jump) (path : String) (k : Outcome → Program)
  /-- The number of filters that follow in the chain; none where there is no chain to continue. -/
  | remaining (k : Option Nat → Program)
  /-- Runs the rest of the chain, which can be done once; the answer is none where there is no chain. -/
  | proceed (k : Option Outcome → Program)

namespace Program

instance : Inhabited Program := ⟨.done (.ok ())⟩

/-- The code that does nothing. -/
def finish : Program := .done (.ok ())

/-- The code that fails. -/
def fail (e : ServletError) : Program := .done (.error e)

/-- A call whose answer does not matter. -/
def perform (op : Op) (k : Program) : Program := .call op fun _ => k

/-- Looks at the exchange. -/
def observe (k : Snapshot → Program) : Program := .call .observe k

/-- Leaves a note. -/
def note (n : Note) (k : Program) : Program := perform (.note n) k

/-- Appends to the body; a failure is handed on as that of the program. -/
def write (data : Bytes) (k : Outcome → Program) : Program :=
  .call (.write data) fun
    | .ok () => k (.ok ())
    | .error e => k (.error (.io e))

end Program

end ServletContainer
