import ServletContainer.Failure
import ServletContainer.Http.Headers
import ServletContainer.Http.RequestHead
import ServletContainer.Http.Status

namespace ServletContainer

/-!
# Responses

A response keeps its head and body until they are flushed to the peer. The head can change until it is
complete, and not while an include holds the lock; what has been flushed is committed.

* `Sink` — the peer's end: the bytes that reached it, and which writes it breaks off.
* `Response` — status, header fields, pending head and pending body.
* `Response.writeHeaders`, `Response.write`, `Response.flush`, `Response.resetBuffer`, `Response.close` — the
  operations that move it through `new`, `headersWritten`, `committed` and `closed`.
-/

/-! ### The peer -/

/-- Which writes break off: given the number of writes before, the bytes received so far and the size of the
next write, the number of bytes that still get through before it fails, or none if it succeeds. -/
abbrev WritePolicy := (attempt received size : Nat) → Option Nat

/-- Every write succeeds. -/
def WritePolicy.unlimited : WritePolicy := fun _ _ _ => none

/-- The peer takes `n` bytes in all. -/
def WritePolicy.capacity (n : Nat) : WritePolicy := fun _ received size =>
  if received + size ≤ n then none else some (n - received)

/-- The peer's end of a response. -/
structure Sink where
  policy : WritePolicy
  failsShutdown : Bool
  received : Bytes
  attempts : Nat
  isShutdown : Bool

namespace Sink

/-- A peer that has received nothing yet. -/
def fresh (policy : WritePolicy) (failsShutdown : Bool) : Sink := ⟨policy, failsShutdown, [], 0, false⟩

/-- Sends bytes; sending none does nothing. -/
def write (data : Bytes) (s : Sink) : Except IoError Unit × Sink :=
  if data.isEmpty then (.ok (), s)
  else match s.policy s.attempts s.received.length data.length with
    | none => (.ok (), { s with received := s.received ++ data, attempts := s.attempts + 1 })
    | some n =>
      (.error .sinkFailed, { s with received := s.received ++ data.take n, attempts := s.attempts + 1 })

/-- Tells the peer that nothing follows. -/
def shutdown (s : Sink) : Except IoError Unit × Sink :=
  if s.failsShutdown then (.error .shutdownFailed, s) else (.ok (), { s with isShutdown := true })

end Sink

/-! ### States -/

/-- How far a response has come. -/
inductive ResponseState where
  /-- Status and header fields may still change. -/
  | new
  /-- The head is complete. -/
  | headersWritten
  /-- The head and what was written so far have been sent. -/
  | committed
  /-- Nothing more can be written. -/
  | closed
  deriving DecidableEq, Repr

/-- The name of a state. -/
def ResponseState.label : ResponseState → String
  | .new => "New"
  | .headersWritten => "HeadersWritten"
  | .committed => "Committed"
  | .closed => "Closed"

/-- A response on its way to a peer, or to none. -/
structure Response where
  protocol : String
  status : Nat
  reason : Option String
  headers : Headers
  state : ResponseState
  /-- The part of the head that is written but not sent. -/
  head : Bytes
  /-- The part of the body that is written but not sent. -/
  body : Bytes
  /-- The size of the body written since the last reset. -/
  bodyWritten : Nat
  sink : Option Sink
  /-- Whether an include is running. -/
  locked : Bool

namespace Response

/-- A response with nowhere to send to; a word that is no protocol is replaced by `HTTP/1.1`. -/
def detached (protocol : String) : Response where
  protocol := if Text.startsWith "HTTP/" protocol then protocol else "HTTP/1.1"
  status := StatusCode.ok.code
  reason := none
  headers := .empty
  state := .new
  head := []
  body := []
  bodyWritten := 0
  sink := none
  locked := false

/-- A response to a peer. -/
def connected (protocol : String) (sink : Sink) : Response := { detached protocol with sink := some sink }

instance : Inhabited Response := ⟨detached ""⟩

/-- Whether the response can no longer be started over. -/
def isCommitted (r : Response) : Bool := r.state = .committed || r.state = .closed

/-- Whether status and header fields may change. -/
def headIsMutable (r : Response) : Bool := r.state = .new && !r.locked

/-! ### The head -/

/-- Sets the status, with the reason phrase that belongs to it. -/
def setStatus (r : Response) (code : Nat) : Response :=
  if r.headIsMutable then { r with status := code, reason := none } else r

/-- Sets the status and a reason phrase. -/
def setStatusWithReason (r : Response) (code : Nat) (reason : String) : Response :=
  if r.headIsMutable then { r with status := code, reason := some reason } else r

/-- Adds a header field. -/
def addHeader (r : Response) (name value : String) : Response :=
  if r.headIsMutable then { r with headers := r.headers.append name value } else r

/-- Replaces the header fields of a name by one. -/
def setHeader (r : Response) (name value : String) : Response :=
  if r.headIsMutable then { r with headers := r.headers.set name value } else r

/-- The reason phrase: the one that was set, or else the one that belongs to the status. -/
def reasonPhrase? (r : Response) : Option String :=
  match r.reason with
  | some phrase => some phrase
  | none => (StatusCode.ofCode? r.status).map StatusCode.reason

/-- The status line. -/
def statusLine (r : Response) : String :=
  match r.reasonPhrase? with
  | some phrase => r.protocol ++ " " ++ toString r.status ++ " " ++ phrase ++ "\r\n"
  | none => r.protocol ++ " " ++ toString r.status ++ "\r\n"

/-- Writes the status line, if nothing of the head is written yet. -/
def writeStatusLine (r : Response) : Response :=
  if r.state = .new ∧ r.head = [] then { r with head := Text.Utf8.encode r.statusLine } else r

/-- The header fields as they are sent: the connection is closed after the response unless they say otherwise. -/
def sentHeaders (h : Headers) : Headers :=
  if h.contains "connection" then h else h.append "Connection" "close"

/-- Completes the head. -/
def writeHeaders (r : Response) : Response :=
  if r.state = .new then
    let r := r.writeStatusLine
    let headers := sentHeaders r.headers
    { r with
      headers := headers
      head := r.head ++ Text.Utf8.encode (headers.text ++ "\r\n")
      state := .headersWritten }
  else r

/-! ### The body -/

/-- Appends to the body, the head being completed first. -/
def write (r : Response) (data : Bytes) : Except IoError Unit × Response :=
  if r.state = .closed then (.error .responseClosed, r)
  else
    let r := r.writeHeaders
    (.ok (), { r with body := r.body ++ data, bodyWritten := r.bodyWritten + data.length })

/-- Appends text to the body. -/
def writeText (r : Response) (text : String) : Except IoError Unit × Response :=
  r.write (Text.Utf8.encode text)

/-- Discards what is written but not sent, so that the response starts over with the status and header fields
set so far. Within an include nothing is discarded. -/
def resetBuffer (r : Response) : Except ServletError Unit × Response :=
  if r.isCommitted then (.error .committed, r)
  else if r.locked then (.ok (), r)
  else (.ok (), { r with head := [], body := [], bodyWritten := 0, state := .new })

/-! ### Sending -/

/-- Sends the pending head, then the pending body; what a failed write leaves is kept. -/
def send (r : Response) (sink : Sink) : Except IoError Unit × Response :=
  match sink.write r.head with
  | (.error e, sink) => (.error e, { r with sink := some sink })
  | (.ok (), sink) =>
    match sink.write r.body with
    | (.error e, sink) => (.error e, { r with sink := some sink })
    | (.ok (), sink) => (.ok (), { r with sink := some sink, head := [], body := [], state := .committed })

/-- Sends what is pending. A detached response keeps it. -/
def flush (r : Response) : Except IoError Unit × Response :=
  if r.state = .closed then (.ok (), r)
  else
    let r := r.writeHeaders
    match r.sink with
    | none => (.ok (), r)
    | some sink => r.send sink

/-- Commits the response and sends bytes to the peer directly. -/
def stream (r : Response) (data : Bytes) : Except IoError Unit × Response :=
  match r.flush with
  | (.error e, r) => (.error e, r)
  | (.ok (), r) =>
    match r.sink with
    | none => (.error .noOpenStream, r)
    | some sink =>
      if r.state = .committed then
        let (result, sink) := sink.write data
        (result, { r with sink := some sink })
      else (.error .noOpenStream, r)

/-- Shuts the peer's end down. -/
def shutdownSink (r : Response) : Except IoError Unit × Response :=
  match r.sink with
  | none => (.ok (), r)
  | some sink =>
    let (result, sink) := sink.shutdown
    (result, { r with sink := some sink })

/-- Sends what is pending and closes the response, also where sending fails; of two failures the first counts. -/
def close (r : Response) : Except IoError Unit × Response :=
  if r.state = .closed then (.ok (), r)
  else
    let (flushed, r) := r.flush
    let (shut, r) := r.shutdownSink
    (match flushed with
      | .ok () => shut
      | .error e => .error e, { r with state := .closed })

/-- Locks or unlocks the head. -/
def setLocked (r : Response) (locked : Bool) : Response := { r with locked := locked }

/-- The bytes that reached the peer. -/
def wire (r : Response) : Bytes :=
  match r.sink with
  | none => []
  | some sink => sink.received

/-- Whether the peer was told that nothing follows. -/
def isShutdown (r : Response) : Bool :=
  match r.sink with
  | none => false
  | some sink => sink.isShutdown

/-- The container's own answer to a failure: a line of text with the status and its reason phrase. -/
def writeDefaultError (r : Response) (status : Nat) : Response :=
  let reason := match StatusCode.ofCode? status with
    | some s => s.reason
    | none => "Error"
  let r := (r.setStatus status).setHeader "Content-Type" "text/plain; charset=utf-8"
  (r.writeText (toString status ++ " " ++ reason)).2

end Response

end ServletContainer
