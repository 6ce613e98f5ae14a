import ServletContainer.Host

namespace ServletContainer

/-!
# Connections

A connection carries one request and one response; then it is closed.

* `Connection.serve` — the bytes that a peer gets for the bytes it sends.
-/

namespace Connection

/-- What a connection needs to know of the server. -/
structure Settings where
  lineLimit : Nat
  asyncTimeout : Nat
  limits : Limits
  deriving DecidableEq, Repr

/-- The status that answers a head that could not be read; none where nothing is answered. -/
def statusOf? : HeadError → Option StatusCode
  | .lineTooLong _ => some .requestHeaderFieldsTooLarge
  | .invalidHeader _ => some .badRequest
  | .stalled => some .requestTimeout
  | .io _ => none

/-- A response of a head alone. -/
def bare (status : StatusCode) (sink : Sink) : Response :=
  ((Response.connected "HTTP/1.1" sink).setStatus status.code).writeHeaders

/-- Sends what is pending and closes. -/
def teardown (r : Response) : Response := r.flush.2.close.2

/-- Serves a connection; gives what the peer received. -/
def serve (settings : Settings) (peer : String) (secure : Bool) (source : Source) (sink : Sink) (h : Host) :
    Option (Bytes × Host) :=
  match readHead settings.lineLimit source with
  | (.error e, _) =>
    match statusOf? e with
    | none => some ([], h)
    | some status => some ((teardown (bare status sink)).wire, h)
  | (.ok head, rest) =>
    (h.serve settings.limits settings.asyncTimeout ((Request.ofHead head).fromPeer peer secure) (some rest)
      (Response.connected head.protocol sink)).map fun (served, h) =>
        ((teardown served.exchange.response).wire, h)

end Connection

end ServletContainer
