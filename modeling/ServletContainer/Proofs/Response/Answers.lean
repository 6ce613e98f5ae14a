import ServletContainer.Connection
import ServletContainer.Proofs.Dispatch.Fallback
import ServletContainer.Proofs.Http.Folding
import ServletContainer.Proofs.Response.Delivery

namespace ServletContainer

/-!
# What the container answers by itself

The bytes of the answers that a connection gets without an application having a part in them.

* `Connection.bareAnswer` — a head alone.
* `Connection.errorAnswer` — a line of text, with a challenge in front of its type if there is one.
* `Connection.wire_bare`, `Connection.wire_deny` — such an answer is what a peer receives that takes
  everything.
-/

namespace Response

variable {r : Response} {s : Sink}

/-! ### Heads -/

/-- A response keeps a protocol that begins with `HTTP/`. -/
theorem protocol_detached {protocol : String} (h : Text.startsWith "HTTP/" protocol = true) :
    (detached protocol).protocol = protocol := if_pos h

/-- While nothing of the head is written (`hn`, `hhead`) and the reason is the standard one (`hreason`, `hstatus`),
`writeHeaders` leaves the whole head pending. -/
theorem writeHeaders_spec (hn : r.state = .new) (hhead : r.head = []) (hreason : r.reason = none)
    {status : StatusCode} (hstatus : r.status = status.code) :
    r.writeHeaders.sink = r.sink ∧ r.writeHeaders.state = .headersWritten ∧ r.writeHeaders.body = r.body ∧
      r.writeHeaders.head = Text.Utf8.encode
        (r.protocol ++ " " ++ status.display ++ "\r\n" ++ ((sentHeaders r.headers).text ++ "\r\n")) := by
  have hline : r.statusLine = r.protocol ++ " " ++ status.display ++ "\r\n" := by
    simp [statusLine, reasonPhrase?, hreason, hstatus, StatusCode.ofCode?_code, StatusCode.display,
      String.append_assoc]
  have hwritten : r.writeStatusLine = { r with head := Text.Utf8.encode r.statusLine } := by
    simp [writeStatusLine, hn, hhead]
  rw [writeHeaders_of_new hn, hwritten, hline]
  exact ⟨rfl, rfl, rfl, (Text.Utf8.encode_append _ _).symm⟩

/-- What `writeDefaultError` leaves pending on a response that is new (`hn`, `hhead`) and not locked (`hl`): the head
with the type of the text, and the text behind what the body was. -/
theorem writeDefaultError_spec (hn : r.state = .new) (hl : r.locked = false) (hhead : r.head = []) (status : StatusCode) :
    (r.writeDefaultError status.code).sink = r.sink ∧ (r.writeDefaultError status.code).state = .headersWritten ∧
      (r.writeDefaultError status.code).body = r.body ++ Text.Utf8.encode status.display ∧
      (r.writeDefaultError status.code).head = Text.Utf8.encode (r.protocol ++ " " ++ status.display ++ "\r\n"
        ++ ((sentHeaders (r.headers.set "Content-Type" defaultErrorType)).text ++ "\r\n")) := by
  -- In the state `new`, `setStatus` and `setHeader` take effect; `write` then completes the head.
  have hset : (r.setStatus status.code).setHeader "Content-Type" defaultErrorType
      = { r with
          status := status.code, reason := none, headers := r.headers.set "Content-Type" defaultErrorType } := by
    simp [setStatus, setHeader, headIsMutable, hn, hl]
  have hwrite : r.writeDefaultError status.code
      = (((r.setStatus status.code).setHeader "Content-Type" defaultErrorType).write
          (Text.Utf8.encode status.display)).2 := by
    simp [writeDefaultError, writeText, StatusCode.ofCode?_code, StatusCode.display, defaultErrorType]
  have hspec := writeHeaders_spec (r := { r with
    status := status.code, reason := none, headers := r.headers.set "Content-Type" defaultErrorType }) hn hhead rfl rfl
  obtain ⟨hsink, hstate, hbody, hhead⟩ := hspec
  rw [hwrite, hset, write, if_neg (by simp [hn])]
  exact ⟨hsink, hstate, congrArg (· ++ Text.Utf8.encode status.display) hbody, hhead⟩

/-! ### Sending -/

/-- Behind `writeHeaders`, a flush only sends. -/
theorem flush_of_headersWritten (hs : r.sink = some s) (hstate : r.state = .headersWritten) : r.flush = r.send s := by
  have hsame : r.writeHeaders = r := writeHeaders_of_ne_new (by simp [hstate])
  simp [flush, hstate, hsame, hs]

/-- Where nothing is pending (`hhead`, `hbody`), `close` sends nothing. -/
theorem wire_close_of_committed (hs : r.sink = some s) (hstate : r.state = .committed) (hhead : r.head = [])
    (hbody : r.body = []) : r.close.2.wire = r.wire := by
  have hsame : r.writeHeaders = r := writeHeaders_of_ne_new (by simp [hstate])
  -- To `flush` is to `send` an empty piece.
  have hsend : r.send s = (.ok (), { r with sink := some s, head := [], body := [], state := .committed }) := by
    simp [send, Sink.write, hhead, hbody]
  have hflush : r.flush.2.wire = r.wire := by simp [flush, hstate, hsame, hs, hsend, wire]
  have hclose : r.close.2 = { r.flush.2.shutdownSink.2 with state := .closed } := by simp [close, hstate]
  rw [hclose]
  exact (wire_shutdownSink _).trans hflush

end Response

/-! ### Answers -/

namespace Connection

open Response

/-- `teardown` sends what is complete to a peer that takes everything (`hopen`), behind what was sent to it before. -/
theorem wire_teardown {r : Response} (hopen : r.HasOpenSink) (hstate : r.state = .headersWritten) :
    (teardown r).wire = r.wire ++ r.head ++ r.body := by
  obtain ⟨s, hs, hpolicy⟩ := hopen
  obtain ⟨s', hsend, -, hreceived⟩ := exists_send_eq (r := r) hpolicy
  have hflush : r.flush.2 = { r with sink := some s', head := [], body := [], state := .committed } := by
    rw [flush_of_headersWritten hs hstate, hsend]
  have hwire : r.wire = s.received := by rw [wire, hs]
  rw [teardown, hflush, hwire]
  exact (wire_close_of_committed rfl rfl rfl rfl).trans hreceived

/-- So it is all that a new peer (`hs`) receives. -/
theorem wire_teardown_of_fresh {r : Response} {failsShutdown : Bool}
    (hs : r.sink = some (.fresh .unlimited failsShutdown)) (hstate : r.state = .headersWritten) :
    (teardown r).wire = r.head ++ r.body := by
  rw [wire_teardown ⟨_, hs, rfl⟩ hstate, wire, hs]
  rfl

/-- The bytes of a head alone, with `status`. -/
def bareAnswer (status : StatusCode) : Bytes :=
  Text.Utf8.encode ("HTTP/1.1 " ++ status.display ++ "\r\nConnection: close\r\n\r\n")

/-- The bytes of a line of text that tells `status`, with a `challenge` if there is one. -/
def errorAnswer (protocol : String) (status : StatusCode) (challenge : Option String) : Bytes :=
  Text.Utf8.encode (protocol ++ " " ++ status.display ++ "\r\n"
    ++ (challenge.map fun c => "WWW-Authenticate: " ++ c ++ "\r\n").getD ""
    ++ "Content-Type: text/plain; charset=utf-8\r\nConnection: close\r\n\r\n" ++ status.display)

/-- `teardown` of a `bare` response sends `bareAnswer`. -/
theorem wire_bare (status : StatusCode) (failsShutdown : Bool) :
    (teardown (bare status (.fresh .unlimited failsShutdown))).wire = bareAnswer status := by
  have htext : (sentHeaders Headers.empty).text = "Connection: close\r\n" := by decide
  obtain ⟨hsink, hstate, hbody, hhead⟩ := writeHeaders_spec
    (r := (Response.connected "HTTP/1.1" (.fresh .unlimited failsShutdown)).setStatus status.code) rfl rfl rfl rfl
  rw [bare, wire_teardown_of_fresh hsink hstate, hhead, hbody]
  show Text.Utf8.encode ((detached "HTTP/1.1").protocol ++ _ ++ _ ++ _ ++ ((sentHeaders Headers.empty).text ++ _)) ++ [] = _
  rw [htext, protocol_detached (by decide), List.append_nil, bareAnswer]
  simp [String.append_assoc]

example : bareAnswer .badRequest
    = Text.Utf8.encode "HTTP/1.1 400 Bad Request\r\nConnection: close\r\n\r\n" := by decide

/-- The fields of an answer that may have a `challenge`. -/
def challengeFields (challenge : Option String) : Headers :=
  (challenge.map fun c => Headers.empty.set "WWW-Authenticate" c).getD .empty

/-- In the block that `writeDefaultError` writes behind a challenge, the type of the text comes second and `Connection`
last. -/
theorem text_challengeFields (challenge : Option String) :
    (sentHeaders ((challengeFields challenge).set "Content-Type" defaultErrorType)).text
      = (challenge.map fun c => "WWW-Authenticate: " ++ c ++ "\r\n").getD ""
        ++ "Content-Type: text/plain; charset=utf-8\r\nConnection: close\r\n" := by
  cases challenge with
  | none => decide
  | some c =>
    -- The three names are fixed and differ; only the value `c` of the first one varies.
    have hfields : sentHeaders ((Headers.empty.set "WWW-Authenticate" c).set "Content-Type" defaultErrorType)
        = ⟨[⟨"WWW-Authenticate", c⟩, ⟨"Content-Type", defaultErrorType⟩, ⟨"Connection", "close"⟩]⟩ := by
      have h : sameName "WWW-Authenticate" "Content-Type" = false := by decide
      have h' : sameName "WWW-Authenticate" "connection" = false := by decide
      have h'' : sameName "Content-Type" "connection" = false := by decide
      simp [sentHeaders, Headers.set, Headers.remove, Headers.append, Headers.empty, Headers.contains, h, h', h'']
    have hnames : ["WWW-Authenticate", "Content-Type", "Connection"].Pairwise fun m n => sameName m n = false := by
      decide
    have htext := Headers.text_of_pairwise
      (l := [⟨"WWW-Authenticate", c⟩, ⟨"Content-Type", defaultErrorType⟩, ⟨"Connection", "close"⟩]) hnames
    have hcolon (t : String) : "WWW-Authenticate" ++ (": " ++ t) = "WWW-Authenticate: " ++ t :=
      (String.append_assoc ..).symm
    show (sentHeaders ((Headers.empty.set "WWW-Authenticate" c).set "Content-Type" defaultErrorType)).text = _
    rw [hfields, htext, Option.map_some, Option.getD_some]
    simp [String.join, Headers.line, defaultErrorType, String.append_assoc, hcolon]

/-- `deny` on a new response (`hx`) sends `errorAnswer`, and nothing else. -/
theorem wire_deny {protocol : String} (hprotocol : Text.startsWith "HTTP/" protocol = true) {failsShutdown : Bool}
    {x : Exchange} (hx : x.response = connected protocol (.fresh .unlimited failsShutdown)) (status : StatusCode)
    (challenge : Option String) :
    (teardown (deny status.code challenge x).response).wire = errorAnswer protocol status challenge := by
  let r : Response :=
    { connected protocol (.fresh .unlimited failsShutdown) with headers := challengeFields challenge }
  have hr : (deny status.code challenge x).response = r.writeDefaultError status.code := by
    unfold deny Exchange.mapResponse
    rw [hx]
    cases challenge <;> rfl
  -- The challenge is set first, then `writeDefaultError` has a new response still.
  obtain ⟨hsink, hstate, hbody, hhead⟩ := writeDefaultError_spec (r := r) rfl rfl rfl status
  rw [hr, wire_teardown_of_fresh hsink hstate, hhead, hbody]
  show Text.Utf8.encode ((detached protocol).protocol ++ _ ++ _ ++ _ ++ ((sentHeaders _).text ++ _)) ++ ([] ++ _) = _
  rw [text_challengeFields, protocol_detached hprotocol, List.nil_append, ← Text.Utf8.encode_append, errorAnswer]
  simp [String.append_assoc]

end Connection

end ServletContainer
