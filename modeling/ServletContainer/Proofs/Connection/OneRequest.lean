import ServletContainer.Proofs.Connection.Admission
import ServletContainer.Proofs.Dispatch.Unread
import ServletContainer.Proofs.Http.HeadEnd

namespace ServletContainer

/-!
# One request a connection

What follows the head of a request is its body, if application code reads it, and nothing else. A second request
behind the first is never looked at.

* `Connection.exists_serve_of_head` — what is left behind a head does not count.
* `Connection.exists_serve_of_headEnd` — all that counts of an input are the bytes up to the place where reading its head
  stops.
* `Connection.one_request` — for every such place, and such places are all there are.
-/

namespace Connection

section Unread

variable {h : Host} (hl : h.LeavesInput) (settings : Settings) (peer : String) (secure : Bool) (sink : Sink)

include hl

/-- `serve` of a head that was read is the same whatever is left behind it, if the host `LeavesInput`. -/
theorem exists_serve_of_head (head : RequestHead) : ∃ outcome, ∀ source rest,
    readHead settings.lineLimit source = (.ok head, rest) → serve settings peer secure source sink h = outcome := by
  let x : Exchange := arrival h peer secure head ⟨[], .closed⟩ sink
  refine ⟨(h.serveExchange settings.limits settings.asyncTimeout x).map fun served =>
    ((teardown served.exchange.response).wire, h.settleExchange served), fun source rest hread => ?_⟩
  have hinput : arrival h peer secure head rest sink = x.withInput (some rest) := rfl
  rw [serve_of_head hread, hinput, hl.serveExchange, Option.map_map]
  rfl

/-- So it is behind every `HeadEnd`, where `readHead` stops, with a head or without one. -/
theorem exists_serve_of_headEnd {p : Bytes} (hp : HeadEnd settings.lineLimit p) :
    ∃ outcome, ∀ rest ending, serve settings peer secure ⟨p ++ rest, ending⟩ sink h = outcome := by
  obtain ⟨result, -, hread⟩ := exists_readHead_of_headEnd hp
  cases result with
  | error e => exact ⟨_, fun rest ending => serve_of_error (congrArg Prod.fst (hread rest ending))⟩
  | ok head =>
    obtain ⟨outcome, hserve⟩ := exists_serve_of_head hl settings peer secure sink head
    exact ⟨outcome, fun rest ending => hserve _ _ (hread rest ending)⟩

end Unread

/-- **One request.** Let the host be one that `LeavesInput`: application code leaves the bodies of requests unread. All
that counts of an input are the bytes up to its `HeadEnd`:

* there is one in an input unless `readHead` waits for more;
* `readHead` stops right behind it, whatever follows and however the input ends;
* what the peer gets, what runs, and what is left of the host, with its applications and their sessions, is the same
  whatever follows. -/
theorem one_request {h : Host} (hl : h.LeavesInput) (settings : Settings) :
    (∀ bs, (readHead settings.lineLimit ⟨bs, .silent⟩).1 = .error .stalled ↔
      ¬ ∃ p, HeadEnd settings.lineLimit p ∧ p <+: bs) ∧
    ∀ p, HeadEnd settings.lineLimit p →
      (∃ result, ∀ rest ending, readHead settings.lineLimit ⟨p ++ rest, ending⟩ = (result, ⟨rest, ending⟩)) ∧
      ∀ peer secure sink, ∃ outcome, ∀ rest ending,
        serve settings peer secure ⟨p ++ rest, ending⟩ sink h = outcome := by
  refine ⟨readHead_eq_stalled_iff settings.lineLimit, fun p hp => ⟨?_, fun peer secure sink => ?_⟩⟩
  · obtain ⟨result, -, hread⟩ := exists_readHead_of_headEnd hp
    exact ⟨result, hread⟩
  · exact exists_serve_of_headEnd hl settings peer secure sink hp

/-! ### Two requests to the reading room -/

namespace Room

/-- The desk of the room writes, and reads nothing. -/
theorem leavesInput_host : host.LeavesInput := by
  intro id d hd
  rw [(deployment_host hd).1]
  refine ⟨⟨fun s hs => ?_, nofun⟩, fun g hg => ?_⟩
  · obtain rfl := List.mem_singleton.1 hs
    refine ⟨nofun, fun reply => ?_⟩
    rcases reply with _ | _ <;> exact trivial
  · obtain rfl := Option.some.inj hg
    exact guard.leavesInput_guard

/-- The bytes of a request to the `desk`. -/
def deskBytes : Bytes := Text.Utf8.encode "GET /room/desk HTTP/1.0\r\n\r\n"

/-- The head of the request to the desk ends with its empty line. -/
theorem headEnd_deskBytes : HeadEnd settings.lineLimit deskBytes := by
  have hline : FitsLine settings.lineLimit (Text.Utf8.encode "GET /room/desk HTTP/1.0\r") :=
    ⟨by decide +kernel, by decide +kernel⟩
  have hproper : requestLine? (textOf (Text.Utf8.encode "GET /room/desk HTTP/1.0\r")) ≠ none := by decide +kernel
  have hblank : FieldsEnd settings.lineLimit ([13] ++ [10]) := .blank ⟨by decide, by decide⟩ rfl
  have hbytes : deskBytes = Text.Utf8.encode "GET /room/desk HTTP/1.0\r" ++ 10 :: ([13] ++ [10]) := by decide +kernel
  rw [hbytes]
  exact .fields hline hproper hblank

/-- The desk is served once, and a request for the staff behind the first one does not count. -/
theorem one_request_room :
    host.LeavesInput ∧ HeadEnd settings.lineLimit deskBytes ∧
    serve settings "here" false ⟨deskBytes ++ Text.Utf8.encode "GET /room/staff HTTP/1.0\r\n\r\n", .closed⟩
        (.fresh .unlimited false) host
      = serve settings "here" false (sent "GET /room/desk HTTP/1.0\r\n\r\n") (.fresh .unlimited false) host ∧
    (serve settings "here" false (sent "GET /room/desk HTTP/1.0\r\n\r\n") (.fresh .unlimited false) host).map
      (fun p => p.2.journal.length) = some 3 := by
  refine ⟨leavesInput_host, headEnd_deskBytes, ?_, by decide +kernel⟩
  obtain ⟨outcome, hserve⟩ := ((one_request leavesInput_host settings).2 deskBytes headEnd_deskBytes).2 "here" false
    (.fresh .unlimited false)
  have hsent : sent "GET /room/desk HTTP/1.0\r\n\r\n" = ⟨deskBytes ++ [], .closed⟩ := by
    rw [List.append_nil]
    rfl
  rw [hsent, hserve, hserve]

end Room

end Connection

end ServletContainer
