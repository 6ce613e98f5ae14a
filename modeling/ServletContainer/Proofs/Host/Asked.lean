import ServletContainer.Proofs.Dispatch.Origin
import ServletContainer.Proofs.Host.Routed
import ServletContainer.Proofs.Session.Asked

namespace ServletContainer

/-!
# What an application gets of a request

A host reads off a request which session the client asks for, and takes the parameters off its path. The rest of the
request reaches the application as it came.

* `Request.IsFresh` — a request as it comes from its head.
* `Host.HandsTo` — the requests that an application gets.
* `Host.asks_of_handsTo` — the session that is asked for, the path that the application sees, and what stays.
-/

/-! ### Fresh requests -/

/-- Whether `r` is as it comes from its head: path and query are those of its target, and no session has been asked for
yet. -/
structure Request.IsFresh (r : Request) : Prop where
  target : IsTarget r.head.target r.uri r.query
  requestedSession : r.requestedSession = none

/-- A request `ofHead` `IsFresh`. -/
theorem Request.isFresh_ofHead (head : RequestHead) : (ofHead head).IsFresh := ⟨splitTarget_eq_iff.1 rfl, rfl⟩

theorem Request.IsFresh.fromPeer {r : Request} (h : r.IsFresh) (peer : String) (secure : Bool) :
    (r.fromPeer peer secure).IsFresh := ⟨h.target, h.requestedSession⟩

theorem IsTarget.path_eq {target path path' : String} {query query' : Option String} (h : IsTarget target path query)
    (h' : IsTarget target path' query') : path = path' :=
  (Prod.mk.inj ((splitTarget_eq_iff.2 h).symm.trans (splitTarget_eq_iff.2 h'))).1

namespace Host

variable {h : Host} {x : Exchange} {id : AppId} {d : Deployment}

/-! ### Requests that an application gets -/

/-- Whether the request of `x` goes to the application `id`: it has a method, and its path without parameters belongs to
`d`, which is in service. -/
structure HandsTo (h : Host) (x : Exchange) (id : AppId) (d : Deployment) : Prop where
  method : x.request.head.method ≠ none
  find : h.find? (stripPathParameters x.request.uri).1 = some id
  deployment : h.deployment? id = some d
  available : d.isAvailable = true

/-- A request that the host `HandsTo` an application is served by `serveWithin` of what its deployment `receive`s. -/
theorem HandsTo.serveExchange_eq (hto : h.HandsTo x id d) (limits : Limits) (timeout : Nat) :
    h.serveExchange limits timeout x = (serveWithin limits timeout d.app (d.receive x)).map fun y => ⟨some id, y⟩ :=
  serveExchange_of_available hto.method hto.find hto.deployment hto.available

/-- What the deployment `receive`s asks for the session that the cookies and the last segment ask for, under
`sessionConfig` of the application. -/
theorem requestedSession_receive {last : String} (hlast : IsLastSegment x.request.uri last) :
    (d.receive x).request.requestedSession = requestedSession? d.app.sessionConfig x.request.head.headers
      ((Text.pieces ';' last).tail.filterMap parameter?) := by
  rw [← hlast.parameters_eq]
  rfl

/-- The whole chain in front of the servlet that a request is brought to sees its path without parameters, and its
query. -/
theorem Brings.uri_query_of_leadsTo {place : Place} {y : Exchange} (hb : h.Brings x id d place y)
    (hguards : h.GuardsByCalls) {depth : Nat} {servlet : Servlet} {i : Invocation}
    (hi : Invocation.LeadsTo d.app (Invocation.first d.app place depth servlet y) i) (hplace : i.place = place) :
    i.exchange.request.uri = (d.receive x).request.uri ∧ i.exchange.request.query = x.request.query := by
  obtain ⟨z, hallows, htop⟩ := hb.dispatched
  -- The guard has let the request pass, and its calls change no paths.
  have hguard := hallows.samePaths fun guard hsome => hguards hb.deployment hsome
  have hkind := hb.kind
  cases htop with
  | request ht =>
    have hchain := Invocation.samePaths_of_leadsTo hi hplace
    exact ⟨hchain.uri.trans hguard.uri, hchain.query.trans hguard.query⟩
  | async | error => cases hkind

/-- **The session that is asked for.** Take any request that `IsFresh`, and the application that the host `HandsTo` it.
Its target is a path and a query, and the path has a `last` segment:

* the application is served with a request whose `requestedSession` is what the cookies and the parameters of this
  segment ask for (`Asks`), under the settings of this application;
* the path that the application sees has the segments of the path, each up to its first semicolon; the head of the
  request, with its target, and the query stay;
* any other request with the same header fields and the same last segment asks for the same session, whatever the other
  segments and the query;
* where `GuardsByCalls` holds, the components in front of the servlet, and the servlet, see this path and this query;
  whatever runs for the request sees its target, and the session that is asked for (`ShowsOriginOf`). -/
theorem asks_of_handsTo (hfresh : x.request.IsFresh) (hto : h.HandsTo x id d) :
    ∃ path last, IsTarget x.request.head.target path x.request.query ∧ IsLastSegment path last ∧
      (∀ limits timeout, h.serveExchange limits timeout x
        = (serveWithin limits timeout d.app (d.receive x)).map fun y => ⟨some id, y⟩) ∧
      (∀ asked, (d.receive x).request.requestedSession = asked ↔
        Asks d.app.sessionConfig (cookiePieces x.request.head.headers) (Text.pieces ';' last).tail asked) ∧
      List.Forall₂ IsCutOf (Text.pieces '/' path) (Text.pieces '/' (d.receive x).request.uri) ∧
      (d.receive x).request.head = x.request.head ∧ (d.receive x).request.query = x.request.query ∧
      (∀ x' path' query', x'.request.IsFresh → x'.request.head.headers = x.request.head.headers →
        IsTarget x'.request.head.target path' query' → IsLastSegment path' last →
        (d.receive x').request.requestedSession = (d.receive x).request.requestedSession) ∧
      (h.GuardsByCalls →
        (∀ place y, h.Brings x id d place y → ∀ depth servlet i,
          Invocation.LeadsTo d.app (Invocation.first d.app place depth servlet y) i → i.place = place →
          i.exchange.request.uri = (d.receive x).request.uri ∧ i.exchange.request.query = x.request.query) ∧
        ∀ limits timeout served, h.serveExchange limits timeout x = some served →
          SameOrigin (d.receive x) served.exchange ∧
            Tells (fun _ view => view.ShowsOriginOf (d.receive x)) (d.receive x) served.exchange) := by
  obtain ⟨last, hlast⟩ := IsLastSegment.exists_last x.request.uri
  have hasked := requestedSession_receive (d := d) hlast
  refine ⟨x.request.uri, last, hfresh.target, hlast, hto.serveExchange_eq, fun asked => ?_, forall₂_isCutOf _, rfl, rfl,
    ?_, fun hguards => ⟨?_, ?_⟩⟩
  · rw [hasked]
    exact asks_iff.symm
  · -- Only the last segment of the other path and the header fields were read.
    intro x' path' query' hfresh' hheaders htarget' hlast'
    rw [← hfresh'.target.path_eq htarget'] at hlast'
    rw [requestedSession_receive hlast', hheaders, hasked]
  · exact fun place y hb depth servlet i hi hplace => hb.uri_query_of_leadsTo hguards hi hplace
  · intro limits timeout served hserved
    rw [hto.serveExchange_eq] at hserved
    obtain ⟨y, hy, rfl⟩ := Option.map_eq_some_iff.1 hserved
    exact showsOrigin_serveWithin (fun guard hsome => hguards hto.deployment hsome) hy

namespace Market

/-- A request with parameters in all segments and in the query, of which some have the configured name. -/
def asking (headers : Headers) : Exchange :=
  .start ((Request.ofHead
    { method := some .get
      target := "/market;jsessionid=A/goods;jsessionid=B/apples;;x=1;jsessionid=C=1;jsessionid=D?jsessionid=E"
      protocol := "HTTP/1.1"
      headers := headers }).fromPeer "10.0.0.1" true) none (.detached "HTTP/1.1") 0 []

/-- Cookies with other names than the configured one, and a field that is no cookie. -/
def strange : Headers := ⟨[⟨"Cookie", "JSESSIONID2=1; JSESSIONID;x=JSESSIONID=2"⟩, ⟨"Host", "JSESSIONID=3"⟩]⟩

/-- Without the cookie the first parameter of the last segment counts, to the end of the request, and with it the cookie
does. -/
theorem asks_of_handsTo_asking :
    (∃ path last, IsTarget (asking strange).request.head.target path (some "jsessionid=E") ∧ IsLastSegment path last ∧
      Asks app.sessionConfig (cookiePieces strange) (Text.pieces ';' last).tail (some ("C=1", .url)) ∧
      Text.pieces '/' (shop.receive (asking strange)).request.uri = ["", "market", "goods", "apples"] ∧
      ∀ limits timeout served, host.serveExchange limits timeout (asking strange) = some served →
        served.exchange.request.requestedSession = some ("C=1", .url)) ∧
    ∃ path last, IsLastSegment path last ∧
      Asks app.sessionConfig (cookiePieces (strange.append "COOKIE" "y=1; JSESSIONID= \"K\" ; JSESSIONID=L"))
        (Text.pieces ';' last).tail (some ("K", .cookie)) := by
  have hasks : ∀ headers, host.HandsTo (asking headers) 0 shop → _ := fun headers hto =>
    asks_of_handsTo (Request.IsFresh.fromPeer (Request.isFresh_ofHead _) _ _) hto
  constructor
  · obtain ⟨path, last, htarget, hlast, -, hiff, -, -, -, -, hseen⟩ := hasks strange
      ⟨by decide +kernel, by decide +kernel, rfl, by decide +kernel⟩
    have hquery : (asking strange).request.query = some "jsessionid=E" := by decide +kernel
    rw [hquery] at htarget
    have hasked : (shop.receive (asking strange)).request.requestedSession = some ("C=1", .url) := by decide +kernel
    refine ⟨path, last, htarget, hlast, (hiff _).1 hasked, by decide +kernel, fun limits timeout served hserved => ?_⟩
    exact ((hseen guardsByCalls_host).2 limits timeout served hserved).1.requested.trans hasked
  · obtain ⟨path, last, -, hlast, -, hiff, -⟩ := hasks (strange.append "COOKIE" "y=1; JSESSIONID= \"K\" ; JSESSIONID=L")
      ⟨by decide +kernel, by decide +kernel, rfl, by decide +kernel⟩
    exact ⟨path, last, hlast, (hiff _).1 (by decide +kernel)⟩

end Market

end Host

end ServletContainer
