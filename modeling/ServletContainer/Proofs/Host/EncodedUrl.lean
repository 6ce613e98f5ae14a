import ServletContainer.Proofs.Exchange.SessionUrl
import ServletContainer.Proofs.Host.Issued

namespace ServletContainer

/-!
# Coming back by a URL

An application puts the id of a session into a URL, and a client without cookies comes back with it. It is brought to
the application again, where it asks for that session, unless the URL had carried the parameter before.

* `Deployment.KeepsSessions` — the sessions of an application are set up as it says, under ids that can stand in a path.
* `Host.keepsSessions_of_issues` — so they are in every host that comes about.
* `Host.BringsUrl`, `Host.AsksFor` — a request for a URL, and the session that it asks for.
* `Host.asksFor_of_encodeUrl` — the session that a request for an encoded URL asks for.
-/

theorem IsHexText.avoids {id : SessionId} (h : IsHexText id) : Avoids [';', '/', '?', '#'] id := by
  have hall : ∀ c ∈ "0123456789ABCDEF".toList, c ∉ [';', '/', '?', '#'] := by simp
  exact fun c hc => hall c (h c hc)

/-! ### The sessions of an application -/

/-- Whether the sessions of `d` are set up as `d.app` says, and under ids that are hexadecimal texts. -/
structure Deployment.KeepsSessions (d : Deployment) : Prop where
  config : d.sessions.config = d.app.sessionConfig
  hex : ∀ id, d.sessions.Holds id → IsHexText id

namespace Deployment.KeepsSessions

variable {d : Deployment} {t u : TimedStore}

/-- A new deployment `KeepsSessions`: it has none. -/
theorem ofApplication (a : Application) : (Deployment.ofApplication a).KeepsSessions := ⟨rfl, fun _ h => absurd rfl h⟩

theorem take (h : d.KeepsSessions) (s : LifecycleStep) : (d.take s).2.KeepsSessions where
  config := by rw [config_take, take_app, h.config]
  hex id hid := h.hex id (holds_of_take hid)

/-- Ids that the sessions reach are hexadecimal texts too, as they were there or are drawn. -/
theorem isHexText (h : d.KeepsSessions) (ht : t.store = d.sessions) (hr : t.Reaches u) {id : SessionId}
    (hid : u.store.Holds id) : IsHexText id := by
  obtain ⟨drawn, hdraws⟩ := hr.exists_draws
  rcases hdraws.holds id hid with hold | hnew
  · exact h.hex id (ht ▸ hold)
  · obtain ⟨b, -, rfl⟩ := List.mem_map.1 hnew
    exact isHexText_id b

/-- So what the sessions reach keeps `KeepsSessions`. -/
theorem reaches (h : d.KeepsSessions) (ht : t.store = d.sessions) (hr : t.Reaches u) :
    KeepsSessions { d with sessions := u.store } where
  config := by
    have hconfig := hr.config_eq
    rw [ht] at hconfig
    exact hconfig.trans h.config
  hex _ hid := h.isHexText ht hr hid

end Deployment.KeepsSessions

namespace Host

variable {g h : Host} {issued : Issued} {id : AppId} {d : Deployment}

/-- However a host comes about (`hi`), its deployments keep their sessions so. -/
theorem keepsSessions_of_issues (hi : g.Issues issued) (hguards : g.GuardsByCalls) (hd : g.deployment? id = some d) :
    d.KeepsSessions := by
  have hkept : IsKept fun _ d => d.KeepsSessions :=
    ⟨fun _ => .ofApplication, fun s h => h.take s, fun _ h => ⟨h.config, h.hex⟩, fun ht hr h => h.reaches ht hr⟩
  exact hi.forall_deployment hkept hguards id d hd

/-! ### A request for a URL -/

/-- Whether `h` brings the request of `y` for `url`, which comes without cookies, to the application `id` in service. -/
structure BringsUrl (h : Host) (url : String) (id : AppId) (d : Deployment) (y : Exchange) : Prop where
  method : y.request.head.method ≠ none
  uri : y.request.uri = (Request.splitTarget (dropFragment url)).1
  cookieless : y.request.head.headers.getAll "cookie" = []
  find : h.find? (stripPathParameters y.request.uri).1 = some id
  deployment : h.deployment? id = some d
  available : d.isAvailable = true

/-- Whether the request of `y` is served by the application `id`, of which it asks for the session `asked`, by its URL.
Whoever has looked for no session before finds this one, if it is live. -/
structure AsksFor (h : Host) (y : Exchange) (id : AppId) (d : Deployment) (asked : SessionId) : Prop where
  served : ∀ limits timeout, h.serveExchange limits timeout y
    = (serveWithin limits timeout d.app (d.receive y)).map fun z => ⟨some id, z⟩
  requested : (d.receive y).request.requestedSession = some (asked, .url)
  session : ∀ z : Exchange, z.sessionId = none →
    z.request.requestedSession = (d.receive y).request.requestedSession →
    (z.session? false).map Prod.fst = some (if (z.sessions.find z.now asked).1 = true then some asked else none)

/-- A request for a URL into which `encodeUrl` has put an id `AsksFor` the first parameter of the name, `askedId`. -/
theorem BringsUrl.asksFor {url : String} {sid : SessionId} {y : Exchange}
    (hb : h.BringsUrl (encodeUrl url d.app.sessionConfig.urlParameter sid) id d y)
    (htracks : d.app.sessionConfig.tracksUrl = true)
    (hparam : Avoids [';', '=', '/', '?', '#'] d.app.sessionConfig.urlParameter)
    (hsid : Avoids [';', '/', '?', '#'] sid) :
    h.AsksFor y id d (askedId url d.app.sessionConfig.urlParameter sid) := by
  have hrequested : (d.receive y).request.requestedSession
      = some (askedId url d.app.sessionConfig.urlParameter sid, .url) := by
    change requestedSession? d.app.sessionConfig y.request.head.headers (stripPathParameters y.request.uri).2 = _
    rw [requestedSession?_of_cookieless hb.cookieless htracks, hb.uri, splitTarget_dropFragment,
      find?_encodeUrl hparam hsid, Option.map_some]
  refine ⟨fun limits timeout => serveExchange_of_available hb.method hb.find hb.deployment hb.available, hrequested,
    fun z hnone hasked => ?_⟩
  exact Exchange.session?_of_requested hnone (hasked.trans hrequested)

/-- **Coming back by a URL.** Take any exchange `x` of an application, in any host that comes about (`hi`), and a URL
that `LeadsInto` the context path. If `encodeUrl` rewrites it (`hrewritten`), then it gets the id `sid` of the current
session of the exchange, which is live, and still leads into the context path. A later request for it without cookies
that is brought to the same application (`BringsUrl`) `AsksFor` a session by its URL:

* for `askedId`, the value that the parameter had before in the last segment of the URL, or else `sid`;
* so for `sid` where the URL had not carried another value. -/
theorem asksFor_of_encodeUrl (hi : g.Issues issued) (hguards : g.GuardsByCalls) (hd : g.deployment? id = some d)
    {b : Blueprint} (hbuilt : b.build = .ok d.app)
    (hparam : Avoids [';', '=', '/', '?', '#'] d.app.sessionConfig.urlParameter) {x : Exchange}
    (hx : (g.timed d).Reaches x.timed) {url : String} (hurl : LeadsInto d.app.contextPath url)
    (hrewritten : (x.encodeUrl url).1 ≠ url) :
    ∃ sid, x.currentSession.1 = some sid ∧ (x.sessions.find x.now sid).1 = true ∧
      (x.encodeUrl url).1 = encodeUrl url d.app.sessionConfig.urlParameter sid ∧
      Claims d.app.contextPath (stripPathParameters (urlPath (x.encodeUrl url).1)).1 ∧
      (∀ (h : Host) (d' : Deployment) (y : Exchange), h.BringsUrl (x.encodeUrl url).1 id d' y → d'.app = d.app →
        h.AsksFor y id d' (askedId url d.app.sessionConfig.urlParameter sid)) ∧
      ((∀ p ∈ (stripPathParameters (urlPath url)).2, p.1 = d.app.sessionConfig.urlParameter → p.2 = sid) →
        askedId url d.app.sessionConfig.urlParameter sid = sid) := by
  obtain ⟨sid, hrewrites, hcurrent, hlive, hencoded⟩ := Exchange.exists_id_of_encodeUrl_ne hrewritten
  have hkeeps := keepsSessions_of_issues hi hguards hd
  have hconfig : x.sessions.config = d.app.sessionConfig := hx.config_eq.trans hkeeps.config
  have htracks := hrewrites.tracks
  -- `hlive`: the store holds `sid`, so it has the characters of an id that was drawn.
  have hheld : x.sessions.Holds sid := by
    rw [SessionStore.find, SessionStore.change_fst, SessionStore.access_fst] at hlive
    intro hnone
    rw [hnone] at hlive
    cases hlive
  have hsid : Avoids [';', '/', '?', '#'] sid := (hkeeps.isHexText rfl hx hheld).avoids
  rw [hconfig] at hencoded htracks
  rw [hencoded]
  refine ⟨sid, hcurrent, hlive, rfl, ?_, fun h d' y hb happ => ?_, askedId_eq⟩
  · rw [stripPathParameters_encodeUrl hparam hsid]
    show Claims d.app.contextPath (stripPathParameters (urlPath url)).1
    exact claims_of_leadsInto (b.isNormalContextPath_of_build hbuilt) hurl
  · rw [← happ] at hb htracks hparam ⊢
    exact hb.asksFor htracks hparam hsid

/-! ### A shop -/

namespace Shop

/-- The servlet of the shop, which starts a session for whoever comes. -/
def cart : Servlet := ⟨"cart", .call (.session true) fun _ => .finish, fun _ => none, false⟩

def app : Application := .ofServlets "/shop" [cart]

/-- A host with `app` in service; the next id is made of zeros. -/
def host : Host := (((start [.replicate 16 0]).add app).2.perform (.deploy 0)).2

def sid : SessionId := "00000000000000000000000000000000"

/-- The deployment of `app` before anybody comes. -/
def empty : Deployment :=
  { Deployment.ofApplication app with state := .started, history := [⟨.init, ⟨.servlet, "cart"⟩, true⟩] }

/-- The exchange of somebody who has no session. -/
def visitor : Exchange :=
  empty.receive (.start (.ofLine "GET /shop HTTP/1.1") none (.detached "HTTP/1.1") host.now host.supply)

/-- The exchange once a session is started for the `visitor`. -/
def welcomed : Exchange := ((visitor.session? true).map Prod.snd).getD visitor

/-- The deployment of `app` with the session of the `visitor`. -/
def busy : Deployment := { empty with sessions := welcomed.sessions }

def later : Host := host.putTimed 0 empty welcomed.timed

/-- The exchange of somebody who comes back with `url`. -/
def returning (url : String) : Exchange :=
  .start (.ofLine ("GET " ++ dropFragment url ++ " HTTP/1.1")) none (.detached "HTTP/1.1") later.now later.supply

theorem issues_host : host.Issues fun _ => [] := .call (.deploy 0) (.add app (.start _))

/-- The shop has no guard. -/
theorem guardsByCalls_host : host.GuardsByCalls := by
  intro id d g hd hg
  have happs : host.deployments.map (·.app) = [app] := rfl
  rw [List.mem_singleton.1 (app_mem_of_deployment? happs hd)] at hg
  cases hg

theorem deployment_host : host.deployment? 0 = some empty := rfl

/-- The shop is built from its one servlet. -/
theorem build_app : (Blueprint.ofServlets "/shop" [cart]).build = .ok app :=
  Blueprint.build_ofServlets (show normalizeContextPath "/shop" = .ok _ from rfl) (by decide)

/-- The visitor's sessions come of those of the shop. -/
theorem reaches_welcomed : (host.timed empty).Reaches welcomed.timed := by
  have hstarts : (visitor.session? true).isSome = true := by decide +kernel
  obtain ⟨p, hp⟩ := Option.isSome_iff_exists.1 hstarts
  have hwelcomed : welcomed = p.2 := by rw [welcomed, hp]; rfl
  rw [hwelcomed]
  have hperform : (Op.session true).perform visitor = some p := hp
  exact reaches_perform hperform

/-- Whether the request of `returning url` is one for `url`, and gets to the shop. -/
def ComesBack (url : String) : Prop :=
  (returning url).request.head.method = some .get ∧
  (returning url).request.uri = (Request.splitTarget (dropFragment url)).1 ∧
  (returning url).request.head.headers.getAll "cookie" = [] ∧
  later.find? (stripPathParameters (returning url).request.uri).1 = some 0

instance (url : String) : Decidable (ComesBack url) := inferInstanceAs (Decidable (_ ∧ _))

/-- Whoever `ComesBack` is brought to the shop. -/
theorem bringsUrl_later {url : String} (h : ComesBack url) : later.BringsUrl url 0 busy (returning url) where
  method := by simp [h.1]
  uri := h.2.1
  cookieless := h.2.2.1
  find := h.2.2.2
  deployment := rfl
  available := rfl

/-- A visitor comes back with a URL that had a parameter and a query, and finds the session. -/
theorem asksFor_of_encodeUrl_cart :
    (welcomed.encodeUrl "/shop/cart;size=1?item=2#top").1
      = "/shop/cart;size=1;jsessionid=00000000000000000000000000000000?item=2#top" ∧
    later.AsksFor (returning "/shop/cart;size=1;jsessionid=00000000000000000000000000000000?item=2#top") 0 busy sid ∧
    (busy.sessions.find 0 sid).1 = true := by
  have hencoded : (welcomed.encodeUrl "/shop/cart;size=1?item=2#top").1
      = "/shop/cart;size=1;jsessionid=00000000000000000000000000000000?item=2#top" := by decide +kernel
  have hparam : Avoids [';', '=', '/', '?', '#'] empty.app.sessionConfig.urlParameter := by
    have hname : empty.app.sessionConfig.urlParameter = "jsessionid" := rfl
    simp [hname, Avoids]
  have hurl : LeadsInto app.contextPath "/shop/cart;size=1?item=2#top" :=
    ⟨"/cart;size=1?item=2#top", by decide, by simp⟩
  obtain ⟨id, hcurrent, -, -, -, hasks, hsame⟩ := asksFor_of_encodeUrl issues_host guardsByCalls_host
    deployment_host build_app hparam reaches_welcomed hurl (by rw [hencoded]; decide)
  have hid : welcomed.currentSession.1 = some sid := by decide +kernel
  obtain rfl := Option.some.inj (hcurrent.symm.trans hid)
  have hparams : (stripPathParameters (urlPath "/shop/cart;size=1?item=2#top")).2 = [("size", "1")] := by
    decide +kernel
  rw [hencoded] at hasks
  refine ⟨hencoded, ?_, by decide +kernel⟩
  -- No parameter of the URL has the name `"jsessionid"`, so the one appended is the first.
  rw [← hsame fun p hp hname => ?_]
  · exact hasks later busy _ (bringsUrl_later (by decide +kernel)) rfl
  · rw [hparams] at hp
    obtain rfl := List.mem_singleton.1 hp
    exact absurd hname (by decide)

/-- The URL had carried an old id. The id of the session is put in behind it, but who comes back asks for the old one
and finds nothing, although the session is there. -/
theorem old_id_asked_for :
    LeadsInto app.contextPath "/shop;jsessionid=OLD" ∧ welcomed.currentSession.1 = some sid ∧
    (welcomed.encodeUrl "/shop;jsessionid=OLD").1 = encodeUrl "/shop;jsessionid=OLD" "jsessionid" sid ∧
    later.BringsUrl (encodeUrl "/shop;jsessionid=OLD" "jsessionid" sid) 0 busy
      (returning (encodeUrl "/shop;jsessionid=OLD" "jsessionid" sid)) ∧
    (busy.receive (returning (encodeUrl "/shop;jsessionid=OLD" "jsessionid" sid))).request.requestedSession
      = some ("OLD", .url) ∧
    ((busy.receive (returning (encodeUrl "/shop;jsessionid=OLD" "jsessionid" sid))).session? false).map Prod.fst
      = some none ∧
    (busy.sessions.find 0 sid).1 = true := by
  have hwelcomed : welcomed.currentSession.1 = some sid ∧
      (welcomed.encodeUrl "/shop;jsessionid=OLD").1 = encodeUrl "/shop;jsessionid=OLD" "jsessionid" sid := by
    decide +kernel
  have hreturning : ComesBack (encodeUrl "/shop;jsessionid=OLD" "jsessionid" sid) ∧
      (busy.receive (returning (encodeUrl "/shop;jsessionid=OLD" "jsessionid" sid))).request.requestedSession
        = some ("OLD", .url) ∧
      ((busy.receive (returning (encodeUrl "/shop;jsessionid=OLD" "jsessionid" sid))).session? false).map Prod.fst
        = some none ∧
      (busy.sessions.find 0 sid).1 = true := by
    decide +kernel
  exact ⟨⟨";jsessionid=OLD", by decide, by simp⟩, hwelcomed.1, hwelcomed.2, bringsUrl_later hreturning.1, hreturning.2⟩

end Shop

end Host

end ServletContainer
