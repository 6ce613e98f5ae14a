import ServletContainer.Proofs.Application.Mapped
import ServletContainer.Proofs.Dispatch.Requests
import ServletContainer.Proofs.Host.Published
import ServletContainer.Proofs.Http.HeadReading
import ServletContainer.Proofs.Response.Answers
import ServletContainer.Proofs.Security.Denial

namespace ServletContainer

/-!
# Who gets through to an application

A connection brings bytes. Either they keep the code of the applications out, and the container answers by itself, or
they are a request that an application dispatches.

* `Connection.KeptOut` — the reasons to keep application code out, each with its answer.
* `Connection.onlyAnswers_of_keptOut` — the answer is all that comes of it.
* `Connection.LetIn` — a request that gets through, and the exchange in which it is dispatched.
* `Connection.exists_letIn` — whatever is not kept out is let in.
* `Connection.proceeds_of_letIn` — what becomes of a request that is let in.
* `Connection.admission` — one or the other, for every input.
-/

namespace Connection

/-! ### Kept out -/

/-- The input `source` of a connection to `h` that keeps application code out, and the bytes that answer it. -/
inductive KeptOut (settings : Settings) (source : Source) (h : Host) : Bytes → Prop
  | lineTooLong {limit} : (readHead settings.lineLimit source).1 = .error (.lineTooLong limit) →
    KeptOut settings source h (bareAnswer .requestHeaderFieldsTooLarge)
  | invalidHeader {line} : (readHead settings.lineLimit source).1 = .error (.invalidHeader line) →
    KeptOut settings source h (bareAnswer .badRequest)
  /-- The peer goes silent. -/
  | stalled : (readHead settings.lineLimit source).1 = .error .stalled →
    KeptOut settings source h (bareAnswer .requestTimeout)
  /-- Reading fails, and nothing is answered. -/
  | unread {e} : (readHead settings.lineLimit source).1 = .error (.io e) → KeptOut settings source h []
  /-- The request line is garbled, or there is none. -/
  | noMethod {head} : (readHead settings.lineLimit source).1 = .ok head → head.method = none →
    KeptOut settings source h (bareAnswer .badRequest)
  | noApplication {head} : (readHead settings.lineLimit source).1 = .ok head → head.method ≠ none →
    h.find? (stripPathParameters (Request.ofHead head).uri).1 = none →
    KeptOut settings source h (errorAnswer head.protocol .notFound none)
  | unavailable {head d} : (readHead settings.lineLimit source).1 = .ok head → head.method ≠ none →
    h.deploymentFor? (Request.ofHead head) = some d → ¬ (d.state = .started ∧ d.unavailable = false) →
    KeptOut settings source h (errorAnswer head.protocol .serviceUnavailable none)
  /-- The guard turns the request away. -/
  | denied {head d} {g : BasicAuth} {status challenge} : (readHead settings.lineLimit source).1 = .ok head →
    head.method ≠ none → h.deploymentFor? (Request.ofHead head) = some d → d.state = .started →
    d.unavailable = false → d.app.guard = some g.guard →
    g.Denies ((Request.ofHead head).pathWithin d.app.contextPath) head.headers status challenge →
    KeptOut settings source h (errorAnswer head.protocol status challenge)

/-- The exchange of a request with `head` that came by a connection, with `rest` unread behind it. -/
def arrival (h : Host) (peer : String) (secure : Bool) (head : RequestHead) (rest : Source) (sink : Sink) : Exchange :=
  .start ((Request.ofHead head).fromPeer peer secure) (some rest) (.connected head.protocol sink) h.now h.supply

/-- Whether `answer` is all that comes of a connection: a peer that takes everything gets it, and whatever `sink` takes,
`h` stays as it was. -/
structure OnlyAnswers (settings : Settings) (peer : String) (secure : Bool) (source : Source) (h : Host)
    (answer : Bytes) : Prop where
  whole : ∀ failsShutdown, serve settings peer secure source (.fresh .unlimited failsShutdown) h = some (answer, h)
  trace : ∀ sink, ∃ bytes, serve settings peer secure source sink h = some (bytes, h)

section Serving

variable {settings : Settings} {peer : String} {secure : Bool} {source rest : Source} {sink : Sink} {h : Host}
  {head : RequestHead}

/-- Where `readHead` fails, `serve` writes the answer for the error, or nothing, and leaves the host as it is. -/
theorem serve_of_error {e : HeadError} (hread : (readHead settings.lineLimit source).1 = .error e) :
    serve settings peer secure source sink h
      = some (((statusOf? e).map fun status => (teardown (bare status sink)).wire).getD [], h) := by
  unfold serve
  split
  · next e' _ hread' =>
    rw [hread'] at hread
    obtain rfl := Except.error.inj hread
    cases statusOf? e' with
    | none => rfl
    | some status => rw [Option.map_some, Option.getD_some]
  · next hread' =>
    rw [hread'] at hread
    cases hread

/-- Where it gives a head, `serve` is `serveExchange` of its `arrival`, the teardown, and `settleExchange`. -/
theorem serve_of_head (hread : readHead settings.lineLimit source = (.ok head, rest)) :
    serve settings peer secure source sink h
      = (h.serveExchange settings.limits settings.asyncTimeout (arrival h peer secure head rest sink)).map
          fun served => ((teardown served.exchange.response).wire, h.settleExchange served) := by
  unfold serve
  rw [hread]
  exact Option.map_map ..

theorem exists_rest (hread : (readHead settings.lineLimit source).1 = .ok head) :
    ∃ rest, readHead settings.lineLimit source = (.ok head, rest) := ⟨_, Prod.ext hread rfl⟩

/-! ### What is kept out -/

/-- So the answer for an error is all that comes of the connection. -/
theorem onlyAnswers_of_error {e : HeadError} (hread : (readHead settings.lineLimit source).1 = .error e)
    {answer : Bytes} (hanswer : ((statusOf? e).map bareAnswer).getD [] = answer) :
    OnlyAnswers settings peer secure source h answer where
  whole failsShutdown := by
    rw [serve_of_error hread, ← hanswer]
    simp only [wire_bare]
  trace sink := ⟨_, serve_of_error hread⟩

/-- So it is where every exchange `served` `AnswersItself`, that is, leaves no trace in the host, and `answer` is on the
wire of a peer that takes everything. -/
theorem onlyAnswers_of_served (hread : readHead settings.lineLimit source = (.ok head, rest))
    (served : Sink → Host.Served)
    (hserved : ∀ sink,
      h.serveExchange settings.limits settings.asyncTimeout (arrival h peer secure head rest sink) = some (served sink))
    (hanswers : ∀ sink, h.AnswersItself (arrival h peer secure head rest sink) (served sink)) {answer : Bytes}
    (hwire : ∀ failsShutdown,
      (teardown (served (.fresh .unlimited failsShutdown)).exchange.response).wire = answer) :
    OnlyAnswers settings peer secure source h answer := by
  have hserve (sink : Sink) :
      serve settings peer secure source sink h = some ((teardown (served sink).exchange.response).wire, h) := by
    rw [serve_of_head hread, hserved, Option.map_some, (hanswers sink).settleExchange_eq rfl rfl rfl]
  exact ⟨fun failsShutdown => by rw [hserve, hwire], fun sink => ⟨_, hserve sink⟩⟩

/-- A head without a method gets a bare 400. -/
theorem onlyAnswers_of_noMethod (hread : readHead settings.lineLimit source = (.ok head, rest))
    (hmethod : head.method = none) : OnlyAnswers settings peer secure source h (bareAnswer .badRequest) := by
  -- By `isProper_of_readHead` a head without a method is `.blank`, and the answer names its protocol.
  obtain rfl : head = .blank := by
    rcases isProper_of_readHead (congrArg Prod.fst hread) with hblank | ⟨hsome, -⟩
    · exact hblank
    · exact absurd hmethod hsome
  refine onlyAnswers_of_served hread (fun sink => ⟨none, Host.refuse (arrival h peer secure .blank rest sink)⟩)
    (fun sink => Host.serveExchange_of_noMethod hmethod) (fun sink => ?_) (wire_bare .badRequest)
  exact .refuse h _

section Method

variable (hread : readHead settings.lineLimit source = (.ok head, rest)) (hmethod : head.method ≠ none)

include hread hmethod

/-- A request that is denied with a `status` and leaves no trace gets the `errorAnswer` for it. -/
theorem onlyAnswers_of_deny {status : StatusCode} {challenge : Option String} (app : Option AppId)
    (x : Sink → Exchange)
    (hserved : ∀ sink, h.serveExchange settings.limits settings.asyncTimeout (arrival h peer secure head rest sink)
      = some ⟨app, deny status.code challenge (x sink)⟩)
    (hresponse : ∀ sink, (x sink).response = .connected head.protocol sink)
    (hanswers : ∀ sink,
      h.AnswersItself (arrival h peer secure head rest sink) ⟨app, deny status.code challenge (x sink)⟩) :
    OnlyAnswers settings peer secure source h (errorAnswer head.protocol status challenge) := by
  have hprotocol : Text.startsWith "HTTP/" head.protocol = true := by
    rcases isProper_of_readHead (congrArg Prod.fst hread) with rfl | ⟨-, hprotocol⟩
    · exact absurd rfl hmethod
    · exact hprotocol
  exact onlyAnswers_of_served hread (fun sink => ⟨app, deny status.code challenge (x sink)⟩) hserved hanswers
    fun failsShutdown => wire_deny hprotocol (hresponse (.fresh .unlimited failsShutdown)) status challenge

/-- A request for no application gets a 404. -/
theorem onlyAnswers_of_unclaimed (hnone : h.find? (stripPathParameters (Request.ofHead head).uri).1 = none) :
    OnlyAnswers settings peer secure source h (errorAnswer head.protocol .notFound none) := by
  refine onlyAnswers_of_deny hread hmethod none (fun sink => { arrival h peer secure head rest sink with
    request.uri := (stripPathParameters (Request.ofHead head).uri).1 })
    (fun sink => Host.serveExchange_of_unclaimed hmethod hnone) (fun sink => rfl) fun sink => ?_
  exact .deny h _ (fun id d happ => by cases happ) _ _ none

section Deployed

variable {id : AppId} {d : Deployment} (hfind : h.find? (stripPathParameters (Request.ofHead head).uri).1 = some id)
  (hd : h.deployment? id = some d)

include hfind hd

/-- A request for one that is not both started and available (`hdown`) gets a 503. -/
theorem onlyAnswers_of_unavailable (hdown : ¬ (d.state = .started ∧ d.unavailable = false)) :
    OnlyAnswers settings peer secure source h (errorAnswer head.protocol .serviceUnavailable none) := by
  have hclosed : d.isAvailable = false := Bool.eq_false_iff.2 (mt Deployment.isAvailable_iff.1 hdown)
  refine onlyAnswers_of_deny hread hmethod (some id)
    (fun sink =>
      let x := arrival h peer secure head rest sink
      { x with
        sessions := d.sessions
        request := { x.request with
          uri := (stripPathParameters (Request.ofHead head).uri).1, contextPath := d.app.contextPath } })
    (fun sink => Host.serveExchange_of_unavailable hmethod hfind hd hclosed) (fun sink => rfl) fun sink => ?_
  exact .deny h _ (fun _ _ happ hd' => Host.sessions_eq_of_some hd happ hd') _ _ none

omit hread in
theorem serveExchange_arrival (hup : d.isAvailable = true) (rest : Source) (sink : Sink) :
    h.serveExchange settings.limits settings.asyncTimeout (arrival h peer secure head rest sink)
      = (serveWithin settings.limits settings.asyncTimeout d.app
          (d.receive (arrival h peer secure head rest sink))).map fun y => ⟨some id, y⟩ :=
  Host.serveExchange_of_available hmethod hfind hd hup

/-- The guard is asked with the path within the application and with the header fields. Where it `Denies` them, the
answer has its status and challenge. -/
theorem onlyAnswers_of_denies (hup : d.isAvailable = true) {g : BasicAuth} (hguard : d.app.guard = some g.guard)
    {status : StatusCode} {challenge : Option String}
    (hdenies : g.Denies ((Request.ofHead head).pathWithin d.app.contextPath) head.headers status challenge) :
    OnlyAnswers settings peer secure source h (errorAnswer head.protocol status challenge) := by
  let x (sink : Sink) : Exchange := d.receive (arrival h peer secure head rest sink)
  have hdenied (sink : Sink) : g.Denies (x sink).request.relativePath head.headers status challenge := by
    have hpath : (x sink).request.relativePath = (Request.ofHead head).pathWithin d.app.contextPath :=
      Request.relativePath_eq_pathWithin rfl rfl
    rw [hpath]
    exact hdenies
  refine onlyAnswers_of_deny hread hmethod (some id) x (fun sink => ?_) (fun sink => rfl) fun sink => ?_
  · have hserved := serveWithin_of_denies settings.limits settings.asyncTimeout hguard (hdenied sink) rfl
    rw [serveExchange_arrival hmethod hfind hd hup, hserved, Option.map_some]
  · exact .deny h _ (fun _ _ happ hd' => Host.sessions_eq_of_some hd happ hd') (x sink).request _ challenge

end Deployed

end Method

/-- So `KeptOut` implies `OnlyAnswers`, case by case. -/
theorem onlyAnswers_of_keptOut {answer : Bytes} (hout : KeptOut settings source h answer) :
    OnlyAnswers settings peer secure source h answer := by
  cases hout with
  -- `readHead` has failed.
  | lineTooLong hread => exact onlyAnswers_of_error hread rfl
  | invalidHeader hread => exact onlyAnswers_of_error hread rfl
  | stalled hread => exact onlyAnswers_of_error hread rfl
  | unread hread => exact onlyAnswers_of_error hread rfl
  -- `readHead` has returned a head; how far the request gets with it is a case each.
  | noMethod hread hmethod =>
    obtain ⟨rest, hread⟩ := exists_rest hread
    exact onlyAnswers_of_noMethod hread hmethod
  | noApplication hread hmethod hnone =>
    obtain ⟨rest, hread⟩ := exists_rest hread
    exact onlyAnswers_of_unclaimed hread hmethod hnone
  | unavailable hread hmethod hd hdown =>
    obtain ⟨rest, hread⟩ := exists_rest hread
    obtain ⟨id, hfind, hd⟩ := Option.bind_eq_some_iff.1 hd
    exact onlyAnswers_of_unavailable hread hmethod hfind hd hdown
  | denied hread hmethod hd hstarted havailable hguard hdenies =>
    obtain ⟨rest, hread⟩ := exists_rest hread
    obtain ⟨id, hfind, hd⟩ := Option.bind_eq_some_iff.1 hd
    have hup := Deployment.isAvailable_iff.2 ⟨hstarted, havailable⟩
    exact onlyAnswers_of_denies hread hmethod hfind hd hup hguard hdenies

/-! ### What is let in -/

/-- A request that is let in: its path belongs to `id`, whose deployment `d` is started and available, and the guard
lets it through. It is then dispatched in `x`, whose journal is still empty. -/
structure LetIn (settings : Settings) (peer : String) (secure : Bool) (source : Source) (sink : Sink) (h : Host)
    (head : RequestHead) (id : AppId) (d : Deployment) (x : Exchange) : Prop where
  method : head.method ≠ none
  find : h.find? (stripPathParameters (Request.ofHead head).uri).1 = some id
  deployment : h.deployment? id = some d
  started : d.state = .started
  available : d.unavailable = false
  received : ∃ rest, readHead settings.lineLimit source = (.ok head, rest) ∧
    d.app.Allows (d.receive (arrival h peer secure head rest sink)) x
  path : x.request.relativePath = (Request.ofHead head).pathWithin d.app.contextPath
  journal : x.journal = []

/-- What follows the dispatch of a request, whose outcome is `p`: `handleError` answers a failure, `settle` follows the
continuations, and the response is closed. -/
def conclude (settings : Settings) (h : Host) (id : AppId) (d : Deployment) (p : Outcome × Exchange) :
    Option (Bytes × Host) :=
  let invoke := invoke d.app settings.limits.depth
  let answered :=
    match p with
    | (.ok (), x) => some x
    | (.error e, x) => handleError invoke d.app e x
  (answered.bind (settle invoke d.app settings.asyncTimeout settings.limits.rounds)).map fun y =>
    ((teardown y.response).wire, h.settleExchange ⟨some id, y⟩)

/-- What `h` needs so that its applications can serve requests. -/
structure IsReady (h : Host) : Prop where
  /-- Whatever is published is there. -/
  complete : ∀ c id, h.get? c = some id → ∃ d, h.deployment? id = some d
  built : h.AllBuilt
  guarded : ∀ id d, h.deployment? id = some d → d.app.IsGuardedByCredentials
  /-- There is an id to be drawn for a session. -/
  canDraw : ∀ id d, h.deployment? id = some d → TimedStore.CanDraw ⟨h.now, h.supply, d.sessions⟩

/-- What is not `KeptOut` is `LetIn`, if the host `IsReady`: each check that is not passed is a case of `KeptOut`. -/
theorem exists_letIn (hready : IsReady h) (hout : ∀ answer, ¬ KeptOut settings source h answer) (peer : String)
    (secure : Bool) (sink : Sink) : ∃ head id d x, LetIn settings peer secure source sink h head id d x := by
  cases hread : (readHead settings.lineLimit source).1 with
  | error e =>
    -- Every `HeadError` is a constructor of `KeptOut`.
    cases e with
    | lineTooLong limit => exact absurd (.lineTooLong hread) (hout _)
    | invalidHeader line => exact absurd (.invalidHeader hread) (hout _)
    | io e => exact absurd (.unread hread) (hout _)
    | stalled => exact absurd (.stalled hread) (hout _)
  | ok head =>
    have hmethod : head.method ≠ none := fun hnone => hout _ (.noMethod hread hnone)
    obtain ⟨id, hfind⟩ : ∃ id, h.find? (stripPathParameters (Request.ofHead head).uri).1 = some id :=
      Option.ne_none_iff_exists'.1 fun hnone => hout _ (.noApplication hread hmethod hnone)
    obtain ⟨c, hc⟩ := Host.exists_get?_of_find? hfind
    obtain ⟨d, hd⟩ := hready.complete c id hc
    have hfor : h.deploymentFor? (Request.ofHead head) = some d := by
      rw [Host.deploymentFor?, hfind, Option.bind_some, hd]
    obtain ⟨hstarted, havailable⟩ : d.state = .started ∧ d.unavailable = false := by
      by_contra hdown
      exact hout _ (.unavailable hread hmethod hfor hdown)
    -- The guard reads `relativePath`, which `receive` has set to the path within the application.
    obtain ⟨rest, hrest⟩ := exists_rest hread
    let y := d.receive (arrival h peer secure head rest sink)
    have hpath : y.request.relativePath = (Request.ofHead head).pathWithin d.app.contextPath :=
      Request.relativePath_eq_pathWithin rfl rfl
    obtain ⟨x, hx⟩ : ∃ x, d.app.Allows y x := by
      refine Application.exists_allows (hready.guarded id d hd) (hready.canDraw id d hd)
        fun g hguard status challenge hdenies => ?_
      rw [hpath] at hdenies
      exact hout _ (.denied hread hmethod hfor hstarted havailable hguard hdenies)
    obtain ⟨hsame, hjournal⟩ := hx.keeps (hready.guarded id d hd)
    exact ⟨head, id, d, x, hmethod, hfind, hd, hstarted, havailable, ⟨rest, hrest, hx⟩, hsame.trans hpath, hjournal⟩

/-! ### What becomes of it -/

section Admitted

variable {id : AppId} {d : Deployment} {x : Exchange}

/-- `conclude` starts no chain of a request. -/
theorem gainsNoRequest_of_conclude {p : Outcome × Exchange} {bytes : Bytes} {h' : Host}
    (hp : conclude settings h id d p = some (bytes, h')) :
    ∃ k, h'.journal = h.journal ++ k ∧ GainsNoRequest p.2.journal k := by
  have hlasting := lasting_gainsNoRequest d.app settings.limits.depth
  obtain ⟨y, hy, heq⟩ := Option.map_eq_some_iff.1 hp
  obtain ⟨-, rfl⟩ := Prod.mk.inj heq
  obtain ⟨z, hz, hy⟩ := Option.bind_eq_some_iff.1 hy
  have hsettled : GainsNoRequest z.journal y.journal := hlasting.settle hy
  refine ⟨y.journal, (Host.settleExchange_spec h ⟨some id, y⟩).2.2, ?_⟩
  -- A failure goes through `handleError` before `settle` follows the continuations.
  obtain ⟨result, w⟩ := p
  cases result with
  | ok _ =>
    obtain rfl := Option.some.inj hz
    exact hsettled
  | error e => exact (hlasting.handleError hz).trans hsettled

variable (hin : LetIn settings peer secure source sink h head id d x) (hguarded : d.app.IsGuardedByCredentials)

include hin hguarded

/-- Of a request that is `LetIn`, `serve` is `dispatchRequest` of the exchange `x` behind the guard, and `settle`. -/
theorem serve_of_letIn :
    serve settings peer secure source sink h
      = ((dispatchRequest (invoke d.app settings.limits.depth) d.app x).bind
          (settle (invoke d.app settings.limits.depth) d.app settings.asyncTimeout settings.limits.rounds)).map
        fun y => ((teardown y.response).wire, h.settleExchange ⟨some id, y⟩) := by
  obtain ⟨rest, hread, hallows⟩ := hin.received
  have hup : d.isAvailable = true := Deployment.isAvailable_iff.2 ⟨hin.started, hin.available⟩
  rw [serve_of_head hread, serveExchange_arrival hin.method hin.find hin.deployment hup, serveWithin,
    hallows.routeWithin_eq hguarded, Option.map_map]
  rfl

/-- If `map?` has a `target` for its path, `dispatchRequest` is `invoke` of that target. -/
theorem serve_of_mapped {target : MappingMatch} (ht : d.app.mapper.map? x.request.relativePath = some target) :
    serve settings peer secure source sink h
      = (invoke d.app settings.limits.depth target .request (x.mapRequest fun r =>
          { r with servletPath := target.servletPath, pathInfo := target.pathInfo })).bind
        (conclude settings h id d) := by
  rw [serve_of_letIn hin hguarded]
  unfold dispatchRequest
  dsimp only
  rw [ht]
  dsimp only
  rw [Option.bind_assoc, Option.map_bind]
  rfl

/-- If it has none, the request fails with 404. -/
theorem serve_of_unmapped (hnone : d.app.mapper.map? x.request.relativePath = none) :
    serve settings peer secure source sink h = conclude settings h id d
      (.error (.status 404 (some ("no servlet mapped for " ++ x.request.relativePath))), x) := by
  rw [serve_of_letIn hin hguarded]
  unfold dispatchRequest
  dsimp only
  rw [hnone]
  rfl

end Admitted

end Serving

/-! ### All inputs -/

/-- What becomes of a request that is `LetIn` with `x`: the chain in front of the servlet that `map?` gives for its path
is started, and no other; and where it gives none, the failure is answered by `handleError`. -/
structure Proceeds (settings : Settings) (h : Host) (id : AppId) (d : Deployment) (x : Exchange)
    (outcome : Option (Bytes × Host)) : Prop where
  mapped : ∀ target, d.app.mapper.map? x.request.relativePath = some target →
    let start := x.mapRequest fun r => { r with servletPath := target.servletPath, pathInfo := target.pathInfo }
    ∃ servlet, d.app.servlet? target.servletName = some servlet ∧
      outcome = (invoke d.app settings.limits.depth target .request start).bind (conclude settings h id d) ∧
      ∀ bytes h', outcome = some (bytes, h') →
        ∃ k, h'.journal = h.journal ++ k ∧ StartsChain d.app target servlet start k
  unmapped : d.app.mapper.map? x.request.relativePath = none →
    outcome = conclude settings h id d
      (.error (.status 404 (some ("no servlet mapped for " ++ x.request.relativePath))), x) ∧
    ∀ bytes h', outcome = some (bytes, h') →
      ∃ k, h'.journal = h.journal ++ k ∧ ∀ e ∈ k, e.startsRequest = false

/-- So what is `LetIn` `Proceeds`. The servlet of a mapped path exists, as the applications of a host that `IsReady`
were built. -/
theorem proceeds_of_letIn {settings : Settings} {peer : String} {secure : Bool} {source : Source} {sink : Sink}
    {h : Host} (hready : IsReady h) {head : RequestHead} {id : AppId} {d : Deployment} {x : Exchange}
    (hin : LetIn settings peer secure source sink h head id d x) :
    Proceeds settings h id d x (serve settings peer secure source sink h) where
  mapped target ht := by
    intro start
    obtain ⟨b, hbuild⟩ := hready.built id d hin.deployment
    obtain ⟨servlet, hservlet, -⟩ := b.exists_servlet_of_map? hbuild ht
    have hserve := serve_of_mapped hin (hready.guarded id d hin.deployment) ht
    -- A run that ends has come through `dispatchRequest`, which started the chain.
    refine ⟨servlet, hservlet, hserve, fun bytes h' heq => ?_⟩
    obtain ⟨p, hp, hconclude⟩ := Option.bind_eq_some_iff.1 (hserve.symm.trans heq)
    obtain ⟨k, hk, hgains⟩ := gainsNoRequest_of_conclude hconclude
    exact ⟨k, hk, (startsChain_of_invoke hservlet hp).trans hgains⟩
  unmapped hnone := by
    have hserve := serve_of_unmapped hin (hready.guarded id d hin.deployment) hnone
    refine ⟨hserve, fun bytes h' heq => ?_⟩
    obtain ⟨k, hk, events, hevents, hquiet⟩ := gainsNoRequest_of_conclude (hserve.symm.trans heq)
    -- `hin.journal`: nothing had been recorded when the request failed.
    have hevents' : k = events := by rw [hevents, hin.journal, List.nil_append]
    exact ⟨k, hk, hevents' ▸ hquiet⟩

/-- **Admission.** Let the host be `IsReady`. Whatever bytes come by a connection, and however reading them ends:

* where the input is `KeptOut` (the head cannot be read or has no method, or the request belongs to no application, or
  to one that is not both started and available, or the guard turns it away), `OnlyAnswers` holds: the answer is all
  that comes of it, and the host stays as it was;
* in every other case the request is `LetIn`, and `Proceeds`: exactly the chain in front of its servlet is started;
  where its path is mapped to none, this failure is answered by the error pages of the application. -/
theorem admission {h : Host} (hready : IsReady h) (settings : Settings) (peer : String) (secure : Bool)
    (source : Source) :
    (∀ answer, KeptOut settings source h answer → OnlyAnswers settings peer secure source h answer) ∧
    ((∀ answer, ¬ KeptOut settings source h answer) → ∀ sink, ∃ head id d x,
      LetIn settings peer secure source sink h head id d x ∧
      Proceeds settings h id d x (serve settings peer secure source sink h)) := by
  refine ⟨fun answer => onlyAnswers_of_keptOut, fun hout sink => ?_⟩
  obtain ⟨head, id, d, x, hin⟩ := exists_letIn hready hout peer secure sink
  exact ⟨head, id, d, x, hin, proceeds_of_letIn hready hin⟩

/-! ### A reading room -/

namespace Room

/-- The guard `BasicAuth` asks whoever goes to `/staff` for credentials. -/
def guard : BasicAuth := ⟨"staff", [⟨.below "/staff", []⟩], IdentityStore.empty.addUser "ann" "key" []⟩

/-- The servlet of the room. -/
def desk : Servlet := ⟨"desk", .write (Text.Utf8.encode "quiet") .done, fun _ => none, false⟩

def blueprint : Blueprint where
  contextPath := "/room"
  displayName := none
  servlets := [⟨desk, ["/*"]⟩]
  filters := []
  errorPages := []
  sessionConfig := .standard
  guard := some guard.guard
  resources := none

/-- The application that the blueprint of the `desk` builds. -/
def app : Application where
  contextPath := "/room"
  displayName := "/room"
  servlets := [desk]
  filters := []
  mapper := MappingTable.empty.assign "desk" (.below "")
  errorPages := .empty
  sessionConfig := .standard
  guard := some guard.guard
  resources := none

/-- A host with `app` in service, and with an id to draw. -/
def host : Host := (((Host.start [Vector.replicate 16 0]).add app).2.deploy 0).2

def settings : Settings := ⟨64, 10, ⟨1, 1⟩⟩

/-- The input of a peer that sends `text` and ends its side. -/
def sent (text : String) : Source := ⟨Text.Utf8.encode text, .closed⟩

/-- The room is the one deployment of the host, without sessions yet. -/
theorem deployment_host {id : AppId} {d : Deployment} (hd : host.deployment? id = some d) :
    d.app = app ∧ d.sessions = .empty .standard := by
  have hone : host.deployments.map (fun d => (d.app, d.sessions)) = [(app, .empty .standard)] := rfl
  have hmem := List.mem_map_of_mem (f := fun d : Deployment => (d.app, d.sessions)) (List.mem_of_getElem? hd)
  rw [hone] at hmem
  exact Prod.mk.inj (List.mem_singleton.1 hmem)

/-- So the host `IsReady`. -/
theorem isReady_host : IsReady host where
  complete c id hc := by
    -- `InService.deploy`: what is published behind it is a deployment of the host.
    have hservice := (Host.inService_of_empty (h := ((Host.start [Vector.replicate 16 0]).add app).2) rfl).deploy 0
    obtain ⟨d, hd, -⟩ := hservice c id hc
    exact ⟨d, hd⟩
  built id d hd := by
    have hbuild : blueprint.build = .ok app := rfl
    rw [(deployment_host hd).1]
    exact ⟨blueprint, hbuild⟩
  guarded id d hd g hg := by
    rw [(deployment_host hd).1] at hg
    exact ⟨guard, (Option.some.inj hg).symm⟩
  canDraw id d hd := by
    rw [(deployment_host hd).2]
    exact ⟨_, List.mem_singleton.2 rfl, rfl⟩

/-- A stranger who asks for the staff is denied by the guard. -/
theorem keptOut_stranger : KeptOut settings (sent "GET /room/staff HTTP/1.0\r\n\r\n") host
    (errorAnswer "HTTP/1.0" .unauthorized (some "Basic realm=\"staff\"")) := by
  let head : RequestHead := ⟨some .get, "/room/staff", "HTTP/1.0", .empty⟩
  obtain ⟨d, hd, happ, hstarted, havailable⟩ : ∃ d, host.deployment? 0 = some d ∧ d.app = app ∧ d.state = .started ∧
      d.unavailable = false := ⟨_, rfl, rfl, rfl, rfl⟩
  have hread : (readHead settings.lineLimit (sent "GET /room/staff HTTP/1.0\r\n\r\n")).1 = .ok head := by
    decide +kernel
  have hmethod : head.method ≠ none := nofun
  have hfind : host.find? (stripPathParameters (Request.ofHead head).uri).1 = some 0 := by decide +kernel
  have hfor : host.deploymentFor? (Request.ofHead head) = some d := by
    rw [Host.deploymentFor?, hfind, Option.bind_some, hd]
  have hguard : d.app.guard = some guard.guard := by
    rw [happ]
    rfl
  -- The guard's constraint covers the path, and `head` has no credentials.
  have hdenies : guard.Denies ((Request.ofHead head).pathWithin d.app.contextPath) head.headers .unauthorized
      (some "Basic realm=\"staff\"") := by
    have hpath : (Request.ofHead head).pathWithin app.contextPath = "/staff" := by decide +kernel
    have hconstraint : guard.constraint? "/staff" = some ⟨.below "/staff", []⟩ := by decide +kernel
    have hnone : credentials? head.headers = none := by decide +kernel
    rw [happ, hpath]
    refine .unknown hconstraint ?_
    rintro caller ⟨user, password, hcredentials, -⟩
    rw [hnone] at hcredentials
    cases hcredentials
  have hout := KeptOut.denied hread hmethod hfor hstarted havailable hguard hdenies
  exact hout

/-- A garbled line and a stranger who asks for the staff are only answered; whoever comes to the desk is served. -/
theorem admission_room :
    OnlyAnswers settings "here" false (sent "hello\r\n\r\n") host (bareAnswer .badRequest) ∧
    OnlyAnswers settings "here" false (sent "GET /room/staff HTTP/1.0\r\n\r\n") host
      (errorAnswer "HTTP/1.0" .unauthorized (some "Basic realm=\"staff\"")) ∧
    ∃ head id d x,
      LetIn settings "here" false (sent "GET /room/desk HTTP/1.0\r\n\r\n") (.fresh .unlimited false) host head id d x ∧
      Proceeds settings host id d x
        (serve settings "here" false (sent "GET /room/desk HTTP/1.0\r\n\r\n") (.fresh .unlimited false) host) := by
  have hadmission := admission isReady_host settings "here" false
  refine ⟨?_, (hadmission _).1 _ keptOut_stranger, ?_⟩
  · have hread : (readHead settings.lineLimit (sent "hello\r\n\r\n")).1 = .ok .blank := by decide +kernel
    exact (hadmission _).1 _ (.noMethod hread rfl)
  · refine (hadmission _).2 (fun answer hout => ?_) _
    -- The run leaves three entries, and what `KeptOut` describes records nothing.
    have hran : (serve settings "here" false (sent "GET /room/desk HTTP/1.0\r\n\r\n") (.fresh .unlimited false)
        host).map (fun p => p.2.journal.length) = some 3 := by decide +kernel
    have hnothing : host.journal.length = 0 := rfl
    rw [((hadmission _).1 answer hout).whole false, Option.map_some, hnothing] at hran
    cases hran

end Room

end Connection

end ServletContainer
