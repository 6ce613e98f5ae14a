import ServletContainer.Host
import ServletContainer.Proofs.Dispatch.Frame

namespace ServletContainer

/-!
# From a request to its application

A host either answers a request itself, without running anything, or hands it to an application in service.

* `Deployment.receive` — what the application gets.
* `Host.deploymentFor?` — the application that a request belongs to.
* `Host.serveExchange_of_noMethod`, `Host.serveExchange_of_unclaimed`, `Host.serveExchange_of_unavailable`,
  `Host.serveExchange_of_available` — the ways that a request can go.
* `Host.serveExchange_cases`, `Host.serveExchange_ways` — one or the other: it is served within its application, or
  nothing runs.
* `Host.settleExchange_spec`, `Host.deployment?_settleExchange` — what the request leaves to the host.
* `Host.AnswersItself.settleExchange_eq` — an exchange in which nothing has happened leaves the host as it was.
* `Application.Routes`, `Application.routes_of_routeWithin` — what becomes of it there: it is turned away, or dispatched.
* `Application.Allows` — the exchange in which a request that is not turned away is dispatched.
* `settle_of_pending_none` — where nothing is waited for, the request is over.
-/

/-- What becomes of `x` within `app`, until something is waited for: `dispatchRequest` if there is no guard, and else it
is turned away by `deny`, or let through and dispatched. -/
inductive Application.Routes (app : Application) (invoke : Invoker) (x : Exchange) : Exchange → Prop
  | unguarded {y : Exchange} : app.guard = none → dispatchRequest invoke app x = some y → Routes app invoke x y
  | denied {guard : Guard} {z : Exchange} {status : Nat} {challenge : Option String} : app.guard = some guard →
    guard.check x = some (.deny status challenge, z) → Routes app invoke x (deny status challenge z)
  | allowed {guard : Guard} {z y : Exchange} : app.guard = some guard → guard.check x = some (.allow, z) →
    dispatchRequest invoke app z = some y → Routes app invoke x (guard.after y)

/-- Whether `a` lets the request of `x` through, to be dispatched in `y`. -/
def Application.Allows (a : Application) (x y : Exchange) : Prop :=
  match a.guard with
  | none => y = x
  | some guard => guard.check x = some (.allow, y)

/-- Without a guard, `Allows` leaves the exchange as it is. -/
theorem Application.Allows.of_guard_eq_none {a : Application} {x : Exchange} (h : a.guard = none) : a.Allows x x := by
  unfold Allows
  rw [h]

/-- With one, `Allows` is what its `check` says. -/
theorem Application.Allows.of_check {a : Application} {guard : Guard} {x y : Exchange} (hguard : a.guard = some guard)
    (h : guard.check x = some (.allow, y)) : a.Allows x y := by
  unfold Allows
  rwa [hguard]

/-- `routeWithin` takes one of the ways that `Routes` lists. -/
theorem Application.routes_of_routeWithin {app : Application} {invoke : Invoker} {x y : Exchange}
    (h : routeWithin invoke app x = some y) : app.Routes invoke x y := by
  unfold routeWithin at h
  split at h
  · next hnone => exact .unguarded hnone h
  · next guard hguard =>
    obtain ⟨⟨decision, z⟩, hz, h⟩ := Option.bind_eq_some_iff.1 h
    cases decision with
    | deny status challenge =>
      obtain rfl := Option.some.inj h
      exact .denied hguard hz
    | allow =>
      obtain ⟨w, hw, rfl⟩ := Option.map_eq_some_iff.1 h
      exact .allowed hguard hz hw

/-- With nothing pending, `settle` is done. -/
theorem settle_of_pending_none {invoke : Invoker} {app : Application} {timeout rounds : Nat} {x : Exchange}
    (h : x.pending = none) : settle invoke app timeout rounds x = some x := by
  unfold settle
  rw [h]

/-- A deployment `isAvailable` if it is started and not marked as unavailable. -/
theorem Deployment.isAvailable_iff {d : Deployment} :
    d.isAvailable = true ↔ d.state = .started ∧ d.unavailable = false := by simp [isAvailable]

/-- The exchange that `d` gets of `x`: the parameters of the path are taken off, and the session that the client asks
for is known. -/
def Deployment.receive (d : Deployment) (x : Exchange) : Exchange :=
  let (path, params) := stripPathParameters x.request.uri
  { x with
    sessions := d.sessions
    request := { x.request with
      uri := path
      contextPath := d.app.contextPath
      requestedSession := requestedSession? d.app.sessionConfig x.request.head.headers params } }

namespace Host

variable {h : Host} {limits : Limits} {timeout : Nat} {x : Exchange} {served : Served} {id : AppId} {d : Deployment}

/-! ### The ways of a request -/

/-- What `find?` gives for a path is published. -/
theorem exists_get?_of_find? {path : String} (hfind : h.find? path = some id) : ∃ c, h.get? c = some id := by
  rcases Option.or_eq_some_iff.1 hfind with hcut | ⟨-, hroot⟩
  · obtain ⟨c, -, hc⟩ := List.exists_of_findSome?_eq_some hcut
    exact ⟨c, hc⟩
  · exact ⟨"", hroot⟩

/-- An exchange that was served by the application `id` (`happ`) is what `serveBy` of its deployment gives, without the
parameters of the path. -/
theorem serveBy_of_serveExchange {id : AppId} {d : Deployment}
    (hserved : h.serveExchange limits timeout x = some served) (happ : served.app = some id)
    (hd : h.deployment? id = some d) :
    serveBy limits timeout d (stripPathParameters x.request.uri).2
      { x with request.uri := (stripPathParameters x.request.uri).1 } = some served.exchange := by
  -- On the three ways on which no application serves, `served.app` is none.
  unfold serveExchange at hserved
  split at hserved
  · obtain rfl := Option.some.inj hserved
    cases happ
  · dsimp only at hserved
    split at hserved
    · obtain rfl := Option.some.inj hserved
      cases happ
    · split at hserved
      · obtain rfl := Option.some.inj hserved
        cases happ
      · next id' _ d' hd' =>
        obtain ⟨y, hy, rfl⟩ := Option.map_eq_some_iff.1 hserved
        obtain rfl := Option.some.inj happ
        obtain rfl := Option.some.inj (hd'.symm.trans hd)
        exact hy

/-- Whether the guards of all applications of `h` work by calls, as those by credentials do. -/
def GuardsByCalls (h : Host) : Prop :=
  ∀ {id d guard}, h.deployment? id = some d → d.app.guard = some guard → guard.WorksByCalls

theorem app_mem_of_deployment? {apps : List Application} (happs : h.deployments.map (·.app) = apps) {id : AppId}
    {d : Deployment} (hd : h.deployment? id = some d) : d.app ∈ apps :=
  happs ▸ List.mem_map_of_mem (List.mem_of_getElem? hd)

/-- The application that the request `r` belongs to, by `find?`. -/
def deploymentFor? (h : Host) (r : Request) : Option Deployment :=
  (h.find? (stripPathParameters r.uri).1).bind h.deployment?

/-- Without a method the request is refused. -/
theorem serveExchange_of_noMethod (hmethod : x.request.head.method = none) :
    h.serveExchange limits timeout x = some ⟨none, refuse x⟩ := by
  unfold serveExchange
  rw [hmethod]
  rfl

section Method

variable (hmethod : x.request.head.method ≠ none)

include hmethod

/-- If `find?` gives no application, it is denied with 404. -/
theorem serveExchange_of_unclaimed (hnone : h.find? (stripPathParameters x.request.uri).1 = none) :
    h.serveExchange limits timeout x = some ⟨none, Exchange.mapResponse
      { x with request.uri := (stripPathParameters x.request.uri).1 }
      (·.writeDefaultError StatusCode.notFound.code)⟩ := by
  unfold serveExchange
  rw [if_neg (by simpa using hmethod)]
  dsimp only
  rw [hnone]

variable (hfind : h.find? (stripPathParameters x.request.uri).1 = some id)

include hfind

/-- If there is no deployment of the application that it gives, nothing is done. -/
theorem serveExchange_of_missing (hd : h.deployment? id = none) :
    h.serveExchange limits timeout x
      = some ⟨none, { x with request.uri := (stripPathParameters x.request.uri).1 }⟩ := by
  unfold serveExchange
  rw [if_neg (by simpa using hmethod)]
  dsimp only
  rw [hfind]
  dsimp only
  rw [hd]

variable (hd : h.deployment? id = some d)

include hd

/-- Otherwise it is handed to `serveBy` of the deployment. -/
theorem serveExchange_of_deployment :
    h.serveExchange limits timeout x = (serveBy limits timeout d (stripPathParameters x.request.uri).2
      { x with request.uri := (stripPathParameters x.request.uri).1 }).map fun y => ⟨some id, y⟩ := by
  unfold serveExchange
  rw [if_neg (by simpa using hmethod)]
  dsimp only
  rw [hfind]
  dsimp only
  rw [hd]

/-- If the deployment is not available, this denies it with 503. -/
theorem serveExchange_of_unavailable (hdown : d.isAvailable = false) :
    h.serveExchange limits timeout x = some ⟨some id, Exchange.mapResponse
      { x with
        sessions := d.sessions
        request := { x.request with
          uri := (stripPathParameters x.request.uri).1, contextPath := d.app.contextPath } }
      (·.writeDefaultError StatusCode.serviceUnavailable.code)⟩ := by
  rw [serveExchange_of_deployment hmethod hfind hd]
  unfold serveBy
  dsimp only
  rw [hdown]
  rfl

/-- If it is, `serveWithin` serves what the deployment `receive`s. -/
theorem serveExchange_of_available (hup : d.isAvailable = true) :
    h.serveExchange limits timeout x = (serveWithin limits timeout d.app (d.receive x)).map fun y => ⟨some id, y⟩ := by
  rw [serveExchange_of_deployment hmethod hfind hd]
  unfold serveBy
  dsimp only
  rw [if_pos hup]
  rfl

end Method

/-- Nothing runs for a request, and then `limits` do not count; or it is served within its application, by `serveWithin`
of what the deployment `receive`s. -/
theorem serveExchange_cases (h : Host) (timeout : Nat) (x : Exchange) :
    (∃ served, served.exchange.journal = x.journal ∧
      ∀ limits, h.serveExchange limits timeout x = some served) ∨
    ∃ id d, h.deploymentFor? x.request = some d ∧ ∀ limits, h.serveExchange limits timeout x
      = (serveWithin limits timeout d.app (d.receive x)).map fun z => ⟨some id, z⟩ := by
  by_cases hmethod : x.request.head.method = none
  · exact .inl ⟨_, rfl, fun _ => serveExchange_of_noMethod hmethod⟩
  cases hfind : h.find? (stripPathParameters x.request.uri).1 with
  | none => exact .inl ⟨_, rfl, fun _ => serveExchange_of_unclaimed hmethod hfind⟩
  | some id =>
    cases hd : h.deployment? id with
    | none => exact .inl ⟨_, rfl, fun _ => serveExchange_of_missing hmethod hfind hd⟩
    | some d =>
      by_cases hup : d.isAvailable = true
      · have hfor : h.deploymentFor? x.request = some d := by rw [deploymentFor?, hfind, Option.bind_some, hd]
        exact .inr ⟨id, d, hfor, fun _ => serveExchange_of_available hmethod hfind hd hup⟩
      · have hdown : d.isAvailable = false := Bool.eq_false_iff.2 hup
        exact .inl ⟨_, rfl, fun _ => serveExchange_of_unavailable hmethod hfind hd hdown⟩

/-- What `served` is where nothing runs for a request: the response apart, all of `x` is as it was. -/
structure AnswersItself (h : Host) (x : Exchange) (served : Served) : Prop where
  now : served.exchange.now = x.now
  supply : served.exchange.supply = x.supply
  journal : served.exchange.journal = x.journal
  pending : served.exchange.pending = x.pending
  dispatcher : served.exchange.dispatcher = x.dispatcher
  servletName : served.exchange.servletName = x.servletName
  locked : served.exchange.response.locked = x.response.locked
  /-- The sessions of an application that is not in service stay as they are. -/
  sessions : ∀ id d, served.app = some id → h.deployment? id = some d → served.exchange.sessions = d.sessions

theorem sessions_eq_of_some {id' : AppId} {d' : Deployment} (hd : h.deployment? id = some d) (happ : some id = some id')
    (hd' : h.deployment? id' = some d') : d.sessions = d'.sessions := by
  obtain rfl := Option.some.inj happ
  exact congrArg Deployment.sessions (Option.some.inj (hd.symm.trans hd'))

namespace AnswersItself

theorem refuse (h : Host) (x : Exchange) : h.AnswersItself x ⟨none, Host.refuse x⟩ where
  now := rfl
  supply := rfl
  journal := rfl
  pending := rfl
  dispatcher := rfl
  servletName := rfl
  locked := (Response.locked_writeHeaders _).trans (Response.locked_setStatus _ _)
  sessions id d happ := by cases happ

/-- Turning a request away, wherever it belongs. -/
theorem deny (h : Host) (x : Exchange) {app : Option AppId} {sessions : SessionStore}
    (hsessions : ∀ id d, app = some id → h.deployment? id = some d → sessions = d.sessions) (request : Request)
    (status : Nat) (challenge : Option String) :
    h.AnswersItself x ⟨app, ServletContainer.deny status challenge { x with sessions, request }⟩ where
  now := rfl
  supply := rfl
  journal := rfl
  pending := rfl
  dispatcher := rfl
  servletName := rfl
  locked := by
    show (Response.writeDefaultError _ status).locked = _
    rw [Response.locked_writeDefaultError]
    cases challenge with
    | none => rfl
    | some c => exact Response.locked_setHeader _ _ _
  sessions := hsessions

end AnswersItself

/-- A request is served within its application, or nothing runs for it. -/
theorem serveExchange_ways (hs : h.serveExchange limits timeout x = some served) :
    (∃ id d, served.app = some id ∧ h.deployment? id = some d ∧
      serveWithin limits timeout d.app (d.receive x) = some served.exchange) ∨ h.AnswersItself x served := by
  -- The ways of the exchange in order: no method, nobody to claim it, nothing deployed, not available.
  by_cases hmethod : x.request.head.method = none
  · obtain rfl := Option.some.inj ((serveExchange_of_noMethod hmethod).symm.trans hs)
    exact .inr (.refuse h x)
  cases hfind : h.find? (stripPathParameters x.request.uri).1 with
  | none =>
    obtain rfl := Option.some.inj ((serveExchange_of_unclaimed hmethod hfind).symm.trans hs)
    exact .inr (.deny h x (fun id d happ => by cases happ) _ _ none)
  | some id =>
    cases hd : h.deployment? id with
    | none =>
      obtain rfl := Option.some.inj ((serveExchange_of_missing hmethod hfind hd).symm.trans hs)
      exact .inr ⟨rfl, rfl, rfl, rfl, rfl, rfl, rfl, fun id d happ => by cases happ⟩
    | some d =>
      by_cases hup : d.isAvailable = true
      · obtain ⟨y, hy, rfl⟩ := Option.map_eq_some_iff.1 ((serveExchange_of_available hmethod hfind hd hup).symm.trans hs)
        exact .inl ⟨id, d, rfl, hd, hy⟩
      · have hdown : d.isAvailable = false := Bool.eq_false_iff.2 hup
        obtain rfl := Option.some.inj ((serveExchange_of_unavailable hmethod hfind hd hdown).symm.trans hs)
        exact .inr (.deny h x (fun id' d' happ hd' => sessions_eq_of_some hd happ hd') _ _ none)

/-! ### What a request leaves -/

/-- `settleExchange` takes over the clock and the supply of the exchange, and appends its journal. -/
theorem settleExchange_spec (h : Host) (served : Served) :
    (h.settleExchange served).now = served.exchange.now ∧
      (h.settleExchange served).supply = served.exchange.supply ∧
      (h.settleExchange served).journal = h.journal ++ served.exchange.journal := by
  unfold settleExchange
  dsimp only
  split
  · exact ⟨rfl, rfl, rfl⟩
  · split <;> exact ⟨rfl, rfl, rfl⟩

/-- Its sessions go to the application that has served it. -/
theorem deployment?_settleExchange {id : AppId} {d : Deployment} (happ : served.app = some id)
    (hd : h.deployment? id = some d) :
    (h.settleExchange served).deployment? id = some { d with sessions := served.exchange.sessions } := by
  have hlt : id < h.deployments.length := (List.getElem?_eq_some_iff.1 hd).1
  unfold settleExchange
  rw [happ]
  change h.deployments[id]? = some d at hd
  simp only [deployment?, hd]
  exact List.getElem?_set_self hlt

/-- The other applications stay as they were. -/
theorem deployment?_settleExchange_of_ne {id : AppId} (happ : served.app ≠ some id) :
    (h.settleExchange served).deployment? id = h.deployment? id := by
  unfold settleExchange
  dsimp only
  split
  · rfl
  · next id' hid' =>
    have hne : id' ≠ id := by
      rintro rfl
      exact happ hid'
    split
    · rfl
    · exact List.getElem?_set_ne hne

/-- No application comes by a request. -/
theorem exists_of_deployment?_settleExchange {id : AppId} {d : Deployment}
    (hd : (h.settleExchange served).deployment? id = some d) :
    ∃ d', h.deployment? id = some d' ∧ d.app = d'.app := by
  by_cases happ : served.app = some id
  · cases hbefore : h.deployment? id with
    | some d' =>
      rw [deployment?_settleExchange happ hbefore] at hd
      obtain rfl := Option.some.inj hd
      exact ⟨d', rfl, rfl⟩
    | none =>
      unfold settleExchange at hd
      rw [happ] at hd
      change h.deployments[id]? = none at hbefore
      simp [deployment?, hbefore] at hd
  · rw [deployment?_settleExchange_of_ne happ] at hd
    exact ⟨d, hd, rfl⟩

/-- So `GuardsByCalls` stays true. -/
theorem GuardsByCalls.settleExchange (hguards : h.GuardsByCalls) (served : Served) :
    (h.settleExchange served).GuardsByCalls := by
  intro id d guard hd hguard
  obtain ⟨d', hd', happ⟩ := exists_of_deployment?_settleExchange hd
  exact hguards hd' (happ ▸ hguard)

/-- If the host `AnswersItself`, and the exchange has started with its clock, its supply and no journal,
`settleExchange` leaves the host as it was. -/
theorem AnswersItself.settleExchange_eq (hs : h.AnswersItself x served) (hnow : x.now = h.now)
    (hsupply : x.supply = h.supply) (hjournal : x.journal = []) : h.settleExchange served = h := by
  have hsame : { h with
      now := served.exchange.now, supply := served.exchange.supply, journal := h.journal ++ served.exchange.journal }
      = h := by
    rw [hs.now, hs.supply, hs.journal, hnow, hsupply, hjournal, List.append_nil]
  -- What the host would take over is what it has, and only the sessions of an application remain.
  unfold settleExchange
  dsimp only
  rw [hsame]
  split
  · rfl
  · next id happ =>
    cases hd : h.deployment? id with
    | none => rfl
    | some d =>
      show h.put id { d with sessions := served.exchange.sessions } = h
      rw [hs.sessions id d happ hd]
      obtain ⟨hlt, hget⟩ := List.getElem?_eq_some_iff.1 hd
      have hset : h.deployments.set id d = h.deployments := hget ▸ List.set_getElem_self hlt
      show { h with deployments := h.deployments.set id d } = h
      rw [hset]

end Host

end ServletContainer
