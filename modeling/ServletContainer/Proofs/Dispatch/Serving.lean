import ServletContainer.Proofs.Dispatch.Lasting
import ServletContainer.Proofs.Host

namespace ServletContainer

/-!
# The end of a request

Serving a request runs dispatches one after another: its own, error pages, and those that it is continued with.
Between them the exchange is at rest.

* `AtRest` — the exchange outside of any dispatch.
* `lasting_atRest` — between its dispatches a served request is at rest.
* `pending_of_settle` — continuations are followed until none is left, by induction on their number.
* `dispatch_frame` — nested dispatches and whole requests.
-/

/-- Whether no dispatch is running in `x`. -/
structure AtRest (x : Exchange) : Prop where
  dispatcher : x.dispatcher = .request
  servletName : x.servletName = none
  unlocked : x.response.locked = false

/-- `AtRest` reads the frame only. -/
theorem SameFrame.atRest {x y : Exchange} (h : SameFrame x y) (hx : AtRest x) : AtRest y :=
  ⟨h.dispatcher.trans hx.dispatcher, h.servletName.trans hx.servletName, h.locked.trans hx.unlocked⟩

namespace AtRest

variable {x y : Exchange}

/-- No change of the request disturbs `AtRest`. -/
theorem mapRequest (h : AtRest x) (f : Request → Request) : AtRest (x.mapRequest f) :=
  ⟨h.dispatcher, h.servletName, h.unlocked⟩

/-- Nor does `writeDefaultError`, which leaves the lock alone. -/
theorem writeDefaultError (h : AtRest x) (status : Nat) : AtRest (x.mapResponse (·.writeDefaultError status)) :=
  ⟨h.dispatcher, h.servletName, (Response.locked_writeDefaultError _ _).trans h.unlocked⟩

/-- Nor does `deny`. -/
theorem deny (h : AtRest x) (status : Nat) (challenge : Option String) :
    AtRest (ServletContainer.deny status challenge x) := by
  refine ⟨h.dispatcher, h.servletName, ?_⟩
  show (Response.writeDefaultError _ status).locked = false
  rw [Response.locked_writeDefaultError]
  cases challenge with
  | none => exact h.unlocked
  | some c => exact (Response.locked_setHeader _ _ _).trans h.unlocked

/-- `prepareError` unlocks the response, so the exchange is `AtRest` behind it as well. -/
theorem prepareError (h : AtRest x) (status : Nat) : AtRest (ServletContainer.prepareError status x) := by
  refine ⟨h.dispatcher, h.servletName, ?_⟩
  show (Response.setStatus _ status).locked = false
  rw [Response.locked_setStatus, Response.locked_resetBuffer]
  rfl

end AtRest

/-! ### Serving -/

/-- `AtRest` is an invariant of serving a request between its dispatches, also where a failure comes from an include:
the dispatch that fails has put the lock back before the failure is answered. -/
theorem lasting_atRest (app : Application) (depth : Nat) :
    Lasting app depth (fun _ => True) fun x y => AtRest x → AtRest y where
  errors := trivial
  asyncs := trivial
  refl _ hx := hx
  trans h h' hx := h' (h hx)
  -- The target starts at rest, as `TopLevel` changes the request only, and keeps the frame.
  dispatched {x place z p} htop _ hp hx := by
    have hz : AtRest z := by
      cases htop with
      | request | async | error => exact hx.mapRequest _
    exact (keeps_invoke app depth place.target place.kind hp).atRest hz
  paths _ _ hx := hx.mapRequest _
  startOver x hx := ⟨hx.dispatcher, hx.servletName, (Response.locked_resetBuffer _).trans hx.unlocked⟩
  prepareError _ status hx := hx.prepareError status
  defaultError _ status hx := hx.writeDefaultError status
  resume _ hx := ⟨hx.dispatcher, hx.servletName, hx.unlocked⟩
  elapse _ _ hx := ⟨hx.dispatcher, hx.servletName, hx.unlocked⟩

/-- A guard that `WorksByCalls` keeps the frame, and with it `AtRest`. -/
theorem Guard.WorksByCalls.keeps_atRest {g : Guard} (hg : g.WorksByCalls) :
    g.Keeps fun x y => AtRest x → AtRest y where
  check h hx := (hg.check h).sameFrame.atRest hx
  deny _ status challenge hx := hx.deny status challenge
  after x hx := (hg.after x).sameFrame.atRest hx

/-- `settle` returns with nothing pending, by induction on `rounds`. -/
theorem pending_of_settle {invoke : Invoker} {app : Application} {timeout rounds : Nat} {x y : Exchange}
    (h : settle invoke app timeout rounds x = some y) : y.pending = none := by
  -- `settle` takes the pending continuation away before it follows it; it may leave another one.
  induction rounds generalizing x with
  | zero =>
    unfold settle at h
    split at h
    · next hp =>
      obtain rfl := Option.some.inj h
      exact hp
    · cases h
  | succ rounds ih =>
    unfold settle at h
    split at h
    · next hp =>
      obtain rfl := Option.some.inj h
      exact hp
    · obtain ⟨z, -, hy⟩ := Option.bind_eq_some_iff.1 h
      exact ih hy

/-! ### Requests -/

/-- `serveWithin` ends `AtRest` with nothing pending, if it starts so. -/
theorem atRest_serveWithin {limits : Limits} {timeout : Nat} {app : Application} {x y : Exchange}
    (hg : ∀ g, app.guard = some g → g.WorksByCalls) (hx : AtRest x)
    (h : serveWithin limits timeout app x = some y) : AtRest y ∧ y.pending = none := by
  have hlasting := lasting_atRest app limits.depth
  obtain ⟨z, hz, hy⟩ := Option.bind_eq_some_iff.1 h
  have hrest : AtRest z := hlasting.routeWithin trivial (fun g hguard => (hg g hguard).keeps_atRest) hz hx
  exact ⟨hlasting.settle hy hrest, pending_of_settle hy⟩

namespace Host

variable {h : Host} {limits : Limits} {timeout : Nat} {x : Exchange}

/-- So does a host's `serveExchange`, where no application is asked too. -/
theorem atRest_serveExchange {served : Served} (hg : ∀ d ∈ h.deployments, ∀ g, d.app.guard = some g → g.WorksByCalls)
    (hx : AtRest x) (hp : x.pending = none) (hs : h.serveExchange limits timeout x = some served) :
    AtRest served.exchange ∧ served.exchange.pending = none := by
  rcases serveExchange_ways hs with ⟨id, d, -, hd, hy⟩ | hanswers
  · have hreceived : AtRest (d.receive x) := ⟨hx.dispatcher, hx.servletName, hx.unlocked⟩
    exact atRest_serveWithin (hg d (List.mem_of_getElem? hd)) hreceived hy
  · refine ⟨⟨?_, ?_, ?_⟩, hanswers.pending.trans hp⟩
    · exact hanswers.dispatcher.trans hx.dispatcher
    · exact hanswers.servletName.trans hx.servletName
    · exact hanswers.locked.trans hx.unlocked

end Host

/-- **Frame of dispatches.** Whatever the filters and servlets of an application do, and however deeply their dispatches
are nested, a `forwardWith` or `includeWith` that returns keeps `SameFrame`: paths, kind of the dispatch, name of the
servlet, and lock. `includeWith` also puts the attributes of `IncludeAttribute.all` back, and the first of nested
forwards removes those of `ForwardAttribute.all`. So `serve` ends `AtRest`, with nothing pending, if the guards work by
calls as well. -/
theorem dispatch_frame :
    (∀ (app : Application) (depth : Nat) (location : String) (x y : Exchange) (result : Outcome),
      forwardWith (invoke app depth) app location x = some (result, y) →
        SameFrame x y ∧
        ((∀ n ∈ ForwardAttribute.all, x.request.attribute? n = none) →
          ∀ n ∈ ForwardAttribute.all, y.request.attribute? n = none)) ∧
    (∀ (app : Application) (depth : Nat) (location : String) (x y : Exchange) (result : Outcome),
      includeWith (invoke app depth) app location x = some (result, y) →
        SameFrame x y ∧ ∀ n ∈ IncludeAttribute.all, y.request.attribute? n = x.request.attribute? n) ∧
    (∀ (host host' : Host) (limits : Limits) (timeout : Nat) (request : Request) (input : Option Source)
      (response : Response) (served : Host.Served),
      (∀ d ∈ host.deployments, ∀ g, d.app.guard = some g → g.WorksByCalls) → response.locked = false →
      host.serve limits timeout request input response = some (served, host') →
        AtRest served.exchange ∧ served.exchange.pending = none) := by
  refine ⟨?_, ?_, ?_⟩
  · intro app depth location x y result h
    have hf := keeps_forwardWith app location (fun target => keeps_invoke app depth target .forward) h
    exact ⟨hf, attribute?_forwardWith app location h⟩
  · intro app depth location x y result h
    have hf := keeps_includeWith app location (fun target => keeps_invoke app depth target .inclusion) h
    exact ⟨hf, attribute?_includeWith app location h⟩
  · intro host host' limits timeout request input response served hg hl h
    obtain ⟨served', hs, heq⟩ := Option.map_eq_some_iff.1 h
    obtain rfl : served' = served := congrArg Prod.fst heq
    exact Host.atRest_serveExchange hg ⟨rfl, rfl, hl⟩ rfl hs

/-! ### A servlet that relays to itself -/

/-- A servlet that includes another target and defers the request. Where it is itself included it fails. -/
def relayProgram : Program :=
  .observe fun s =>
    if s.dispatcher = .inclusion then .fail (.status 500 none)
    else .jump .inclusion "/part?x=1" fun _ => .perform (.startAsync (.complete [])) .finish

/-- An application with `relayProgram` as its only servlet, behind a guard. -/
def relayApplication : Application where
  contextPath := ""
  displayName := "ROOT"
  servlets := [⟨"relay", relayProgram, fun _ => none, false⟩]
  filters := []
  mapper := { MappingTable.empty with default := some "relay" }
  errorPages := .empty
  sessionConfig := .standard
  guard := some (PathGate.guard ⟨none⟩)
  resources := none

/-- A host with the `relayApplication` in service. -/
def relayHost : Host :=
  { Host.start [] with
    deployments := [{ Deployment.ofApplication relayApplication with state := .started }]
    published := Table.empty.insert "" 0 }

/-- A request that leads to the `relayProgram`. -/
def relayExchange : Exchange := .start (.ofLine "GET /a HTTP/1.1") none (.detached "HTTP/1.1") 0 []

/-- A forward in which an include fails, an include that fails, and a request that is deferred. -/
theorem dispatch_frame_relay :
    (∃ y, forwardWith (invoke relayApplication 3) relayApplication "/b" relayExchange = some (.ok (), y) ∧
      SameFrame relayExchange y ∧ ∀ n ∈ ForwardAttribute.all, y.request.attribute? n = none) ∧
    (∃ y, includeWith (invoke relayApplication 3) relayApplication "/b" relayExchange
        = some (.error (.status 500 none), y) ∧
      SameFrame relayExchange y ∧
      ∀ n ∈ IncludeAttribute.all, y.request.attribute? n = relayExchange.request.attribute? n) ∧
    (∃ served host', relayHost.serve ⟨3, 1⟩ 10 relayExchange.request none (.detached "HTTP/1.1")
        = some (served, host') ∧
      AtRest served.exchange ∧ served.exchange.pending = none) := by
  refine ⟨?_, ?_, ?_⟩
  · -- The runs are computed; `dispatch_frame` says the rest of them.
    have hrun : (forwardWith (invoke relayApplication 3) relayApplication "/b" relayExchange).map Prod.fst
        = some (.ok ()) := by decide +kernel
    obtain ⟨⟨result, y⟩, hy, rfl⟩ := Option.map_eq_some_iff.1 hrun
    obtain ⟨hf, hattr⟩ := dispatch_frame.1 relayApplication 3 "/b" relayExchange y _ hy
    exact ⟨y, hy, hf, hattr fun n _ => rfl⟩
  · have hrun : (includeWith (invoke relayApplication 3) relayApplication "/b" relayExchange).map Prod.fst
        = some (.error (.status 500 none)) := by decide +kernel
    obtain ⟨⟨result, y⟩, hy, rfl⟩ := Option.map_eq_some_iff.1 hrun
    exact ⟨y, hy, dispatch_frame.2.1 relayApplication 3 "/b" relayExchange y _ hy⟩
  · have hrun : (relayHost.serve ⟨3, 1⟩ 10 relayExchange.request none (.detached "HTTP/1.1")).isSome = true := by
      decide +kernel
    obtain ⟨⟨served, host'⟩, hserved⟩ := Option.isSome_iff_exists.1 hrun
    have hguard : ∀ d ∈ relayHost.deployments, ∀ g, d.app.guard = some g → g.WorksByCalls := by
      intro d hd g hg
      obtain rfl := List.mem_singleton.1 hd
      obtain rfl := Option.some.inj hg
      exact PathGate.worksByCalls_guard ⟨none⟩
    exact ⟨served, host', hserved, dispatch_frame.2.2 relayHost host' _ _ _ _ _ served hguard rfl hserved⟩

end ServletContainer
