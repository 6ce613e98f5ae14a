import ServletContainer.Proofs.Dispatch.Places
import ServletContainer.Proofs.Host

namespace ServletContainer

/-!
# What lasts while a request is served

Serving a request makes dispatches of its own one after another: to the servlet of the request, to error pages, and
to wherever a deferred request is continued. A relation that each of them keeps, and so does what is done between
them, is kept by serving the request.

* `TopLevel` — the dispatches of a served request, by where they run and what their target gets.
* `Lasting` — the steps: these dispatches, and what is done before, between and after them.
* `Guard.Keeps` — the steps of a guard.
* `Lasting.handleError`, `Lasting.settle`, `Lasting.serveWithin` — from steps to the whole.
-/

/-! ### Dispatches -/

/-- A dispatch that the container makes for `x`, with its `Place` and the exchange that it starts from. -/
inductive TopLevel (app : Application) (x : Exchange) : Place → Exchange → Prop
  /-- The request goes to the servlet that its path is mapped to. -/
  | request {target} : app.mapper.map? x.request.relativePath = some target →
    TopLevel app x (.top .request x.request.uri x.request.query target)
      (x.mapRequest fun r => { r with servletPath := target.servletPath, pathInfo := target.pathInfo })
  /-- A deferred request is continued at a path. -/
  | async {location target} : app.resolve (Request.splitTarget location).1 = .ok target →
    TopLevel app x
      (.top .async (app.contextPath ++ (Request.splitTarget location).1)
        ((Request.splitTarget location).2.or x.request.query) target)
      (x.mapRequest (retarget app (Request.splitTarget location).1 (Request.splitTarget location).2 target))
  /-- A failure goes to an error page. -/
  | error {location e target} : app.mapper.map? (Request.splitTarget location).1 = some target →
    TopLevel app x
      (.top .error (app.contextPath ++ (Request.splitTarget location).1)
        ((Request.splitTarget location).2.or x.request.query) target)
      (x.mapRequest fun r => retarget app (Request.splitTarget location).1 (Request.splitTarget location).2 target
        (describeError e x.servletName r))

/-- A `TopLevel` dispatch gives its target another place in the request, and leaves all else of the exchange. -/
theorem TopLevel.exists_eq {app : Application} {x z : Exchange} {place : Place} (h : TopLevel app x place z) :
    ∃ request, z = { x with request } ∧ x.request.SameButPlace request := by
  cases h with
  | request => exact ⟨_, rfl, .withPathState x.request ⟨_, _, _, _⟩⟩
  | async => exact ⟨_, rfl, sameButPlace_retarget ..⟩
  | @error location e target =>
    have hdescribed := (sameButAttributes_describeError x.request e x.servletName).sameButPlace
    exact ⟨_, rfl, hdescribed.trans (sameButPlace_retarget _ app (Request.splitTarget location).1 _ target)⟩

theorem TopLevel.view_eq {app : Application} {x z : Exchange} {place : Place} (h : TopLevel app x place z) {α : Type}
    {f : Exchange → α} (hf : ∀ x change, f (x.mapRequest change) = f x) : f z = f x := by
  obtain ⟨request, rfl, -⟩ := h.exists_eq
  exact hf x fun _ => request

/-- The attributes that a continuation brings: `complete` and `dispatch` have some. -/
def Continuation.attributes : Continuation → List (String × Value)
  | .complete attributes => attributes
  | .dispatch attributes _ => attributes
  | .abandon => []
  | .unanswered => []

/-- A guard whose `check` and `after` keep `R`, and so does turning a request away with `deny`. -/
structure Guard.Keeps (R : Exchange → Exchange → Prop) (g : Guard) : Prop where
  check : ∀ {x p}, g.check x = some p → R x p.2
  deny : ∀ x status challenge, R x (deny status challenge x)
  after : ∀ x, R x (g.after x)

/-- A relation `R` that is kept by the `TopLevel` dispatches of some `kinds`, and by what is done around them. -/
structure Lasting (app : Application) (depth : Nat) (kinds : DispatcherKind → Prop) (R : Exchange → Exchange → Prop) :
    Prop where
  errors : kinds .error
  asyncs : kinds .async
  refl : ∀ x, R x x
  trans : ∀ {x y z}, R x y → R y z → R x z
  dispatched : ∀ {x place z p}, TopLevel app x place z → kinds place.kind →
    invoke app depth place.target place.kind z = some p → R x p.2
  /-- The paths of the request are put back. -/
  paths : ∀ x p, R x (x.mapRequest (·.withPathState p))
  startOver : ∀ x, R x x.startOver
  prepareError : ∀ x status, R x (prepareError status x)
  defaultError : ∀ x status, R x (x.mapResponse (·.writeDefaultError status))
  /-- A deferred request is taken up again. -/
  resume : ∀ {x c}, x.pending = some c →
    R x (Exchange.mapRequest { x with pending := none } (setAttributes c.attributes))
  /-- Time passes. -/
  elapse : ∀ x millis, R x { x with now := x.now + millis }

namespace Lasting

variable {app : Application} {depth : Nat} {kinds : DispatcherKind → Prop} {R : Exchange → Exchange → Prop}
  (h : Lasting app depth kinds R)

include h

variable {x y : Exchange}

/-- The dispatch of an error page keeps `R`, between the description of the failure and the paths that are put back. -/
theorem runErrorPage {location : String} {target : MappingMatch} {e : ServletError} {p : Outcome × Exchange}
    (ht : app.mapper.map? (Request.splitTarget location).1 = some target)
    (hp : runErrorPage (invoke app depth) app (Request.splitTarget location).1 (Request.splitTarget location).2 target e
      x = some p) : R x p.2 := by
  obtain ⟨q, hq, rfl⟩ := Option.map_eq_some_iff.1 hp
  exact h.trans (h.dispatched (.error ht) h.errors hq) (h.paths _ _)

/-- Whatever `handleError` comes to, it keeps `R`: `prepareError`, the page, and `writeDefaultError` do. -/
theorem handleError {e : ServletError} (hy : handleError (invoke app depth) app e x = some y) : R x y := by
  have hprepared := h.prepareError x e.statusCode
  -- The branches of `handleError`, each of which ends with the page or with the text.
  unfold ServletContainer.handleError at hy
  split at hy
  · obtain rfl := Option.some.inj hy
    exact h.refl x
  · dsimp only at hy
    split at hy
    · obtain rfl := Option.some.inj hy
      exact h.trans hprepared (h.defaultError _ _)
    · split at hy
      · obtain rfl := Option.some.inj hy
        exact h.trans hprepared (h.defaultError _ _)
      · next ht =>
        obtain ⟨⟨result, z⟩, hz, rfl⟩ := Option.map_eq_some_iff.1 hy
        have hpage := h.trans hprepared (h.runErrorPage ht hz)
        cases result with
        | ok _ => exact hpage
        | error _ =>
          dsimp only
          split
          · exact hpage
          · exact h.trans hpage (h.defaultError _ _)

/-- `dispatchRequest` keeps `R`, with its failures answered. -/
theorem dispatchRequest (hrequest : kinds .request) (hy : dispatchRequest (invoke app depth) app x = some y) : R x y := by
  unfold ServletContainer.dispatchRequest at hy
  dsimp only at hy
  split at hy
  · exact h.handleError hy
  · next target ht =>
    obtain ⟨⟨result, z⟩, hz, hy⟩ := Option.bind_eq_some_iff.1 hy
    have hrun : R x z := h.dispatched (.request ht) hrequest hz
    cases result with
    | ok _ =>
      obtain rfl := Option.some.inj hy
      exact hrun
    | error e => exact h.trans hrun (h.handleError hy)

/-- So does `routeWithin`, if the guard does (`hg`). -/
theorem routeWithin (hrequest : kinds .request) (hg : ∀ g, app.guard = some g → g.Keeps R)
    (hy : routeWithin (invoke app depth) app x = some y) : R x y := by
  cases app.routes_of_routeWithin hy with
  | unguarded _ hy => exact h.dispatchRequest hrequest hy
  | denied hguard hz => exact h.trans ((hg _ hguard).check hz) ((hg _ hguard).deny _ _ _)
  | allowed hguard hz hw =>
    have hdispatched := h.trans (h.dispatchRequest hrequest hw) ((hg _ hguard).after _)
    exact h.trans ((hg _ hguard).check hz) hdispatched

/-- A deferred dispatch keeps `R`, where the path leads to a target and where it does not. -/
theorem dispatchAsync {location : String} {p : Outcome × Exchange}
    (hp : dispatchAsync (invoke app depth) app location x = some p) : R x p.2 := by
  have hover := h.startOver x
  unfold ServletContainer.dispatchAsync at hp
  split at hp
  · obtain rfl := Option.some.inj hp
    exact h.refl x
  · next response hreset =>
    have hx : x.startOver = { x with response } := by simp [Exchange.startOver, Exchange.onResponse, hreset]
    rw [hx] at hover
    dsimp only at hp
    split at hp
    · obtain rfl := Option.some.inj hp
      exact hover
    · next target ht => exact h.trans hover (h.dispatched (.async ht) h.asyncs hp)

/-- `continueWith` keeps `R`, from the exchange in which the continuation is pending. -/
theorem continueWith {timeout : Nat} {c : Continuation} (hc : x.pending = some c)
    (hy : continueWith (invoke app depth) app timeout c { x with pending := none } = some y) : R x y := by
  -- Whatever `c` is, it starts by taking itself up.
  have hresumed := h.resume hc
  cases c with
  | complete attributes =>
    obtain rfl := Option.some.inj hy
    exact hresumed
  | dispatch attributes path =>
    obtain ⟨⟨result, z⟩, hz, hy⟩ := Option.bind_eq_some_iff.1 hy
    have hrun := h.trans hresumed (h.dispatchAsync hz)
    cases result with
    | ok _ =>
      obtain rfl := Option.some.inj hy
      exact hrun
    | error e => exact h.trans hrun (h.handleError hy)
  | abandon => exact h.trans hresumed (h.handleError hy)
  | unanswered => exact h.trans hresumed (h.trans (h.elapse _ _) (h.handleError hy))

/-- So `settle` keeps `R`, by induction on `rounds`. -/
theorem settle {timeout rounds : Nat} (hy : settle (invoke app depth) app timeout rounds x = some y) : R x y := by
  -- By induction on `rounds`, the continuations that may follow one another.
  induction rounds generalizing x with
  | zero =>
    unfold ServletContainer.settle at hy
    split at hy
    · obtain rfl := Option.some.inj hy
      exact h.refl x
    · cases hy
  | succ rounds ih =>
    unfold ServletContainer.settle at hy
    split at hy
    · obtain rfl := Option.some.inj hy
      exact h.refl x
    · next c hc =>
      obtain ⟨z, hz, hy⟩ := Option.bind_eq_some_iff.1 hy
      exact h.trans (h.continueWith hc hz) (ih hy)

/-- And so does `serveWithin`. Thus what is `Lasting` need be proved of single dispatches only, and of what is done
around them. -/
theorem serveWithin (hrequest : kinds .request) (hg : ∀ g, app.guard = some g → g.Keeps R) {rounds timeout : Nat}
    (hy : serveWithin ⟨depth, rounds⟩ timeout app x = some y) : R x y := by
  obtain ⟨z, hz, hy⟩ := Option.bind_eq_some_iff.1 hy
  exact h.trans (h.routeWithin hrequest hg hz) (h.settle hy)

end Lasting

end ServletContainer
