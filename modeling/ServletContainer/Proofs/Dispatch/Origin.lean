import ServletContainer.Proofs.Dispatch.Nesting

namespace ServletContainer

/-!
# What a request came with

Whatever runs for a request, its target stays the one of the request line, and the session that the client asked for
stays the same. Every component sees both.

* `SameOrigin` — two exchanges whose requests agree in them.
* `ByCalls.sameOrigin`, `steady_sameOrigin` — calls keep them, and so do dispatches.
* `SameOrigin.of_leadsTo` — what a component leads to sees the same.
* `lasting_sameOrigin`, `showsOrigin_serveWithin` — all that runs while a request is served sees them.
-/

/-- Whether the requests of `x` and `y` have the same target on their request lines, and ask for the same session. -/
structure SameOrigin (x y : Exchange) : Prop where
  target : y.request.head.target = x.request.head.target
  requested : y.request.requestedSession = x.request.requestedSession

namespace SameOrigin

variable {x y z : Exchange}

/-- An exchange is of the `SameOrigin` as itself. -/
theorem refl (x : Exchange) : SameOrigin x x := ⟨rfl, rfl⟩

/-- `SameOrigin` composes. -/
theorem trans (h : SameOrigin x y) (h' : SameOrigin y z) : SameOrigin x z :=
  ⟨h'.target.trans h.target, h'.requested.trans h.requested⟩

theorem of_sameButPlace {request : Request} (h : x.request.SameButPlace request) (response : Response) :
    SameOrigin x { x with request, response } := ⟨congrArg RequestHead.target h.head, h.requestedSession⟩

/-- The same of `mapRequest`. -/
theorem of_mapRequest {f : Request → Request} (h : x.request.SameButPlace (f x.request)) :
    SameOrigin x (x.mapRequest f) := .of_sameButPlace h x.response

/-- `Jump.into` keeps the origin. -/
theorem of_into (app : Application) (location : String) (target : MappingMatch) (x : Exchange) (j : Jump) :
    SameOrigin x (j.into app location target x) := by
  obtain ⟨request, response, heq, hplace⟩ := j.exists_into_eq app location target x
  exact heq ▸ .of_sameButPlace hplace response

/-- So does `Jump.outOf`. -/
theorem of_outOf (x y : Exchange) (j : Jump) : SameOrigin y (j.outOf x y) := by
  obtain ⟨request, response, heq, hplace⟩ := j.exists_outOf_eq x y
  exact heq ▸ .of_sameButPlace hplace response

/-- And so does a `TopLevel` dispatch, before its target runs. -/
theorem of_topLevel {app : Application} {place : Place} (h : TopLevel app x place z) : SameOrigin x z := by
  obtain ⟨request, rfl, hplace⟩ := h.exists_eq
  exact .of_sameButPlace hplace x.response

end SameOrigin

/-! ### Calls and dispatches -/

/-- No step of an application's call reaches the request line or `requestedSession`. -/
theorem Op.Step.sameOrigin {op : Op} {x y : Exchange} (h : op.Step x y) : SameOrigin x y := by
  cases h with
  | put name v _ => exact .of_mapRequest (Request.sameButAttributes_putAttribute _ name v).sameButPlace
  | respond | store | bind | fields | input | defer | note => exact ⟨rfl, rfl⟩

theorem Op.sameOrigin_perform {op : Op} {x : Exchange} {p : op.Reply × Exchange} (h : op.perform x = some p) :
    SameOrigin x p.2 :=
  (Op.steps_perform h).lift .refl .trans Op.Step.sameOrigin

/-- What is done `ByCalls`, by a guard in particular, keeps the origin. -/
theorem ByCalls.sameOrigin {x y : Exchange} (h : ByCalls x y) : SameOrigin x y := by
  induction h with
  | start => exact .refl x
  | call op _ hp ih => exact ih.trans (Op.sameOrigin_perform hp)
  | principal caller _ ih => exact ih.trans ⟨rfl, rfl⟩

/-- `dispatchWith` keeps the origin if the `invoke` within it does (`hi`). -/
theorem Jump.carries_sameOrigin {app : Application} {location : String} {invoke : Invoker} (j : Jump)
    (hi : ∀ target, Carries SameOrigin (invoke target j.kind)) :
    Carries SameOrigin (dispatchWith invoke app j location) :=
  carries_of_around .refl .trans (fun _ => ⟨rfl, rfl⟩) (fun target x => .of_into app location target x j)
    (fun x y => .of_outOf x y j) hi

/-- So `SameOrigin` is `Steady`. -/
theorem steady_sameOrigin : Steady (fun _ => True) (fun _ => True) SameOrigin where
  forwards := trivial
  includes := trivial
  refl := .refl
  trans := .trans
  perform _ hp := Op.sameOrigin_perform hp
  entered _ _ _ := ⟨rfl, rfl⟩
  left _ _ _ := ⟨rfl, rfl⟩
  within _ h := ⟨h.target, h.requested⟩
  forward hi := Jump.carries_sameOrigin .forward hi
  inclusion hi := Jump.carries_sameOrigin .inclusion hi

/-! ### Components -/

section Components

variable {app : Application} {i i' : Invocation}

/-- A component is invoked with the origin of the one that `Leads` to it. -/
theorem SameOrigin.of_leads (h : Invocation.Leads app i i') : SameOrigin i.exchange i'.exchange := by
  cases h with
  | proceed _ hpoint => exact steady_sameOrigin.comesTo app.uses_true i.uses_true hpoint
  | @jump _ j location _ _ x target _ _ hpoint _ _ =>
    have hinto := SameOrigin.of_into app location target x j
    exact (steady_sameOrigin.comesTo app.uses_true i.uses_true hpoint).trans ⟨hinto.target, hinto.requested⟩

/-- A component is invoked with the origin of all that are on the way to it, by induction on `LeadsTo`. -/
theorem SameOrigin.of_leadsTo (h : Invocation.LeadsTo app i i') : SameOrigin i.exchange i'.exchange := by
  induction h with
  | refl => exact .refl _
  | tail _ hlast ih => exact ih.trans (.of_leads hlast)

/-- Every component that an exchange `Invokes` has the origin of the exchange. -/
theorem SameOrigin.of_invokes {x : Exchange} (h : app.Invokes x i) : SameOrigin x i.exchange := by
  obtain ⟨htop, -, hleads⟩ := h
  have hplace := SameOrigin.of_topLevel htop
  have hchain := SameOrigin.of_leadsTo hleads
  exact ⟨hchain.target.trans hplace.target, hchain.requested.trans hplace.requested⟩

end Components

/-! ### Requests -/

/-- Between the dispatches of a served request its origin stays that of `x₀`. -/
theorem lasting_sameOrigin (app : Application) (depth : Nat) (x₀ : Exchange) :
    Lasting app depth (fun _ => True) fun x y => SameOrigin x₀ x → SameOrigin x₀ y where
  errors := trivial
  asyncs := trivial
  refl _ hx := hx
  trans h h' hx := h' (h hx)
  dispatched {x place z p} htop _ hp hx := by
    -- `steady_sameOrigin`: whether the component returns or fails, its dispatches keep what the request came with.
    have hrun : SameOrigin z p.2 := steady_sameOrigin.invoke app.uses_true depth place.target trivial hp
    exact hx.trans ((SameOrigin.of_topLevel htop).trans hrun)
  paths _ _ hx := hx.trans ⟨rfl, rfl⟩
  startOver _ hx := hx.trans ⟨rfl, rfl⟩
  prepareError _ _ hx := hx.trans ⟨rfl, rfl⟩
  defaultError _ _ hx := hx.trans ⟨rfl, rfl⟩
  resume {x c} _ hx := by
    have hset := (sameButAttributes_setAttributes x.request c.attributes).sameButPlace
    exact hx.trans ⟨congrArg RequestHead.target hset.head, hset.requestedSession⟩
  elapse _ _ hx := hx.trans ⟨rfl, rfl⟩

/-- A guard that `WorksByCalls` keeps it as well. -/
theorem Guard.WorksByCalls.keeps_sameOrigin {g : Guard} (hg : g.WorksByCalls) (x₀ : Exchange) :
    g.Keeps fun x y => SameOrigin x₀ x → SameOrigin x₀ y where
  check hp hx := hx.trans (hg.check hp).sameOrigin
  deny _ _ _ hx := hx.trans ⟨rfl, rfl⟩
  after x hx := hx.trans (hg.after x).sameOrigin

/-- Whether `view` shows what the request of `x` came with. -/
def Snapshot.ShowsOriginOf (view : Snapshot) (x : Exchange) : Prop :=
  view.request.head.target = x.request.head.target ∧ view.request.requestedSession = x.request.requestedSession

/-- `serveWithin` keeps the origin, and every component that runs in it sees the origin, if the guard `WorksByCalls`. -/
theorem showsOrigin_serveWithin {app : Application} (hguard : ∀ guard, app.guard = some guard → guard.WorksByCalls)
    {limits : Limits} {timeout : Nat} {x y : Exchange} (h : serveWithin limits timeout app x = some y) :
    SameOrigin x y ∧ Tells (fun _ view => view.ShowsOriginOf x) x y := by
  -- Every invocation starts from an exchange that is still of the same origin, by `Lasting.tells`.
  have hlasting := (lasting_sameOrigin app limits.depth x).tells
  have hguards : ∀ g, app.guard = some g → g.Keeps fun y z =>
      SameOrigin x y → SameOrigin x z ∧ Tells (app.InvokesIn (SameOrigin x)) y z :=
    fun g hsome => ((hguard g hsome).keeps_sameOrigin x).tells (hguard g hsome)
  obtain ⟨hsame, htells⟩ := hlasting.serveWithin trivial hguards h (.refl x)
  refine ⟨hsame, htells.mono ?_⟩
  rintro ref view ⟨z, i, hz, hi, rfl, rfl⟩
  have hseen := hz.trans (SameOrigin.of_invokes hi)
  exact ⟨hseen.target, hseen.requested⟩

end ServletContainer
