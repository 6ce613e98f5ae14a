import ServletContainer.Proofs.Dispatch.Lasting
import ServletContainer.Proofs.Exchange.MadeCalls

namespace ServletContainer

/-!
# The calls made while a request is served

Whatever is dispatched to whatever depth, all that happens to the sessions of an exchange is that filters, servlets and
the guard make calls. What the container does around them concerns neither the sessions nor what the client asked for.

* `Jump.aside_into`, `Jump.aside_outOf`, `TopLevel.aside` — what is done around a dispatch.
* `lasting_makesCalls` — dispatches.
* `exists_makes_serveWithin` — the whole of a request, from the guard to its end.
-/

/-- Whether `y` comes of `x` by calls, with `Exchange.Makes`. -/
def MakesCalls (x y : Exchange) : Prop := ∃ calls, x.Makes calls y

namespace MakesCalls

variable {x y z : Exchange}

theorem of_aside (h : x.Aside y) : MakesCalls x y := ⟨_, .of_aside h⟩

/-- `MakesCalls` composes, call lists being appended. -/
theorem trans (h : MakesCalls x y) (h' : MakesCalls y z) : MakesCalls x z := by
  obtain ⟨calls, h⟩ := h
  obtain ⟨calls', h'⟩ := h'
  exact ⟨_, h.trans h'⟩

theorem perform {op : Op} {p : op.Reply × Exchange} (h : op.perform x = some p) : MakesCalls x p.2 :=
  ⟨_, .call op .start h⟩

end MakesCalls

/-! ### Around a dispatch -/

namespace Exchange

variable {x : Exchange}

theorem aside_mapResponse (x : Exchange) (f : Response → Response) : x.Aside (x.mapResponse f) :=
  ⟨Nat.le_refl _, rfl, rfl, rfl, rfl⟩

theorem aside_startOver (x : Exchange) : x.Aside x.startOver := ⟨Nat.le_refl _, rfl, rfl, rfl, rfl⟩

/-- A change of the request concerns none if it keeps `requestedSession`. -/
theorem aside_mapRequest {f : Request → Request} (h : (f x.request).requestedSession = x.request.requestedSession) :
    x.Aside (x.mapRequest f) := ⟨Nat.le_refl _, rfl, rfl, rfl, h⟩

theorem aside_of_sameButPlace {request : Request} (h : x.request.SameButPlace request) (response : Response) :
    x.Aside { x with request, response } := ⟨Nat.le_refl _, rfl, rfl, rfl, h.requestedSession⟩

end Exchange

namespace Jump

variable (app : Application) (location : String) (target : MappingMatch) (x y : Exchange)

/-- `Jump.into` changes request and response, and concerns no session. -/
theorem aside_into (j : Jump) : x.Aside (j.into app location target x) := by
  obtain ⟨request, response, heq, hplace⟩ := j.exists_into_eq app location target x
  exact heq ▸ Exchange.aside_of_sameButPlace hplace response

/-- Neither does `Jump.outOf`. -/
theorem aside_outOf (j : Jump) : y.Aside (j.outOf x y) := by
  obtain ⟨request, response, heq, hplace⟩ := j.exists_outOf_eq x y
  exact heq ▸ Exchange.aside_of_sameButPlace hplace response

/-- So `dispatchWith` makes the calls that the `invoke` within it makes (`hi`). -/
theorem carries_makesCalls {app : Application} {location : String} {invoke : Invoker} (j : Jump)
    (hi : ∀ target, Carries MakesCalls (invoke target j.kind)) :
    Carries MakesCalls (dispatchWith invoke app j location) :=
  carries_of_around (fun x => .of_aside (.refl x)) .trans (fun x => .of_aside x.aside_startOver)
    (fun target x => .of_aside (aside_into app location target x j)) (fun x y => .of_aside (aside_outOf x y j)) hi

end Jump

/-- A `TopLevel` dispatch concerns no session before its target runs. -/
theorem TopLevel.aside {app : Application} {x z : Exchange} {place : Place} (h : TopLevel app x place z) :
    x.Aside z := by
  obtain ⟨request, rfl, hplace⟩ := h.exists_eq
  exact Exchange.aside_of_sameButPlace hplace x.response

/-! ### Dispatches -/

/-- `MakesCalls` is `Steady`: all that a dispatch does to sessions is done by the calls of what runs in it. -/
theorem steady_makesCalls : Steady (fun _ => True) (fun _ => True) MakesCalls where
  forwards := trivial
  includes := trivial
  refl x := .of_aside (.refl x)
  trans := .trans
  perform _ hp := .perform hp
  entered x _ _ := .of_aside ⟨Nat.le_refl x.now, rfl, rfl, rfl, rfl⟩
  left x _ _ := .of_aside ⟨Nat.le_refl x.now, rfl, rfl, rfl, rfl⟩
  within {x y servlet kind filters} _ h := by
    have hentered : MakesCalls x (x.enter servlet kind filters) := .of_aside ⟨Nat.le_refl x.now, rfl, rfl, rfl, rfl⟩
    exact (hentered.trans h).trans (.of_aside ⟨Nat.le_refl y.now, rfl, rfl, rfl, rfl⟩)
  forward hi := Jump.carries_makesCalls .forward hi
  inclusion hi := Jump.carries_makesCalls .inclusion hi

/-! ### Requests -/

/-- And it is `Lasting`: what serving a request does around its dispatches concerns no session. -/
theorem lasting_makesCalls (app : Application) (depth : Nat) : Lasting app depth (fun _ => True) MakesCalls where
  errors := trivial
  asyncs := trivial
  refl x := .of_aside (.refl x)
  trans := .trans
  dispatched {x place z p} htop _ hp := by
    -- The dispatch itself makes the calls; by `htop.aside` all around it is aside.
    have hrun : MakesCalls z p.2 := steady_makesCalls.invoke app.uses_true depth place.target trivial hp
    exact (MakesCalls.of_aside htop.aside).trans hrun
  paths x p := .of_aside (Exchange.aside_mapRequest rfl)
  startOver x := .of_aside x.aside_startOver
  prepareError x _ := .of_aside ⟨Nat.le_refl x.now, rfl, rfl, rfl, rfl⟩
  defaultError x _ := .of_aside (x.aside_mapResponse _)
  resume {x c} _ := .of_aside
    ⟨Nat.le_refl x.now, rfl, rfl, rfl, (sameButAttributes_setAttributes x.request c.attributes).requestedSession⟩
  elapse x millis := .of_aside ⟨Nat.le_add_right x.now millis, rfl, rfl, rfl, rfl⟩

/-- What comes `ByCalls` makes session calls only. -/
theorem ByCalls.makesCalls {x y : Exchange} (h : ByCalls x y) : MakesCalls x y := by
  induction h with
  | start => exact .of_aside (.refl x)
  | call _ _ hp ih => exact ih.trans (.perform hp)
  | principal _ _ ih => exact ih.trans (.of_aside (Exchange.aside_mapRequest rfl))

/-- So a guard that `WorksByCalls` keeps `MakesCalls`. -/
theorem Guard.WorksByCalls.keeps_makesCalls {guard : Guard} (h : guard.WorksByCalls) : guard.Keeps MakesCalls where
  check hp := (h.check hp).makesCalls
  deny x _ _ := .of_aside (x.aside_mapResponse _)
  after x := (h.after x).makesCalls

/-- Serving a request makes a list of calls, and does nothing else to the sessions, if the guard `WorksByCalls`. -/
theorem exists_makes_serveWithin {app : Application} (hguard : ∀ guard, app.guard = some guard → guard.WorksByCalls)
    {limits : Limits} {timeout : Nat} {x y : Exchange} (h : serveWithin limits timeout app x = some y) :
    ∃ calls, x.Makes calls y :=
  (lasting_makesCalls app limits.depth).serveWithin trivial (fun guard hg => (hguard guard hg).keeps_makesCalls) h

end ServletContainer
