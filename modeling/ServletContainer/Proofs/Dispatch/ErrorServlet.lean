import ServletContainer.Proofs.Dispatch.ErrorPages
import ServletContainer.Proofs.Dispatch.Serving
import ServletContainer.Proofs.Dispatch.Shown

namespace ServletContainer

/-!
# The servlet that failed

An error page is told the name of the servlet in whose dispatch the exchange is as the failure is answered. By then the
dispatch that failed is over, and the exchange is at rest. So the page is told no name.

* `steady_sameAttribute`, `Invocation.sameAttribute_of_leadsTo` — an attribute that code does not put, and that does not
  belong to dispatches, stays as it is.
* `TopLevel.attribute?_servletName` — what the dispatch of an error page sets.
* `exists_page_of_failure` — the page that answers a failure, as an invocation.
* `servletName_of_failure` — what such a page is told, for every failure and however a request is served.
-/

/-! ### Attributes that stay -/

/-- Whether the requests of `x` and `y` agree in the attribute `n`. -/
def SameAttribute (n : String) (x y : Exchange) : Prop := y.request.attribute? n = x.request.attribute? n

section Attribute

variable {n : String} {app : Application} {x y : Exchange} {location : String} {target : MappingMatch}

/-- An attribute that is none of `dispatchAttributes` is neither of a forward nor of an include. -/
theorem not_mem_of_not_mem_dispatchAttributes (hn : n ∉ dispatchAttributes) :
    n ∉ ForwardAttribute.all ∧ n ∉ IncludeAttribute.all := by
  rwa [mem_dispatchAttributes_iff, not_or] at hn

variable (hn : n ∉ dispatchAttributes)

include hn

/-- So `Jump.into` does not set it. -/
theorem Jump.sameAttribute_into (j : Jump) : SameAttribute n x (j.into app location target x) := by
  obtain ⟨hforward, hinclude⟩ := not_mem_of_not_mem_dispatchAttributes hn
  cases j with
  | forward => exact Exchange.attribute?_intoForward_of_not_mem hforward
  | inclusion => exact attribute?_describeInclude app _ _ target x.request hinclude

/-- And `Jump.outOf` does not put it back. -/
theorem Jump.sameAttribute_outOf (j : Jump) : SameAttribute n y (j.outOf x y) := by
  obtain ⟨hforward, hinclude⟩ := not_mem_of_not_mem_dispatchAttributes hn
  -- Leaving touches the forward or the include attributes, and `n` is none of them.
  cases j with
  | forward =>
    show (x.outOfForward y).request.attribute? n = y.request.attribute? n
    unfold Exchange.outOfForward
    dsimp only
    split
    · refine (attribute?_removeAttributes _ _ n).trans ?_
      rw [if_neg hforward]
      rfl
    · rfl
  | inclusion =>
    refine (attribute?_restoreAttributes _ _ _ n).trans ?_
    rw [if_neg hinclude]
    rfl

/-- `dispatchWith` keeps the attribute if the `invoke` within it does (`hi`). -/
theorem sameAttribute_dispatchWith {invoke : Invoker} (j : Jump)
    (hi : ∀ target, Carries (SameAttribute n) (invoke target j.kind)) :
    Carries (SameAttribute n) (dispatchWith invoke app j location) := by
  intro x p hp
  rcases dispatchWith_cases app location x j with ⟨e, y, hy, heq⟩ | ⟨target, -, heq⟩
  · obtain rfl := Option.some.inj ((heq invoke).symm.trans hp)
    rcases hy with rfl | rfl <;> exact rfl
  · obtain ⟨q, hq, rfl⟩ := Option.map_eq_some_iff.1 ((heq invoke).symm.trans hp)
    exact (j.sameAttribute_outOf hn).trans ((hi target hq).trans (j.sameAttribute_into hn))

/-- `SameAttribute n` is `Steady` under calls that do not put `n`, for every kind of dispatch. -/
theorem steady_sameAttribute : Steady (fun op => ¬ op.Puts n) (fun _ => True) (SameAttribute n) where
  forwards := trivial
  includes := trivial
  refl _ := rfl
  trans h h' := h'.trans h
  perform hop hp := (Op.steps_perform hp).lift (fun _ => rfl) (fun h h' => h'.trans h) fun hs => hs.attribute?_eq hop
  entered _ _ _ := rfl
  left _ _ _ := rfl
  within _ h := h
  forward := sameAttribute_dispatchWith hn .forward
  inclusion := sameAttribute_dispatchWith hn .inclusion

variable (ha : app.Uses fun op => ¬ op.Puts n) {i i' : Invocation}

include ha

/-- Along `LeadsTo` every component finds the attribute as the first one did. -/
theorem Invocation.sameAttribute_of_leadsTo (hi : i.Uses fun op => ¬ op.Puts n) (hlead : LeadsTo app i i') :
    SameAttribute n i.exchange i'.exchange := by
  -- By induction on `hlead`: the next component is entered at a `Point` of the one before, which has kept the
  -- attribute.
  induction hlead with
  | refl => rfl
  | tail hmid hlast ih =>
    have hpoint {c : Point} (hc : Invocation.ComesTo app _ c) : SameAttribute n i.exchange c.exchange :=
      ((steady_sameAttribute hn).comesTo ha (hi.leadsTo ha hmid) hc).trans ih
    cases hlast with
    | proceed _ hc => exact hpoint hc
    | @jump _ j _ _ _ _ _ _ _ hc _ _ => exact (j.sameAttribute_into hn).trans (hpoint hc)

end Attribute

/-! ### Error pages -/

/-- A `TopLevel` dispatch of the kind `.error` finds in `servletName` the name of the servlet in whose dispatch the
exchange `x` is, if it is in one. -/
theorem TopLevel.attribute?_servletName {app : Application} {x z : Exchange} {place : Place}
    (h : TopLevel app x place z) (hkind : place.kind = .error) :
    z.request.attribute? ErrorAttribute.servletName = x.servletName.map .text := by
  cases h with
  | request | async => cases hkind
  | error _ => exact (describesFailure_describeError _ x).servletName

section Page

variable {app : Application} {x y : Exchange} {i i' : Invocation}

theorem Application.Invokes.uses {allowed : Op → Prop} (ha : app.Uses allowed) (hi : app.Invokes x i) :
    i.Uses allowed := by
  obtain ⟨-, hservlet, hleads⟩ := hi
  exact (Invocation.Uses.first ha hservlet).leadsTo ha hleads

/-- A dispatch of the kind `.error` is `TopLevel`: no forward or include leads to that kind, so only the rest of the
chain does. -/
theorem Invocation.place_of_leadsTo_error (hlead : LeadsTo app i i') (hkind : i'.place.kind = .error) :
    i.place = i'.place := by
  induction hlead with
  | refl => rfl
  | tail _ hlast ih =>
    cases hlast with
    | proceed => exact ih hkind
    | @jump _ j => cases j <;> cases hkind

/-- From an exchange `AtRest`, whose `servletName` is `none`, nothing that runs as an error page finds the attribute. -/
theorem Application.Invokes.attribute?_servletName (hx : AtRest x) (hi : app.Invokes x i)
    (ha : app.Uses fun op => ¬ op.Puts ErrorAttribute.servletName) (hkind : i.place.kind = .error) :
    i.exchange.request.attribute? ErrorAttribute.servletName = none := by
  cases hi with | @intro place _ _ _ _ htop hservlet hleads =>
  have hplace : place = i.place := Invocation.place_of_leadsTo_error hleads hkind
  have hsame := Invocation.sameAttribute_of_leadsTo (by decide) ha (.first ha hservlet) hleads
  refine hsame.trans ((htop.attribute?_servletName (hplace ▸ hkind)).trans ?_)
  rw [hx.servletName]
  rfl

variable {e : ServletError}

/-- The chain that answers a failure is an `Invocation` of the exchange that `prepareError` gives, and `StartsPage`. -/
theorem exists_page_of_failure (depth : Nat) (hy : y.response.isCommitted = false) {location : String}
    {target : MappingMatch} {servlet : Servlet} (hpage : errorPage? app e (prepareError e.statusCode y) = some location)
    (htarget : app.mapper.map? (Request.splitTarget location).1 = some target)
    (hservlet : app.servlet? target.servletName = some servlet) :
    ∃ i, app.Invokes (prepareError e.statusCode y) i ∧ i.place.kind = .error ∧
      StartsPage app location target e y i.exchange ∧
      handleError (invoke app (depth + 1)) app e y = (i.run app).map (leavePage e y) := by
  have htop : TopLevel app (prepareError e.statusCode y) _ _ := .error htarget (e := e)
  exact ⟨_, ⟨htop, hservlet, .refl⟩, rfl, startsPage_enterPage hy location target,
    handleError_of_mapped hy hpage htarget hservlet⟩

end Page

/-- **The servlet that failed.** The name of the servlet whose dispatch has failed does not reach the error page that
answers the failure. The page starts without the attribute, whatever was in it before; and as long as the code of the
application does not put it, no filter, servlet or target of a forward or an include finds it while the page runs. So
for every request that starts at rest, whichever dispatches are made for it, no error page is told of a servlet. -/
theorem servletName_of_failure {app : Application} :
    (∀ {depth : Nat} {x z y : Exchange} {place : Place} {e : ServletError}, AtRest x → TopLevel app x place z →
      invoke app (depth + 1) place.target place.kind z = some (.error e, y) → y.response.isCommitted = false →
      ∀ {location : String} {target : MappingMatch} {servlet : Servlet},
        app.errorPages.find? e.kind? e.statusCode = some location →
        app.mapper.map? (Request.splitTarget location).1 = some target →
        app.servlet? target.servletName = some servlet →
        ∃ i, app.Invokes (prepareError e.statusCode y) i ∧ StartsPage app location target e y i.exchange ∧
          handleError (invoke app (depth + 1)) app e y = (i.run app).map (leavePage e y) ∧
          i.exchange.request.attribute? ErrorAttribute.servletName = none ∧
          ((app.Uses fun op => ¬ op.Puts ErrorAttribute.servletName) →
            ∀ {i' : Invocation} {c : Point}, Invocation.LeadsTo app i i' → i'.ComesTo app c →
              c.exchange.request.attribute? ErrorAttribute.servletName = none)) ∧
    ∀ {limits : Limits} {timeout : Nat} {x y : Exchange}, (∀ g, app.guard = some g → g.WorksByCalls) →
      (app.Uses fun op => ¬ op.Puts ErrorAttribute.servletName) → AtRest x →
      serveWithin limits timeout app x = some y →
      Tells (fun _ view => view.dispatcher = .error →
        view.request.attribute? ErrorAttribute.servletName = none) x y := by
  constructor
  · intro depth x z y place e hx htop hrun hy location target servlet hpage htarget hservlet
    -- `AtRest y`: the dispatch that failed has put back the name that it set.
    have hrest : AtRest y := (lasting_atRest app (depth + 1)).dispatched htop trivial hrun hx
    have hfound : errorPage? app e (prepareError e.statusCode y) = some location := by
      rw [errorPage?, (hrest.prepareError e.statusCode).dispatcher, if_neg (by decide), hpage]
    obtain ⟨i, hi, -, hstart, hanswer⟩ := exists_page_of_failure depth hy hfound htarget hservlet
    have hnone : i.exchange.request.attribute? ErrorAttribute.servletName = none := by
      rw [hstart.described.servletName, hrest.servletName]
      rfl
    refine ⟨i, hi, hstart, hanswer, hnone, fun ha i' c hleads hc => ?_⟩
    have huses := hi.uses ha
    have hentered := Invocation.sameAttribute_of_leadsTo (by decide) ha huses hleads
    exact ((steady_sameAttribute (by decide)).comesTo ha (huses.leadsTo ha hleads) hc).trans (hentered.trans hnone)
  · intro limits timeout x y hguards ha hx hy
    have hlasting := (lasting_atRest app limits.depth).tells
    have hserved := hlasting.serveWithin trivial
      (fun g hg => (hguards g hg).keeps_atRest.tells (hguards g hg)) hy hx
    refine hserved.2.mono ?_
    rintro ref view ⟨x', i, hx', hi, -, rfl⟩ hkind
    exact hi.attribute?_servletName hx' ha (hi.showsPlace.dispatcher.symm.trans hkind)

/-! ### The page of a teapot -/

/-- `stoutPage` writes, and does nothing else. -/
theorem uses_stoutPage {allowed : Op → Prop} (h : ∀ data, allowed (.write data)) : stoutPage.Uses allowed := by
  refine ⟨h _, fun reply => ?_⟩
  cases reply <;> exact trivial

/-- So the teapot of this page does not put `servletName`. -/
theorem uses_teapot_stoutPage : (teapot stoutPage).Uses fun op => ¬ op.Puts ErrorAttribute.servletName := by
  refine Host.uses_teapot (uses_stoutPage fun data => ?_)
  rintro (⟨v, heq⟩ | heq) <;> cases heq

/-- The page of a teapot finds no `servletName`, in its chain and through the whole of `serveWithin`. -/
theorem servletName_of_failure_teapot : ∃ (y : Exchange) (i : Invocation),
    (teapot stoutPage).Invokes (prepareError 418 y) i ∧
    StartsPage (teapot stoutPage) "/err" pageTarget (.ofStatus 418) y i.exchange ∧
    i.exchange.request.attribute? ErrorAttribute.servletName = none ∧
    ∃ y, serveWithin ⟨1, 0⟩ 0 (teapot stoutPage) teaExchange = some y ∧
      Tells (fun _ view => view.dispatcher = .error → view.request.attribute? ErrorAttribute.servletName = none)
        teaExchange y := by
  have hx : AtRest teaExchange := ⟨rfl, rfl, rfl⟩
  obtain ⟨hfailure, hserving⟩ := @servletName_of_failure (teapot stoutPage)
  have hmapped : (teapot stoutPage).mapper.map? teaExchange.request.relativePath
      = some ⟨"tea", .default, "/tea", none⟩ := by
    show ((MappingTable.empty.assign "tea" .default).assign "page" (.exact "/err")).map? _ = _
    decide +kernel
  have htop := TopLevel.request hmapped
  have hpage : (teapot stoutPage).errorPages.find? none 418 = some "/err" := rfl
  obtain ⟨i, hi, hstart, -, hnone, -⟩ :=
    @hfailure 0 _ _ _ _ (.ofStatus 418) hx htop rfl rfl _ _ _ hpage (map?_splitTarget_err _) rfl
  obtain ⟨y, hy⟩ := Option.isSome_iff_exists.1
    (by decide +kernel : (serveWithin ⟨1, 0⟩ 0 (teapot stoutPage) teaExchange).isSome = true)
  exact ⟨_, i, hi, hstart, hnone, y, hy, hserving nofun uses_teapot_stoutPage hx hy⟩

/-- What a component that is `entered` is told of a failure: its name, the kind of its dispatch,
`ErrorAttribute.statusCode`, and `ErrorAttribute.servletName`. -/
def Event.failureTold? : Event → Option (String × DispatcherKind × Option Int × Option String)
  | .entered ref view => some (ref.name, view.dispatcher,
      (view.request.attribute? ErrorAttribute.statusCode).bind Value.int?,
      (view.request.attribute? ErrorAttribute.servletName).bind Value.text?)
  | _ => none

/-- The servlet `tea` fails in its dispatch. The page that answers finds the status 418, and no name. -/
theorem page_not_told_of_tea :
    (serveWithin ⟨1, 0⟩ 0 (teapot stoutPage) teaExchange).map (fun y => y.journal.filterMap Event.failureTold?)
      = some [("tea", .request, none, none), ("page", .error, some 418, none)] := by
  decide +kernel

end ServletContainer
