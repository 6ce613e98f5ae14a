import ServletContainer.Proofs.Dispatch.Lasting
import ServletContainer.Proofs.Exchange.Effects

namespace ServletContainer

/-!
# The chain of a request

A served request is dispatched once as the request it is. Whatever runs because of that, and whatever is done about
failures and deferred requests afterwards, makes dispatches of other kinds.

* `Event.startsRequest` — what the journal tells of such a dispatch.
* `steady_gainsNoRequest`, `lasting_gainsNoRequest` — no other dispatch is one.
* `startsChain_of_invoke` — the dispatch of the request starts its chain, and no other.
-/

/-- Whether an entry of the journal tells of a dispatch of the kind `request`. -/
def Event.startsRequest : Event → Bool
  | .dispatched _ .request _ => true
  | _ => false

/-- Whether the journal `after` has gained entries on `before`, none of which tells of a dispatch of the kind `request`.
-/
def GainsNoRequest (before after : List Event) : Prop :=
  ∃ events, after = before ++ events ∧ ∀ e ∈ events, e.startsRequest = false

namespace GainsNoRequest

variable {j k l : List Event}

theorem refl (j : List Event) : GainsNoRequest j j := ⟨[], by simp, by simp⟩

/-- `GainsNoRequest` composes. -/
theorem trans (h : GainsNoRequest j k) (h' : GainsNoRequest k l) : GainsNoRequest j l := by
  obtain ⟨events, rfl, hevents⟩ := h
  obtain ⟨events', rfl, hevents'⟩ := h'
  refine ⟨events ++ events', List.append_assoc .., fun e he => ?_⟩
  rcases List.mem_append.1 he with he | he
  · exact hevents e he
  · exact hevents' e he

theorem one (j : List Event) {e : Event} (he : e.startsRequest = false) : GainsNoRequest j (j ++ [e]) :=
  ⟨[e], rfl, by simpa using he⟩

/-- A call adds notes at most. -/
theorem perform {op : Op} {x : Exchange} {p : op.Reply × Exchange} (h : op.perform x = some p) :
    GainsNoRequest x.journal p.2.journal := by
  rcases (Op.effect h).journal with hsame | ⟨n, hnote⟩
  · rw [hsame]
    exact .refl _
  · rw [hnote]
    exact .one _ rfl

end GainsNoRequest

/-! ### Dispatches -/

/-- `GainsNoRequest` is `Steady` for all kinds but `.request`, which neither forwards nor includes are of. -/
theorem steady_gainsNoRequest :
    Steady (fun _ => True) (· ≠ .request) fun x y => GainsNoRequest x.journal y.journal where
  forwards := by decide
  includes := by decide
  refl _ := .refl _
  trans := .trans
  perform _ hp := .perform hp
  entered _ _ _ := .one _ rfl
  left _ _ _ := .one _ rfl
  within {x y servlet kind filters} hkind hy := by
    have hentered : GainsNoRequest x.journal (x.enter servlet kind filters).journal := by
      refine .one _ ?_
      -- The entry tells `kind`, which is not `request`.
      cases kind with
      | request => exact absurd rfl hkind
      | _ => rfl
    exact hentered.trans hy
  forward hi := Jump.carries_dispatchWith (fun _ _ _ => rfl) GainsNoRequest.refl .forward hi
  inclusion hi := Jump.carries_dispatchWith (fun _ _ _ => rfl) GainsNoRequest.refl .inclusion hi

/-- It is `Lasting` for these kinds: what is done about failures and deferred requests starts no chain of a request. -/
theorem lasting_gainsNoRequest (app : Application) (depth : Nat) :
    Lasting app depth (· ≠ .request) fun x y => GainsNoRequest x.journal y.journal where
  errors := by decide
  asyncs := by decide
  refl _ := .refl _
  trans := .trans
  dispatched {x place z p} htop hkind hp := by
    -- Coming to the place leaves the journal.
    have hrun : GainsNoRequest z.journal p.2.journal :=
      steady_gainsNoRequest.invoke app.uses_true depth place.target hkind hp
    rwa [htop.view_eq (f := Exchange.journal) fun _ _ => rfl] at hrun
  paths _ _ := .refl _
  startOver _ := .refl _
  prepareError _ _ := .refl _
  defaultError _ _ := .refl _
  resume _ := .refl _
  elapse _ _ := .refl _

/-- What comes `ByCalls` adds notes at most. -/
theorem ByCalls.gainsNoRequest {x y : Exchange} (h : ByCalls x y) : GainsNoRequest x.journal y.journal := by
  induction h with
  | start => exact .refl _
  | call op _ hp ih => exact ih.trans (.perform hp)
  | principal caller _ ih => exact ih.trans (.refl _)

/-- So a guard that `WorksByCalls` starts no chain. -/
theorem Guard.WorksByCalls.keeps_gainsNoRequest {g : Guard} (hg : g.WorksByCalls) :
    g.Keeps fun x y => GainsNoRequest x.journal y.journal where
  check h := (hg.check h).gainsNoRequest
  deny _ _ _ := .refl _
  after x := (hg.after x).gainsNoRequest

/-! ### The dispatch of the request -/

/-- What the journal `after` tells when the chain in front of `servlet` starts for a request: how many filters there
are, and that the first component runs and sees the request. No other chain of a request starts. -/
def StartsChain (app : Application) (target : MappingMatch) (servlet : Servlet) (x : Exchange)
    (after : List Event) : Prop :=
  let filters := app.filtersFor target.path target.servletName .request
  ∃ events, after = x.journal ++ .dispatched target.servletName .request filters.length
      :: .entered (firstComponent servlet filters) (x.enter target.servletName .request filters.length).snapshot
      :: events ∧
    ∀ e ∈ events, e.startsRequest = false

/-- `StartsChain` still holds after whatever `GainsNoRequest`. -/
theorem StartsChain.trans {app : Application} {target : MappingMatch} {servlet : Servlet} {x : Exchange}
    {j k : List Event} (h : StartsChain app target servlet x j) (h' : GainsNoRequest j k) :
    StartsChain app target servlet x k := by
  obtain ⟨events, rfl, hevents⟩ := h
  obtain ⟨events', rfl, hevents'⟩ := h'
  refine ⟨events ++ events', by simp, fun e he => ?_⟩
  rcases List.mem_append.1 he with he | he
  · exact hevents e he
  · exact hevents' e he

/-- `invoke` with the kind `.request` records one chain of a request, the one in front of the servlet that `servlet?`
finds (`hservlet`). -/
theorem startsChain_of_invoke {app : Application} {depth : Nat} {target : MappingMatch} {servlet : Servlet}
    (hservlet : app.servlet? target.servletName = some servlet) {x : Exchange} {p : Outcome × Exchange}
    (hp : invoke app depth target .request x = some p) : StartsChain app target servlet x p.2.journal := by
  cases depth with
  | zero => cases hp
  | succ depth =>
    let filters := app.filtersFor target.path target.servletName .request
    have hsteady := steady_gainsNoRequest
    have ha := app.uses_true
    have hd := hsteady.dispatchWith (fun target _ hkind => hsteady.invoke ha depth target hkind) app
    have hinvoke := invokeWith_eq (dispatchWith (invoke app depth) app) hservlet .request x
    obtain ⟨q, hq, rfl⟩ := Option.map_eq_some_iff.1 (hinvoke.symm.trans hp)
    have hservlets : servlet.component.service.Uses fun _ => True :=
      ha.servlets servlet (List.mem_of_find?_eq_some hservlet)
    have hfilters : ∀ f ∈ filters, f.component.service.Uses fun _ => True :=
      fun f hf => ha.filters f (List.mem_filter.1 hf).1
    -- Once the first component has been entered, no event tells of a request being dispatched any more.
    obtain ⟨events, hevents, hnone⟩ := hsteady.runChain_entered hd hservlets hfilters hq
    refine ⟨events, ?_, hnone⟩
    show q.2.journal = _
    rw [hevents]
    simp [Exchange.log, Exchange.enter, filters]

end ServletContainer
