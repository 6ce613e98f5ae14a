import ServletContainer.Proofs.Dispatch.Requests
import ServletContainer.Proofs.Host.Published
import ServletContainer.Proofs.Routing.Matches
import ServletContainer.Proofs.Security.Denial
import ServletContainer.Proofs.Session.Parameters

namespace ServletContainer

/-!
# The paths of a request

The path of a request is taken apart three times: its parameters are taken off, the context path is cut off, and what
is left divides at the pattern of a servlet. Whatever a host has been through, the parts fit together.

* `Host.Arises` — the hosts that come about, by whatever is done to them.
* `Host.PublishesOwn` — the invariant: applications are published at their own context paths.
* `Host.exists_of_find?` — the context path of the application that a path belongs to starts that path.
* `Host.Brings` — a host brings a request to a servlet.
* `Request.FitsTogether`, `Host.fitsTogether_of_brings` — its paths then fit together, for every component of the
  chain.
-/

namespace Host

/-! ### Hosts that come about -/

/-- Whether a host comes about: it starts empty, takes in applications, publishes them and takes them back, drives their
lives, puts them in and out of service, and serves requests. -/
inductive Arises : Host → Prop
  | start (supply : List Block) : Arises (start supply)
  | add {h : Host} (a : Application) : h.Arises → Arises (h.add a).2
  | call {h : Host} (c : Call) : h.Arises → Arises (h.perform c).2
  | setAvailable {h : Host} {id : AppId} {d : Deployment} (unavailable : Bool) :
    h.Arises → h.deployment? id = some d → Arises (h.put id { d with unavailable })
  | serve {h : Host} {limits : Limits} {timeout : Nat} {x : Exchange} {served : Served} :
    h.Arises → h.serveExchange limits timeout x = some served → Arises (h.settleExchange served)
  | advance {h : Host} (millis : Nat) : h.Arises → Arises (h.advance millis)
  | takeJournal {h : Host} : h.Arises → Arises h.takeJournal.2

/-- Whether each application of `h` is published at its own context path. -/
def PublishesOwn (h : Host) : Prop :=
  ∀ c id, h.get? c = some id → ∃ d, h.deployment? id = some d ∧ d.app.contextPath = c

/-- Whether `g` keeps the applications of `h`, under their numbers. -/
def KeepsApplications (h g : Host) : Prop :=
  ∀ id d, h.deployment? id = some d → ∃ d', g.deployment? id = some d' ∧ d'.app = d.app

variable {h g : Host}

/-- A step that keeps the applications (`hkeeps`), and publishes some at their own context paths at most (`hnew`), keeps
`PublishesOwn`. -/
theorem PublishesOwn.step (hown : h.PublishesOwn) (hkeeps : h.KeepsApplications g)
    (hnew : ∀ c id, g.get? c = some id →
      h.get? c = some id ∨ ∃ d, h.deployment? id = some d ∧ d.app.contextPath = c) : g.PublishesOwn := by
  intro c id hc
  have hbefore : ∃ d, h.deployment? id = some d ∧ d.app.contextPath = c := (hnew c id hc).elim (hown c id) fun hd => hd
  obtain ⟨d, hd, hpath⟩ := hbefore
  obtain ⟨d', hd', happ⟩ := hkeeps id d hd
  exact ⟨d', hd', by rw [happ, hpath]⟩

/-! ### Each step -/

/-- `add` keeps the applications. -/
theorem keepsApplications_add (h : Host) (a : Application) : h.KeepsApplications (h.add a).2 := by
  intro id d hd
  have hlt : id < h.deployments.length := (List.getElem?_eq_some_iff.1 hd).1
  exact ⟨d, (List.getElem?_append_left hlt).trans hd, rfl⟩

/-- Every call keeps the applications. -/
theorem keepsApplications_perform (h : Host) (c : Call) : h.KeepsApplications (h.perform c).2 := by
  intro id d hd
  have hlives := h.lives_perform c id
  rw [hd] at hlives
  cases hafter : (h.perform c).2.deployment? id with
  | none =>
    rw [hafter] at hlives
    cases hlives
  | some d' =>
    rw [hafter] at hlives
    cases hlives with
    | some hlives => exact ⟨d', rfl, hlives.app_eq⟩

/-- What is published after a call was published before, or it is an application at its own context path. -/
theorem get?_perform {c : Call} {path : String} {id : AppId} (hget : (h.perform c).2.get? path = some id) :
    h.get? path = some id ∨ ∃ d, h.deployment? id = some d ∧ d.app.contextPath = path := by
  -- Only a `launch` that succeeds adds an entry.
  cases c with
  | drive id' s =>
    rw [get?, show (h.perform (.drive id' s)).2.published = h.published from step_published _ h id'] at hget
    exact .inl hget
  | deploy id' =>
    rcases h.deploy_cases id' with hsame | ⟨d, hd, -, ⟨e, hdeploy⟩ | ⟨-, hdeploy⟩⟩
    · rw [show (h.perform (.deploy id')).2 = h from hsame] at hget
      exact .inl hget
    · rw [get?, perform, hdeploy, step_published] at hget
      exact .inl hget
    · rw [get?, perform, hdeploy, Table.get?_insert] at hget
      split at hget
      · next hpath =>
        obtain rfl := Option.some.inj hget
        exact .inr ⟨d, hd, hpath.symm⟩
      · exact .inl hget
  | undeploy c' =>
    cases hc : h.get? c' with
    | none =>
      rw [show (h.perform (.undeploy c')).2 = h by rw [perform, undeploy_of_none hc]] at hget
      exact .inl hget
    | some id' =>
      change (h.undeploy c').2.get? path = some id at hget
      rw [get?_undeploy hc] at hget
      split at hget
      · cases hget
      · exact .inl hget

/-- `put` keeps the applications if the deployment has the same one (`happ`). -/
theorem keepsApplications_put {id : AppId} {d d' : Deployment} (hd : h.deployment? id = some d)
    (happ : d'.app = d.app) : h.KeepsApplications (h.put id d') := by
  intro id' e he
  rw [deployment?_put]
  split
  · next hid =>
    subst hid
    obtain rfl := Option.some.inj (hd.symm.trans he)
    exact ⟨d', by rw [hd, Option.map_some], happ⟩
  · exact ⟨e, he, rfl⟩

/-- The end of an exchange keeps the applications. -/
theorem keepsApplications_settleExchange (h : Host) (served : Served) :
    h.KeepsApplications (h.settleExchange served) := by
  intro id d hd
  by_cases happ : served.app = some id
  · exact ⟨_, deployment?_settleExchange happ hd, rfl⟩
  · exact ⟨d, (deployment?_settleExchange_of_ne happ).trans hd, rfl⟩

/-- The end of an exchange publishes nothing. -/
theorem published_settleExchange (h : Host) (served : Served) :
    (h.settleExchange served).published = h.published := by
  unfold settleExchange
  dsimp only
  split
  · rfl
  · split <;> rfl

/-- However a host `Arises`, it `PublishesOwn`. -/
theorem Arises.publishesOwn (ha : h.Arises) : h.PublishesOwn := by
  -- By induction on `ha`; only `perform` may publish anything.
  induction ha with
  | start supply =>
    intro c id hc
    cases hc
  | add a _ ih => exact ih.step (keepsApplications_add _ a) fun _ _ => .inl
  | call c _ ih => exact ih.step (keepsApplications_perform _ c) fun _ _ => get?_perform
  | setAvailable unavailable _ hd ih => exact ih.step (keepsApplications_put hd rfl) fun _ _ => .inl
  | serve _ _ ih =>
    refine ih.step (keepsApplications_settleExchange _ _) fun c id hc => .inl ?_
    rwa [get?, published_settleExchange] at hc
  | advance _ _ ih => exact ih
  | takeJournal _ ih => exact ih

/-! ### The application of a path -/

/-- So a path starts with the context path of the application that `find?` gives. -/
theorem PublishesOwn.exists_of_find? (hown : h.PublishesOwn) {path : String} {id : AppId}
    (hfind : h.find? path = some id) :
    ∃ d, h.deployment? id = some d ∧ ∃ below, path = d.app.contextPath ++ below := by
  have hpublished : ∃ c, h.get? c = some id ∧ ∃ below, path = c ++ below := by
    rcases Option.or_eq_some_iff.1 hfind with hcut | ⟨-, hroot⟩
    · obtain ⟨c, hmem, hc⟩ := List.exists_of_findSome?_eq_some hcut
      rcases isAtOrBelow_of_mem_ancestors hmem with rfl | ⟨rest, rfl⟩
      · exact ⟨path, hc, "", by simp⟩
      · exact ⟨c, hc, "/" ++ rest, String.append_assoc ..⟩
    · exact ⟨"", hroot, path, by simp⟩
  obtain ⟨c, hc, hbelow⟩ := hpublished
  obtain ⟨d, hd, rfl⟩ := hown c id hc
  exact ⟨d, hd, hbelow⟩

end Host

/-! ### Paths that fit together -/

/-- Whether the paths of a request fit together, `path` being its path without parameters. -/
structure Request.FitsTogether (r : Request) (path : String) : Prop where
  uri : r.uri = path
  plain : ';' ∉ path.toList
  /-- Put together the parts are the path; where that is the context path alone, a slash is added. -/
  whole : r.contextPath ++ r.servletPath ++ r.pathInfo.getD "" = if path = r.contextPath then path ++ "/" else path
  info : ∀ info, r.pathInfo = some info → ∃ rest, info = "/" ++ rest
  /-- The context path starts the path, and what follows is the relative path. -/
  below : Text.after? r.contextPath path = some r.relativePath

namespace Request.FitsTogether

variable {x y : Exchange} {path : String}

/-- `FitsTogether` reads the paths only. -/
theorem samePaths (h : x.request.FitsTogether path) (hsame : SamePaths x y) : y.request.FitsTogether path where
  uri := hsame.uri.trans h.uri
  plain := h.plain
  whole := by
    have hservlet : y.request.servletPath = x.request.servletPath := congrArg PathState.servletPath hsame.paths
    have hinfo : y.request.pathInfo = x.request.pathInfo := congrArg PathState.pathInfo hsame.paths
    rw [hsame.context, hservlet, hinfo]
    exact h.whole
  info info hinfo := h.info info ((congrArg PathState.pathInfo hsame.paths).symm.trans hinfo)
  below := by
    rw [hsame.context, hsame.relativePath]
    exact h.below

/-- The path of a request `FitsTogether` if it starts with the context path (`hbelow`), has no semicolon, and what
follows is mapped. -/
theorem of_map? {r : Request} {t : MappingTable} {m : MappingMatch} {below : String} (hplain : ';' ∉ r.uri.toList)
    (hbelow : r.uri = r.contextPath ++ below) (hm : t.map? r.relativePath = some m) :
    FitsTogether { r with servletPath := m.servletPath, pathInfo := m.pathInfo } r.uri := by
  have hafter : Text.after? r.contextPath r.uri = some below := by rw [hbelow, Text.after?_append]
  have hrelative : r.relativePath = below := by rw [Request.relativePath, hafter, Option.getD_some]
  have hfor := MappingTable.isFor_of_map? hm
  rw [hrelative] at hfor
  have hparts : m.servletPath ++ m.pathInfo.getD "" = MappingTable.rooted below := hfor.path_eq
  refine ⟨rfl, hplain, ?_, fun info hinfo => hfor.exists_eq_of_pathInfo hinfo, ?_⟩
  · -- `MappingTable.rooted` reads the empty relative path as a slash, and only with it the path is the context path.
    show r.contextPath ++ m.servletPath ++ m.pathInfo.getD "" = if r.uri = r.contextPath then r.uri ++ "/" else r.uri
    rw [String.append_assoc, hparts, MappingTable.rooted]
    by_cases hempty : below = ""
    · have hcontext : r.uri = r.contextPath := by simp [hbelow, hempty]
      rw [if_pos hempty, if_pos hcontext, hcontext]
    · have hcontext : ¬ r.uri = r.contextPath := by simpa [hbelow] using hempty
      rw [if_neg hempty, if_neg hcontext, hbelow]
  · show Text.after? r.contextPath r.uri = some r.relativePath
    rw [hafter, hrelative]

end Request.FitsTogether

/-! ### Requests that are brought to a servlet -/

/-- `serveWithin` dispatches the request to a servlet once the guard `Allows` it, or it starts no chain of a request. -/
theorem exists_topLevel_of_serveWithin {limits : Limits} {timeout : Nat} {app : Application} {x y : Exchange}
    (hguard : ∀ guard, app.guard = some guard → guard.WorksByCalls)
    (hy : serveWithin limits timeout app x = some y) :
    (∃ z place start, app.Allows x z ∧ TopLevel app z place start ∧ place.kind = .request) ∨
      GainsNoRequest x.journal y.journal := by
  have hlasting := lasting_gainsNoRequest app limits.depth
  by_cases hmapped : ∃ z target, app.Allows x z ∧ app.mapper.map? z.request.relativePath = some target
  · obtain ⟨z, target, hallows, ht⟩ := hmapped
    exact .inl ⟨z, _, _, hallows, .request ht, rfl⟩
  · -- By `hmapped` no request that is let through is mapped, so its dispatch has failed.
    have hdispatch : ∀ {z w}, app.Allows x z → dispatchRequest (invoke app limits.depth) app z = some w →
        GainsNoRequest z.journal w.journal := by
      intro z w hallows hw
      have hnone : app.mapper.map? z.request.relativePath = none :=
        Option.eq_none_iff_forall_ne_some.2 fun target ht => hmapped ⟨z, target, hallows, ht⟩
      unfold dispatchRequest at hw
      dsimp only at hw
      rw [hnone] at hw
      exact hlasting.handleError hw
    obtain ⟨w, hw, hy⟩ := Option.bind_eq_some_iff.1 hy
    refine .inr (GainsNoRequest.trans ?_ (hlasting.settle hy))
    cases app.routes_of_routeWithin hw with
    | unguarded hnone hv => exact hdispatch (by rw [Application.Allows, hnone]) hv
    | denied hsome hz =>
      have hkeeps := (hguard _ hsome).keeps_gainsNoRequest
      exact (hkeeps.check hz).trans (hkeeps.deny _ _ _)
    | @allowed _ z _ hsome hz hv =>
      have hkeeps := (hguard _ hsome).keeps_gainsNoRequest
      have hallows : app.Allows x z := by
        rw [Application.Allows, hsome]
        exact hz
      exact (hkeeps.check hz).trans ((hdispatch hallows hv).trans (hkeeps.after _))

namespace Host

variable {h : Host} {x y : Exchange} {id : AppId} {d : Deployment} {place : Place}

/-- Whether `h` brings the request of `x` to the servlet of `place`: it has a method, its path without parameters
belongs to `d`, which is in service, the guard lets it through, and what follows the context path is mapped. In the end
there is `y`, the exchange that the chain in front of the servlet gets. -/
structure Brings (h : Host) (x : Exchange) (id : AppId) (d : Deployment) (place : Place) (y : Exchange) : Prop where
  method : x.request.head.method ≠ none
  find : h.find? (stripPathParameters x.request.uri).1 = some id
  deployment : h.deployment? id = some d
  available : d.isAvailable = true
  dispatched : ∃ z, d.app.Allows (d.receive x) z ∧ TopLevel d.app z place y
  kind : place.kind = .request

/-- The paths of a request that the host `Brings` to a servlet fit together. -/
theorem Brings.fitsTogether (hb : h.Brings x id d place y) (hown : h.PublishesOwn) (hguards : h.GuardsByCalls) :
    y.request.FitsTogether (stripPathParameters x.request.uri).1 := by
  obtain ⟨d', hd', below, hbelow⟩ := hown.exists_of_find? hb.find
  obtain rfl := Option.some.inj (hb.deployment.symm.trans hd')
  obtain ⟨z, hallows, htop⟩ := hb.dispatched
  -- `hguards`: the guard leaves the paths as `receive` has set them.
  have hsame := hallows.samePaths fun guard hsome => hguards hb.deployment hsome
  have huri : z.request.uri = (stripPathParameters x.request.uri).1 := hsame.uri
  have hcontext : z.request.contextPath = d.app.contextPath := hsame.context
  have hkind := hb.kind
  cases htop with
  | request ht =>
    have hplain := not_mem_stripPathParameters x.request.uri
    rw [← huri] at hplain hbelow ⊢
    rw [← hcontext] at hbelow
    exact .of_map? hplain hbelow ht
  | async | error => cases hkind

/-- The other components of the chain see the same paths as the first. -/
theorem Brings.fitsTogether_of_leadsTo (hb : h.Brings x id d place y) (hown : h.PublishesOwn)
    (hguards : h.GuardsByCalls) {depth : Nat} {servlet : Servlet} {i : Invocation}
    (hi : Invocation.LeadsTo d.app (Invocation.first d.app place depth servlet y) i) (hplace : i.place = place) :
    i.exchange.request.FitsTogether (stripPathParameters x.request.uri).1 := by
  have hfits := hb.fitsTogether hown hguards
  obtain ⟨z, -, htop⟩ := hb.dispatched
  have hkind := hb.kind
  cases htop with
  | request ht => exact hfits.samePaths (Invocation.samePaths_of_leadsTo hi hplace)
  | async | error => cases hkind

/-- So the host `Brings` a request to a servlet, or starts no chain of a request for it. -/
theorem exists_brings_of_serveExchange {limits : Limits} {timeout : Nat} {served : Served} (hguards : h.GuardsByCalls)
    (hs : h.serveExchange limits timeout x = some served) :
    (∃ id d place y, h.Brings x id d place y) ∨ GainsNoRequest x.journal served.exchange.journal := by
  -- A request comes to a servlet on one of the ways of `serveExchange` alone.
  by_cases hmethod : x.request.head.method = none
  · obtain rfl := Option.some.inj ((serveExchange_of_noMethod hmethod).symm.trans hs)
    exact .inr (.refl _)
  cases hfind : h.find? (stripPathParameters x.request.uri).1 with
  | none =>
    obtain rfl := Option.some.inj ((serveExchange_of_unclaimed hmethod hfind).symm.trans hs)
    exact .inr (.refl _)
  | some id =>
    cases hd : h.deployment? id with
    | none =>
      obtain rfl := Option.some.inj ((serveExchange_of_missing hmethod hfind hd).symm.trans hs)
      exact .inr (.refl _)
    | some d =>
      by_cases hup : d.isAvailable = true
      · obtain ⟨w, hw, rfl⟩ := Option.map_eq_some_iff.1 ((serveExchange_of_available hmethod hfind hd hup).symm.trans hs)
        refine (exists_topLevel_of_serveWithin (fun guard hsome => hguards hd hsome) hw).imp_left ?_
        rintro ⟨z, place, y, hallows, htop, hkind⟩
        exact ⟨id, d, place, y, hmethod, hfind, hd, hup, ⟨z, hallows, htop⟩, hkind⟩
      · have hdown : d.isAvailable = false := Bool.eq_false_iff.2 hup
        obtain rfl := Option.some.inj ((serveExchange_of_unavailable hmethod hfind hd hdown).symm.trans hs)
        exact .inr (.refl _)

/-- **Paths fit together.** However a host `Arises`, every request that it `Brings` to a servlet `FitsTogether`, in the
whole chain in front of the servlet: without its parameters the path has no semicolon; context path, servlet path and
path info are that path, or that path and a slash where it is the context path alone; the path info starts with a slash;
and the relative path is what follows the context path. For every other request that is served, no chain is started. -/
theorem fitsTogether_of_brings (ha : h.Arises) (hguards : h.GuardsByCalls) (x : Exchange) :
    (∀ id d place y, h.Brings x id d place y →
      y.request.FitsTogether (stripPathParameters x.request.uri).1 ∧
      ∀ depth servlet i, Invocation.LeadsTo d.app (Invocation.first d.app place depth servlet y) i → i.place = place →
        i.exchange.request.FitsTogether (stripPathParameters x.request.uri).1) ∧
    ∀ limits timeout served, h.serveExchange limits timeout x = some served →
      (∃ id d place y, h.Brings x id d place y) ∨ GainsNoRequest x.journal served.exchange.journal := by
  have hown := ha.publishesOwn
  refine ⟨fun id d place y hb => ⟨hb.fitsTogether hown hguards, fun depth servlet i hi hplace => ?_⟩, ?_⟩
  · exact hb.fitsTogether_of_leadsTo hown hguards hi hplace
  · exact fun limits timeout served hs => exists_brings_of_serveExchange hguards hs

/-! ### A market -/

namespace Market

/-- An application with one servlet, behind a guard that notes what it is asked about. -/
def app : Application where
  contextPath := "/market"
  displayName := "market"
  servlets := [⟨"goods", .finish, fun _ => none, false⟩]
  filters := []
  mapper := MappingTable.empty.assign "goods" (.below "/goods")
  errorPages := .empty
  sessionConfig := .standard
  guard := some (PathGate.guard ⟨none⟩)
  resources := none

/-- A host with `app` in service. -/
def host : Host := (((start []).add app).2.perform (.deploy 0)).2

/-- A request with parameters in its path, and with two slashes in a row. -/
def visitor : Exchange :=
  .start (.ofLine "GET /market;v=1/goods;w=2//apples HTTP/1.1") none (.detached "HTTP/1.1") 0 []

theorem arises_host : host.Arises := .call (.deploy 0) (.add app (.start []))

/-- Its guard leaves a note, which is a call. -/
theorem guardsByCalls_host : host.GuardsByCalls := by
  intro id d g hd hg
  have happs : host.deployments.map (·.app) = [app] := rfl
  rw [List.mem_singleton.1 (Host.app_mem_of_deployment? happs hd)] at hg
  obtain rfl := Option.some.inj hg
  exact PathGate.worksByCalls_guard ⟨none⟩

/-- The deployment of `app` in service. -/
def shop : Deployment :=
  { Deployment.ofApplication app with state := .started, history := [⟨.init, ⟨.servlet, "goods"⟩, true⟩] }

/-- The match that the request of the `visitor` leads to. -/
def target : MappingMatch := ⟨"goods", .below "/goods", "/goods", some "//apples"⟩

/-- The request is brought to the servlet, behind which two slashes stand. -/
theorem fitsTogether_of_brings_visitor : ∃ place y, host.Brings visitor 0 shop place y ∧
    y.request.pathInfo = some "//apples" ∧ y.request.FitsTogether "/market/goods//apples" := by
  have hrelative : (shop.receive visitor).request.relativePath = "/goods//apples" := by decide +kernel
  have hallows : shop.app.Allows (shop.receive visitor)
      ((shop.receive visitor).log (.noted (.told "check" (.text "/goods//apples")))) := by
    rw [← hrelative]
    exact rfl
  have hmapped : app.mapper.map? (shop.receive visitor).request.relativePath = some target := by decide +kernel
  have hbrings : host.Brings visitor 0 shop _ _ :=
    ⟨by decide +kernel, by decide +kernel, rfl, by decide +kernel, ⟨_, hallows, .request hmapped⟩, rfl⟩
  have hpath : (stripPathParameters visitor.request.uri).1 = "/market/goods//apples" := by decide +kernel
  have hfits := ((fitsTogether_of_brings arises_host guardsByCalls_host visitor).1 _ _ _ _ hbrings).1
  exact ⟨_, _, hbrings, rfl, hpath ▸ hfits⟩

end Market

end Host

end ServletContainer
