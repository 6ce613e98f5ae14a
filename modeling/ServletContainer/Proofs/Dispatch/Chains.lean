import ServletContainer.Proofs.Dispatch.Nesting
import ServletContainer.Proofs.Dispatch.Paths
import ServletContainer.Proofs.Host
import ServletContainer.Proofs.Routing.Matches
import ServletContainer.Proofs.Text.Pieces

namespace ServletContainer

/-!
# The chain in front of a target

The filters in front of a target are chosen by the parts of its match, put together again, and not by the path that was
mapped. They are the same, so that no filter is passed by on the pattern that it is mapped to.

* `FilterMapping.CountsFor` — a mapping stands in front of a path.
* `MappingMatch.mem_filtersFor_iff` — the filters in front of a target, told by the path that was mapped.
* `Place.path`, `Place.chain` — where a dispatch goes, and the filters in front of its target.
* `Invocation.IsInLine` — whatever runs has been led to by all the filters that stand in front of it.
* `mem_chain_of_dispatch` — this in one, for all ways that lead to a target.
-/

/-! ### Filter mappings -/

/-- Whether `m` stands in front of `path`, which leads to `servlet`, for dispatches of `kind`. -/
structure FilterMapping.CountsFor (m : FilterMapping) (kind : DispatcherKind) (path servlet : String) : Prop where
  applies : m.appliesTo kind = true
  /-- It selects by a pattern that covers the path, or by the name of the servlet, which `*` stands for as well. -/
  selects : (∃ pattern, m.target = .url pattern ∧ pattern.covers path = true) ∨ m.target = .servlet servlet ∨
    m.target = .servlet "*"

/-- `FilterMapping.covers` decides `CountsFor`. -/
theorem FilterMapping.covers_iff {m : FilterMapping} {kind : DispatcherKind} {path servlet : String} :
    m.covers path servlet kind = true ↔ m.CountsFor kind path servlet := by
  have hselects : m.selects path servlet = true ↔ (∃ pattern, m.target = .url pattern ∧ pattern.covers path = true) ∨
      m.target = .servlet servlet ∨ m.target = .servlet "*" := by
    unfold selects
    cases m.target with
    | url pattern => simp
    | servlet name => simp [or_comm]
  rw [covers, Bool.and_eq_true, hselects]
  exact ⟨fun ⟨happlies, h⟩ => ⟨happlies, h⟩, fun h => ⟨h.applies, h.selects⟩⟩

/-- `filtersFor` takes the filters with a mapping that `CountsFor` the path. -/
theorem Application.mem_filtersFor_iff {app : Application} {path servlet : String} {kind : DispatcherKind} {f : Filter} :
    f ∈ app.filtersFor path servlet kind ↔ f ∈ app.filters ∧ ∃ m ∈ f.mappings, m.CountsFor kind path servlet := by
  rw [filtersFor, List.mem_filter, Filter.covers, List.any_eq_true]
  simp only [FilterMapping.covers_iff]

/-! ### Matches -/

section Mapped

variable {app : Application} {path : String} {target : MappingMatch} (ht : app.mapper.map? path = some target)

include ht

/-- For a `target` that `map?` gives for `path`, `CountsFor` may be asked of `path` itself, the empty one being
`rooted`. -/
theorem mem_filtersFor_iff_of_map? {kind : DispatcherKind} {f : Filter} :
    f ∈ app.filtersFor target.path target.servletName kind ↔
      f ∈ app.filters ∧ ∃ m ∈ f.mappings, m.CountsFor kind (MappingTable.rooted path) target.servletName := by
  rw [Application.mem_filtersFor_iff, (MappingTable.isFor_of_map? ht).path_eq]

/-- A filter is among `filtersFor` if a mapping of it `appliesTo` the kind and has the pattern by which the `target` was
chosen, its servlet, or `*`. -/
theorem mem_filtersFor_of_map? {kind : DispatcherKind} {f : Filter} (hf : f ∈ app.filters) {m : FilterMapping}
    (hm : m ∈ f.mappings) (happlies : m.appliesTo kind = true)
    (htarget : m.target = .url target.pattern ∨ m.target = .servlet target.servletName ∨ m.target = .servlet "*") :
    f ∈ app.filtersFor target.path target.servletName kind := by
  refine (mem_filtersFor_iff_of_map? ht).2 ⟨hf, m, hm, happlies, ?_⟩
  exact htarget.imp_left fun hurl => ⟨target.pattern, hurl, (MappingTable.isFor_of_map? ht).covers⟩

end Mapped

/-! ### Places -/

namespace Place

variable (app : Application)

/-- The path within `app` that the innermost dispatch of a `Place` goes to, without its query. -/
def path : Place → String
  | .top _ uri _ _ => (Text.after? app.contextPath uri).getD uri
  | .within _ _ path _ _ => path

/-- The filters in front of `place.target`. -/
def chain (place : Place) : List Filter := app.filtersFor place.target.path place.target.servletName place.kind

end Place

/-- `resolve` succeeds only with what `map?` finds. -/
theorem Application.map?_of_resolve {app : Application} {path : String} {target : MappingMatch}
    (h : app.resolve path = .ok target) : app.mapper.map? path = some target := by
  unfold resolve at h
  split at h
  · next ht =>
    obtain rfl := Except.ok.inj h
    exact ht
  · cases h

/-- Whether the request of `x` is one within `app`. -/
def Application.Owns (app : Application) (x : Exchange) : Prop := x.request.contextPath = app.contextPath

/-- A `TopLevel` dispatch goes to what `Place.path` is mapped to, if the request is one within the application (`hx`).
-/
theorem TopLevel.map?_path {app : Application} {x z : Exchange} {place : Place} (h : TopLevel app x place z)
    (hx : app.Owns x) : app.mapper.map? (place.path app) = some place.target := by
  -- `Text.after?` takes off the context path again that stands in front of the dispatched path.
  have hlocation (p : String) : (Text.after? app.contextPath (app.contextPath ++ p)).getD (app.contextPath ++ p) = p := by
    rw [Text.after?_append, Option.getD_some]
  cases h with
  | request ht =>
    rw [Request.relativePath, show x.request.contextPath = app.contextPath from hx] at ht
    exact ht
  | async hresolve =>
    show app.mapper.map? ((Text.after? _ _).getD _) = _
    rw [hlocation]
    exact app.map?_of_resolve hresolve
  | error ht =>
    show app.mapper.map? ((Text.after? _ _).getD _) = _
    rw [hlocation]
    exact ht

/-- A jump enters what the path of its `location` is mapped to. -/
theorem Jump.Enters.map? {app : Application} {j : Jump} {location : String} {x : Exchange} {target : MappingMatch}
    (h : j.Enters app location x target) : app.mapper.map? (Request.splitTarget location).1 = some target := by
  cases j with
  | forward => exact app.map?_of_resolve h.2.2
  | inclusion => exact app.map?_of_resolve h

/-! ### Invocations -/

/-- `Invocation.first` in a place whose `chain` is known. -/
theorem Invocation.first_of_chain {app : Application} {place : Place} {depth : Nat} {servlet : Servlet} {x : Exchange}
    {filters : List Filter} (h : place.chain app = filters) :
    Invocation.first app place depth servlet x
      = ⟨place, depth, servlet, filters, x.enter place.target.servletName place.kind filters.length⟩ := by
  subst h
  rfl

/-- Whether an invocation `i` from `x` has its turn: its place goes to what `map?` gives for the path, and the filters
of the `chain` that are not left have been invoked before, in the same place and in order, each leading to `i`. -/
structure Invocation.IsInLine (app : Application) (x : Exchange) (i : Invocation) : Prop where
  mapped : app.mapper.map? (i.place.path app) = some i.place.target
  servlet : app.servlet? i.place.target.servletName = some i.servlet
  passed : ∃ passed, i.place.chain app = passed ++ i.filters ∧
    ∀ before f after, passed = before ++ f :: after → ∃ i', app.Invokes x i' ∧ LeadsTo app i' i ∧ i'.place = i.place ∧
      i'.filters = f :: (after ++ i.filters)

section InLine

variable {app : Application} {x z : Exchange} {i i' : Invocation}

theorem Application.Invokes.leads (hi : app.Invokes x i) (hlead : Invocation.Leads app i i') : app.Invokes x i' := by
  obtain ⟨htop, hservlet, hleads⟩ := hi
  exact ⟨htop, hservlet, hleads.tail hlead⟩

namespace Invocation

/-- The first component in a place `IsInLine`, as no filter stands in front of it. -/
theorem IsInLine.first {place : Place} {depth : Nat} {servlet : Servlet}
    (hmapped : app.mapper.map? (place.path app) = some place.target)
    (hservlet : app.servlet? place.target.servletName = some servlet) :
    (Invocation.first app place depth servlet z).IsInLine app x where
  mapped := hmapped
  servlet := hservlet
  passed := ⟨[], rfl, by simp⟩

/-- `Leads` keeps `IsInLine`: a component that proceeds is the last of the filters that are passed, and a jump starts
another chain. -/
theorem IsInLine.leads (h : i.IsInLine app x) (hi : app.Invokes x i) (hlead : Leads app i i') :
    i'.IsInLine app x := by
  cases hlead with
  | @proceed f fs k r y hfilters hpoint =>
    obtain ⟨passed, hchain, hbefore⟩ := h.passed
    have hlead : Leads app i { i with filters := fs, exchange := y } := .proceed hfilters hpoint
    refine ⟨h.mapped, h.servlet, passed ++ [f], by simp [hchain, hfilters], fun before g after hsplit => ?_⟩
    rcases List.eq_nil_or_concat after with rfl | ⟨after, last, rfl⟩
    · -- `hlast`: the filter that is passed last is the one that continues now.
      obtain ⟨-, hlast⟩ := List.append_inj' hsplit rfl
      obtain rfl := (List.cons.inj hlast).1
      exact ⟨i, hi, .single hlead, rfl, hfilters⟩
    · -- Any other filter is in `passed` already.
      have hsplit' : passed ++ [f] = (before ++ g :: after) ++ [last] := by simpa using hsplit
      obtain ⟨hpassed, hlast⟩ := List.append_inj' hsplit' rfl
      obtain rfl := (List.cons.inj hlast).1
      obtain ⟨i', hi', hleads, hplace, hfs⟩ := hbefore before g after hpassed
      exact ⟨i', hi', hleads.tail hlead, hplace, by simp [hfs, hfilters]⟩
  | jump _ _ hentered hservlet => exact .first hentered.map? hservlet

end Invocation

/-- By induction over `LeadsTo`, every component that is invoked from a request within the application `IsInLine`. -/
theorem Application.Invokes.isInLine (hx : app.Owns x) (hi : app.Invokes x i) : i.IsInLine app x := by
  obtain ⟨htop, hservlet, hleads⟩ := hi
  -- By induction on `hleads`.
  induction hleads with
  | refl => exact .first (htop.map?_path hx) hservlet
  | tail hmid hlast ih => exact ih.leads ⟨htop, hservlet, hmid⟩ hlast

end InLine

/-! ### Serving -/

/-- `Application.Owns` lasts between the dispatches of a served request, as none of them touches `contextPath`. -/
theorem lasting_owns (app : Application) (depth : Nat) :
    Lasting app depth (fun _ => True) fun x y => app.Owns x → app.Owns y where
  errors := trivial
  asyncs := trivial
  refl _ hx := hx
  trans h h' hx := h' (h hx)
  dispatched {x place z p} htop _ hp hx := by
    obtain ⟨request, rfl, hplace⟩ := htop.exists_eq
    -- Invocations are `steady_samePaths`, and entering and leaving the place keeps the context path.
    have hrun : SamePaths { x with request } p.2 := steady_samePaths.invoke app.uses_true depth place.target trivial hp
    exact hrun.context.trans (hplace.contextPath.trans hx)
  paths _ _ hx := hx
  startOver _ hx := hx
  prepareError _ _ hx := hx
  defaultError _ _ hx := hx
  resume _ hx := (sameButAttributes_setAttributes _ _).contextPath.trans hx
  elapse _ _ hx := hx

/-- A guard that `WorksByCalls` keeps `Application.Owns`, since no call touches `contextPath`. -/
theorem Guard.WorksByCalls.keeps_owns {app : Application} {g : Guard} (hg : g.WorksByCalls) :
    g.Keeps fun x y => app.Owns x → app.Owns y where
  check h hx := (hg.check h).samePaths.context.trans hx
  deny _ _ _ hx := hx
  after x hx := (hg.after x).samePaths.context.trans hx

/-- Whatever runs in `serveExchange` is invoked from a request that the application `Owns`, if guards work by calls
(`hguards`). -/
theorem Host.tells_of_serveExchange {h : Host} (hguards : h.GuardsByCalls) {limits : Limits} {timeout : Nat}
    {x : Exchange} {served : Served} (hs : h.serveExchange limits timeout x = some served) :
    Tells (fun ref view => ∃ id d, served.app = some id ∧ h.deployment? id = some d ∧
      d.app.InvokesIn d.app.Owns ref view) x served.exchange := by
  rcases serveExchange_ways hs with ⟨id, d, happ, hd, hserve⟩ | hanswers
  · have hguard : ∀ g, d.app.guard = some g → g.WorksByCalls := fun g hsome => hguards hd hsome
    have hlasting := (lasting_owns d.app limits.depth).tells
    have htells := (hlasting.serveWithin trivial (fun g hsome => (hguard g hsome).keeps_owns.tells (hguard g hsome))
      hserve rfl).2
    exact (Tells.of_journal rfl).trans (htells.mono fun ref view hinvokes => ⟨id, d, happ, hd, hinvokes⟩)
  · exact .of_journal hanswers.journal

/-- **No way around a filter.** Whichever of its patterns a table resolves a path by (`map?`), and for whichever `kind`
of dispatch: the filters in front of the target, `filtersFor`, are those with a mapping that `CountsFor` the path, the
empty path being read as a slash (`rooted`); those mapped to that pattern or to the servlet are among them. Whatever
runs because of a dispatch, in whatever forwards and includes, `IsInLine`: all the filters that stand in front of it in
its chain have led to it. And for a request that a host serves, nothing runs in any other way. -/
theorem mem_chain_of_dispatch :
    (∀ (app : Application) (path : String) (target : MappingMatch) (kind : DispatcherKind),
      app.mapper.map? path = some target → ∀ f : Filter,
        (f ∈ app.filtersFor target.path target.servletName kind ↔
          f ∈ app.filters ∧ ∃ m ∈ f.mappings, m.CountsFor kind (MappingTable.rooted path) target.servletName) ∧
        (f ∈ app.filters → ∀ m ∈ f.mappings, m.appliesTo kind = true →
          m.target = .url target.pattern ∨ m.target = .servlet target.servletName ∨ m.target = .servlet "*" →
          f ∈ app.filtersFor target.path target.servletName kind)) ∧
    (∀ (app : Application) (x : Exchange) (i : Invocation), app.Owns x → app.Invokes x i → i.IsInLine app x) ∧
    ∀ (h : Host) (limits : Limits) (timeout : Nat) (x : Exchange) (served : Host.Served), h.GuardsByCalls →
      h.serveExchange limits timeout x = some served →
      Tells (fun ref view => ∃ id d, served.app = some id ∧ h.deployment? id = some d ∧
        d.app.InvokesIn d.app.Owns ref view) x served.exchange := by
  refine ⟨fun app path target kind ht f => ⟨mem_filtersFor_iff_of_map? ht, ?_⟩, ?_, ?_⟩
  · exact fun hf m hm happlies htarget => mem_filtersFor_of_map? ht hf hm happlies htarget
  · exact fun app x i hx hi => hi.isInLine hx
  · exact fun h limits timeout x served hguards hs => h.tells_of_serveExchange hguards hs

/-! ### A well behind a fence -/

namespace Yard

/-- A filter that lets everybody through, for what `mapping` covers. -/
def gate (name : String) (mapping : FilterMapping) : Filter :=
  ⟨name, [mapping], ⟨.proceed fun _ => .finish, fun _ => none, false⟩⟩

/-- A filter in front of forwards to the `well`, by its pattern. -/
def fence : Filter := gate "fence" ⟨.url (.exact "/well"), [.forward]⟩

/-- A filter in front of the `well`, by its name. -/
def lid : Filter := gate "lid" ⟨.servlet "well", [.request, .forward]⟩

/-- A servlet that forwards to the `well`. -/
def court : Servlet := ⟨"court", .jump .forward "/well?deep=1" fun _ => .finish, fun _ => none, false⟩

/-- A servlet that does nothing. -/
def well : Servlet := ⟨"well", .finish, fun _ => none, false⟩

/-- The application with the servlets `court` and `well` and the filters `fence` and `lid`. -/
def app : Application where
  contextPath := "/yard"
  displayName := "yard"
  servlets := [court, well]
  filters := [fence, lid]
  mapper := (MappingTable.empty.assign "court" .default).assign "well" (.exact "/well")
  errorPages := .empty
  sessionConfig := .standard
  guard := some (PathGate.guard ⟨none⟩)
  resources := none

/-- A host with `app` in service. -/
def host : Host := (((Host.start []).add app).2.deploy 0).2

/-- A request for `/in`, which leads to the `court`. -/
def visitor : Exchange := .start (.ofLine "GET /yard/in HTTP/1.1") none (.detached "HTTP/1.1") 0 []

/-- The `visitor` within the application. -/
def guest : Exchange := visitor.mapRequest fun r => { r with contextPath := "/yard" }

/-- The place where the `court` runs. -/
def inCourt : Place := .top .request "/yard/in" none ⟨"court", .default, "/in", none⟩

/-- The place where the `well` runs, by the forward of the `court`. -/
def atWell : Place := inCourt.within .forward "/well" (some "deep=1") ⟨"well", .exact "/well", "/well", none⟩

/-- The path of the forward leads to the well. -/
theorem map?_well : app.mapper.map? "/well" = some atWell.target := by decide +kernel

/-- No filter stands in front of the court. -/
theorem chain_inCourt : inCourt.chain app = [] := by
  rw [Place.chain, Application.filtersFor, show app.filters = [fence, lid] from rfl,
    List.filter_cons_of_neg (by decide +kernel), List.filter_cons_of_neg (by decide +kernel), List.filter_nil]

/-- Both filters stand in front of the well. -/
theorem chain_atWell : atWell.chain app = [fence, lid] := by
  rw [Place.chain, Application.filtersFor, show app.filters = [fence, lid] from rfl,
    List.filter_cons_of_pos (by decide +kernel), List.filter_cons_of_pos (by decide +kernel), List.filter_nil]

/-- The guest gets to the well, by the forward and both filters. -/
theorem invokes_well : ∃ i : Invocation, app.Invokes guest i ∧ i.place = atWell ∧ i.filters = [] := by
  let x := guest.mapRequest fun r => { r with servletPath := "/in", pathInfo := none }
  let c := Invocation.first app inCourt 1 court x
  have htop : TopLevel app guest inCourt x := .request (by decide +kernel)
  have hc : c = ⟨inCourt, 1, court, [], x.enter "court" .request 0⟩ := Invocation.first_of_chain chain_inCourt
  have hcomes : c.ComesTo app ⟨.jump .forward "/well?deep=1" fun _ => .finish, none, (c.start app).exchange⟩ := by
    rw [hc]
    exact .refl
  let y := Jump.forward.into app "/well?deep=1" atWell.target (c.start app).exchange
  have hjump : Invocation.Leads app c (Invocation.first app atWell 0 well y) :=
    .jump rfl hcomes (by rw [hc]; exact ⟨rfl, rfl, rfl⟩) rfl
  rw [Invocation.first_of_chain chain_atWell] at hjump
  -- `fence` comes first, then `lid`, and then the servlet `well`.
  let f : Invocation := ⟨atWell, 0, well, [fence, lid], y.enter "well" .forward 2⟩
  let l : Invocation := { f with filters := [lid], exchange := (f.start app).exchange }
  let w : Invocation := { l with filters := [], exchange := (l.start app).exchange }
  have hfence : Invocation.Leads app f l := .proceed rfl .refl
  have hlid : Invocation.Leads app l w := .proceed rfl .refl
  exact ⟨w, ⟨htop, rfl, .tail (.tail (.single hjump) hfence) hlid⟩, rfl, rfl⟩

/-- There is no guard in the yard, so nothing is asked of it. -/
theorem guardsByCalls_host : host.GuardsByCalls := by
  intro id d g hd hg
  have happs : host.deployments.map (·.app) = [app] := rfl
  rw [List.mem_singleton.1 (Host.app_mem_of_deployment? happs hd)] at hg
  obtain rfl := Option.some.inj hg
  exact PathGate.worksByCalls_guard ⟨none⟩

/-- Whoever is forwarded to the well has passed the fence. -/
theorem mem_chain_of_dispatch_well :
    fence ∈ app.filtersFor atWell.target.path atWell.target.servletName .forward ∧
    (∃ i : Invocation, i.place = atWell ∧ i.filters = [] ∧ i.IsInLine app guest) ∧
    ∃ served, host.serveExchange ⟨2, 0⟩ 0 visitor = some served ∧
      Tells (fun ref view => ∃ id d, served.app = some id ∧ host.deployment? id = some d ∧
        d.app.InvokesIn d.app.Owns ref view) visitor served.exchange := by
  obtain ⟨hchain, hline, htells⟩ := mem_chain_of_dispatch
  obtain ⟨i, hi, hplace, hfilters⟩ := invokes_well
  obtain ⟨served, hserved⟩ := Option.isSome_iff_exists.1
    (by decide +kernel : (host.serveExchange ⟨2, 0⟩ 0 visitor).isSome = true)
  refine ⟨?_, ⟨i, hplace, hfilters, hline app guest i rfl hi⟩, served, hserved, ?_⟩
  · exact (hchain app "/well" atWell.target .forward map?_well fence).2 (by simp [app]) _ (List.mem_singleton.2 rfl)
      (by decide) (.inl rfl)
  · exact htells host _ _ _ _ guardsByCalls_host hserved

end Yard

end ServletContainer
