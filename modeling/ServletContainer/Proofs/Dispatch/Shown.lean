import ServletContainer.Proofs.Dispatch.Chains

namespace ServletContainer

/-!
# What a request shows of its place

The paths of a request and the kind of the dispatch are set by the container alone, so every component finds those of
its place, whatever the code does. An include has none of its own: its target is shown the paths of the dispatch that
it stands in.

* `Place.shown` — the innermost dispatch that is no include.
* `Invocation.ShowsPlace`, `Application.Invokes.showsPlace` — the paths and the kind of the dispatch that are found.
* `Application.Invokes.mappedPath_eq` — the path by which the request was mapped, told by the dispatch that is shown.
-/

namespace Place

/-- The innermost dispatch of a `Place` that is no include. -/
def shown : Place → Place
  | .top kind uri query target => .top kind uri query target
  | .within outer .forward path query target => .within outer .forward path query target
  | .within outer .inclusion _ _ _ => outer.shown

/-- A place that is no include is `shown` itself. -/
theorem shown_of_kind_ne {place : Place} (h : place.kind ≠ .inclusion) : place.shown = place := by
  match place, h with
  | .top _ _ _ _, _ => rfl
  | .within _ .forward _ _ _, _ => rfl
  | .within _ .inclusion _ _ _, h => exact absurd rfl h

/-- `servletPath` and `pathInfo` at a place are those of the target of the `shown` place, by induction on the includes
it is in. -/
theorem paths_eq_shown (app : Application) (place : Place) :
    (place.paths app).servletPath = place.shown.target.servletPath ∧
      (place.paths app).pathInfo = place.shown.target.pathInfo := by
  induction place with
  | top kind uri query target => exact ⟨rfl, rfl⟩
  | within outer j path query target ih =>
    cases j with
    | forward => exact ⟨rfl, rfl⟩
    | inclusion => exact ih

end Place

/-- Whether the component of `i` finds the paths and the kind of `i.place`. -/
structure Invocation.ShowsPlace (app : Application) (i : Invocation) : Prop where
  paths : i.exchange.request.pathState = i.place.paths app
  dispatcher : i.exchange.dispatcher = i.place.kind

section ShowsPlace

variable {app : Application} {x z : Exchange} {place : Place} {depth : Nat} {servlet : Servlet} {i i' : Invocation}

namespace Invocation

/-- The first component of a dispatch `ShowsPlace` if the request has the paths of the place. -/
theorem ShowsPlace.first (hz : z.request.pathState = place.paths app) :
    (Invocation.first app place depth servlet z).ShowsPlace app := ⟨hz, rfl⟩

/-- What it `Leads` to `ShowsPlace` too: a chain that is continued keeps the paths, and `Jump.into` gives the target
those of its own. -/
theorem ShowsPlace.leads (h : i.ShowsPlace app) (hlead : Leads app i i') : i'.ShowsPlace app := by
  have hsame {c : Point} (hc : i.ComesTo app c) : SameFrame i.exchange c.exchange :=
    steady_sameFrame.comesTo app.uses_true i.uses_true hc
  cases hlead with
  | proceed _ hpoint => exact ⟨(hsame hpoint).paths.trans h.paths, (hsame hpoint).dispatcher.trans h.dispatcher⟩
  | @jump _ j _ _ _ _ _ _ _ hpoint _ _ =>
    have hpaths := (hsame hpoint).paths.trans h.paths
    cases j with
    | forward => exact .first (Exchange.pathState_intoForward hpaths)
    | inclusion => exact .first (Exchange.pathState_intoInclude hpaths)

/-- So does what it `LeadsTo`, by induction on the way there. -/
theorem ShowsPlace.leadsTo (h : i.ShowsPlace app) (hlead : LeadsTo app i i') : i'.ShowsPlace app := by
  induction hlead with
  | refl => exact h
  | tail _ hlast ih => exact ih.leads hlast

/-- If the `shown` path was mapped to its target, so it is of what a component `Leads` to. -/
theorem map?_shown_of_leads (h : app.mapper.map? (i.place.shown.path app) = some i.place.shown.target)
    (hlead : Leads app i i') : app.mapper.map? (i'.place.shown.path app) = some i'.place.shown.target := by
  cases hlead with
  | proceed _ _ => exact h
  | @jump _ j _ _ _ _ _ _ _ _ hentered _ =>
    cases j with
    | forward => exact hentered.map?
    | inclusion => exact h

end Invocation

namespace Application.Invokes

/-- Every component that an application `Invokes` finds the paths and the kind of its place. -/
theorem showsPlace (hi : app.Invokes x i) : i.ShowsPlace app := by
  obtain ⟨htop, -, hleads⟩ := hi
  exact (Invocation.ShowsPlace.first htop.pathState).leadsTo hleads

/-- And the path of its `shown` place is mapped to the target there. -/
theorem map?_shown (hx : app.Owns x) (hi : app.Invokes x i) :
    app.mapper.map? (i.place.shown.path app) = some i.place.shown.target := by
  obtain ⟨htop, -, hleads⟩ := hi
  induction hleads with
  | @refl =>
    have hmapped := htop.map?_path hx
    cases htop <;> exact hmapped
  | tail _ hlast ih => exact Invocation.map?_shown_of_leads ih hlast

/-- So the `mappedPath` of its request is the path of the `shown` place; `rooted` reads the empty path as a slash. -/
theorem mappedPath_eq (hx : app.Owns x) (hi : app.Invokes x i) :
    i.exchange.request.mappedPath = MappingTable.rooted (i.place.shown.path app) := by
  obtain ⟨hservletPath, hpathInfo⟩ := i.place.paths_eq_shown app
  rw [← hi.showsPlace.paths] at hservletPath hpathInfo
  calc i.exchange.request.mappedPath
      = i.exchange.request.pathState.servletPath ++ i.exchange.request.pathState.pathInfo.getD "" := rfl
    _ = i.place.shown.target.path := by rw [hservletPath, hpathInfo, MappingMatch.path]
    _ = MappingTable.rooted (i.place.shown.path app) := (MappingTable.isFor_of_map? (hi.map?_shown hx)).path_eq

end Application.Invokes

end ShowsPlace

end ServletContainer
