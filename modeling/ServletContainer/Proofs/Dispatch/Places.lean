import ServletContainer.Proofs.Dispatch.Restore

namespace ServletContainer

/-!
# Where a component runs

A component runs in a dispatch, and that one in another, up to a dispatch of its own. What a component sees of the
request tells this place: its paths, and the attributes that forwards and includes set.

* `Place` — a top-level dispatch, and the forwards and includes in it one within another.
* `Place.paths`, `Place.original?`, `Place.included?` — the paths that belong there: those of the request, those
  before the outermost forward, and those of the innermost included target.
* `Place.IsShownIn` — a request that tells its place.
* `Place.IsShownIn.forward`, `Place.IsShownIn.inclusion` — so does the request that a target gets.
* `SameMarks`, `steady_sameMarks` — what runs to its end puts the attributes back.
-/

/-! ### Names -/

/-- The names of the attributes that describe the paths of a request. -/
structure PathAttributes where
  requestUri : String
  contextPath : String
  servletPath : String
  pathInfo : String
  queryString : String

/-- The attributes that describe the request before it was forwarded. -/
def ForwardAttribute.paths : PathAttributes := ⟨requestUri, contextPath, servletPath, pathInfo, queryString⟩

/-- The attributes that describe the included target. -/
def IncludeAttribute.paths : PathAttributes := ⟨requestUri, contextPath, servletPath, pathInfo, queryString⟩

/-- The attributes that forwards and includes set. -/
def dispatchAttributes : List String := ForwardAttribute.all ++ IncludeAttribute.all

/-- Whether the attributes `names` of `r` describe the paths `p?` within `contextPath`; where there are none, and where
an optional part is left out, they are absent. -/
structure PathAttributes.Describe (names : PathAttributes) (contextPath : String) (p? : Option Request.PathState)
    (r : Request) : Prop where
  requestUri : r.attribute? names.requestUri = p?.map fun p => .text p.uri
  contextPath : r.attribute? names.contextPath = p?.map fun _ => .text contextPath
  servletPath : r.attribute? names.servletPath = p?.map fun p => .text p.servletPath
  pathInfo : r.attribute? names.pathInfo = p?.bind fun p => p.pathInfo.map Value.text
  queryString : r.attribute? names.queryString = p?.bind fun p => p.query.map Value.text

/-! ### Places -/

/-- Where a component runs: in a dispatch of the container, or in a `Jump` of a component. -/
inductive Place where
  /-- In a dispatch of its own, of a request with these paths. -/
  | top (kind : DispatcherKind) (uri : String) (query : Option String) (target : MappingMatch)
  /-- In a forward or an include within another place: to a path, with the query that was given. -/
  | within (outer : Place) (j : Jump) (path : String) (query : Option String) (target : MappingMatch)

namespace Place

/-- The kind of the innermost dispatch of a `Place`. -/
def kind : Place → DispatcherKind
  | .top kind _ _ _ => kind
  | .within _ j _ _ _ => j.kind

/-- The target of the innermost dispatch of a `Place`. -/
def target : Place → MappingMatch
  | .top _ _ _ target => target
  | .within _ _ _ _ target => target

/-- The paths of the request: those of the innermost forward, or else of the top. The query is the one that was
given last. -/
def paths (app : Application) : Place → Request.PathState
  | .top _ uri query target => ⟨uri, query, target.servletPath, target.pathInfo⟩
  | .within outer .forward path query target =>
    ⟨app.contextPath ++ path, query.or (outer.paths app).query, target.servletPath, target.pathInfo⟩
  | .within outer .inclusion _ _ _ => outer.paths app

/-- The paths before the outermost forward, if there is one. -/
def original? (app : Application) : Place → Option Request.PathState
  | .top _ _ _ _ => none
  | .within outer .forward _ _ _ => some ((outer.original? app).getD (outer.paths app))
  | .within outer .inclusion _ _ _ => outer.original? app

/-- The paths of the target of the innermost include, if there is one, with the query that was given. -/
def included? (app : Application) : Place → Option Request.PathState
  | .top _ _ _ _ => none
  | .within outer .forward _ _ _ => outer.included? app
  | .within _ .inclusion path query target =>
    some ⟨app.contextPath ++ path, query, target.servletPath, target.pathInfo⟩

/-- Whether `r` tells that it is in `place`: by its paths, and by the attributes of forwards and includes. -/
structure IsShownIn (app : Application) (place : Place) (r : Request) : Prop where
  paths : r.pathState = place.paths app
  forwarded : ForwardAttribute.paths.Describe app.contextPath (place.original? app) r
  included : IncludeAttribute.paths.Describe app.contextPath (place.included? app) r

end Place

/-! ### Attributes that are set and put back -/

section Attributes

variable {r r' : Request} {app : Application}

/-- `Describe` reads the five attributes of `names` only. -/
theorem PathAttributes.Describe.congr {names : PathAttributes} {p? : Option Request.PathState}
    (h : names.Describe app.contextPath p? r)
    (heq : ∀ n ∈ [names.requestUri, names.contextPath, names.servletPath, names.pathInfo, names.queryString],
      r'.attribute? n = r.attribute? n) :
    names.Describe app.contextPath p? r' where
  requestUri := (heq _ (by simp)).trans h.requestUri
  contextPath := (heq _ (by simp)).trans h.contextPath
  servletPath := (heq _ (by simp)).trans h.servletPath
  pathInfo := (heq _ (by simp)).trans h.pathInfo
  queryString := (heq _ (by simp)).trans h.queryString

/-- `dispatchAttributes` are those of forwards and those of includes. -/
theorem mem_dispatchAttributes_iff {n : String} :
    n ∈ dispatchAttributes ↔ n ∈ ForwardAttribute.all ∨ n ∈ IncludeAttribute.all := List.mem_append

theorem not_mem_includeAttributes {n : String} (h : n ∈ ForwardAttribute.all) : n ∉ IncludeAttribute.all := by
  revert n
  decide

/-- `setAttribute` puts a value for its name, and leaves those of other names. -/
theorem attribute?_setAttribute (r : Request) (name n : String) (v : Value) :
    (r.setAttribute name v).attribute? n = if n = name then some v else r.attribute? n :=
  Table.get?_insert _ _ _ _

/-- `IsShownIn` reads `pathState` and `dispatchAttributes` only. -/
theorem Place.IsShownIn.congr {place : Place} (h : place.IsShownIn app r) (hpaths : r'.pathState = r.pathState)
    (hattr : ∀ n ∈ dispatchAttributes, r'.attribute? n = r.attribute? n) : place.IsShownIn app r' where
  paths := hpaths.trans h.paths
  forwarded := h.forwarded.congr fun n hn => hattr n (mem_dispatchAttributes_iff.2 (.inl hn))
  included := h.included.congr fun n hn => hattr n (mem_dispatchAttributes_iff.2 (.inr hn))

/-- `describeForward` describes the paths that the request has. -/
theorem describe_describeForward (app : Application) (r : Request) :
    ForwardAttribute.paths.Describe app.contextPath (some r.pathState) (describeForward app r) := by
  constructor <;>
    simp [describeForward, attribute?_setAttribute, attribute?_putAttribute, ForwardAttribute.paths,
      ForwardAttribute.requestUri, ForwardAttribute.contextPath, ForwardAttribute.servletPath,
      ForwardAttribute.pathInfo, ForwardAttribute.queryString]

/-- `describeInclude` describes the path that is included, with the query that is given. -/
theorem describe_describeInclude (app : Application) (path : String) (query : Option String) (target : MappingMatch)
    (r : Request) :
    IncludeAttribute.paths.Describe app.contextPath
      (some ⟨app.contextPath ++ path, query, target.servletPath, target.pathInfo⟩)
      (describeInclude app path query target r) := by
  constructor <;>
    simp [describeInclude, attribute?_setAttribute, attribute?_putAttribute, IncludeAttribute.paths,
      IncludeAttribute.requestUri, IncludeAttribute.contextPath, IncludeAttribute.servletPath,
      IncludeAttribute.pathInfo, IncludeAttribute.queryString]

/-- `describeForward` leaves attributes of other names. -/
theorem attribute?_describeForward (app : Application) (r : Request) {n : String} (hn : n ∉ ForwardAttribute.all) :
    (describeForward app r).attribute? n = r.attribute? n := by
  simp only [ForwardAttribute.all, List.mem_cons, List.not_mem_nil, or_false, not_or] at hn
  simp [describeForward, attribute?_setAttribute, attribute?_putAttribute, hn]

/-- So does `describeInclude`. -/
theorem attribute?_describeInclude (app : Application) (path : String) (query : Option String)
    (target : MappingMatch) (r : Request) {n : String} (hn : n ∉ IncludeAttribute.all) :
    (describeInclude app path query target r).attribute? n = r.attribute? n := by
  simp only [IncludeAttribute.all, List.mem_cons, List.not_mem_nil, or_false, not_or] at hn
  simp [describeInclude, attribute?_setAttribute, attribute?_putAttribute, hn]

end Attributes

/-! ### Into a forward or an include -/

section Into

variable {app : Application} {path : String} {query : Option String} {target : MappingMatch} {x y : Exchange}

/-- The request that `intoForward` gives to the target: described before, if it `isOriginal`, and then sent to another
place. -/
theorem Exchange.request_intoForward : (x.intoForward app path query target).request
    = retarget app path query target (if x.request.isOriginal then describeForward app x.request else x.request) := by
  unfold intoForward
  split <;> rfl

/-- `intoForward` leaves the attributes that no `ForwardAttribute` names (`hn`). -/
theorem Exchange.attribute?_intoForward_of_not_mem {n : String} (hn : n ∉ ForwardAttribute.all) :
    (x.intoForward app path query target).request.attribute? n = x.request.attribute? n := by
  rw [request_intoForward]
  split
  · exact attribute?_describeForward app x.request hn
  · rfl

/-- If the request has been forwarded before (`hfirst`), `intoForward` leaves all attributes. -/
theorem Exchange.attribute?_intoForward_of_not_isOriginal (hfirst : ¬ x.request.isOriginal = true) (n : String) :
    (x.intoForward app path query target).request.attribute? n = x.request.attribute? n := by
  rw [request_intoForward, if_neg hfirst]
  rfl

/-- The target of a forward sees a request that is not `isOriginal`. -/
theorem Exchange.isOriginal_intoForward : (x.intoForward app path query target).request.isOriginal = false := by
  by_cases hfirst : x.request.isOriginal = true
  · have hdescribed := (describe_describeForward app x.request).requestUri
    rw [request_intoForward, if_pos hfirst]
    show ((describeForward app x.request).attribute? ForwardAttribute.requestUri).isNone = false
    rw [show (describeForward app x.request).attribute? ForwardAttribute.requestUri = _ from hdescribed]
    rfl
  · unfold Request.isOriginal
    rw [attribute?_intoForward_of_not_isOriginal hfirst]
    exact Bool.eq_false_iff.2 hfirst

/-- If the request has the paths of `place`, the target of a forward gets those of the place within. -/
theorem Exchange.pathState_intoForward {place : Place} (h : x.request.pathState = place.paths app) :
    (x.intoForward app path query target).request.pathState = (place.within .forward path query target).paths app := by
  have hquery : (place.paths app).query = x.request.query := congrArg Request.PathState.query h.symm
  rw [request_intoForward, Place.paths, hquery]
  split
  · have hkept : (describeForward app x.request).query = x.request.query :=
      congrArg Request.PathState.query (pathState_describeForward x.request app)
    simp only [retarget, Request.pathState, hkept]
  · rfl

/-- So does the target of an include: its paths are those of `place`. -/
theorem Exchange.pathState_intoInclude {place : Place} (h : x.request.pathState = place.paths app) :
    (x.intoInclude app path query target).request.pathState = (place.within .inclusion path query target).paths app :=
  (pathState_describeInclude x.request app path query target).trans h

namespace Place.IsShownIn

variable {place : Place}

/-- A request that shows its place `isOriginal` if and only if the place is in no forward. -/
theorem isOriginal_eq (h : place.IsShownIn app x.request) : x.request.isOriginal = (place.original? app).isNone := by
  have huri : x.request.attribute? ForwardAttribute.requestUri = _ := h.forwarded.requestUri
  rw [Request.isOriginal, huri, Option.isNone_map]

/-- From a request that shows `place`, the target of a forward gets one that shows the place within. -/
theorem forward (h : place.IsShownIn app x.request) :
    (place.within .forward path query target).IsShownIn app (x.intoForward app path query target).request where
  paths := Exchange.pathState_intoForward h.paths
  forwarded := by
    by_cases hfirst : x.request.isOriginal = true
    · -- No `original?`: the paths before this forward are those of the place that it starts from.
      have hnone : place.original? app = none := Option.isNone_iff_eq_none.1 (h.isOriginal_eq ▸ hfirst)
      rw [original?, hnone, Option.getD_none, ← h.paths, Exchange.request_intoForward, if_pos hfirst]
      exact (describe_describeForward app x.request).congr fun n _ => rfl
    · obtain ⟨p, hp⟩ : ∃ p, place.original? app = some p :=
        Option.ne_none_iff_exists'.1 (by simpa [h.isOriginal_eq] using hfirst)
      rw [original?, hp, Option.getD_some, ← hp]
      exact h.forwarded.congr fun n _ => Exchange.attribute?_intoForward_of_not_isOriginal hfirst n
  included :=
    h.included.congr fun n hn => Exchange.attribute?_intoForward_of_not_mem fun hmem =>
      not_mem_includeAttributes hmem hn

/-- So does the target of an include. -/
theorem inclusion (h : place.IsShownIn app x.request) :
    (place.within .inclusion path query target).IsShownIn app (x.intoInclude app path query target).request where
  paths := Exchange.pathState_intoInclude h.paths
  forwarded :=
    h.forwarded.congr fun _ hn => attribute?_describeInclude app path query target x.request
      (not_mem_includeAttributes hn)
  included := describe_describeInclude app path query target x.request

end Place.IsShownIn

end Into

/-! ### Putting the attributes back -/

/-- Whether a continuation brings no attributes of `names`. -/
def Continuation.Spares (names : List String) : Continuation → Prop
  | .complete attributes => ∀ a ∈ attributes, a.1 ∉ names
  | .dispatch attributes _ => ∀ a ∈ attributes, a.1 ∉ names
  | .abandon => True
  | .unanswered => True

/-- Whether a call leaves the attributes of some names alone, and brings none of them with a continuation. -/
def Op.Spares (names : List String) : Op → Prop
  | .setAttribute name _ => name ∉ names
  | .removeAttribute name => name ∉ names
  | .startAsync c => c.Spares names
  | _ => True

/-- What a call puts is none of the names that it spares. -/
theorem Op.Spares.not_mem {names : List String} {op : Op} (h : op.Spares names) {name : String} (hp : op.Puts name) :
    name ∉ names := by
  rcases hp with ⟨v, rfl⟩ | rfl
  · exact h
  · exact h

/-- Whether a request that has not been forwarded has none of the attributes that tell of it. -/
def Request.IsCoherent (r : Request) : Prop :=
  r.isOriginal = true → ∀ n ∈ ForwardAttribute.all, r.attribute? n = none

/-- Whether the attributes that forwards and includes set are as they were. -/
def SameMarks (x y : Exchange) : Prop :=
  x.request.IsCoherent → ∀ n ∈ dispatchAttributes, y.request.attribute? n = x.request.attribute? n

/-- `IsCoherent` reads `dispatchAttributes` only. -/
theorem Request.IsCoherent.congr {r r' : Request} (h : r.IsCoherent)
    (hattr : ∀ n ∈ dispatchAttributes, r'.attribute? n = r.attribute? n) : r'.IsCoherent := by
  have hforward : ∀ n ∈ ForwardAttribute.all, r'.attribute? n = r.attribute? n := fun n hn =>
    hattr n (mem_dispatchAttributes_iff.2 (.inl hn))
  intro horiginal n hn
  rw [hforward n hn]
  refine h ?_ n hn
  rwa [Request.isOriginal, ← hforward _ (by simp [ForwardAttribute.all])]

/-- A request that shows its place `IsCoherent`: the five attributes are described together or not at all. -/
theorem Place.IsShownIn.isCoherent {app : Application} {place : Place} {r : Request} (h : place.IsShownIn app r) :
    r.IsCoherent := by
  intro horiginal
  -- A request without `ForwardAttribute.requestUri` is shown at a place that was not forwarded to.
  have hnone : place.original? app = none := by
    have huri : r.attribute? ForwardAttribute.requestUri = _ := h.forwarded.requestUri
    rw [Request.isOriginal, huri, Option.isNone_map] at horiginal
    exact Option.isNone_iff_eq_none.1 horiginal
  have hf := h.forwarded
  rw [hnone] at hf
  intro n hn
  simp only [ForwardAttribute.all, List.mem_cons, List.not_mem_nil, or_false] at hn
  -- One of the forward attributes each.
  rcases hn with rfl | rfl | rfl | rfl | rfl
  · exact hf.requestUri
  · exact hf.contextPath
  · exact hf.servletPath
  · exact hf.pathInfo
  · exact hf.queryString

namespace SameMarks

variable {x y z : Exchange}

/-- Exchanges that agree in `dispatchAttributes` have the `SameMarks`. -/
theorem of_eq (h : ∀ n ∈ dispatchAttributes, y.request.attribute? n = x.request.attribute? n) : SameMarks x y :=
  fun _ => h

/-- So an exchange has the `SameMarks` as itself. -/
theorem refl (x : Exchange) : SameMarks x x := .of_eq fun _ _ => rfl

/-- `SameMarks` composes, as what keeps the attributes keeps `IsCoherent`. -/
theorem trans (h : SameMarks x y) (h' : SameMarks y z) : SameMarks x z := fun hx n hn =>
  (h' (hx.congr (h hx)) n hn).trans (h hx n hn)

end SameMarks

/-- A step of a call that does not put an attribute leaves it as it was. -/
theorem Op.Step.attribute?_eq {op : Op} {n : String} (hop : ¬ op.Puts n) {x y : Exchange} (h : op.Step x y) :
    y.request.attribute? n = x.request.attribute? n := by
  cases h with
  | put name v hp =>
    have hne : n ≠ name := fun he => hop (he ▸ hp)
    show (x.request.putAttribute name v).attribute? n = _
    rw [attribute?_putAttribute, if_neg hne]
  | respond | store | bind | fields | input | defer | note => rfl

/-- So a step of a call that spares `dispatchAttributes` keeps `SameMarks`. -/
theorem Op.Step.sameMarks {op : Op} (hop : op.Spares dispatchAttributes) {x y : Exchange} (h : op.Step x y) :
    SameMarks x y :=
  .of_eq fun _ hn => h.attribute?_eq fun hp => hop.not_mem hp hn

section Jumps

variable {invoke : Invoker} {app : Application} {location : String}

/-- `forwardWith` keeps `SameMarks` if the target's `invoke` does (`hi`). The first of nested forwards takes away the
attributes that it has set. -/
theorem sameMarks_forwardWith (hi : ∀ target, Carries SameMarks (invoke target .forward)) :
    Carries SameMarks (forwardWith invoke app location) := by
  intro x p h
  rcases forwardWith_cases app location x with ⟨e, y, hy, heq⟩ | ⟨target, -, heq⟩
  · obtain rfl := Option.some.inj ((heq invoke).symm.trans h)
    rcases hy with rfl | ⟨-, rfl⟩ <;> exact .of_eq fun _ _ => rfl
  · rw [heq] at h
    obtain ⟨q, hq, rfl⟩ := Option.map_eq_some_iff.1 h
    intro hx n hn
    -- The target's request is not original, so `hi` keeps the attributes of the forward in it.
    have hrun := hi _ hq (fun horiginal => by simp [Exchange.isOriginal_intoForward] at horiginal) n hn
    unfold Exchange.outOfForward
    by_cases hfirst : x.request.isOriginal = true
    · -- The attributes of the forward are taken away again, and `IsCoherent` says that there were none before.
      simp only [hfirst, if_true]
      show (removeAttributes ForwardAttribute.all (q.2.request.withPathState x.request.pathState)).attribute? n = _
      rw [attribute?_removeAttributes]
      split
      · next hmem => exact (hx hfirst n hmem).symm
      · next hmem => exact hrun.trans (Exchange.attribute?_intoForward_of_not_mem hmem)
    · simp only [hfirst, Bool.false_eq_true, if_false]
      exact hrun.trans (Exchange.attribute?_intoForward_of_not_isOriginal hfirst n)

/-- So does `includeWith`, which puts back what the include attributes were before. -/
theorem sameMarks_includeWith (hi : ∀ target, Carries SameMarks (invoke target .inclusion)) :
    Carries SameMarks (includeWith invoke app location) := by
  intro x p h
  rcases includeWith_cases app location x with ⟨e, heq⟩ | ⟨target, -, heq⟩
  · obtain rfl := Option.some.inj ((heq invoke).symm.trans h)
    exact .refl x
  · rw [heq] at h
    obtain ⟨q, hq, rfl⟩ := Option.map_eq_some_iff.1 h
    intro hx n hn
    -- `intoInclude` sets no `ForwardAttribute`.
    have hforward : ∀ m ∈ ForwardAttribute.all, (x.intoInclude app (Request.splitTarget location).1
        (Request.splitTarget location).2 target).request.attribute? m = x.request.attribute? m := fun m hm =>
      attribute?_describeInclude app _ _ target x.request (not_mem_includeAttributes hm)
    show (restoreAttributes IncludeAttribute.all x.request q.2.request).attribute? n = _
    rw [attribute?_restoreAttributes]
    split
    · rfl
    · next hmem =>
      have hn' : n ∈ ForwardAttribute.all := (mem_dispatchAttributes_iff.1 hn).resolve_right hmem
      refine (hi _ hq (fun horiginal m hm => ?_) n hn).trans (hforward n hn')
      rw [hforward m hm]
      refine hx ?_ m hm
      rwa [Request.isOriginal, hforward _ (by simp [ForwardAttribute.all])] at horiginal

end Jumps

/-- So `SameMarks` is `Steady` under calls that spare `dispatchAttributes`: what code leaves alone, and dispatches put
back, is as it was. -/
theorem steady_sameMarks : Steady (Op.Spares dispatchAttributes) (fun _ => True) SameMarks where
  forwards := trivial
  includes := trivial
  refl := .refl
  trans := .trans
  perform hop hp := (Op.steps_perform hp).lift .refl .trans fun hs => hs.sameMarks hop
  entered _ _ _ := .of_eq fun _ _ => rfl
  left _ _ _ := .of_eq fun _ _ => rfl
  within _ h := h
  forward := sameMarks_forwardWith
  inclusion := sameMarks_includeWith

end ServletContainer
