import ServletContainer.Proofs.Dispatch.Invocations
import ServletContainer.Proofs.Dispatch.Lasting

namespace ServletContainer

/-!
# Nested dispatches

A component finds its place on the request, wherever it runs: in the dispatch of a request, of a deferred request or
of a failure, and in the forwards and includes within it. This needs that the code of the components leaves alone
what forwards and includes set.

* `Exchange.IsUnmarked` — outside of all forwards and includes.
* `TopLevel.pathState`, `TopLevel.isShownIn` — every dispatch of a served request starts in its place.
* `Application.Invokes` — the components that run because of such a dispatch.
* `Lasting.tells` — the journal of a served request tells of no other components.
* `lasting_unmarked` — from one dispatch to the next the request stays unmarked.
* `describes_of_invokes` — each of them is told its place.
-/

/-! ### Unmarked exchanges -/

/-- Whether `r` has none of the `dispatchAttributes`. -/
def Request.IsPlain (r : Request) : Prop := ∀ n ∈ dispatchAttributes, r.attribute? n = none

/-- Whether the request of `x` is plain, and what it is deferred with spares `dispatchAttributes` too. -/
structure Exchange.IsUnmarked (x : Exchange) : Prop where
  plain : x.request.IsPlain
  pending : ∀ c, x.pending = some c → c.Spares dispatchAttributes

/-- A request without attributes, as all start, with nothing pending `IsUnmarked`. -/
theorem Exchange.IsUnmarked.of_empty {x : Exchange} (hattr : x.request.attributes = .empty) (hp : x.pending = none) :
    x.IsUnmarked where
  plain _ _ := by
    unfold Request.attribute?
    rw [hattr]
    rfl
  pending c hc := by
    rw [hp] at hc
    cases hc

section Plain

variable {app : Application} {r r' : Request}

/-- `IsPlain` reads `dispatchAttributes` only. -/
theorem Request.IsPlain.congr (h : r.IsPlain) (hattr : ∀ n ∈ dispatchAttributes, r'.attribute? n = r.attribute? n) :
    r'.IsPlain := fun n hn => (hattr n hn).trans (h n hn)

/-- On a request that `IsPlain` the forward attributes describe no paths. -/
theorem Request.IsPlain.forwarded (h : r.IsPlain) : ForwardAttribute.paths.Describe app.contextPath none r := by
  constructor <;> exact h _ (by decide)

theorem Request.IsPlain.included (h : r.IsPlain) : IncludeAttribute.paths.Describe app.contextPath none r := by
  constructor <;> exact h _ (by decide)

/-- A plain request shows the place of a `top` dispatch by its `pathState` alone. -/
theorem Request.IsPlain.isShownIn (h : r.IsPlain) {kind : DispatcherKind} {uri : String} {query : Option String}
    {target : MappingMatch} (hpaths : r.pathState = ⟨uri, query, target.servletPath, target.pathInfo⟩) :
    (Place.top kind uri query target).IsShownIn app r := ⟨hpaths, h.forwarded, h.included⟩

/-- Attributes that are none of `dispatchAttributes` leave it so, by induction on the list. -/
theorem Request.IsPlain.setAttributes (h : r.IsPlain) {attributes : List (String × Value)}
    (hspare : ∀ a ∈ attributes, a.1 ∉ dispatchAttributes) : (setAttributes attributes r).IsPlain := by
  induction attributes generalizing r with
  | nil => exact h
  | cons a attributes ih =>
    refine ih (fun n hn => ?_) fun a' ha' => hspare a' (List.mem_cons_of_mem _ ha')
    have hne : n ≠ a.1 := fun he => hspare a List.mem_cons_self (he ▸ hn)
    rw [attribute?_setAttribute, if_neg hne]
    exact h n hn

/-- `describeError` sets none of `dispatchAttributes`. -/
theorem Request.IsPlain.describeError (h : r.IsPlain) (e : ServletError) (servletName : Option String) :
    (describeError e servletName r).IsPlain := by
  have hnames : ∀ n ∈ dispatchAttributes, n ≠ ErrorAttribute.statusCode ∧ n ≠ ErrorAttribute.exceptionType ∧
      n ≠ ErrorAttribute.message ∧ n ≠ ErrorAttribute.requestUri ∧ n ≠ ErrorAttribute.servletName := by decide
  intro n hn
  simp only [ServletContainer.describeError, attribute?_setAttribute, attribute?_putAttribute, hnames n hn, if_false]
  exact h n hn

theorem pathState_describeError (e : ServletError) (servletName : Option String) (r : Request) :
    (describeError e servletName r).pathState = r.pathState :=
  (sameButAttributes_describeError r e servletName).pathState

end Plain

namespace Exchange.IsUnmarked

variable {x y : Exchange}

/-- `IsUnmarked` reads the attributes and `pending` only, and nothing pending is as good. -/
theorem of_eq (hx : x.IsUnmarked) (hr : y.request.attributes = x.request.attributes)
    (hp : y.pending = x.pending ∨ y.pending = none) : y.IsUnmarked where
  plain n hn := by
    show y.request.attributes.get? n = none
    rw [hr]
    exact hx.plain n hn
  pending c hc := by
    rcases hp with hsame | hnone
    · exact hx.pending c (hsame ▸ hc)
    · rw [hnone] at hc
      cases hc

/-- A deferred request that is taken up brings the attributes of its continuation, which `IsUnmarked` says are none of
`dispatchAttributes`. -/
theorem resume (hx : x.IsUnmarked) {c : Continuation} (hc : x.pending = some c) :
    (Exchange.mapRequest { x with pending := none } (setAttributes c.attributes)).IsUnmarked where
  plain := by
    have hspare := hx.pending c hc
    refine hx.plain.setAttributes ?_
    cases c with
    | complete attributes | dispatch attributes => exact hspare
    | abandon | unanswered => simp [Continuation.attributes]
  pending c' hc' := by cases hc'

end Exchange.IsUnmarked

/-! ### Dispatches -/

namespace TopLevel

variable {app : Application} {x z : Exchange} {place : Place}

/-- A `TopLevel` dispatch of a request that `IsPlain` starts with one. -/
theorem isPlain (h : TopLevel app x place z) (hx : x.request.IsPlain) : z.request.IsPlain := by
  cases h with
  | request _ => exact hx
  | async _ => exact hx
  | error _ => exact hx.describeError _ _

/-- It starts with the paths that belong to its place. -/
theorem pathState (h : TopLevel app x place z) : z.request.pathState = place.paths app := by
  cases h with
  | request _ => rfl
  | async _ => rfl
  | @error location e target _ =>
    have hquery := congrArg Request.PathState.query (pathState_describeError e x.servletName x.request)
    simp only [Request.pathState] at hquery
    simp only [Exchange.mapRequest, retarget, Request.pathState, hquery]
    rfl

/-- So it starts with a request that shows its place. -/
theorem isShownIn (h : TopLevel app x place z) (hx : x.request.IsPlain) : place.IsShownIn app z.request := by
  have hz := h.isPlain hx
  have hpaths := h.pathState
  cases h with
  | request _ => exact hz.isShownIn hpaths
  | async _ => exact hz.isShownIn hpaths
  | error _ => exact hz.isShownIn hpaths

end TopLevel

/-- Whether what is pending goes on sparing `dispatchAttributes` from `x` to `y`. -/
def Spared (x y : Exchange) : Prop :=
  (∀ c, x.pending = some c → c.Spares dispatchAttributes) → ∀ c, y.pending = some c → c.Spares dispatchAttributes

/-- What leaves `pending` alone is `Spared`. -/
theorem Spared.of_pending {x y : Exchange} (h : y.pending = x.pending) : Spared x y := fun hx c hc => hx c (h ▸ hc)

/-- `Spared` is `Carried` with calls that spare `dispatchAttributes`: of these `startAsync` alone sets `pending`. -/
theorem carried_spared : Carried (Op.Spares dispatchAttributes) Spared where
  refl _ := .of_pending rfl
  trans h h' hx := h' (h hx)
  perform {op _ _} hop hp hx c hc := by
    rcases (Op.effect hp).pending with hsame | ⟨c', rfl, hpending⟩
    · exact hx c (hsame ▸ hc)
    · obtain rfl := Option.some.inj (hpending.symm.trans hc)
      exact hop
  log _ _ _ := .of_pending rfl
  request _ _ := .of_pending rfl
  place _ _ _ := .of_pending rfl
  reset _ := .of_pending rfl
  lock _ _ := .of_pending rfl

/-! ### Invocations -/

/-- Whether a component runs because of a `TopLevel` dispatch that starts from `x`. -/
inductive Application.Invokes (app : Application) (x : Exchange) : Invocation → Prop
  | intro {place z depth servlet i} : TopLevel app x place z → app.servlet? place.target.servletName = some servlet →
    Invocation.LeadsTo app (Invocation.first app place depth servlet z) i → app.Invokes x i

/-- Whether `ref` is invoked with `view` from some exchange with `P`. -/
def Application.InvokesIn (app : Application) (P : Exchange → Prop) (ref : ComponentRef) (view : Snapshot) : Prop :=
  ∃ x i, P x ∧ app.Invokes x i ∧ i.component = ref ∧ i.exchange.snapshot = view

/-- Whether `ref` is invoked with `view` from some unmarked exchange. -/
def Application.InvokesWithin (app : Application) (ref : ComponentRef) (view : Snapshot) : Prop :=
  ∃ x i, x.IsUnmarked ∧ app.Invokes x i ∧ i.component = ref ∧ i.exchange.snapshot = view

/-- A `TopLevel` dispatch from an `x` with `P` tells of components that are invoked from such an exchange only. -/
theorem tells_of_topLevel {app : Application} {depth : Nat} {x z : Exchange} {place : Place} {p : Outcome × Exchange}
    (htop : TopLevel app x place z) (hp : invoke app depth place.target place.kind z = some p) {P : Exchange → Prop}
    (hx : P x) : Tells (app.InvokesIn P) x p.2 := by
  have hjournal : z.journal = x.journal := htop.view_eq fun _ _ => rfl
  refine (Tells.of_journal hjournal).trans (Invocation.tells_invoke (fun n servlet _ hs q hq => ?_) hp)
  refine (Invocation.tells_run _ hq).mono ?_
  rintro ref view ⟨i, hleads, hview⟩
  exact ⟨x, i, hx, ⟨htop, hs, hleads⟩, hview⟩

/-- Let an invariant `P` be kept between the dispatches of a served request (`h`). Then the journal tells of no
components but those that are invoked from an exchange with `P`. -/
theorem Lasting.tells {app : Application} {depth : Nat} {P : Exchange → Prop}
    (h : Lasting app depth (fun _ => True) fun x y => P x → P y) :
    Lasting app depth (fun _ => True) fun x y => P x → P y ∧ Tells (app.InvokesIn P) x y where
  errors := trivial
  asyncs := trivial
  refl x hx := ⟨hx, .of_journal rfl⟩
  trans hxy hyz hx := by
    -- `P` holds in between, so what is told from there on is told of an exchange with `P`.
    obtain ⟨hy, htells⟩ := hxy hx
    obtain ⟨hz, htells'⟩ := hyz hy
    exact ⟨hz, htells.trans htells'⟩
  dispatched htop hkind hp hx := ⟨h.dispatched htop hkind hp hx, tells_of_topLevel htop hp hx⟩
  paths x p hx := ⟨h.paths x p hx, .of_journal rfl⟩
  startOver x hx := ⟨h.startOver x hx, .of_journal rfl⟩
  prepareError x status hx := ⟨h.prepareError x status hx, .of_journal rfl⟩
  defaultError x status hx := ⟨h.defaultError x status hx, .of_journal rfl⟩
  resume hc hx := ⟨h.resume hc hx, .of_journal rfl⟩
  elapse x millis hx := ⟨h.elapse x millis hx, .of_journal rfl⟩

/-- A guard that `WorksByCalls` tells of no component, so it keeps this as well. -/
theorem Guard.Keeps.tells {g : Guard} {P : Exchange → Prop} (h : g.Keeps fun x y => P x → P y) (hg : g.WorksByCalls)
    {known : ComponentRef → Snapshot → Prop} : g.Keeps fun x y => P x → P y ∧ Tells known x y where
  check hp hx := ⟨h.check hp hx, (hg.check hp).tells⟩
  deny x status challenge hx := ⟨h.deny x status challenge hx, .of_journal rfl⟩
  after x hx := ⟨h.after x hx, (hg.after x).tells⟩

section Serving

variable {app : Application} (ha : app.Uses (Op.Spares dispatchAttributes))

include ha

/-- What is invoked from a request that `IsPlain` `IsTold` its place. -/
theorem isTold_of_invokes {x : Exchange} (hx : x.request.IsPlain) {i : Invocation} (hi : app.Invokes x i) :
    i.IsTold app := by
  obtain ⟨htop, hservlet, hleads⟩ := hi
  exact (Invocation.IsTold.first hservlet (htop.isShownIn hx)).leadsTo ha hleads

/-- A dispatch leaves the exchange unmarked: `SameMarks` holds of its attributes, `Spared` of what is pending. -/
theorem isUnmarked_of_topLevel {depth : Nat} {x z : Exchange} {place : Place} {p : Outcome × Exchange}
    (htop : TopLevel app x place z) (hp : invoke app depth place.target place.kind z = some p) (hx : x.IsUnmarked) :
    p.2.IsUnmarked where
  plain := by
    have hmarks := steady_sameMarks.invoke ha depth place.target trivial hp
    exact (htop.isPlain hx.plain).congr (hmarks (htop.isShownIn hx.plain).isCoherent)
  pending := by
    have hz : ∀ c, z.pending = some c → c.Spares dispatchAttributes := by
      rw [htop.view_eq (f := Exchange.pending) fun _ _ => rfl]
      exact hx.pending
    rcases carried_spared.dispatched ha hp with hsame | ⟨filters, hrun⟩
    · rw [hsame]
      exact hz
    · exact hrun hz

end Serving

/-! ### Requests -/

/-- Whether `g` keeps `SameMarks` and what is pending, and tells of no component that runs. -/
structure Guard.IsModest (g : Guard) : Prop where
  check : ∀ {x p}, g.check x = some p → SameMarks x p.2 ∧ p.2.pending = x.pending ∧ Tells (fun _ _ => False) x p.2
  after : ∀ x, SameMarks x (g.after x) ∧ (g.after x).pending = x.pending ∧ Tells (fun _ _ => False) x (g.after x)

/-- `PathGate` changes nothing. -/
theorem PathGate.isModest_guard (g : PathGate) : g.guard.IsModest where
  check {x p} h := by
    obtain rfl := Option.some.inj h
    exact ⟨.of_eq fun _ _ => rfl, rfl, .log x (by simp)⟩
  after x := ⟨.of_eq fun _ _ => rfl, rfl, .log x (by simp)⟩

namespace BasicAuth

/-- `bindSession?` calls sessions only, which spares `dispatchAttributes`. -/
theorem sameMarks_bindSession? {x y : Exchange} {caller : Principal} (h : bindSession? x caller = some y) :
    SameMarks x y := by
  obtain ⟨z, hz, hy⟩ := steps_bindSession? h
  have hspares : Op.observe.Spares dispatchAttributes := trivial
  have hsteps : SameMarks x z := hz.lift .refl .trans (Op.Step.sameMarks hspares)
  rcases hy with rfl | ⟨id, rfl⟩
  · exact hsteps
  · exact hsteps.trans (.of_eq fun _ _ => rfl)

/-- So does all of `check?`. -/
theorem sameMarks_check? {g : BasicAuth} {x : Exchange} {p : Decision × Exchange} (h : g.check? x = some p) :
    SameMarks x p.2 :=
  check?_lift .refl (fun _ hxy => hxy.trans (.of_eq fun _ _ => rfl)) sameMarks_bindSession? h

/-- `BasicAuth` looks sessions up and notes the caller, so it `IsModest`. -/
theorem isModest_guard (g : BasicAuth) : g.guard.IsModest where
  check h := ⟨sameMarks_check? h, (quiet_check? h).pending, .of_journal (quiet_check? h).journal⟩
  after x := ⟨.refl x, rfl, .of_journal rfl⟩

end BasicAuth

/-- Whether `y` is unmarked if `x` is, and its journal tells of no components but those that `app` invokes. -/
def StaysUnmarked (app : Application) (x y : Exchange) : Prop :=
  x.IsUnmarked → y.IsUnmarked ∧ Tells app.InvokesWithin x y

namespace StaysUnmarked

variable {app : Application} {x y : Exchange}

/-- What keeps the attributes, defers nothing and records nothing `StaysUnmarked`. -/
theorem of_eq (hr : y.request.attributes = x.request.attributes) (hp : y.pending = x.pending ∨ y.pending = none)
    (hj : y.journal = x.journal) : StaysUnmarked app x y := fun hx => ⟨hx.of_eq hr hp, .of_journal hj⟩

/-- So does what a guard that `IsModest` does. -/
theorem of_modest (h : SameMarks x y ∧ y.pending = x.pending ∧ Tells (fun _ _ => False) x y) :
    StaysUnmarked app x y := by
  obtain ⟨hmarks, hpending, htells⟩ := h
  intro hx
  refine ⟨⟨hx.plain.congr (hmarks fun _ n hn => ?_), hpending ▸ hx.pending⟩, htells.mono fun _ _ h => h.elim⟩
  exact hx.plain n (mem_dispatchAttributes_iff.2 (.inl hn))

end StaysUnmarked

/-- Such a guard keeps `StaysUnmarked`. -/
theorem Guard.IsModest.keeps {app : Application} {g : Guard} (hg : g.IsModest) : g.Keeps (StaysUnmarked app) where
  check hp := .of_modest (hg.check hp)
  deny _ _ _ := .of_eq rfl (.inl rfl) rfl
  after x := .of_modest (hg.after x)

/-- Serving a request leaves it unmarked between its dispatches, if its code spares `dispatchAttributes`. -/
theorem lasting_isUnmarked {app : Application} (ha : app.Uses (Op.Spares dispatchAttributes)) (depth : Nat) :
    Lasting app depth (fun _ => True) fun x y => x.IsUnmarked → y.IsUnmarked where
  errors := trivial
  asyncs := trivial
  refl _ hx := hx
  trans h h' hx := h' (h hx)
  dispatched htop _ hp hx := isUnmarked_of_topLevel ha htop hp hx
  paths _ _ hx := hx.of_eq rfl (.inl rfl)
  startOver _ hx := hx.of_eq rfl (.inl rfl)
  prepareError _ _ hx := hx.of_eq rfl (.inr rfl)
  defaultError _ _ hx := hx.of_eq rfl (.inl rfl)
  resume hc hx := hx.resume hc
  elapse _ _ hx := hx.of_eq rfl (.inl rfl)

/-- So `StaysUnmarked` is `Lasting`: what is told of is invoked from an unmarked exchange. -/
theorem lasting_unmarked {app : Application} (ha : app.Uses (Op.Spares dispatchAttributes)) (depth : Nat) :
    Lasting app depth (fun _ => True) (StaysUnmarked app) := (lasting_isUnmarked ha depth).tells

/-- **Places.** Let the code of an application spare `dispatchAttributes`. Wherever an invocation `i` comes of a
dispatch (`Invokes`) of a request that `IsPlain`, its place `Describes` what it is told: the paths of the request are
those of the innermost forward, the query is the one that was given last, the two families of attributes describe the
request before the outermost forward and the target of the innermost include, and kind and name are those of the
innermost dispatch. And `serveWithin` invokes no component in any other way (`Tells`), if its guard `IsModest`, and
leaves none of these attributes behind. -/
theorem describes_of_invokes {app : Application} (ha : app.Uses (Op.Spares dispatchAttributes)) :
    (∀ {x : Exchange} {i : Invocation}, x.request.IsPlain → app.Invokes x i →
      i.place.Describes app i.exchange.snapshot) ∧
    ∀ {limits : Limits} {timeout : Nat} {x y : Exchange}, (∀ g, app.guard = some g → g.IsModest) → x.IsUnmarked →
      serveWithin limits timeout app x = some y → y.IsUnmarked ∧ Tells app.InvokesWithin x y := by
  constructor
  · intro x i hx hi
    exact (isTold_of_invokes ha hx hi).told
  · intro limits timeout x y hg hx hy
    exact (lasting_unmarked ha limits.depth).serveWithin trivial (fun g hguard => (hg g hguard).keeps) hy hx

/-! ### Two dispatches deep -/

namespace Foyer

/-- A servlet that forwards to the `desk`. -/
def hall : Servlet := ⟨"hall", .jump .forward "/desk?x=1" fun _ => .finish, fun _ => none, false⟩

/-- A servlet that includes the `sign`. -/
def desk : Servlet := ⟨"desk", .jump .inclusion "/sign/left?y=2" fun _ => .finish, fun _ => none, false⟩

/-- A servlet that does nothing. -/
def sign : Servlet := ⟨"sign", .finish, fun _ => none, false⟩

/-- The application of `hall`, `desk` and `sign`. -/
def app : Application where
  contextPath := "/foyer"
  displayName := "foyer"
  servlets := [hall, desk, sign]
  filters := []
  mapper := ((MappingTable.empty.assign "hall" .default).assign "desk" (.exact "/desk")).assign "sign" (.below "/sign")
  errorPages := .empty
  sessionConfig := .standard
  guard := some (PathGate.mk none).guard
  resources := none

/-- A request for `/in`, which leads to the `hall`. -/
def visitor : Exchange :=
  let x := Exchange.start (.ofLine "GET /foyer/in?z=0 HTTP/1.1") none (.detached "HTTP/1.1") 0 []
  x.mapRequest fun r => { r with contextPath := "/foyer" }

/-- The place where the `hall` runs. -/
def inHall : Place := .top .request "/foyer/in" (some "z=0") ⟨"hall", .default, "/in", none⟩

/-- The place where the `desk` runs, by the forward of the `hall`. -/
def atDesk : Place := inHall.within .forward "/desk" (some "x=1") ⟨"desk", .exact "/desk", "/desk", none⟩

/-- The place where the `sign` runs, by the include of the `desk`. -/
def bySign : Place := atDesk.within .inclusion "/sign/left" (some "y=2") ⟨"sign", .below "/sign", "/sign", some "/left"⟩

/-- Its servlets set no attributes. -/
theorem uses_app : app.Uses (Op.Spares dispatchAttributes) where
  servlets s hs := by
    simp only [app, List.mem_cons, List.not_mem_nil, or_false] at hs
    rcases hs with rfl | rfl | rfl
    · exact fun _ => trivial
    · exact fun _ => trivial
    · exact trivial
  filters f hf := by cases hf

/-- The visitor gets to the sign, by a forward from the hall and an include at the desk. -/
theorem invokes_sign : ∃ i, app.Invokes visitor i ∧ i.place = bySign := by
  let x := visitor.mapRequest fun r => { r with servletPath := "/in", pathInfo := none }
  let i := Invocation.first app inHall 2 hall x
  let y := (i.start app).exchange
  let i' := Invocation.first app atDesk 1 desk (Jump.forward.into app "/desk?x=1" atDesk.target y)
  let y' := (i'.start app).exchange
  let i'' := Invocation.first app bySign 0 sign (Jump.inclusion.into app "/sign/left?y=2" bySign.target y')
  have htop : TopLevel app visitor inHall x := .request (by decide +kernel)
  have hcomes : i.ComesTo app ⟨.jump .forward "/desk?x=1" fun _ => .finish, none, y⟩ := .refl
  have hcomes' : i'.ComesTo app ⟨.jump .inclusion "/sign/left?y=2" fun _ => .finish, none, y'⟩ := .refl
  have hdesk : Invocation.Leads app i i' := .jump rfl hcomes ⟨rfl, rfl, rfl⟩ rfl
  have hsign : Invocation.Leads app i' i'' := .jump rfl hcomes' rfl rfl
  exact ⟨i'', ⟨htop, rfl, .tail (.single hdesk) hsign⟩, rfl⟩

end Foyer

open Foyer in
/-- The sign is told that it is included in the desk, where the hall has forwarded to. -/
theorem describes_of_invokes_foyer : ∃ (i : Invocation) (y : Exchange), i.place = bySign ∧
    i.place.Describes app i.exchange.snapshot ∧ serveWithin ⟨3, 0⟩ 0 app visitor = some y ∧
    y.IsUnmarked ∧ Tells app.InvokesWithin visitor y := by
  obtain ⟨hdescribes, htells⟩ := describes_of_invokes uses_app
  obtain ⟨i, hi, hplace⟩ := invokes_sign
  have hunmarked : visitor.IsUnmarked := .of_empty rfl rfl
  obtain ⟨y, hy⟩ := Option.isSome_iff_exists.1 (by decide +kernel : (serveWithin ⟨3, 0⟩ 0 app visitor).isSome)
  have hmodest : ∀ g, app.guard = some g → g.IsModest := by
    rintro g hg
    obtain rfl := Option.some.inj hg
    exact PathGate.isModest_guard ⟨none⟩
  obtain ⟨hafter, hjournal⟩ := htells hmodest hunmarked hy
  exact ⟨i, y, hplace, hdescribes hunmarked.plain hi, hy, hafter, hjournal⟩

end ServletContainer
