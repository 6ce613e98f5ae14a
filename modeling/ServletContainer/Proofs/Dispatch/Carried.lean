import ServletContainer.Proofs.Dispatch.Attributes

namespace ServletContainer

/-!
# What dispatches carry along

A relation between the exchange before and the exchange after that every single step keeps is kept by whole
dispatches, however the code of the components is made and however deeply they dispatch to one another.

* `Program.Uses`, `Application.Uses` — the calls that code makes are all of a kind.
* `Jump.carries_of_around` — forwards and includes, by what is done around their targets.
* `Jump.carries_dispatchWith` — forwards and includes, seen without the request and the response.
* `Steady` — the steps: such calls, and what the container does around components, forwards and includes.
* `Steady.run`, `Steady.runChain` — programs and chains, by induction on the code and on the filters.
* `Steady.invoke` — whole dispatches, by induction on the depth of nesting.
* `Carried` — relations that look at none of what forwards and includes change for a while; they are steady.
-/

/-! ### The calls that code makes -/

/-- Whether every `Op` that a program calls is `allowed`, whatever is answered. -/
def Program.Uses (allowed : Op → Prop) : Program → Prop
  | .done _ => True
  | .call op k => allowed op ∧ ∀ reply, (k reply).Uses allowed
  | .jump _ _ k => ∀ result, (k result).Uses allowed
  | .remaining k => ∀ count, (k count).Uses allowed
  | .proceed k => ∀ result, (k result).Uses allowed

/-- Whether every `Op` that the filters and servlets of `app` call is `allowed`. -/
structure Application.Uses (allowed : Op → Prop) (app : Application) : Prop where
  servlets : ∀ s ∈ app.servlets, s.component.service.Uses allowed
  filters : ∀ f ∈ app.filters, f.component.service.Uses allowed

/-- Every program `Uses` calls of which nothing is asked. -/
theorem Program.uses_true (code : Program) : code.Uses fun _ => True := by
  induction code with
  | done result => exact trivial
  | call op k ih => exact ⟨trivial, ih⟩
  | jump j path k ih => exact ih
  | remaining k ih => exact ih
  | proceed k ih => exact ih

theorem Application.uses_true (app : Application) : app.Uses fun _ => True :=
  ⟨fun s _ => s.component.service.uses_true, fun f _ => f.component.service.uses_true⟩

section Mono

variable {allowed allowed' : Op → Prop}

/-- `Uses` is monotone in the calls that are `allowed`. -/
theorem Program.Uses.mono (hle : ∀ op, allowed op → allowed' op) {code : Program} (h : code.Uses allowed) :
    code.Uses allowed' := by
  induction code with
  | done result => exact trivial
  | call op k ih => exact ⟨hle op h.1, fun reply => ih reply (h.2 reply)⟩
  | jump j path k ih => exact fun result => ih result (h result)
  | remaining k ih => exact fun count => ih count (h count)
  | proceed k ih => exact fun result => ih result (h result)

theorem Application.Uses.mono {app : Application} (h : app.Uses allowed) (hle : ∀ op, allowed op → allowed' op) :
    app.Uses allowed' :=
  ⟨fun s hs => (h.servlets s hs).mono hle, fun f hf => (h.filters f hf).mono hle⟩

end Mono

/-! ### What code keeps -/

/-- Whether `f` keeps `R` when it runs to its end. -/
def Carries (R : Exchange → Exchange → Prop) (f : Exchange → Run) : Prop :=
  ∀ ⦃x : Exchange⦄ ⦃p : Outcome × Exchange⦄, f x = some p → R x p.2

/-- A run that is known to give `(a, y)` gives no other exchange than `y`. -/
theorem Carries.of_eq_some {R : Exchange → Exchange → Prop} {α : Type} {x y : Exchange} {a : α} {p : α × Exchange}
    (hp : some (a, y) = some p) (hy : R x y) : R x p.2 := by
  obtain rfl := Option.some.inj hp
  exact hy

/-! ### What forwards and includes leave alone -/

namespace Jump

/-- A `dispatchWith` keeps `R` if `Jump.into` and `Jump.outOf` keep it (`hinto`, `hout`), the `invoke` between them does
(`hi`), and so does a response that starts over (`hover`), which is all that a refused forward does. -/
theorem carries_of_around {R : Exchange → Exchange → Prop} (hrefl : ∀ x, R x x)
    (htrans : ∀ {x y z}, R x y → R y z → R x z) (hover : ∀ x, R x x.startOver) {app : Application} {location : String}
    {j : Jump} (hinto : ∀ target x, R x (j.into app location target x)) (hout : ∀ x y, R y (j.outOf x y))
    {invoke : Invoker} (hi : ∀ target, Carries R (invoke target j.kind)) :
    Carries R (dispatchWith invoke app j location) := by
  intro x p hp
  rcases dispatchWith_cases app location x j with ⟨e, y, hy, heq⟩ | ⟨target, -, heq⟩
  · obtain rfl := Option.some.inj ((heq invoke).symm.trans hp)
    rcases hy with rfl | rfl
    · exact hrefl _
    · exact hover x
  · obtain ⟨q, hq, rfl⟩ := Option.map_eq_some_iff.1 ((heq invoke).symm.trans hp)
    exact htrans (htrans (hinto target x) (hi target hq)) (hout x q.2)

section View

variable {α : Type} {view : Exchange → α}
  (hview : ∀ (x : Exchange) request response, view { x with request, response } = view x) {app : Application}
  {location : String} {target : MappingMatch} {x y : Exchange}

include hview

/-- `startOver` changes the response only, which `view` does not read (`hview`). -/
theorem view_startOver : view x.startOver = view x := hview x _ _

/-- `Jump.into` changes request and response only. -/
theorem view_into (j : Jump) : view (j.into app location target x) = view x := by
  obtain ⟨request, response, heq, -⟩ := j.exists_into_eq app location target x
  rw [heq]
  exact hview x request response

/-- So does `Jump.outOf`. -/
theorem view_outOf (j : Jump) : view (j.outOf x y) = view y := by
  obtain ⟨request, response, heq, -⟩ := j.exists_outOf_eq x y
  rw [heq]
  exact hview y request response

/-- What a `view` without request and response sees of a `dispatchWith` is what it sees of the `invoke` within (`hi`).
-/
theorem carries_dispatchWith {S : α → α → Prop} (hrefl : ∀ a, S a a) {invoke : Invoker} (j : Jump)
    (hi : ∀ target, Carries (fun x y => S (view x) (view y)) (invoke target j.kind)) :
    Carries (fun x y => S (view x) (view y)) (dispatchWith invoke app j location) := by
  intro x p hp
  -- Either nothing was invoked, or the target ran between `into` and `outOf`, which the view does not see.
  rcases dispatchWith_cases app location x j with ⟨e, y, hy, heq⟩ | ⟨target, -, heq⟩
  · obtain rfl := Option.some.inj ((heq invoke).symm.trans hp)
    rcases hy with rfl | rfl
    · exact hrefl _
    · show S (view x) (view x.startOver)
      rw [view_startOver hview]
      exact hrefl _
  · obtain ⟨q, hq, rfl⟩ := Option.map_eq_some_iff.1 ((heq invoke).symm.trans hp)
    have hrun : S (view (j.into app location target x)) (view q.2) := hi target hq
    rw [view_into hview] at hrun
    show S (view x) (view (j.outOf x q.2))
    rw [view_outOf hview]
    exact hrun

end View

end Jump

/-! ### Steady relations -/

/-- The exchange in which the chain of so many `filters` in front of `servlet` starts. -/
def Exchange.enter (x : Exchange) (servlet : String) (kind : DispatcherKind) (filters : Nat) : Exchange :=
  { x.log (.dispatched servlet kind filters) with dispatcher := kind, servletName := some servlet }

/-- The component of a chain that runs first: its first filter, or else the `servlet`. -/
def firstComponent (servlet : Servlet) : List Filter → ComponentRef
  | [] => ⟨.servlet, servlet.name⟩
  | f :: _ => ⟨.filter, f.name⟩

/-- The exchange `y` back in the dispatch of `x`. -/
def Exchange.backIn (y x : Exchange) : Exchange :=
  { y with dispatcher := x.dispatcher, servletName := x.servletName }

/-- Where `servlet?` finds the servlet, `invokeWith` is `runChain` of the filters in front of it, between
`Exchange.enter` and `Exchange.backIn`. -/
theorem invokeWith_eq (dispatch : Dispatcher) {app : Application} {target : MappingMatch} {servlet : Servlet}
    (hs : app.servlet? target.servletName = some servlet) (kind : DispatcherKind) (x : Exchange) :
    invokeWith dispatch app target kind x
      = (runChain dispatch servlet (app.filtersFor target.path target.servletName kind)
          (x.enter target.servletName kind (app.filtersFor target.path target.servletName kind).length)).map
          fun q => (q.1, q.2.backIn x) := by
  unfold invokeWith
  rw [hs]
  rfl

/-- A relation `R` that the `allowed` calls keep, and so do dispatches of the `kinds` around what runs in them. -/
structure Steady (allowed : Op → Prop) (kinds : DispatcherKind → Prop) (R : Exchange → Exchange → Prop) :
    Prop where
  forwards : kinds .forward
  includes : kinds .inclusion
  refl : ∀ x, R x x
  trans : ∀ {x y z}, R x y → R y z → R x z
  perform : ∀ {op x} {p : op.Reply × Exchange}, allowed op → op.perform x = some p → R x p.2
  entered : ∀ x ref view, R x (x.log (.entered ref view))
  left : ∀ x ref result, R x (x.log (.left ref result))
  /-- A chain runs in its own dispatch. -/
  within : ∀ {x y servlet kind filters}, kinds kind → R (x.enter servlet kind filters) y → R x (y.backIn x)
  forward : ∀ {invoke : Invoker} {app location}, (∀ target, Carries R (invoke target .forward)) →
    Carries R (forwardWith invoke app location)
  inclusion : ∀ {invoke : Invoker} {app location}, (∀ target, Carries R (invoke target .inclusion)) →
    Carries R (includeWith invoke app location)

namespace Steady

variable {allowed : Op → Prop} {kinds : DispatcherKind → Prop} {R : Exchange → Exchange → Prop}
  (h : Steady allowed kinds R)

include h

/-! ### Programs and chains -/

section Code

variable {dispatch : Dispatcher} (hd : ∀ j path, Carries R (dispatch j path))

include hd

/-- A program of `allowed` calls keeps `R`, if the dispatches it makes do (`hd`) and so does the rest of its chain
(`hr`). -/
theorem run {code : Program} (hcode : code.Uses allowed) {rest : Option Rest} (hr : ∀ r ∈ rest, Carries R r.go) :
    Carries R (code.run dispatch rest) := by
  -- By induction on `code`, for every `rest`, since using it takes it away.
  induction code generalizing rest with
  | done result =>
    intro x p hp
    exact Carries.of_eq_some hp (h.refl x)
  | call op k ih =>
    intro x p hp
    obtain ⟨q, hq, hp⟩ := Option.bind_eq_some_iff.1 hp
    exact h.trans (h.perform hcode.1 hq) (ih q.1 (hcode.2 q.1) hr hp)
  | jump j path k ih =>
    intro x p hp
    obtain ⟨q, hq, hp⟩ := Option.bind_eq_some_iff.1 hp
    exact h.trans (hd j path hq) (ih q.1 (hcode q.1) hr hp)
  | remaining k ih => exact ih _ (hcode _) hr
  | proceed k ih =>
    cases rest with
    | none => exact ih none (hcode none) hr
    | some r =>
      intro x p hp
      obtain ⟨q, hq, hp⟩ := Option.bind_eq_some_iff.1 hp
      exact h.trans (hr r rfl hq) (ih (some q.1) (hcode _) (by simp) hp)

/-- `runComponent` keeps `R` from the moment in which the component is recorded as entered. -/
theorem runComponent_entered {code : Program} (hcode : code.Uses allowed) {ref : ComponentRef} {rest : Option Rest}
    (hr : ∀ r ∈ rest, Carries R r.go) {x : Exchange} {p : Outcome × Exchange}
    (hp : ServletContainer.runComponent dispatch ref code rest x = some p) :
    R (x.log (.entered ref x.snapshot)) p.2 := by
  obtain ⟨q, hq, rfl⟩ := Option.map_eq_some_iff.1 hp
  exact h.trans (h.run hd hcode hr hq) (h.left q.2 ref _)

/-- Seen from before that record, it keeps `R` as well. -/
theorem runComponent {code : Program} (hcode : code.Uses allowed) (ref : ComponentRef) {rest : Option Rest}
    (hr : ∀ r ∈ rest, Carries R r.go) : Carries R (runComponent dispatch ref code rest) := by
  intro x p hp
  exact h.trans (h.entered x ref _) (h.runComponent_entered hd hcode hr hp)

/-- A chain keeps `R`, by induction on its filters, if the code of all of them and of the servlet is `allowed`. -/
theorem runChain {servlet : Servlet} (hs : servlet.component.service.Uses allowed) {filters : List Filter}
    (hf : ∀ f ∈ filters, f.component.service.Uses allowed) : Carries R (runChain dispatch servlet filters) := by
  induction filters with
  | nil => exact h.runComponent hd hs _ (by simp)
  | cons f fs ih =>
    refine h.runComponent hd (hf f List.mem_cons_self) _ ?_
    rintro r hr
    obtain rfl := Option.some.inj hr
    exact ih fun f' hf' => hf f' (List.mem_cons_of_mem _ hf')

/-- `runChain` keeps `R` from the moment in which its `firstComponent` is recorded as entered. -/
theorem runChain_entered {servlet : Servlet} (hs : servlet.component.service.Uses allowed) {filters : List Filter}
    (hf : ∀ f ∈ filters, f.component.service.Uses allowed) {x : Exchange} {p : Outcome × Exchange}
    (hp : ServletContainer.runChain dispatch servlet filters x = some p) :
    R (x.log (.entered (firstComponent servlet filters) x.snapshot)) p.2 := by
  cases filters with
  | nil => exact h.runComponent_entered hd hs (by simp) hp
  | cons f fs =>
    refine h.runComponent_entered hd (hf f List.mem_cons_self) ?_ hp
    rintro r hr
    obtain rfl := Option.some.inj hr
    exact h.runChain hd hs fun f' hf' => hf f' (List.mem_cons_of_mem _ hf')

/-- `invokeWith` leaves the exchange as it is if there is no servlet; else the chain keeps `R` between `Exchange.enter`
and `Exchange.backIn`. -/
theorem invokeWith {app : Application} (ha : app.Uses allowed) {target : MappingMatch} {kind : DispatcherKind}
    {x : Exchange} {p : Outcome × Exchange} (hp : invokeWith dispatch app target kind x = some p) :
    p.2 = x ∨ ∃ filters y, R (x.enter target.servletName kind filters) y ∧ p.2 = y.backIn x := by
  cases hs : app.servlet? target.servletName with
  | none =>
    have hnone : ServletContainer.invokeWith dispatch app target kind x = some (.error (.ofStatus 404), x) := by
      unfold ServletContainer.invokeWith
      rw [hs]
    -- No servlet of that name: the answer is a 404, and nothing has run.
    obtain rfl := Option.some.inj (hnone.symm.trans hp)
    exact .inl rfl
  | some servlet =>
    obtain ⟨q, hq, rfl⟩ := Option.map_eq_some_iff.1 ((invokeWith_eq dispatch hs kind x).symm.trans hp)
    have hservlet := ha.servlets servlet (List.mem_of_find?_eq_some hs)
    have hchain := h.runChain hd hservlet (fun f hf => ha.filters f (List.mem_filter.1 hf).1) hq
    exact .inr ⟨_, q.2, hchain, rfl⟩

end Code

/-! ### Dispatches -/

/-- `dispatchWith` keeps `R` for forwards and includes, which are among the `kinds`. -/
theorem dispatchWith {invoke : Invoker} (hi : ∀ target kind, kinds kind → Carries R (invoke target kind))
    (app : Application) (j : Jump) (path : String) : Carries R (dispatchWith invoke app j path) := by
  cases j with
  | forward => exact h.forward fun target => hi target .forward h.forwards
  | inclusion => exact h.inclusion fun target => hi target .inclusion h.includes

/-- `invoke` keeps `R` for every kind among `kinds`, by induction on the `depth` of the dispatches that are nested in
it. -/
theorem invoke {app : Application} (ha : app.Uses allowed) (depth : Nat) (target : MappingMatch)
    {kind : DispatcherKind} (hkind : kinds kind) : Carries R (invoke app depth target kind) := by
  induction depth generalizing target kind with
  | zero =>
    intro x p hp
    cases hp
  | succ depth ih =>
    intro x p hp
    rcases h.invokeWith (h.dispatchWith (fun target _ hk => ih target hk) app) ha hp
      with hsame | ⟨filters, y, hrun, hback⟩
    · rw [hsame]
      exact h.refl x
    · rw [hback]
      exact h.within hkind hrun

end Steady

/-! ### Relations that every step keeps -/

/-- Whether an entry of the journal tells of a dispatch of the kind `error`. -/
def Event.isErrorDispatch : Event → Bool
  | .dispatched _ .error _ => true
  | _ => false

/-- A relation `R` that the `allowed` calls keep, and so does what the container does around components, apart from
dispatching to an error page. -/
structure Carried (allowed : Op → Prop) (R : Exchange → Exchange → Prop) : Prop where
  refl : ∀ x, R x x
  trans : ∀ {x y z}, R x y → R y z → R x z
  perform : ∀ {op x} {p : op.Reply × Exchange}, allowed op → op.perform x = some p → R x p.2
  log : ∀ x {e : Event}, e.isErrorDispatch = false → R x (x.log e)
  /-- The paths and the attributes of the request change. -/
  request : ∀ x f, R x (x.mapRequest f)
  /-- The exchange is in another dispatch. -/
  place : ∀ x dispatcher servletName, R x { x with dispatcher, servletName }
  /-- A forward starts the response over. -/
  reset : ∀ x, R x (x.onResponse (·.resetBuffer)).2
  /-- An include locks the response. -/
  lock : ∀ x locked, R x (x.mapResponse (·.setLocked locked))

namespace Carried

variable {allowed : Op → Prop} {R : Exchange → Exchange → Prop} (h : Carried allowed R)

include h

/-- A `dispatchWith` keeps what `Carried` has: it changes the place in the request (`request`), lets the response start
over (`reset`), and locks it (`lock`). -/
theorem dispatchWith {invoke : Invoker} {app : Application} {location : String} (j : Jump)
    (hi : ∀ target, Carries R (invoke target j.kind)) : Carries R (dispatchWith invoke app j location) := by
  refine Jump.carries_of_around h.refl h.trans h.reset (fun target x => ?_) (fun x y => ?_) hi
  · cases j with
    | forward =>
      refine h.trans (h.reset x) ?_
      unfold Jump.into Exchange.intoForward
      dsimp only
      -- Whether or not `isOriginal` holds, all that `intoForward` changes is the request.
      split
      · exact h.trans (h.request _ _) (h.request _ _)
      · exact h.request _ _
    | inclusion => exact h.trans (h.request x _) (h.lock _ true)
  · cases j with
    | forward =>
      unfold Jump.outOf Exchange.outOfForward
      dsimp only
      split
      · exact h.trans (h.request _ _) (h.request _ _)
      · exact h.request _ _
    | inclusion => exact h.trans (h.lock y x.response.locked) (h.request _ _)

/-- A chain that keeps `R` from `Exchange.enter` on keeps it from the record of the dispatch on, once the dispatch is
left by `Exchange.backIn`. -/
theorem within_log {x y : Exchange} {servlet : String} {kind : DispatcherKind} {filters : Nat}
    (hy : R (x.enter servlet kind filters) y) : R (x.log (.dispatched servlet kind filters)) (y.backIn x) :=
  h.trans (h.place _ _ _) (h.trans hy (h.place _ _ _))

/-- `Carried` is `Steady` for all kinds of dispatches but those to error pages, whose record it says nothing of. -/
theorem steady : Steady allowed (· ≠ .error) R where
  forwards := by decide
  includes := by decide
  refl := h.refl
  trans := h.trans
  perform := h.perform
  entered x _ _ := h.log x rfl
  left x _ _ := h.log x rfl
  within {x _ _ kind _} hkind hy := by
    refine h.trans (h.log x ?_) (h.within_log hy)
    -- `errorDispatches` counts entries of the kind `error` alone.
    cases kind with
    | error => exact absurd rfl hkind
    | _ => rfl
  forward := h.dispatchWith .forward
  inclusion := h.dispatchWith .inclusion

/-- So `invoke` keeps `R` for every kind but `.error`, however deeply dispatches are nested in it. -/
theorem invoke {app : Application} (ha : app.Uses allowed) (depth : Nat) {kind : DispatcherKind}
    (hkind : kind ≠ .error) (target : MappingMatch) : Carries R (invoke app depth target kind) :=
  h.steady.invoke ha depth target hkind

/-- For every kind, `.error` included, `invoke` keeps `R` from the record of the dispatch on. -/
theorem dispatched {app : Application} (ha : app.Uses allowed) {depth : Nat} {kind : DispatcherKind}
    {target : MappingMatch} {x : Exchange} {p : Outcome × Exchange}
    (hp : ServletContainer.invoke app depth target kind x = some p) :
    p.2 = x ∨ ∃ filters, R (x.log (.dispatched target.servletName kind filters)) p.2 := by
  cases depth with
  | zero => cases hp
  | succ depth =>
    have hd := h.steady.dispatchWith (fun target _ hk => h.steady.invoke ha depth target hk) app
    rcases h.steady.invokeWith hd ha hp with hsame | ⟨filters, y, hrun, hback⟩
    · exact .inl hsame
    · rw [hback]
      exact .inr ⟨filters, h.within_log hrun⟩

end Carried

end ServletContainer
