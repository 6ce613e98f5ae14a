import ServletContainer.Dispatch.Serve
import ServletContainer.Proofs.Dispatch.Jumps

namespace ServletContainer

/-!
# Targets without servlets

A dispatch looks up the servlet of its target, and has an answer ready where there is none. All that is ever dispatched
to comes of a path that is mapped. So if all that is mapped leads to a servlet, this answer is never given.

* `invokeOr`, `serveWithinOr` — dispatches, and serving a request, with any other answer in its place; with the answer
  that there is, they are those of the container: `invokeOr_eq_invoke`.
* `Application.Maps`, `AgreeOnMapped` — the targets that a path is mapped to, and dispatches that do the same to them.
* `serveWithinOr_eq` — the answer does not matter.
-/

/-! ### Another answer -/

/-- As `invoke`, with the answer of `missing` where `servlet?` finds no servlet of the name. -/
def invokeOr (missing : Invoker) (app : Application) : (depth : Nat) → Invoker
  | 0 => fun _ _ _ => none
  | depth + 1 => fun target kind x =>
    match app.servlet? target.servletName with
    | none => missing target kind x
    | some _ => invokeWith (dispatchWith (invokeOr missing app depth) app) app target kind x

/-- As `serveWithin`, with `invokeOr missing` in place of `invoke`. -/
def serveWithinOr (missing : Invoker) (limits : Limits) (timeout : Nat) (app : Application) (x : Exchange) :
    Option Exchange :=
  (routeWithin (invokeOr missing app limits.depth) app x).bind
    (settle (invokeOr missing app limits.depth) app timeout limits.rounds)

/-- With the answer 404 that `invoke` gives, `invokeOr` is `invoke`. -/
theorem invokeOr_eq_invoke (app : Application) (depth : Nat) :
    invokeOr (fun _ _ x => some (.error (.ofStatus 404), x)) app depth = invoke app depth := by
  induction depth with
  | zero => rfl
  | succ depth ih =>
    funext target kind x
    rw [invokeOr, ih, invoke]
    dsimp only
    cases hs : app.servlet? target.servletName with
    | none => simp only [invokeWith, hs]
    | some servlet => rfl

/-! ### Targets of paths -/

/-- Whether `map?` gives `target` for some path. -/
def Application.Maps (app : Application) (target : MappingMatch) : Prop := ∃ path, app.mapper.map? path = some target

/-- What `resolve` gives for a path is mapped to it. -/
theorem Application.maps_of_resolve {app : Application} {path : String} {target : MappingMatch}
    (h : app.resolve path = .ok target) : app.Maps target := by
  unfold resolve at h
  split at h
  · next found hfound => exact ⟨path, Except.ok.inj h ▸ hfound⟩
  · cases h

/-- Whether `i` and `j` do the same to every target that `app` `Maps`. -/
def AgreeOnMapped (app : Application) (i j : Invoker) : Prop :=
  ∀ target, app.Maps target → ∀ kind x, i target kind x = j target kind x

namespace AgreeOnMapped

variable {app : Application} {i j : Invoker} (h : AgreeOnMapped app i j)

include h

/-- `dispatchWith` asks its invoker for targets of paths only. -/
theorem dispatchWith_eq : dispatchWith i app = dispatchWith j app := by
  funext jump location x
  rcases dispatchWith_cases app location x jump with ⟨e, y, -, heq⟩ | ⟨target, hentered, heq⟩
  · rw [heq, heq]
  · have hmaps : app.Maps target := by
      cases jump with
      | forward => exact Application.maps_of_resolve hentered.2.2
      | inclusion => exact Application.maps_of_resolve hentered
    rw [heq, heq, h target hmaps]

/-- So does `handleError`, for the location of the page. -/
theorem handleError_eq (e : ServletError) : handleError i app e = handleError j app e := by
  funext x
  unfold handleError
  -- `handleError` dispatches to a page only where `map?` finds its location.
  split
  · rfl
  · dsimp only
    split
    · rfl
    · split
      · rfl
      · next target ht => rw [runErrorPage, runErrorPage, h target ⟨_, ht⟩]

/-- So does `dispatchRequest`, for the path of the request. -/
theorem dispatchRequest_eq : dispatchRequest i app = dispatchRequest j app := by
  funext x
  unfold dispatchRequest
  dsimp only
  rw [h.handleError_eq]
  split
  · rfl
  · next target ht =>
    rw [h target ⟨_, ht⟩]
    congr 1
    funext ⟨result, y⟩
    cases result <;> simp only [h.handleError_eq]

/-- And `routeWithin`, which calls it behind the guard. -/
theorem routeWithin_eq : routeWithin i app = routeWithin j app := by
  funext x
  unfold routeWithin
  rw [h.dispatchRequest_eq]

/-- `dispatchAsync` asks for the target of the path that the request is deferred to. -/
theorem dispatchAsync_eq (location : String) : dispatchAsync i app location = dispatchAsync j app location := by
  funext x
  unfold dispatchAsync
  split
  · rfl
  · dsimp only
    split
    · rfl
    · next target ht => exact h target (Application.maps_of_resolve ht) _ _

/-- `continueWith` is made of `dispatchAsync` and `handleError`. -/
theorem continueWith_eq (timeout : Nat) (c : Continuation) :
    continueWith i app timeout c = continueWith j app timeout c := by
  funext x
  cases c <;> simp only [continueWith, h.handleError_eq, h.dispatchAsync_eq]

/-- So `settle` agrees as well, by induction on `rounds`. -/
theorem settle_eq (timeout rounds : Nat) : settle i app timeout rounds = settle j app timeout rounds := by
  induction rounds with
  | zero =>
    funext x
    unfold settle
    rfl
  | succ rounds ih =>
    funext x
    unfold settle
    simp only [h.continueWith_eq, ih]

end AgreeOnMapped

/-! ### The answer is not given -/

section Mapped

variable {app : Application} (hmapped : ∀ target, app.Maps target → (app.servlet? target.servletName).isSome)

include hmapped

/-- If every mapped target has its servlet, the answer `missing` is never asked for, by induction on `depth`:
`dispatchWith` within a component asks for targets of paths as well. -/
theorem agreeOnMapped_invokeOr (missing : Invoker) (depth : Nat) :
    AgreeOnMapped app (invokeOr missing app depth) (invoke app depth) := by
  induction depth with
  | zero => exact fun _ _ _ _ => rfl
  | succ depth ih =>
    intro target hmaps kind x
    obtain ⟨servlet, hs⟩ := Option.isSome_iff_exists.1 (hmapped target hmaps)
    rw [invokeOr, invoke, ih.dispatchWith_eq]
    dsimp only
    rw [hs]

/-- So serving a request does not depend on it. -/
theorem serveWithinOr_eq (missing : Invoker) (limits : Limits) (timeout : Nat) :
    serveWithinOr missing limits timeout app = serveWithin limits timeout app := by
  have hagree := agreeOnMapped_invokeOr hmapped missing limits.depth
  funext x
  rw [serveWithinOr, serveWithin, hagree.routeWithin_eq, hagree.settle_eq]

end Mapped

end ServletContainer
