import ServletContainer.Dispatch.Target

namespace ServletContainer

/-!
# Forwards and includes, step by step

What a forward or an include makes of the exchange before its target runs, and what it puts back afterwards. Either
it fails before that, or it is the run of the target between the two.

* `Exchange.intoForward`, `Exchange.outOfForward` — what a forward does before and afterwards.
* `Exchange.intoInclude`, `Exchange.outOfInclude` — what an include does.
* `forwardWith_cases`, `includeWith_cases`, `dispatchWith_cases` — the two cases, whatever targets do.
-/

/-- Whether `r` has not been forwarded: it has no `ForwardAttribute.requestUri`. -/
def Request.isOriginal (r : Request) : Bool := (r.attribute? ForwardAttribute.requestUri).isNone

namespace Exchange

variable (app : Application) (path : String) (query : Option String) (target : MappingMatch) (x y : Exchange)

/-- The exchange `x` whose response starts over. -/
def startOver : Exchange := (x.onResponse (·.resetBuffer)).2

/-- The exchange that the target of a forward to `path` gets. Only the first of nested forwards describes the request.
-/
def intoForward : Exchange :=
  (if x.request.isOriginal then x.startOver.mapRequest (describeForward app) else x.startOver).mapRequest
    (retarget app path query target)

/-- The exchange after a forward from `x`, where its target has left `y`. -/
def outOfForward : Exchange :=
  let back := y.mapRequest (·.withPathState x.request.pathState)
  if x.request.isOriginal then back.mapRequest (removeAttributes ForwardAttribute.all) else back

/-- The exchange that the target of an include of `path` gets. -/
def intoInclude : Exchange :=
  (x.mapRequest (describeInclude app path query target)).mapResponse (·.setLocked true)

/-- The exchange after an include from `x`, where its target has left `y`. -/
def outOfInclude : Exchange :=
  (y.mapResponse (·.setLocked x.response.locked)).mapRequest (restoreAttributes IncludeAttribute.all x.request)

end Exchange

/-! ### The two cases -/

namespace Jump

/-- The kind of the dispatch that a `Jump` makes. -/
def kind : Jump → DispatcherKind
  | .forward => .forward
  | .inclusion => .inclusion

/-- Whether a `Jump` to `location` gets to `target`. -/
def Enters (app : Application) (location : String) (x : Exchange) (target : MappingMatch) : Jump → Prop
  | .forward => x.response.locked = false ∧ x.response.isCommitted = false ∧
      app.resolve (Request.splitTarget location).1 = .ok target
  | .inclusion => app.resolve (Request.splitTarget location).1 = .ok target

/-- The exchange that the target of a `Jump` to `location` gets. -/
def into (app : Application) (location : String) (target : MappingMatch) (x : Exchange) : Jump → Exchange
  | .forward => x.intoForward app (Request.splitTarget location).1 (Request.splitTarget location).2 target
  | .inclusion => x.intoInclude app (Request.splitTarget location).1 (Request.splitTarget location).2 target

/-- The exchange after a forward or an include from `x`, where its target has left `y`. -/
def outOf (x y : Exchange) : Jump → Exchange
  | .forward => x.outOfForward y
  | .inclusion => x.outOfInclude y

end Jump

section Cases

variable (app : Application) (location : String) (x : Exchange)

/-- `forwardWith` fails before its target runs, having let the response `startOver` at most. Otherwise it `Enters` the
target, and is the `invoke` of it between `intoForward` and `outOfForward`. Which of the two it is does not depend on
`invoke`. -/
theorem forwardWith_cases :
    (∃ e y, (y = x ∨ x.response.locked = false ∧ y = x.startOver) ∧
      ∀ invoke, forwardWith invoke app location x = some (.error e, y)) ∨
    ∃ target, Jump.forward.Enters app location x target ∧
      ∀ invoke, forwardWith invoke app location x
        = (invoke target .forward (x.intoForward app (Request.splitTarget location).1
            (Request.splitTarget location).2 target)).map fun (result, y) => (result, x.outOfForward y) := by
  unfold forwardWith
  -- The cases are the checks of `forwardWith`, in their order.
  cases hlocked : x.response.locked with
  | true => exact .inl ⟨_, x, .inl rfl, fun _ => rfl⟩
  | false =>
    cases hcommitted : x.response.isCommitted with
    | true =>
      have hreset : x.response.resetBuffer = (.error .committed, x.response) := if_pos hcommitted
      exact .inl ⟨.committed, x, .inl rfl, fun _ => by simp [hreset]⟩
    | false =>
      obtain ⟨response, hreset⟩ : ∃ response, x.response.resetBuffer = (.ok (), response) := by
        simp [Response.resetBuffer, hcommitted, hlocked]
      have hover : x.startOver = { x with response } := by simp [Exchange.startOver, Exchange.onResponse, hreset]
      cases hresolve : app.resolve (Request.splitTarget location).1 with
      | error e => exact .inl ⟨e, _, .inr ⟨rfl, hover.symm⟩, fun _ => by simp [hreset, hresolve]⟩
      | ok target =>
        refine .inr ⟨target, ⟨hlocked, hcommitted, hresolve⟩, fun invoke => ?_⟩
        simp only [Exchange.intoForward, Exchange.outOfForward, hover, Request.isOriginal, hreset, hresolve]
        rfl

/-- `includeWith` fails and changes nothing, or it `Enters` the target, and is the `invoke` of it between `intoInclude`
and `outOfInclude`. -/
theorem includeWith_cases :
    (∃ e, ∀ invoke, includeWith invoke app location x = some (.error e, x)) ∨
    ∃ target, Jump.inclusion.Enters app location x target ∧
      ∀ invoke, includeWith invoke app location x
        = (invoke target .inclusion (x.intoInclude app (Request.splitTarget location).1
            (Request.splitTarget location).2 target)).map fun (result, y) => (result, x.outOfInclude y) := by
  unfold includeWith
  cases hresolve : app.resolve (Request.splitTarget location).1 with
  | error e => exact .inl ⟨e, fun _ => by simp [hresolve]⟩
  | ok target => exact .inr ⟨target, hresolve, fun _ => by simp only [hresolve]; rfl⟩

/-- The two together, for a `Jump` of either kind. -/
theorem dispatchWith_cases (j : Jump) :
    (∃ e y, (y = x ∨ y = x.startOver) ∧
      ∀ invoke, dispatchWith invoke app j location x = some (.error e, y)) ∨
    ∃ target, j.Enters app location x target ∧
      ∀ invoke, dispatchWith invoke app j location x
        = (invoke target j.kind (j.into app location target x)).map fun (result, y) => (result, j.outOf x y) := by
  cases j with
  | forward =>
    rcases forwardWith_cases app location x with ⟨e, y, hy, heq⟩ | hentered
    · exact .inl ⟨e, y, hy.imp_right And.right, heq⟩
    · exact .inr hentered
  | inclusion =>
    rcases includeWith_cases app location x with ⟨e, heq⟩ | hentered
    · exact .inl ⟨e, x, .inl rfl, heq⟩
    · exact .inr hentered

end Cases

end ServletContainer
