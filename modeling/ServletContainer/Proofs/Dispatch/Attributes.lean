import ServletContainer.Dispatch.Serve
import ServletContainer.Proofs.Dispatch.Jumps

namespace ServletContainer

/-!
# What the container notes on a request

A dispatch describes itself in attributes of the request, and removes them or puts them back afterwards. All else of the
request stays as it is, apart from its paths, which a dispatch points at its target.

* `Request.SameButAttributes` — two requests that agree in all but their attributes, and so in every view that does
  not read these.
* `sameButAttributes_describeForward`, `sameButAttributes_restoreAttributes`, … — what is noted, and what is put back.
* `Request.SameButPlace` — two requests that agree in all but their attributes and paths.
* `Jump.exists_into_eq`, `Jump.exists_outOf_eq` — what a forward or an include does before and afterwards.
-/

namespace Request

/-- Whether `r` and `r'` agree in all but `attributes`. -/
def SameButAttributes (r r' : Request) : Prop := r' = { r with attributes := r'.attributes }

namespace SameButAttributes

variable {r r' r'' : Request}

/-- `SameButAttributes` is reflexive. -/
theorem refl (r : Request) : r.SameButAttributes r := rfl

/-- `SameButAttributes` composes: only `attributes` differ after either change. -/
theorem trans (h : r.SameButAttributes r') (h' : r'.SameButAttributes r'') : r.SameButAttributes r'' := by
  unfold SameButAttributes at h h' ⊢
  rw [h', h]

/-- Whatever view `f` that does not read the attributes (`hf`) is the same of both requests. -/
theorem view_eq (h : r.SameButAttributes r') {α : Type} {f : Request → α}
    (hf : ∀ r attributes, f { r with attributes } = f r) : f r' = f r :=
  (congrArg f h).trans (hf r _)

/-- So `pathState` is, which `withPathState` puts back after a dispatch. -/
theorem pathState (h : r.SameButAttributes r') : r'.pathState = r.pathState := h.view_eq fun _ _ => rfl

/-- So is `contextPath`. -/
theorem contextPath (h : r.SameButAttributes r') : r'.contextPath = r.contextPath := h.view_eq fun _ _ => rfl

/-- So is `requestedSession`, which was fixed as the request came in. -/
theorem requestedSession (h : r.SameButAttributes r') : r'.requestedSession = r.requestedSession :=
  h.view_eq fun _ _ => rfl

/-- If one `change` keeps all but the attributes, so does `List.foldl change` over any list. -/
theorem foldl {α : Type} {change : Request → α → Request} (h : ∀ r a, SameButAttributes r (change r a))
    (l : List α) (r : Request) : r.SameButAttributes (l.foldl change r) := by
  induction l generalizing r with
  | nil => exact .refl r
  | cons a l ih => exact (h r a).trans (ih _)

end SameButAttributes

variable (r : Request)

/-- `setAttribute` writes `attributes` only. -/
theorem sameButAttributes_setAttribute (name : String) (v : Value) :
    r.SameButAttributes (r.setAttribute name v) := rfl

/-- `removeAttribute` writes `attributes` only. -/
theorem sameButAttributes_removeAttribute (name : String) : r.SameButAttributes (r.removeAttribute name) := rfl

/-- `putAttribute` sets or removes, so it does as these two do. -/
theorem sameButAttributes_putAttribute (name : String) (v : Option Value) :
    r.SameButAttributes (r.putAttribute name v) := by
  cases v <;> rfl

end Request

variable (r : Request)

/-- `setAttributes` is a fold of `setAttribute`. -/
theorem sameButAttributes_setAttributes (attributes : List (String × Value)) :
    r.SameButAttributes (setAttributes attributes r) := by
  have hset : ∀ (r : Request) (a : String × Value), r.SameButAttributes (r.setAttribute a.1 a.2) := fun _ _ => rfl
  exact .foldl hset attributes r

/-- `removeAttributes` is a fold of `removeAttribute`. -/
theorem sameButAttributes_removeAttributes (names : List String) : r.SameButAttributes (removeAttributes names r) :=
  .foldl Request.sameButAttributes_removeAttribute names r

/-- `restoreAttributes` is a fold of `putAttribute`, whatever values `before` has. -/
theorem sameButAttributes_restoreAttributes (names : List String) (before : Request) :
    r.SameButAttributes (restoreAttributes names before r) :=
  .foldl (fun r n => r.sameButAttributes_putAttribute n _) names r

/-- `describeForward` sets what a forward tells its target of the paths it came from, as attributes. -/
theorem sameButAttributes_describeForward (app : Application) : r.SameButAttributes (describeForward app r) := by
  have hset : r.SameButAttributes (((r.setAttribute ForwardAttribute.requestUri (.text r.uri)).setAttribute
      ForwardAttribute.contextPath (.text app.contextPath)).setAttribute
      ForwardAttribute.servletPath (.text r.servletPath)) := rfl
  exact (hset.trans (Request.sameButAttributes_putAttribute _ _ _)).trans (Request.sameButAttributes_putAttribute _ _ _)

/-- `describeInclude` sets the paths of the included target, as attributes. -/
theorem sameButAttributes_describeInclude (app : Application) (path : String) (query : Option String)
    (target : MappingMatch) : r.SameButAttributes (describeInclude app path query target r) := by
  have hset : r.SameButAttributes (((r.setAttribute IncludeAttribute.requestUri
      (.text (app.contextPath ++ path))).setAttribute
      IncludeAttribute.contextPath (.text app.contextPath)).setAttribute
      IncludeAttribute.servletPath (.text target.servletPath)) := rfl
  exact (hset.trans (Request.sameButAttributes_putAttribute _ _ _)).trans (Request.sameButAttributes_putAttribute _ _ _)

/-- `describeError` sets what an error page is told of a failure, as attributes. -/
theorem sameButAttributes_describeError (e : ServletError) (servletName : Option String) :
    r.SameButAttributes (describeError e servletName r) := by
  have hcode : r.SameButAttributes (r.setAttribute ErrorAttribute.statusCode (.int e.statusCode)) := rfl
  have htype := hcode.trans (Request.sameButAttributes_putAttribute _ ErrorAttribute.exceptionType
    (e.kind?.map Value.text))
  have hmessage := htype.trans (Request.sameButAttributes_putAttribute _ ErrorAttribute.message
    (e.detail?.map Value.text))
  have huri := hmessage.trans (Request.sameButAttributes_setAttribute _ ErrorAttribute.requestUri (.text r.uri))
  exact huri.trans (Request.sameButAttributes_putAttribute _ _ _)

/-! ### Attributes and paths -/

namespace Request

/-- Whether `r` and `r'` agree in all but `attributes` and `pathState`. -/
def SameButPlace (r r' : Request) : Prop := r' = { r.withPathState r'.pathState with attributes := r'.attributes }

namespace SameButPlace

variable {r r' r'' : Request}

/-- `SameButPlace` is reflexive. -/
theorem refl (r : Request) : r.SameButPlace r := rfl

/-- `SameButPlace` composes, as each change has the attributes and the `pathState` of its own. -/
theorem trans (h : r.SameButPlace r') (h' : r'.SameButPlace r'') : r.SameButPlace r'' := by
  unfold SameButPlace at h h' ⊢
  rw [h', h]
  rfl

/-- `withPathState` changes the paths only. -/
theorem withPathState (r : Request) (p : PathState) : r.SameButPlace (r.withPathState p) := rfl

/-- Whatever view `f` reads neither paths nor attributes (`hf`) is the same of both requests. -/
theorem view_eq (h : r.SameButPlace r') {α : Type} {f : Request → α}
    (hf : ∀ (r : Request) p attributes, f { r.withPathState p with attributes } = f r) : f r' = f r :=
  (congrArg f h).trans (hf r _ _)

/-- So `head` is: dispatches leave the request line and the header fields alone. -/
theorem head (h : r.SameButPlace r') : r'.head = r.head := h.view_eq fun _ _ _ => rfl

/-- So is `contextPath`, which no dispatch within an application leaves. -/
theorem contextPath (h : r.SameButPlace r') : r'.contextPath = r.contextPath := h.view_eq fun _ _ _ => rfl

/-- So is `requestedSession`. -/
theorem requestedSession (h : r.SameButPlace r') : r'.requestedSession = r.requestedSession :=
  h.view_eq fun _ _ _ => rfl

end SameButPlace

/-- `SameButAttributes` is the finer of the two relations. -/
theorem SameButAttributes.sameButPlace {r r' : Request} (h : r.SameButAttributes r') : r.SameButPlace r' := by
  unfold SameButAttributes at h
  rw [h]
  rfl

end Request

/-- `retarget` gives the request the place of a `target`, and nothing else. -/
theorem sameButPlace_retarget (app : Application) (path : String) (query : Option String) (target : MappingMatch) :
    r.SameButPlace (retarget app path query target r) := .withPathState r ⟨_, _, _, _⟩

namespace Jump

variable (app : Application) (location : String) (target : MappingMatch) (x y : Exchange)

/-- `Jump.into` gives the target another place in the request and another response, and leaves all else of the exchange.
-/
theorem exists_into_eq (j : Jump) : ∃ request response,
    j.into app location target x = { x with request, response } ∧ x.request.SameButPlace request := by
  cases j with
  | forward =>
    -- `intoForward` sets the attributes only where `isOriginal` holds, at the first of nested forwards.
    have hretarget (r : Request) := sameButPlace_retarget r app (Request.splitTarget location).1
      (Request.splitTarget location).2 target
    unfold into Exchange.intoForward
    dsimp only
    split
    · have hdescribed := (sameButAttributes_describeForward x.startOver.request app).sameButPlace
      exact ⟨_, _, rfl, hdescribed.trans (hretarget _)⟩
    · exact ⟨_, _, rfl, hretarget _⟩
  | inclusion => exact ⟨_, _, rfl, (sameButAttributes_describeInclude x.request app _ _ target).sameButPlace⟩

/-- `Jump.outOf` puts back a place in the request and the lock of the response, and leaves all else of the exchange. -/
theorem exists_outOf_eq (j : Jump) : ∃ request response,
    j.outOf x y = { y with request, response } ∧ y.request.SameButPlace request := by
  cases j with
  | forward =>
    have hback : y.request.SameButPlace (y.request.withPathState x.request.pathState) := .withPathState _ _
    unfold outOf Exchange.outOfForward
    dsimp only
    split
    · exact ⟨_, _, rfl, hback.trans (sameButAttributes_removeAttributes _ _).sameButPlace⟩
    · exact ⟨_, _, rfl, hback⟩
  | inclusion => exact ⟨_, _, rfl, (sameButAttributes_restoreAttributes _ _ _).sameButPlace⟩

end Jump

end ServletContainer
