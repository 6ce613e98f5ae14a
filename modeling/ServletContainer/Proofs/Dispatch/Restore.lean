import ServletContainer.Proofs.Dispatch.Attributes
import ServletContainer.Proofs.Dispatch.Carried
import ServletContainer.Proofs.Dispatch.Frame

namespace ServletContainer

/-!
# What a dispatch puts back

Forwards and includes change the frame of an exchange for as long as their target runs. However they end, and
however deeply they are nested, the frame is as it was before.

* `keeps_forwardWith`, `keeps_includeWith` — one forward and one include, if their target keeps the frame.
* `steady_sameFrame`, `keeps_invoke` — so every target does, however deeply dispatches are nested in it.
-/

/-! ### Attributes -/

section Attributes

variable (r : Request)

/-- `removeAttribute` takes one attribute away, and leaves those of other names. -/
theorem attribute?_removeAttribute (name n : String) :
    (r.removeAttribute name).attribute? n = if n = name then none else r.attribute? n :=
  Table.get?_erase _ _ _

/-- `putAttribute` sets one attribute or takes it away, and leaves those of other names. -/
theorem attribute?_putAttribute (name n : String) (v : Option Value) :
    (r.putAttribute name v).attribute? n = if n = name then v else r.attribute? n := by
  cases v with
  | none => exact Table.get?_erase _ _ _
  | some v => exact Table.get?_insert _ _ _ _

/-- `removeAttributes` writes attributes only. -/
@[simp] theorem pathState_removeAttributes (names : List String) :
    (removeAttributes names r).pathState = r.pathState := (sameButAttributes_removeAttributes r names).pathState

/-- It takes away those of `names`, by induction on them. -/
theorem attribute?_removeAttributes (names : List String) (n : String) :
    (removeAttributes names r).attribute? n = if n ∈ names then none else r.attribute? n := by
  induction names generalizing r with
  | nil => simp [removeAttributes]
  | cons name names ih =>
    show (removeAttributes names (r.removeAttribute name)).attribute? n = _
    rw [ih, attribute?_removeAttribute]
    by_cases hn : n ∈ names <;> by_cases hname : n = name <;> simp [hn, hname]

/-- `restoreAttributes` writes attributes only. -/
@[simp] theorem pathState_restoreAttributes (names : List String) (before : Request) :
    (restoreAttributes names before r).pathState = r.pathState :=
  (sameButAttributes_restoreAttributes r names before).pathState

/-- It gives those of `names` the values that they had `before`, or none. -/
theorem attribute?_restoreAttributes (names : List String) (before : Request) (n : String) :
    (restoreAttributes names before r).attribute? n
      = if n ∈ names then before.attribute? n else r.attribute? n := by
  induction names generalizing r with
  | nil => simp [restoreAttributes]
  | cons name names ih =>
    show (restoreAttributes names before (r.putAttribute name (before.attribute? name))).attribute? n = _
    rw [ih, attribute?_putAttribute]
    by_cases hn : n ∈ names <;> by_cases hname : n = name <;> simp [hn, hname]

/-- `describeForward` writes attributes only. -/
@[simp] theorem pathState_describeForward (app : Application) : (describeForward app r).pathState = r.pathState :=
  (sameButAttributes_describeForward r app).pathState

/-- So does `describeInclude`. -/
@[simp] theorem pathState_describeInclude (app : Application) (path : String) (query : Option String)
    (target : MappingMatch) : (describeInclude app path query target r).pathState = r.pathState :=
  (sameButAttributes_describeInclude r app path query target).pathState

end Attributes

/-! ### One dispatch -/

section Jumps

variable {invoke : Invoker} (app : Application) (location : String)

/-- `forwardWith` keeps the frame if the target's `invoke` does (`hi`): it fails before it changes the request, or puts
the paths back. -/
theorem keeps_forwardWith (hi : ∀ target, Keeps (invoke target .forward)) :
    Keeps (forwardWith invoke app location) := by
  intro x p h
  have hlock : x.startOver.response.locked = x.response.locked := x.response.locked_resetBuffer
  rcases forwardWith_cases app location x with ⟨e, y, hy, heq⟩ | ⟨target, -, heq⟩
  · rw [heq] at h
    refine .of_eq_some h ?_
    rcases hy with rfl | ⟨-, rfl⟩
    · exact .refl y
    · exact ⟨rfl, rfl, rfl, hlock⟩
  · rw [heq] at h
    obtain ⟨q, hq, rfl⟩ := Option.map_eq_some_iff.1 h
    have hf := hi _ hq
    -- The attributes come and go where `isOriginal` holds; the paths are put back either way.
    unfold Exchange.intoForward at hf
    unfold Exchange.outOfForward
    by_cases hfirst : x.request.isOriginal = true
    · simp only [hfirst, if_true] at hf ⊢
      exact ⟨by simp [Exchange.mapRequest], hf.dispatcher, hf.servletName, hf.locked.trans hlock⟩
    · simp only [hfirst, Bool.false_eq_true, if_false] at hf ⊢
      exact ⟨by simp [Exchange.mapRequest], hf.dispatcher, hf.servletName, hf.locked.trans hlock⟩

/-- If there are no forward attributes before it (`hx`), `forwardWith` leaves none behind. -/
theorem attribute?_forwardWith {x : Exchange} {p : Outcome × Exchange}
    (h : forwardWith invoke app location x = some p)
    (hx : ∀ n ∈ ForwardAttribute.all, x.request.attribute? n = none) :
    ∀ n ∈ ForwardAttribute.all, p.2.request.attribute? n = none := by
  rcases forwardWith_cases app location x with ⟨e, y, hy, heq⟩ | ⟨target, -, heq⟩
  · obtain rfl := Option.some.inj ((heq invoke).symm.trans h)
    rcases hy with rfl | ⟨-, rfl⟩ <;> exact hx
  · rw [heq] at h
    obtain ⟨q, -, rfl⟩ := Option.map_eq_some_iff.1 h
    have hfirst : x.request.isOriginal = true := by
      rw [Request.isOriginal, hx _ (by simp [ForwardAttribute.all])]
      rfl
    intro n hn
    simp only [Exchange.outOfForward, hfirst, if_true]
    show (removeAttributes ForwardAttribute.all _).attribute? n = none
    rw [attribute?_removeAttributes, if_pos hn]

/-- `includeWith` keeps the frame if the target's `invoke` does: it fails before it changes anything, or puts the lock
back. -/
theorem keeps_includeWith (hi : ∀ target, Keeps (invoke target .inclusion)) :
    Keeps (includeWith invoke app location) := by
  intro x p h
  rcases includeWith_cases app location x with ⟨e, heq⟩ | ⟨target, -, heq⟩
  · exact .of_eq_some ((heq invoke).symm.trans h) (.refl x)
  · rw [heq] at h
    obtain ⟨q, hq, rfl⟩ := Option.map_eq_some_iff.1 h
    have hf := hi _ hq
    refine ⟨?_, hf.dispatcher, hf.servletName, rfl⟩
    show (restoreAttributes IncludeAttribute.all x.request q.2.request).pathState = x.request.pathState
    rw [pathState_restoreAttributes, hf.paths]
    exact pathState_describeInclude _ _ _ _ _

/-- `includeWith` leaves the include attributes as they were. -/
theorem attribute?_includeWith {x : Exchange} {p : Outcome × Exchange}
    (h : includeWith invoke app location x = some p) :
    ∀ n ∈ IncludeAttribute.all, p.2.request.attribute? n = x.request.attribute? n := by
  intro n hn
  rcases includeWith_cases app location x with ⟨e, heq⟩ | ⟨target, -, heq⟩
  · obtain rfl := Option.some.inj ((heq invoke).symm.trans h)
    rfl
  · rw [heq] at h
    obtain ⟨q, -, rfl⟩ := Option.map_eq_some_iff.1 h
    show (restoreAttributes IncludeAttribute.all x.request q.2.request).attribute? n = _
    rw [attribute?_restoreAttributes, if_pos hn]

end Jumps

/-- So `SameFrame` is `Steady` under all calls. -/
theorem steady_sameFrame : Steady (fun _ => True) (fun _ => True) SameFrame where
  forwards := trivial
  includes := trivial
  refl := .refl
  trans := .trans
  perform _ hp := Op.sameFrame_perform hp
  entered _ _ _ := ⟨rfl, rfl, rfl, rfl⟩
  left _ _ _ := ⟨rfl, rfl, rfl, rfl⟩
  -- `dispatcher` and `servletName` are put back, whatever the chain did.
  within _ h := ⟨h.paths, rfl, rfl, h.locked⟩
  forward := keeps_forwardWith _ _
  inclusion := keeps_includeWith _ _

/-- And `invoke` keeps the frame, however deeply dispatches are nested in it. -/
theorem keeps_invoke (app : Application) (depth : Nat) (target : MappingMatch) (kind : DispatcherKind) :
    Keeps (invoke app depth target kind) :=
  steady_sameFrame.invoke app.uses_true depth target trivial

end ServletContainer
