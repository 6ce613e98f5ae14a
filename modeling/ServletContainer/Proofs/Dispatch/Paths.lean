import ServletContainer.Proofs.Dispatch.Invocations

namespace ServletContainer

/-!
# Paths that stay

The paths of a request and its context path are what a dispatch found, whatever runs in it.

* `SamePaths` — two exchanges whose requests agree in them.
* `Op.samePaths_perform`, `ByCalls.samePaths` — a call keeps them, and so does a guard that works by calls.
* `steady_samePaths` — so do dispatches, which put back what they change.
* `Invocation.samePaths_of_leadsTo` — the components of one chain see the same paths.
-/

/-- Whether the requests of `x` and `y` have the same `pathState` and `contextPath`. -/
structure SamePaths (x y : Exchange) : Prop where
  paths : y.request.pathState = x.request.pathState
  context : y.request.contextPath = x.request.contextPath

namespace SamePaths

variable {x y z : Exchange}

/-- An exchange has the `SamePaths` as itself. -/
theorem refl (x : Exchange) : SamePaths x x := ⟨rfl, rfl⟩

/-- `SamePaths` composes. -/
theorem trans (h : SamePaths x y) (h' : SamePaths y z) : SamePaths x z :=
  ⟨h'.paths.trans h.paths, h'.context.trans h.context⟩

/-- `pathState` has the URI. -/
theorem uri (h : SamePaths x y) : y.request.uri = x.request.uri := congrArg Request.PathState.uri h.paths

/-- `pathState` has the query. -/
theorem query (h : SamePaths x y) : y.request.query = x.request.query := congrArg Request.PathState.query h.paths

/-- `pathState` and `contextPath` determine `relativePath`. -/
theorem relativePath (h : SamePaths x y) : y.request.relativePath = x.request.relativePath := by
  unfold Request.relativePath
  rw [h.uri, h.context]

end SamePaths

/-! ### Calls -/

/-- No step of an application's call reaches the paths. -/
theorem Op.Step.samePaths {op : Op} {x y : Exchange} (h : op.Step x y) : SamePaths x y := by
  cases h with
  | put name v _ => cases v <;> exact ⟨rfl, rfl⟩
  | respond | store | bind | fields | input | defer | note => exact ⟨rfl, rfl⟩

theorem Op.samePaths_perform {op : Op} {x : Exchange} {p : op.Reply × Exchange} (h : op.perform x = some p) :
    SamePaths x p.2 :=
  (Op.steps_perform h).lift .refl .trans Op.Step.samePaths

/-- What is done `ByCalls` keeps the paths. -/
theorem ByCalls.samePaths {x y : Exchange} (h : ByCalls x y) : SamePaths x y := by
  induction h with
  | start => exact .refl x
  | call op _ hp ih => exact ih.trans (Op.samePaths_perform hp)
  | principal caller _ ih => exact ih.trans ⟨rfl, rfl⟩

/-! ### Dispatches -/

section Jumps

variable (app : Application) (path : String) (query : Option String) (target : MappingMatch) (x y : Exchange)

/-- `intoForward` gives the request other paths within the same context. -/
theorem contextPath_intoForward : (x.intoForward app path query target).request.contextPath = x.request.contextPath := by
  have hover : x.startOver.request.contextPath = x.request.contextPath := rfl
  unfold Exchange.intoForward
  split
  · exact (sameButAttributes_describeForward _ app).contextPath.trans hover
  · exact hover

/-- `outOfForward` leaves the context as well. -/
theorem contextPath_outOfForward : (x.outOfForward y).request.contextPath = y.request.contextPath := by
  unfold Exchange.outOfForward
  dsimp only
  split
  · exact (sameButAttributes_removeAttributes _ _).contextPath
  · rfl

/-- And it puts `pathState` back, whatever the target has left in it. -/
theorem pathState_outOfForward : (x.outOfForward y).request.pathState = x.request.pathState := by
  unfold Exchange.outOfForward
  dsimp only
  split
  · exact pathState_removeAttributes _ _
  · rfl

end Jumps

/-- So `SamePaths` is `Steady`. -/
theorem steady_samePaths : Steady (fun _ => True) (fun _ => True) SamePaths where
  forwards := trivial
  includes := trivial
  refl := .refl
  trans := .trans
  perform _ hp := Op.samePaths_perform hp
  entered _ _ _ := ⟨rfl, rfl⟩
  left _ _ _ := ⟨rfl, rfl⟩
  within _ h := ⟨h.paths, h.context⟩
  forward {invoke app location} hi x p hp := by
    rcases forwardWith_cases app location x with ⟨e, y, hy, heq⟩ | ⟨target, -, heq⟩
    · obtain rfl := Option.some.inj ((heq invoke).symm.trans hp)
      rcases hy with rfl | ⟨-, rfl⟩ <;> exact ⟨rfl, rfl⟩
    · -- `intoForward` sets other paths, and `outOfForward` those of before.
      obtain ⟨q, hq, rfl⟩ := Option.map_eq_some_iff.1 ((heq invoke).symm.trans hp)
      refine ⟨pathState_outOfForward x q.2, ?_⟩
      exact (contextPath_outOfForward x q.2).trans ((hi target hq).context.trans (contextPath_intoForward ..))
  inclusion {invoke app location} hi x p hp := by
    rcases includeWith_cases app location x with ⟨e, heq⟩ | ⟨target, -, heq⟩
    · obtain rfl := Option.some.inj ((heq invoke).symm.trans hp)
      exact .refl x
    · obtain ⟨q, hq, rfl⟩ := Option.map_eq_some_iff.1 ((heq invoke).symm.trans hp)
      have hrun := hi target hq
      constructor
      · exact (pathState_restoreAttributes _ _ _).trans (hrun.paths.trans (pathState_describeInclude ..))
      · have hback := (sameButAttributes_restoreAttributes q.2.request IncludeAttribute.all x.request).contextPath
        exact hback.trans (hrun.context.trans (sameButAttributes_describeInclude x.request app _ _ target).contextPath)

/-! ### Components -/

/-- Components of the one chain of a `top` place see the same paths, whatever the ones in front of them do. -/
theorem Invocation.samePaths_of_leadsTo {app : Application} {i : Invocation} {kind : DispatcherKind} {uri : String}
    {query : Option String} {target : MappingMatch} {depth : Nat} {servlet : Servlet} {x : Exchange}
    (hi : LeadsTo app (first app (.top kind uri query target) depth servlet x) i)
    (hplace : i.place = .top kind uri query target) : SamePaths x i.exchange := by
  induction hi with
  | refl => exact ⟨rfl, rfl⟩
  | @tail i' _ _ hlast ih =>
    cases hlast with
    | proceed _ hpoint => exact (ih hplace).trans (steady_samePaths.comesTo app.uses_true i'.uses_true hpoint)
    | jump => cases hplace

end ServletContainer
