import ServletContainer.Proofs.Dispatch.Chains
import ServletContainer.Proofs.Dispatch.Outline

namespace ServletContainer

/-!
# In what order the components of a chain run

A chain is run from its first filter inwards, as far as each filter continues it, and back outwards again.

* `Visit` — a component of a chain from where it is entered to where it is left.
* `Filter.Continues`, `Filter.GoesOn`, `Filter.Stops` — a filter that continues its chain, and what comes of it; and one
  that does not.
* `MakesUp`, `exists_makesUp_of_runChain` — the visits that make up the run of a chain.
* `RunsInOrder`, `MakesUp.exists_runsInOrder` — which filters they are of, and how the run ends.
* `MakesUp.exists_outlined` — what the journal tells of them.
* `visits_of_runChain` — this in one, for the filters in front of a target.
-/

/-! ### Visits -/

/-- A component of a chain, from where it is `entered` to where it is `left`. -/
structure Visit where
  component : ComponentRef
  arrives : Exchange
  result : Outcome
  leaves : Exchange

/-- The exchange in which the code of `v.component` starts. -/
def Visit.start (v : Visit) : Exchange := v.arrives.log (.entered v.component v.arrives.snapshot)

/-- What journals call the filter `f`. -/
def Filter.ref (f : Filter) : ComponentRef := ⟨.filter, f.name⟩

/-- What journals call the servlet `s`. -/
def Servlet.ref (s : Servlet) : ComponentRef := ⟨.servlet, s.name⟩

section Visits

variable (dispatch : Dispatcher) (servlet : Servlet)

/-- The rest `fs` of a chain behind a filter. -/
def restOf (fs : List Filter) : Rest := ⟨fs.length, runChain dispatch servlet fs⟩

/-- Whether `f` continues its chain `fs` when it is entered in `x`: its code comes to a `proceed`. -/
def Filter.Continues (f : Filter) (fs : List Filter) (x : Exchange) : Prop :=
  ∃ k y, Point.Steps dispatch
    ⟨f.component.service, some (restOf dispatch servlet fs), x.log (.entered f.ref x.snapshot)⟩
    ⟨.proceed k, some (restOf dispatch servlet fs), y⟩

/-- Whether a filter continues its chain into the visit `w`, and does the rest of its work with the result of `w`, where
`w` has left. -/
def Filter.GoesOn (f : Filter) (fs : List Filter) (v w : Visit) : Prop :=
  v.component = f.ref ∧ ∃ k y,
    Point.Steps dispatch ⟨f.component.service, some (restOf dispatch servlet fs), v.start⟩
      ⟨.proceed k, some (restOf dispatch servlet fs), w.arrives⟩ ∧
    Point.Steps dispatch ⟨k (some w.result), none, w.leaves⟩ ⟨.done v.result, none, y⟩ ∧
    v.leaves = y.log (.left f.ref v.result)

/-- Whether `f` does all of its work in `v` without its chain `fs`. -/
def Filter.Stops (f : Filter) (fs : List Filter) (v : Visit) : Prop :=
  v.component = f.ref ∧ ∃ y,
    Point.Steps dispatch ⟨f.component.service, some (restOf dispatch servlet fs), v.start⟩
      ⟨.done v.result, some (restOf dispatch servlet fs), y⟩ ∧
    v.leaves = y.log (.left f.ref v.result)

/-- Whether `servlet` does its work in `v`. -/
def Servlet.Serves (v : Visit) : Prop :=
  v.component = servlet.ref ∧ ∃ y,
    Point.Steps dispatch ⟨servlet.component.service, none, v.start⟩ ⟨.done v.result, none, y⟩ ∧
    v.leaves = y.log (.left servlet.ref v.result)

/-- The visits that make up the run of a chain, the outermost one first: of filters that continue it, and of the first
that stops or of the `servlet`. -/
inductive MakesUp : List Filter → List Visit → Prop
  | serves {v : Visit} : servlet.Serves dispatch v → MakesUp [] [v]
  | stops {f : Filter} {fs : List Filter} {v : Visit} : f.Stops dispatch servlet fs v → MakesUp (f :: fs) [v]
  | goesOn {f : Filter} {fs : List Filter} {v w : Visit} {visits : List Visit} : f.GoesOn dispatch servlet fs v w →
    MakesUp fs (w :: visits) → MakesUp (f :: fs) (v :: w :: visits)

end Visits

section Runs

variable {dispatch : Dispatcher} {servlet : Servlet} {filters fs : List Filter} {f : Filter} {v w : Visit}
  {visits : List Visit}

/-- A filter that `GoesOn` into a visit `Continues` when it is entered. -/
theorem Filter.GoesOn.continues (h : f.GoesOn dispatch servlet fs v w) :
    f.Continues dispatch servlet fs v.arrives := by
  obtain ⟨hcomponent, k, y, hsteps, -, -⟩ := h
  rw [Visit.start, hcomponent] at hsteps
  exact ⟨k, w.arrives, hsteps⟩

/-- A filter that `Stops` does not: by `Step.unique` its code comes to one end only, and its chain is still there at
that end. -/
theorem Filter.Stops.not_continues (h : f.Stops dispatch servlet fs v) :
    ¬ f.Continues dispatch servlet fs v.arrives := by
  obtain ⟨hcomponent, y, hsteps, -⟩ := h
  rw [Visit.start, hcomponent] at hsteps
  rintro ⟨k, z, hproceeds⟩
  -- `Point.Step` is deterministic, so one of the two points comes after the other; but from neither there is a way.
  rcases Relation.ReflTransGen.total_of_right_unique Point.Step.unique hsteps hproceeds with hafter | hafter
  · rcases hafter.cases_head with heq | ⟨b, hstep, -⟩
    · cases heq
    · cases hstep
  · rcases hafter.cases_head with heq | ⟨b, hstep, hrest⟩
    · cases heq
    · cases hstep
      rcases Point.Steps.rest_eq hrest with hnone | hnone <;> cases hnone

/-- Every run of a chain is made up of visits, by induction on its filters. The first visit starts in the exchange of
the run, and ends with what the run comes to. -/
theorem exists_makesUp_of_runChain {x : Exchange} {p : Outcome × Exchange}
    (h : runChain dispatch servlet filters x = some p) :
    ∃ visits, MakesUp dispatch servlet filters visits ∧
      ∃ v, visits.head? = some v ∧ v.arrives = x ∧ (v.result, v.leaves) = p := by
  induction filters generalizing x p with
  | nil =>
    obtain ⟨q, hq, rfl⟩ := Option.map_eq_some_iff.1 h
    let v : Visit := ⟨servlet.ref, x, q.1, q.2.log (.left servlet.ref q.1)⟩
    exact ⟨[v], .serves ⟨rfl, q.2, Point.steps_of_run hq, rfl⟩, v, rfl, rfl, rfl⟩
  | cons f fs ih =>
    obtain ⟨q, hq, rfl⟩ := Option.map_eq_some_iff.1 h
    let v : Visit := ⟨f.ref, x, q.1, q.2.log (.left f.ref q.1)⟩
    rcases Point.steps_of_run_some hq with hstops | ⟨k, y, r, hproceeds, hr, hends⟩
    · exact ⟨[v], .stops ⟨rfl, q.2, hstops, rfl⟩, v, rfl, rfl, rfl⟩
    · -- What comes of the rest of the chain is the result of `w`, its first visit.
      obtain ⟨visits, hvisits, w, hhead, rfl, rfl⟩ := ih hr
      obtain ⟨visits, rfl⟩ := List.head?_eq_some_iff.1 hhead
      exact ⟨v :: w :: visits, .goesOn ⟨rfl, k, q.2, hproceeds, hends, rfl⟩ hvisits, v, rfl, rfl, rfl⟩

/-- A run is made in order of `visits`: of the filters `passed` that continue the chain, each within the one before, and
then of the first of `rest`, which does not continue it, or else of the `servlet`. -/
structure RunsInOrder (dispatch : Dispatcher) (servlet : Servlet) (passed rest : List Filter) (visits : List Visit) :
    Prop where
  components : visits.map Visit.component = passed.map Filter.ref ++ [firstComponent servlet rest]
  passed : ∀ before f after, passed = before ++ f :: after → ∃ v w, visits[before.length]? = some v ∧
    visits[before.length + 1]? = some w ∧ f.Continues dispatch servlet (after ++ rest) v.arrives ∧
    f.GoesOn dispatch servlet (after ++ rest) v w
  last : ∃ v, visits.getLast? = some v ∧ (rest = [] → servlet.Serves dispatch v) ∧
    ∀ f fs, rest = f :: fs → ¬ f.Continues dispatch servlet fs v.arrives ∧ f.Stops dispatch servlet fs v

/-- Visits that `MakesUp` a run are in order: `passed` are the filters that `GoesOn`, and `rest` starts with the one
that `Stops`, or is empty where the servlet is reached. -/
theorem MakesUp.exists_runsInOrder (h : MakesUp dispatch servlet filters visits) :
    ∃ passed rest, filters = passed ++ rest ∧ RunsInOrder dispatch servlet passed rest visits := by
  induction h with
  | @serves v hv =>
    exact ⟨[], [], rfl, by simp [hv.1, firstComponent, Servlet.ref], by simp, v, rfl, fun _ => hv, by simp⟩
  | @stops f fs v hv =>
    refine ⟨[], f :: fs, rfl, by simp [hv.1, firstComponent, Filter.ref], by simp, v, rfl, by simp, ?_⟩
    rintro _ _ ⟨⟩
    exact ⟨hv.not_continues, hv⟩
  | @goesOn f fs v w visits hv _ ih =>
    obtain ⟨passed, rest, rfl, hcomponents, hpassed, last, hlast, hend⟩ := ih
    refine ⟨f :: passed, rest, rfl, ?_, fun before g after hbefore => ?_, last, ?_, hend⟩
    · rw [List.map_cons, hcomponents, hv.1]
      rfl
    · -- The filter in question is `f` itself, or one of those behind it.
      cases before with
      | nil =>
        obtain ⟨rfl, rfl⟩ := List.cons.inj hbefore
        exact ⟨v, w, rfl, rfl, hv.continues, hv⟩
      | cons g' before =>
        obtain ⟨rfl, htail⟩ := List.cons.inj hbefore
        exact hpassed before g after htail
    · rw [List.getLast?_cons_cons]
      exact hlast

/-! ### The journal -/

/-- What is told of `visits`, each within the one before. -/
def story : List Visit → List Event
  | [] => []
  | v :: visits => .entered v.component v.arrives.snapshot :: story visits ++ [.left v.component v.result]

/-- A `story` is all that is entered, in order, and then all that is left, in reverse. -/
theorem story_eq (visits : List Visit) : story visits =
    visits.map (fun v => .entered v.component v.arrives.snapshot) ++
      visits.reverse.map fun v => .left v.component v.result := by
  induction visits with
  | nil => rfl
  | cons v visits ih => simp [story, ih]

/-- What a component adds to the journal stands between its `.entered` and its `.left`. -/
theorem Visit.journal_leaves {v : Visit} {y : Exchange} {inner : List Event}
    (hinner : y.journal = v.start.journal ++ inner) (hleaves : v.leaves = y.log (.left v.component v.result)) :
    v.leaves.journal = v.arrives.journal ++
      (.entered v.component v.arrives.snapshot :: inner ++ [.left v.component v.result]) := by
  rw [hleaves]
  show y.journal ++ [_] = _
  rw [hinner]
  simp [Visit.start, Exchange.log]

section Asides

variable (hd : ∀ j path, Carries (fun x y => GainsAside x.journal y.journal) (dispatch j path))

include hd

/-- What a run adds to the journal is `Outlined` by the `story` of its visits, if what dispatches add `IsAside` (`hd`).
-/
theorem MakesUp.exists_outlined (h : MakesUp dispatch servlet filters visits) :
    ∃ v inside inner, visits = v :: inside ∧ Outlined inner (story inside) ∧ v.leaves.journal = v.arrives.journal ++
      (.entered v.component v.arrives.snapshot :: inner ++ [.left v.component v.result]) := by
  induction h with
  | @serves v hv =>
    obtain ⟨hcomponent, y, hsteps, hleaves⟩ := hv
    obtain ⟨events, hevents, haside⟩ := Point.Steps.gainsAside hd hsteps rfl
    exact ⟨v, [], events, rfl, haside.outlined, Visit.journal_leaves hevents (hcomponent ▸ hleaves)⟩
  | @stops f fs v hv =>
    obtain ⟨hcomponent, y, hsteps, hleaves⟩ := hv
    obtain ⟨events, hevents, haside⟩ := Point.Steps.gainsAside hd hsteps rfl
    exact ⟨v, [], events, rfl, haside.outlined, Visit.journal_leaves hevents (hcomponent ▸ hleaves)⟩
  | @goesOn f fs v w inside hv _ ih =>
    obtain ⟨hcomponent, k, y, hbefore, hafter, hleaves⟩ := hv
    obtain ⟨_, _, inner, ⟨rfl, rfl⟩, hinner, hinside⟩ := ih
    -- The rest of the chain runs between `events` and `events'`, the filter's own work.
    obtain ⟨events, hevents, haside⟩ := Point.Steps.gainsAside hd hbefore rfl
    obtain ⟨events', hevents', haside'⟩ := Point.Steps.gainsAside hd hafter rfl
    dsimp only at hevents hevents'
    rw [hinside, hevents, List.append_assoc, List.append_assoc] at hevents'
    refine ⟨v, w :: inside, _, rfl, ?_, Visit.journal_leaves hevents' (hcomponent ▸ hleaves)⟩
    have hoverall := haside.outlined.append ((hinner.component w.component w.arrives.snapshot w.result).append
      haside'.outlined)
    rwa [List.nil_append, List.append_nil] at hoverall

/-- So a chain adds what `IsAside` once it stands behind the `.dispatched` that it is the chain of. -/
theorem isAside_of_runChain {x : Exchange} {p : Outcome × Exchange} (h : runChain dispatch servlet filters x = some p)
    (name : String) (kind : DispatcherKind) (count : Nat) :
    ∃ events, p.2.journal = x.journal ++ events ∧ IsAside (.dispatched name kind count :: events) := by
  obtain ⟨visits, hvisits, v, hhead, rfl, rfl⟩ := exists_makesUp_of_runChain h
  obtain ⟨w, inside, inner, rfl, hinner, hjournal⟩ := hvisits.exists_outlined hd
  obtain rfl := Option.some.inj hhead
  exact ⟨_, hjournal, hinner.isAside w.component w.arrives.snapshot w.result name kind count⟩

end Asides

end Runs

/-- So does `invoke`, by induction on `depth`: its forwards and includes are asides in the chain that makes them. -/
theorem gainsAside_invoke (app : Application) (depth : Nat) (target : MappingMatch) (kind : DispatcherKind) :
    Carries (fun x y => GainsAside x.journal y.journal) (invoke app depth target kind) := by
  induction depth generalizing target kind with
  | zero =>
    intro x p h
    cases h
  | succ depth ih =>
    intro x p h
    change invokeWith (dispatchWith (invoke app depth) app) app target kind x = some p at h
    cases hservlet : app.servlet? target.servletName with
    | none =>
      rw [invokeWith, hservlet] at h
      obtain rfl := Option.some.inj h
      exact .refl _
    | some servlet =>
      rw [invokeWith_eq _ hservlet] at h
      obtain ⟨q, hq, rfl⟩ := Option.map_eq_some_iff.1 h
      -- The record of the dispatch and what the chain adds behind it are one aside.
      let count := (app.filtersFor target.path target.servletName kind).length
      have hd : ∀ j path, Carries (fun x y => GainsAside x.journal y.journal)
          (dispatchWith (invoke app depth) app j path) := fun j path =>
        Jump.carries_dispatchWith (fun _ _ _ => rfl) GainsAside.refl j fun target => ih target j.kind
      obtain ⟨events, hevents, haside⟩ := isAside_of_runChain hd hq target.servletName kind count
      refine ⟨_, ?_, haside⟩
      show q.2.journal = _
      rw [hevents]
      exact (List.append_cons x.journal _ events).symm

/-- And so does `dispatchWith`, which records nothing itself. -/
theorem gainsAside_dispatchWith (app : Application) (depth : Nat) (j : Jump) (path : String) :
    Carries (fun x y => GainsAside x.journal y.journal) (dispatchWith (invoke app depth) app j path) :=
  Jump.carries_dispatchWith (fun _ _ _ => rfl) GainsAside.refl j fun target => gainsAside_invoke app depth target j.kind

/-! ### The filters in front of a target -/

/-- A mapping without kinds applies to `.request` alone. -/
theorem FilterMapping.appliesTo_iff {m : FilterMapping} {kind : DispatcherKind} :
    m.appliesTo kind = true ↔ m.kinds = [] ∧ kind = .request ∨ kind ∈ m.kinds := by
  unfold appliesTo
  split
  · next hempty => simp [List.isEmpty_iff.1 hempty]
  · next hsome =>
    have hne : m.kinds ≠ [] := fun h => hsome (List.isEmpty_iff.2 h)
    simp [hne]

/-- `Filter.covers` spelled out: a mapping applies to the kind, and has a pattern that covers the path, the name of the
servlet, or `*`. -/
theorem Filter.covers_iff {f : Filter} {path servlet : String} {kind : DispatcherKind} :
    f.covers path servlet kind = true ↔ ∃ m ∈ f.mappings, (m.kinds = [] ∧ kind = .request ∨ kind ∈ m.kinds) ∧
      ((∃ pattern, m.target = .url pattern ∧ pattern.covers path = true) ∨ m.target = .servlet servlet ∨
        m.target = .servlet "*") := by
  simp only [Filter.covers, List.any_eq_true, FilterMapping.covers_iff, ← FilterMapping.appliesTo_iff]
  exact exists_congr fun m => and_congr_right fun _ => ⟨fun h => ⟨h.applies, h.selects⟩, fun h => ⟨h.1, h.2⟩⟩

/-- **The order of a chain.** The chain in front of a target has the registered filters that `covers` selects, each once
and in the order of registration. Let `runChain` of it return `p`. Of these filters the `passed` ones run, up to the
first that does not continue the chain, and if there is none, so does the servlet (`RunsInOrder`). Each runs once,
within the one before: what a filter does after it has continued starts where the next component has left, with its
result. The `outline` of what the journal gains tells so: all that is entered, and then all that is left, in reverse.
And `p` is what the first of the visits comes to. -/
theorem visits_of_runChain {app : Application} {depth : Nat} {path name : String} {kind : DispatcherKind}
    {servlet : Servlet} {x : Exchange} {p : Outcome × Exchange}
    (h : runChain (dispatchWith (invoke app depth) app) servlet (app.filtersFor path name kind) x = some p) :
    let dispatch := dispatchWith (invoke app depth) app
    app.filtersFor path name kind = app.filters.filter (fun f => f.covers path name kind) ∧
    (∀ f : Filter, f.covers path name kind = true ↔
      ∃ m ∈ f.mappings, (m.kinds = [] ∧ kind = .request ∨ kind ∈ m.kinds) ∧
        ((∃ pattern, m.target = .url pattern ∧ pattern.covers path = true) ∨ m.target = .servlet name ∨
          m.target = .servlet "*")) ∧
    ∃ (passed rest : List Filter) (visits : List Visit) (events : List Event),
      app.filtersFor path name kind = passed ++ rest ∧
      RunsInOrder dispatch servlet passed rest visits ∧
      (∃ v, visits.head? = some v ∧ v.arrives = x ∧ v.result = p.1 ∧ v.leaves = p.2) ∧
      p.2.journal = x.journal ++ events ∧
      outline [] events = visits.map (fun v => .entered v.component v.arrives.snapshot) ++
        visits.reverse.map fun v => .left v.component v.result := by
  intro dispatch
  refine ⟨rfl, fun f => Filter.covers_iff, ?_⟩
  -- The visits of the run, then their order, and then their `outline` in the journal.
  obtain ⟨visits, hvisits, v, hhead, rfl, rfl⟩ := exists_makesUp_of_runChain h
  obtain ⟨passed, rest, hfilters, horder⟩ := hvisits.exists_runsInOrder
  obtain ⟨w, inside, inner, rfl, hinner, hjournal⟩ := hvisits.exists_outlined (gainsAside_dispatchWith app depth)
  obtain rfl := Option.some.inj hhead
  refine ⟨passed, rest, w :: inside, _, hfilters, horder, ⟨w, rfl, rfl, rfl, rfl⟩, hjournal, ?_⟩
  -- What is told of `w`, the first component, stands around what is told of all others.
  have hshown := (hinner.component w.component w.arrives.snapshot w.result).shown []
  rw [List.append_nil] at hshown
  rw [hshown, ← story_eq]
  exact List.append_nil _

/-! ### A lobby with a closed gate -/

namespace Lobby

/-- A filter that writes down who comes, and fails when the others are done. -/
def clerk : Filter where
  name := "clerk"
  mappings := [⟨.url (.below ""), []⟩, ⟨.servlet "*", [.request, .forward]⟩]
  component := ⟨.perform (.setStatus 202) (.proceed fun _ => .fail (.ofStatus 503)), fun _ => none, false⟩

/-- A filter that continues for nobody. -/
def gate : Filter := ⟨"gate", [⟨.url .default, []⟩], ⟨.finish, fun _ => none, false⟩⟩

/-- The servlet behind the filters. -/
def hall : Servlet := ⟨"hall", .finish, fun _ => none, false⟩

/-- An application with a `gate` between two clerks. -/
def app : Application where
  contextPath := ""
  displayName := "lobby"
  servlets := [hall]
  filters := [clerk, gate, { clerk with name := "second" }]
  mapper := MappingTable.empty.assign "hall" .default
  errorPages := .empty
  sessionConfig := .standard
  guard := none
  resources := none

/-- A request for the `hall`. -/
def visitor : Exchange := .start (.ofLine "GET /hall HTTP/1.1") none (.detached "HTTP/1.1") 0 []

/-- Nobody comes past the gate, and what comes of the chain is the failure of the first clerk. -/
theorem visits_of_runChain_hall : ∃ p passed rest visits,
    runChain (dispatchWith (invoke app 0) app) hall (app.filtersFor "/hall" "hall" .request) visitor = some p ∧
    app.filtersFor "/hall" "hall" .request = passed ++ rest ∧
    RunsInOrder (dispatchWith (invoke app 0) app) hall passed rest visits ∧
    p.1 = .error (.ofStatus 503) ∧ ∃ v, visits.head? = some v ∧ v.result = p.1 := by
  have hrun : (runChain (dispatchWith (invoke app 0) app) hall (app.filtersFor "/hall" "hall" .request) visitor).map
      Prod.fst = some (.error (.ofStatus 503)) := by decide +kernel
  obtain ⟨p, hp, hresult⟩ := Option.map_eq_some_iff.1 hrun
  obtain ⟨-, -, passed, rest, visits, _, hfilters, horder, ⟨v, hhead, -, hv, -⟩, -⟩ := visits_of_runChain hp
  exact ⟨p, passed, rest, visits, hp, hfilters, horder, hresult, v, hhead, hv⟩

end Lobby

end ServletContainer
