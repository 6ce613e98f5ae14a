import Mathlib.Logic.Relation
import ServletContainer.Proofs.Dispatch.Places
import ServletContainer.Proofs.Exchange.Effects

namespace ServletContainer

/-!
# The invocations within a dispatch

A run is a function of the code. Here it is taken apart: the points that a component comes to, and the components
that run because of it. This covers runs that never end as well.

* `Point.Step` — from one point of a component to the next; what it waits for has come to its end.
* `Invocation`, `Invocation.Leads` — a component that is about to run, and the ones that it leads to: the next one of
  its chain, and the first one of the chain in front of a target.
* `Steady.comesTo` — a steady relation holds between the start of a component and all points that it comes to.
* `Invocation.IsTold.leadsTo` — each component is told its place.
* `Invocation.tells_run` — the components that the journal tells of are among them.
-/

/-! ### Points of a component -/

/-- What is left of the `code` of a component and the `rest` of its chain, and the exchange. -/
structure Point where
  code : Program
  rest : Option Rest
  exchange : Exchange

namespace Point

/-- Runs the component at `c` to its end. -/
def run (dispatch : Dispatcher) (c : Point) : Run := c.code.run dispatch c.rest c.exchange

/-- One step of a component, by its code: a call, a dispatch, a question for the chain or its continuation. -/
inductive Step (dispatch : Dispatcher) : Point → Point → Prop
  | call {op : Op} {k rest x p} : op.perform x = some p → Step dispatch ⟨.call op k, rest, x⟩ ⟨k p.1, rest, p.2⟩
  | jump {j path k rest x p} :
    dispatch j path x = some p → Step dispatch ⟨.jump j path k, rest, x⟩ ⟨k p.1, rest, p.2⟩
  | remaining {k rest x} : Step dispatch ⟨.remaining k, rest, x⟩ ⟨k (rest.map Rest.remaining), rest, x⟩
  | alone {k x} : Step dispatch ⟨.proceed k, none, x⟩ ⟨k none, none, x⟩
  | proceed {k r x p} : r.go x = some p → Step dispatch ⟨.proceed k, some r, x⟩ ⟨k (some p.1), none, p.2⟩

/-- `run` takes a `Step` first, so it comes to the same from the point behind it. -/
theorem Step.run_eq {dispatch : Dispatcher} {c c' : Point} (h : Step dispatch c c') :
    c.run dispatch = c'.run dispatch := by
  cases h with
  | call hp | jump hp | proceed hp => simp [Point.run, Program.run, hp]
  | remaining | alone => rfl

end Point

/-! ### Invocations -/

/-- A filter or servlet that is about to run. -/
structure Invocation where
  place : Place
  /-- The number of dispatches that may still be nested in it. -/
  depth : Nat
  servlet : Servlet
  /-- The filters that are left in front of the servlet. The first of them is the one that is about to run. -/
  filters : List Filter
  exchange : Exchange

namespace Invocation

variable (app : Application) (i : Invocation)

/-- The filter or servlet that `i` invokes. -/
def component : ComponentRef :=
  match i.filters with
  | [] => ⟨.servlet, i.servlet.name⟩
  | f :: _ => ⟨.filter, f.name⟩

/-- What the forwards and includes of `i` do. -/
def dispatcher : Dispatcher := dispatchWith (invoke app i.depth) app

/-- The point that `i` starts at. -/
def start : Point :=
  let x := i.exchange.log (.entered i.component i.exchange.snapshot)
  match i.filters with
  | [] => ⟨i.servlet.component.service, none, x⟩
  | f :: fs => ⟨f.component.service, some ⟨fs.length, runChain (i.dispatcher app) i.servlet fs⟩, x⟩

/-- Runs `i`, and with it the chain that it starts. -/
def run : Run := runChain (i.dispatcher app) i.servlet i.filters i.exchange

/-- Whether the component of `i` comes to the point `c`. -/
def ComesTo (c : Point) : Prop := Relation.ReflTransGen (Point.Step (i.dispatcher app)) (i.start app) c

/-- The first component of the chain in front of `servlet`, in `place`. -/
def first (place : Place) (depth : Nat) (servlet : Servlet) (x : Exchange) : Invocation :=
  let filters := app.filtersFor place.target.path place.target.servletName place.kind
  ⟨place, depth, servlet, filters, x.enter place.target.servletName place.kind filters.length⟩

/-- Whether an invocation leads to another at once: to the next of its chain, or to the first of a dispatch that it
makes. -/
inductive Leads : Invocation → Prop
  /-- It continues its chain. -/
  | proceed {f fs k r x} : i.filters = f :: fs → i.ComesTo app ⟨.proceed k, some r, x⟩ →
    Leads { i with filters := fs, exchange := x }
  /-- It forwards to a target or includes it. -/
  | jump {depth j location k rest x target servlet} : i.depth = depth + 1 →
    i.ComesTo app ⟨.jump j location k, rest, x⟩ → j.Enters app location x target →
    app.servlet? target.servletName = some servlet →
    Leads (first app (i.place.within j (Request.splitTarget location).1 (Request.splitTarget location).2 target) depth
      servlet (j.into app location target x))

/-- Whether an invocation leads to another in the end, by any number of `Leads`. -/
def LeadsTo : Invocation → Invocation → Prop := Relation.ReflTransGen (Leads app)

variable {app i}

/-- `run` logs the component as `.entered`, runs its code from `start`, and logs it as `.left` with the result. -/
theorem run_eq : i.run app = ((i.start app).run (i.dispatcher app)).map fun (result, y) =>
    (result, y.log (.left i.component result)) := by
  obtain ⟨place, depth, servlet, filters, x⟩ := i
  cases filters <;> rfl

/-- At `start` the journal has the `.entered` of the component, with the snapshot of `i.exchange`. -/
theorem exchange_start : (i.start app).exchange = i.exchange.log (.entered i.component i.exchange.snapshot) := by
  unfold start
  dsimp only
  split <;> rfl

/-- Where `servlet?` finds a servlet (`hs`), `invoke` is the `run` of `first`, and `backIn` behind it. -/
theorem invoke_eq {place : Place} {depth : Nat} {servlet : Servlet}
    (hs : app.servlet? place.target.servletName = some servlet) (x : Exchange) :
    invoke app (depth + 1) place.target place.kind x
      = ((first app place depth servlet x).run app).map fun (result, y) => (result, y.backIn x) :=
  invokeWith_eq (dispatchWith (invoke app depth) app) hs place.kind x

/-- Where it finds none, `invoke` fails with 404 and nothing has run. -/
theorem invoke_eq_of_none {place : Place} {depth : Nat} (hs : app.servlet? place.target.servletName = none)
    (x : Exchange) : invoke app (depth + 1) place.target place.kind x = some (.error (.ofStatus 404), x) := by
  show invokeWith _ app place.target place.kind x = _
  unfold invokeWith
  rw [hs]

/-- As long as there is a chain to continue, it is that of the filters behind the first, since no `Step` but `proceed`
uses `rest` up, and none puts another there. -/
theorem rest_of_comesTo {c : Point} (h : i.ComesTo app c) {r : Rest} (hr : c.rest = some r) :
    ∃ f fs, i.filters = f :: fs ∧ r.go = runChain (i.dispatcher app) i.servlet fs := by
  induction h with
  | refl =>
    unfold start at hr
    dsimp only at hr
    split at hr
    · cases hr
    · next f fs hfilters =>
      obtain rfl := Option.some.inj hr
      exact ⟨f, fs, hfilters, rfl⟩
  | tail _ hstep ih =>
    -- A step keeps `rest`, or uses it up.
    cases hstep with
    | call | jump | remaining => exact ih hr
    | alone | proceed => cases hr

/-- What an invocation `Leads` to has fewer dispatches nested in it (`jump`), or as many and fewer filters in front
(`proceed`). -/
theorem Leads.lt {i' : Invocation} (h : Leads app i i') :
    Prod.Lex (· < ·) (· < ·) (i'.depth, i'.filters.length) (i.depth, i.filters.length) := by
  cases h with
  | proceed hfilters _ =>
    rw [hfilters]
    exact .right _ (Nat.lt_succ_self _)
  | jump hdepth _ _ _ =>
    rw [hdepth]
    exact .left _ _ (Nat.lt_succ_self _)

end Invocation

/-! ### Calls of a chain -/

/-- Whether every `Op` that is still to come in the chain of `i` is `allowed`. -/
structure Invocation.Uses (allowed : Op → Prop) (i : Invocation) : Prop where
  servlet : i.servlet.component.service.Uses allowed
  filters : ∀ f ∈ i.filters, f.component.service.Uses allowed

section Uses

variable {app : Application} {allowed : Op → Prop} {R : Exchange → Exchange → Prop} {i i' : Invocation}

/-- Every invocation `Uses` calls of which nothing is asked. -/
theorem Invocation.uses_true (i : Invocation) : i.Uses fun _ => True :=
  ⟨i.servlet.component.service.uses_true, fun f _ => f.component.service.uses_true⟩

/-- The chain of an application makes the calls that its components make. -/
theorem Invocation.Uses.first (ha : app.Uses allowed) {place : Place} {depth : Nat} {servlet : Servlet} {x : Exchange}
    (hs : app.servlet? place.target.servletName = some servlet) :
    (Invocation.first app place depth servlet x).Uses allowed where
  servlet := ha.servlets servlet (List.mem_of_find?_eq_some hs)
  filters f hf := ha.filters f (List.mem_filter.1 hf).1

/-- So does what it `Leads` to: its own rest, or the chain of another target. -/
theorem Invocation.Uses.leads (ha : app.Uses allowed) (hi : i.Uses allowed) (hlead : Leads app i i') :
    i'.Uses allowed := by
  cases hlead with
  | proceed hfilters _ =>
    refine ⟨hi.servlet, fun f hf => hi.filters f ?_⟩
    rw [hfilters]
    exact List.mem_cons_of_mem _ hf
  | jump _ _ _ hs => exact .first ha hs

/-- And what it `LeadsTo`, by induction on the way there. -/
theorem Invocation.Uses.leadsTo (ha : app.Uses allowed) (hi : i.Uses allowed) (hlead : LeadsTo app i i') :
    i'.Uses allowed := by
  induction hlead with
  | refl => exact hi
  | tail _ hlast ih => exact ih.leads ha hlast

/-- The code that is left at a point makes no other calls than the component that has come there. -/
theorem Invocation.Uses.comesTo (hi : i.Uses allowed) {c : Point} (hc : i.ComesTo app c) : c.code.Uses allowed := by
  induction hc with
  | refl =>
    unfold Invocation.start
    dsimp only
    split
    · exact hi.servlet
    · next f fs hfilters => exact hi.filters f (hfilters ▸ List.mem_cons_self)
  | tail _ hstep ih =>
    -- The code behind a step was part of the code before it, so `ih` covers its calls.
    cases hstep with
    | call => exact ih.2 _
    | jump | remaining | alone | proceed => exact ih _

variable (h : Steady allowed (fun _ => True) R)

include h

/-- What is `Steady` is kept by the forwards and includes of an invocation. -/
theorem Steady.carries_dispatcher (ha : app.Uses allowed) (i : Invocation) (j : Jump) (path : String) :
    Carries R (i.dispatcher app j path) :=
  h.dispatchWith (fun target _ _ => h.invoke ha i.depth target trivial) app j path

/-- And by the rest of its chain, as long as there is one to continue. -/
theorem Steady.carries_rest (ha : app.Uses allowed) (hi : i.Uses allowed) {c : Point} (hc : i.ComesTo app c)
    {r : Rest} (hr : c.rest = some r) : Carries R r.go := by
  obtain ⟨f, fs, hfilters, hgo⟩ := Invocation.rest_of_comesTo hc hr
  rw [hgo]
  exact h.runChain (h.carries_dispatcher ha i) hi.servlet fun f' hf' =>
    hi.filters f' (hfilters ▸ List.mem_cons_of_mem f hf')

/-- So it holds between the exchange in which a component starts and that of every point it `ComesTo`, by induction on
the steps. -/
theorem Steady.comesTo (ha : app.Uses allowed) (hi : i.Uses allowed) {c : Point} (hc : i.ComesTo app c) :
    R i.exchange c.exchange := by
  induction hc with
  | refl =>
    rw [Invocation.exchange_start]
    exact h.entered _ _ _
  | tail hbefore hstep ih =>
    refine h.trans ih ?_
    cases hstep with
    | call hp => exact h.perform (hi.comesTo hbefore).1 hp
    | jump hp => exact h.carries_dispatcher ha i _ _ hp
    | remaining | alone => exact h.refl _
    | proceed hp => exact h.carries_rest ha hi hbefore rfl hp

end Uses

/-! ### What a component is told -/

/-- Whether a component that runs in `place` and sees `view` is told so. -/
structure Place.Describes (app : Application) (place : Place) (view : Snapshot) : Prop where
  shown : place.IsShownIn app view.request
  dispatcher : view.dispatcher = place.kind
  servletName : view.servletName = some place.target.servletName

section Told

variable {app : Application} {place : Place}

/-- What keeps `SameFrame` and `SameMarks` leaves the component described by its place. -/
theorem Place.Describes.of_same {x y : Exchange} (h : place.Describes app x.snapshot) (hf : SameFrame x y)
    (hm : SameMarks x y) : place.Describes app y.snapshot where
  shown := h.shown.congr hf.paths (hm h.shown.isCoherent)
  dispatcher := hf.dispatcher.trans h.dispatcher
  servletName := hf.servletName.trans h.servletName

/-- Whether `c` is a point of a component that `place` describes, of code that spares `dispatchAttributes`. -/
structure Point.StandsIn (app : Application) (place : Place) (c : Point) : Prop where
  uses : c.code.Uses (Op.Spares dispatchAttributes)
  rest : ∀ r ∈ c.rest, Carries SameFrame r.go ∧ Carries SameMarks r.go
  told : place.Describes app c.exchange.snapshot

/-- Whether `i` is an invocation of components of `app` that `i.place` describes. -/
structure Invocation.IsTold (app : Application) (i : Invocation) : Prop where
  servlet : i.servlet ∈ app.servlets
  filters : ∀ f ∈ i.filters, f ∈ app.filters
  told : i.place.Describes app i.exchange.snapshot

namespace Invocation

variable {i i' : Invocation}

section Uses

variable (ha : app.Uses (Op.Spares dispatchAttributes))

include ha

/-- What `IsTold` consists of components of the application, so it makes no calls but theirs (`ha`). -/
theorem IsTold.uses (h : i.IsTold app) : i.Uses (Op.Spares dispatchAttributes) :=
  ⟨ha.servlets _ h.servlet, fun f hf => ha.filters f (h.filters f hf)⟩

/-- A component that `IsTold` its place stands in it at every point that it `ComesTo`. -/
theorem IsTold.comesTo (h : i.IsTold app) {c : Point} (hc : i.ComesTo app c) : c.StandsIn app i.place := by
  have huses := h.uses ha
  have hframe := steady_sameFrame.comesTo app.uses_true i.uses_true hc
  have hmarks := steady_sameMarks.comesTo ha huses hc
  refine ⟨huses.comesTo hc, fun r hr => ⟨?_, ?_⟩, h.told.of_same hframe hmarks⟩
  · exact steady_sameFrame.carries_rest app.uses_true i.uses_true hc hr
  · exact steady_sameMarks.carries_rest ha huses hc hr

omit ha in
/-- The first component of a chain `IsTold` the place if the request shows it (`hx`), since `enter` sets kind and name.
-/
theorem IsTold.first {place : Place} {depth : Nat} {servlet : Servlet} {x : Exchange}
    (hs : app.servlet? place.target.servletName = some servlet) (hx : place.IsShownIn app x.request) :
    (Invocation.first app place depth servlet x).IsTold app where
  servlet := List.mem_of_find?_eq_some hs
  filters _ hf := (List.mem_filter.1 hf).1
  told := ⟨hx, rfl, rfl⟩

/-- What it `Leads` to `IsTold`: the rest of a chain its place, and a target the place that `Jump.into` has put into the
request. -/
theorem IsTold.leads (h : i.IsTold app) (hlead : Leads app i i') : i'.IsTold app := by
  cases hlead with
  | proceed hfilters hpoint =>
    refine ⟨h.servlet, fun f hf => h.filters f ?_, (h.comesTo ha hpoint).told⟩
    rw [hfilters]
    exact List.mem_cons_of_mem _ hf
  | @jump _ j _ _ _ _ _ _ _ hpoint hentered hs =>
    have hplace := (h.comesTo ha hpoint).told.shown
    refine .first hs ?_
    cases j with
    | forward => exact hplace.forward
    | inclusion => exact hplace.inclusion

/-- So is what it `LeadsTo`, by induction on the way there. -/
theorem IsTold.leadsTo (h : i.IsTold app) (hlead : LeadsTo app i i') : i'.IsTold app := by
  induction hlead with
  | refl => exact h
  | tail _ hlast ih => exact ih.leads ha hlast

end Uses

end Invocation

end Told

/-! ### What the journal tells -/

/-- Whether the journal of `y` goes on from that of `x`, and tells of no component that starts to run but those that are
`known`. -/
def Tells (known : ComponentRef → Snapshot → Prop) (x y : Exchange) : Prop :=
  ∃ events, y.journal = x.journal ++ events ∧ ∀ ref view, .entered ref view ∈ events → known ref view

namespace Tells

variable {known : ComponentRef → Snapshot → Prop} {x y z : Exchange}

theorem of_journal (h : y.journal = x.journal) : Tells known x y := ⟨[], by simp [h], by simp⟩

/-- `Tells` composes, as events are appended. -/
theorem trans (h : Tells known x y) (h' : Tells known y z) : Tells known x z := by
  obtain ⟨events, hy, hevents⟩ := h
  obtain ⟨events', hz, hevents'⟩ := h'
  refine ⟨events ++ events', by rw [hz, hy, List.append_assoc], fun ref view hmem => ?_⟩
  rcases List.mem_append.1 hmem with hmem | hmem
  · exact hevents ref view hmem
  · exact hevents' ref view hmem

/-- `Tells` is monotone in the components that are `known`. -/
theorem mono {known' : ComponentRef → Snapshot → Prop} (h : Tells known x y)
    (hle : ∀ ref view, known ref view → known' ref view) : Tells known' x y := by
  obtain ⟨events, hy, hevents⟩ := h
  exact ⟨events, hy, fun ref view hmem => hle ref view (hevents ref view hmem)⟩

/-- To log any other event than `.entered` tells of no component. -/
theorem log (x : Exchange) {e : Event} (he : ∀ ref view, e = .entered ref view → known ref view) :
    Tells known x (x.log e) := by
  refine ⟨[e], rfl, fun ref view hmem => he ref view ?_⟩
  exact (List.mem_singleton.1 hmem).symm

/-- Calls log notes only, so they tell of no component. -/
theorem perform {op : Op} {p : op.Reply × Exchange} (h : op.perform x = some p) : Tells known x p.2 := by
  rcases (Op.effect h).journal with hsame | ⟨n, hnote⟩
  · exact .of_journal hsame
  · exact ⟨[.noted n], hnote, by simp⟩

end Tells

/-- So what comes `ByCalls` tells of none. -/
theorem ByCalls.tells {known : ComponentRef → Snapshot → Prop} {x y : Exchange} (h : ByCalls x y) : Tells known x y := by
  induction h with
  | start => exact .of_journal rfl
  | call op _ hp ih => exact ih.trans (.perform hp)
  | principal caller _ ih => exact ih.trans (.of_journal rfl)

namespace Invocation

variable {app : Application} {i i' : Invocation}

/-- Whether `i` leads to `ref` invoked with `view`. -/
def LeadsToView (app : Application) (i : Invocation) (ref : ComponentRef) (view : Snapshot) : Prop :=
  ∃ i', LeadsTo app i i' ∧ i'.component = ref ∧ i'.exchange.snapshot = view

/-- What `i'` leads to, an `i` that `Leads` to it does as well. -/
theorem LeadsToView.of_leads (hlead : Leads app i i') {ref : ComponentRef} {view : Snapshot}
    (h : i'.LeadsToView app ref view) : i.LeadsToView app ref view := by
  obtain ⟨i'', hleads, hview⟩ := h
  exact ⟨i'', .head hlead hleads, hview⟩

/-- `invoke` tells of what the `run` of `first` tells of (`hrun`), where there is a servlet; otherwise of nothing. -/
theorem tells_invoke {known : ComponentRef → Snapshot → Prop} {place : Place} {depth : Nat} {x : Exchange}
    (hrun : ∀ n servlet, depth = n + 1 → app.servlet? place.target.servletName = some servlet →
      ∀ q, (first app place n servlet x).run app = some q → Tells known (first app place n servlet x).exchange q.2)
    {p : Outcome × Exchange} (hp : invoke app depth place.target place.kind x = some p) : Tells known x p.2 := by
  cases depth with
  | zero => cases hp
  | succ n =>
    cases hs : app.servlet? place.target.servletName with
    | none =>
      obtain rfl := Option.some.inj ((invoke_eq_of_none hs _).symm.trans hp)
      exact .of_journal rfl
    | some servlet =>
      obtain ⟨q, hq, rfl⟩ := Option.map_eq_some_iff.1 ((invoke_eq hs _).symm.trans hp)
      exact (Tells.log _ (by simp)).trans (hrun n servlet rfl hs q hq)

section Point

-- `ih`: what is told of every invocation that `i` leads to at once.
variable (ih : ∀ i', Leads app i i' → ∀ p, i'.run app = some p → Tells (i'.LeadsToView app) i'.exchange p.2)

include ih

/-- A forward or an include that `i` comes to tells of what its target leads to. -/
theorem tells_jump {j : Jump} {location : String} {k : Outcome → Program} {rest : Option Rest} {x : Exchange}
    (hc : i.ComesTo app ⟨.jump j location k, rest, x⟩) {p : Outcome × Exchange}
    (hp : i.dispatcher app j location x = some p) : Tells (i.LeadsToView app) x p.2 := by
  unfold dispatcher at hp
  rcases dispatchWith_cases app location x j with ⟨e, y, hy, heq⟩ | ⟨target, hentered, heq⟩
  · rw [heq] at hp
    obtain rfl := Option.some.inj hp
    rcases hy with rfl | rfl <;> exact .of_journal rfl
  · rw [heq] at hp
    obtain ⟨q, hq, rfl⟩ := Option.map_eq_some_iff.1 hp
    have hinto : (j.into app location target x).journal = x.journal := Jump.view_into (fun _ _ _ => rfl) j
    have hout : (j.outOf x q.2).journal = q.2.journal := Jump.view_outOf (fun _ _ _ => rfl) j
    refine (Tells.of_journal hinto).trans (.trans ?_ (.of_journal hout))
    -- What is invoked stands in the place within that of `i`, so `i` leads to the first component there.
    let place := i.place.within j (Request.splitTarget location).1 (Request.splitTarget location).2 target
    change invoke app i.depth place.target place.kind (j.into app location target x) = some q at hq
    refine tells_invoke (fun depth servlet hdepth hs q' hq' => ?_) hq
    have hlead : Leads app i (first app place depth servlet (j.into app location target x)) :=
      .jump hdepth hc hentered hs
    exact (ih _ hlead q' hq').mono fun _ _ => LeadsToView.of_leads hlead

/-- From a point that `i` `ComesTo`, the code that is left tells of what `i` leads to, by induction on that code. -/
theorem tells_point {code : Program} {rest : Option Rest} {x : Exchange} (hc : i.ComesTo app ⟨code, rest, x⟩)
    {p : Outcome × Exchange} (hp : code.run (i.dispatcher app) rest x = some p) :
    Tells (i.LeadsToView app) x p.2 := by
  induction code generalizing rest x with
  | done result =>
    obtain rfl := Option.some.inj hp
    exact .of_journal rfl
  | call op k ihk =>
    obtain ⟨q, hq, hp⟩ := Option.bind_eq_some_iff.1 hp
    exact (Tells.perform hq).trans (ihk q.1 (hc.tail (.call hq)) hp)
  | jump j location k ihk =>
    obtain ⟨q, hq, hp⟩ := Option.bind_eq_some_iff.1 hp
    exact (tells_jump ih hc hq).trans (ihk q.1 (hc.tail (.jump hq)) hp)
  | remaining k ihk => exact ihk _ (hc.tail .remaining) hp
  | proceed k ihk =>
    cases rest with
    | none => exact ihk none (hc.tail .alone) hp
    | some r =>
      obtain ⟨q, hq, hp⟩ := Option.bind_eq_some_iff.1 hp
      obtain ⟨f, fs, hfilters, hgo⟩ := rest_of_comesTo hc rfl
      have hlead : Leads app i { i with filters := fs, exchange := x } := .proceed hfilters hc
      -- By `hgo` the rest of the chain is the run of its next component.
      rw [hgo] at hq
      have hrun := (ih _ hlead q hq).mono fun _ _ => LeadsToView.of_leads hlead
      exact hrun.trans (ihk (some q.1) (hc.tail (.proceed (by rw [hgo]; exact hq))) hp)

end Point

/-- Every `.entered` that the journal gets in the run of `i` is of a component that `i` `LeadsTo`, with the snapshot of
the exchange in which it is invoked. The induction is on `Leads.lt`. -/
theorem tells_run (i : Invocation) {p : Outcome × Exchange} (h : i.run app = some p) :
    Tells (i.LeadsToView app) i.exchange p.2 := by
  rw [run_eq] at h
  obtain ⟨q, hq, rfl⟩ := Option.map_eq_some_iff.1 h
  have hentered : Tells (i.LeadsToView app) i.exchange (i.start app).exchange := by
    rw [exchange_start]
    refine .log _ ?_
    rintro ref view heq
    obtain ⟨rfl, rfl⟩ := Event.entered.inj heq
    exact ⟨i, .refl, rfl, rfl⟩
  have hrest : Tells (i.LeadsToView app) (i.start app).exchange q.2 :=
    tells_point (fun i' _ p' hp' => tells_run i' hp') .refl hq
  exact hentered.trans (hrest.trans (.log _ (by simp)))
termination_by (i.depth, i.filters.length)
decreasing_by exact Leads.lt ‹_›

end Invocation

end ServletContainer
