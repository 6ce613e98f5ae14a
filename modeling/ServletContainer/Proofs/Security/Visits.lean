import ServletContainer.Proofs.Dispatch.Sessions
import ServletContainer.Proofs.Host.Calls
import ServletContainer.Proofs.Security.Course

namespace ServletContainer

/-!
# Visits to a host

A host serves requests one after another, and time passes between them. For the sessions of an application that is a
course of turns: the guard is asked about each of its requests, and whatever else happens names no caller, provided
that its code does not.

* `BasicAuth.course_of_serveWithin`, `Host.course_of_serve` — a request of the application itself.
* `Host.drains_serveExchange` — a request of another one: time may pass, and ids may be drawn.
* `Host.Visit`, `Host.visits`, `Host.course_of_visits` — requests and time, one after another.
-/

open SessionStore (Call)

/-! ### One request -/

/-- Whether `op` leaves the attribute `name` of sessions alone, or removes it at most. -/
def Op.SparesSession (name : String) (op : Op) : Prop := ∀ id v, op ≠ .setSessionAttribute id name v

namespace BasicAuth

variable {g : BasicAuth} {t u w : TimedStore}

/-- Whether `u` comes from `t` by calls of code that spare `principalAttribute`. -/
def ByCode (g : BasicAuth) (t u : TimedStore) : Prop :=
  ∃ calls : List Call, (∀ c ∈ calls, c.Spares principalAttribute) ∧ g.course t (calls.map .call) = some u

namespace ByCode

/-- No call at all is `ByCode`. -/
theorem refl (g : BasicAuth) (t : TimedStore) : ByCode g t t := ⟨[], by simp, rfl⟩

/-- Calls `ByCode` follow each other. -/
theorem trans (h : ByCode g t u) (h' : ByCode g u w) : ByCode g t w := by
  obtain ⟨calls, hspare, hcourse⟩ := h
  obtain ⟨calls', hspare', hcourse'⟩ := h'
  refine ⟨calls ++ calls', fun c hc => ?_, ?_⟩
  · exact (List.mem_append.1 hc).elim (hspare c) (hspare' c)
  · rw [List.map_append, course_append hcourse, hcourse']

/-- A call that names no caller (`hc`) is `ByCode`. -/
theorem call {c : Call} {r : SessionStore.Reply} (hc : c.Spares principalAttribute) (h : t.perform c = some (r, u)) :
    ByCode g t u := by
  refine ⟨[c], by simpa using hc, ?_⟩
  simp [course, take, h]

/-- So is an operation of code that names none (`hop`): its calls spare the attribute. -/
theorem perform {op : Op} {x : Exchange} {p : op.Reply × Exchange} (hop : op.SparesSession principalAttribute)
    (h : op.perform x = some p) : ByCode g x.timed p.2.timed := by
  refine (Op.steps_perform h).lift (R := fun x y => ByCode g x.timed y.timed) (fun x => refl g x.timed) trans ?_
  intro x y hstep
  cases hstep with
  | store c hmay hp => exact call (fun id v hc => hop id v (hmay id _ v hc)) hp
  | respond | bind | put | fields | input | defer | note => exact refl g _

end ByCode

/-- So what an application leaves of the sessions comes about `ByCode`, if its code names no caller (`ha`): `ByCode` is
kept as every `Lasting` relation is. -/
theorem lasting_byCode (g : BasicAuth) {app : Application} (ha : app.Uses (Op.SparesSession principalAttribute))
    (depth : Nat) : Lasting app depth (fun _ => True) fun x y => ByCode g x.timed y.timed :=
  lasting_timed ha depth (ByCode.refl g) ByCode.trans ByCode.perform fun t millis =>
    ByCode.call (c := .advance millis) (by simp [Call.Spares]) rfl

/-- To serve a request is to ask the guard (`hguard`), and then to call the sessions `ByCode`. -/
theorem course_of_serveWithin {app : Application} (hguard : app.guard = some g.guard)
    (ha : app.Uses (Op.SparesSession principalAttribute)) {limits : Limits} {timeout : Nat} {x y : Exchange}
    (h : serveWithin limits timeout app x = some y) :
    ∃ calls : List Call, (∀ c ∈ calls, c.Spares principalAttribute) ∧
      g.course x.timed (.check x :: calls.map .call) = some y.timed := by
  have hlasting := lasting_byCode g ha limits.depth
  obtain ⟨z, hz, hy⟩ := Option.bind_eq_some_iff.1 h
  have hsettle : ByCode g z.timed y.timed := hlasting.settle hy
  -- From `decision` on, nothing but code calls the sessions.
  obtain ⟨decision, v, hv, hrest⟩ : ∃ decision v, g.guard.check x = some (decision, v) ∧ ByCode g v.timed y.timed := by
    cases app.routes_of_routeWithin hz with
    | unguarded hnone _ => cases hguard.symm.trans hnone
    | denied hsome hv =>
      obtain rfl := Option.some.inj (hguard.symm.trans hsome)
      exact ⟨_, _, hv, hsettle⟩
    | allowed hsome hv hw =>
      obtain rfl := Option.some.inj (hguard.symm.trans hsome)
      exact ⟨_, _, hv, ByCode.trans (hlasting.dispatchRequest trivial hw) hsettle⟩
  obtain ⟨calls, hspare, hcourse⟩ := hrest
  refine ⟨calls, hspare, ?_⟩
  have htake : g.take x.timed (.check x) = some v.timed := by
    show (g.check? x).map _ = _
    rw [show g.check? x = some (decision, v) from hv]
    rfl
  show Option.bind (g.take x.timed (.check x)) _ = _
  rw [htake]
  exact hcourse

end BasicAuth

/-! ### Requests of other applications -/

/-- Whether from `t` to `u` time passes at most, and ids are drawn. -/
structure TimedStore.Drains (t u : TimedStore) : Prop where
  now : t.now ≤ u.now
  supply : u.supply <:+ t.supply

namespace TimedStore

variable {t u w : TimedStore}

theorem Drains.refl (t : TimedStore) : t.Drains t := ⟨Nat.le_refl _, List.suffix_rfl⟩

theorem Drains.trans (h : t.Drains u) (h' : u.Drains w) : t.Drains w :=
  ⟨h.now.trans h'.now, h'.supply.trans h.supply⟩

theorem drains_perform {c : Call} {r : SessionStore.Reply} (h : t.perform c = some (r, u)) : t.Drains u := by
  obtain ⟨drawn, hdraws⟩ := exists_draws_perform h
  exact ⟨now_le_perform h, drawn, hdraws.supply.symm⟩

/-- Calls in any number drain, by `lift`. -/
theorem Reaches.drains (h : t.Reaches u) : t.Drains u := h.lift .refl .trans drains_perform

/-- Sessions that stay as they are while time passes and ids are drawn have a course of their own, of waiting and of
draws by others. -/
theorem Drains.course (h : t.Drains u) (g : BasicAuth) :
    ∃ turns : List BasicAuth.Turn, (∀ turn ∈ turns, turn.IsModest ∧ ∀ x, turn ≠ .check x) ∧
      g.course t turns = some { u with store := t.store } := by
  refine ⟨[.call (.advance (u.now - t.now)), .elsewhere (t.supply.length - u.supply.length)], ?_, ?_⟩
  · simp [BasicAuth.Turn.IsModest, Call.Spares]
  · have hnow : t.now + (u.now - t.now) = u.now := Nat.add_sub_cancel' h.now
    have hsupply : t.supply.drop (t.supply.length - u.supply.length) = u.supply :=
      (List.suffix_iff_eq_drop.1 h.supply).symm
    simp [BasicAuth.course, BasicAuth.take, perform, hnow, hsupply]

end TimedStore

/-! ### Visits -/

namespace Host

variable {h h' : Host} {g : BasicAuth} {id : AppId} {d : Deployment}

/-- To serve an exchange `Drains` the clock and the blocks. -/
theorem drains_serveExchange (hguards : h.GuardsByCalls) {limits : Limits} {timeout : Nat} {x : Exchange}
    {served : Served} (hserved : h.serveExchange limits timeout x = some served) :
    x.now ≤ served.exchange.now ∧ served.exchange.supply <:+ x.supply := by
  rcases serveExchange_ways hserved with ⟨id, d, -, hd, hy⟩ | hanswers
  · have hdrains := (reaches_serveWithin (fun guard hguard => hguards hd hguard) hy).drains
    exact ⟨hdrains.now, hdrains.supply⟩
  · rw [hanswers.now, hanswers.supply]
    exact ⟨Nat.le_refl _, List.suffix_rfl⟩

/-- What happens to a `Host`. -/
inductive Visit where
  | request (limits : Limits) (timeout : Nat) (request : Request) (input : Option Source) (response : Response)
  /-- Time passes. -/
  | wait (millis : Nat)

/-- Whether the request of `x` came with a visit. -/
def Visit.Brings (x : Exchange) : Visit → Prop
  | .request _ _ r _ _ => x.request.head = r.head
  | .wait _ => False

/-- What a `Visit` leaves of `h`. -/
def visit (h : Host) : Visit → Option Host
  | .request limits timeout request input response => (h.serve limits timeout request input response).map Prod.snd
  | .wait millis => some (h.advance millis)

/-- What visits in order leave, by `visit`. -/
def visits : Host → List Visit → Option Host
  | h, [] => some h
  | h, v :: vs => (h.visit v).bind fun h => h.visits vs

/-- What a request makes of the sessions of the application that serves it (`happ`) is a course: to ask the guard about
it, if it gets as far, and then to call them by code. -/
theorem course_of_serve {limits : Limits} {timeout : Nat} {request : Request} {input : Option Source}
    {response : Response} {served : Served}
    (hserved : h.serve limits timeout request input response = some (served, h')) (happ : served.app = some id)
    (hd : h.deployment? id = some d) (hguard : d.app.guard = some g.guard)
    (ha : d.app.Uses (Op.SparesSession principalAttribute)) :
    ∃ sessions turns, h'.deployment? id = some { d with sessions } ∧
      (∀ turn ∈ turns, turn.IsModest ∧ ∀ x, turn = .check x → x.request.head = request.head) ∧
      g.course ⟨h.now, h.supply, d.sessions⟩ turns = some ⟨h'.now, h'.supply, sessions⟩ := by
  obtain ⟨served', hexchange, heq⟩ := Option.map_eq_some_iff.1 hserved
  obtain ⟨rfl, rfl⟩ := Prod.mk.inj heq
  obtain ⟨hnow, hsupply, -⟩ := h.settleExchange_spec served'
  rw [hnow, hsupply]
  have hafter := deployment?_settleExchange happ hd
  -- `serveExchange_ways`: the request enters the application, and its turns are the check and the calls; or it is
  -- answered without.
  rcases serveExchange_ways hexchange with ⟨id', d', happ', hd', hserve⟩ | hanswers
  · obtain rfl := Option.some.inj (happ.symm.trans happ')
    obtain rfl := Option.some.inj (hd.symm.trans hd')
    obtain ⟨calls, hspare, hcourse⟩ := BasicAuth.course_of_serveWithin hguard ha hserve
    refine ⟨_, _, hafter, fun turn hturn => ?_, hcourse⟩
    rcases List.mem_cons.1 hturn with rfl | hcall
    · refine ⟨trivial, fun x hx => ?_⟩
      obtain rfl := BasicAuth.Turn.check.inj hx
      rfl
    · obtain ⟨c, hc, rfl⟩ := List.mem_map.1 hcall
      exact ⟨hspare c hc, fun x hx => by cases hx⟩
  · refine ⟨_, [], hafter, by simp, ?_⟩
    rw [hanswers.now, hanswers.supply, hanswers.sessions id d happ hd]
    rfl

/-- So a visit is a course of turns for the sessions of every application, whether it serves the request or not. -/
theorem course_of_visit (hguards : h.GuardsByCalls) (hd : h.deployment? id = some d) (hguard : d.app.guard = some g.guard)
    (ha : d.app.Uses (Op.SparesSession principalAttribute)) {v : Visit} (hv : h.visit v = some h') :
    ∃ sessions turns, h'.deployment? id = some { d with sessions } ∧
      (∀ turn ∈ turns, turn.IsModest ∧ ∀ x, turn = .check x → v.Brings x) ∧
      g.course ⟨h.now, h.supply, d.sessions⟩ turns = some ⟨h'.now, h'.supply, sessions⟩ := by
  -- Where the application `id` does not serve a request, its sessions stay as they are.
  have hother (hdrains : h.now ≤ h'.now ∧ h'.supply <:+ h.supply) (hsame : h'.deployment? id = h.deployment? id) :
      ∃ sessions turns, h'.deployment? id = some { d with sessions } ∧
        (∀ turn ∈ turns, turn.IsModest ∧ ∀ x, turn = .check x → v.Brings x) ∧
        g.course ⟨h.now, h.supply, d.sessions⟩ turns = some ⟨h'.now, h'.supply, sessions⟩ := by
    have hdrains' : TimedStore.Drains ⟨h.now, h.supply, d.sessions⟩ ⟨h'.now, h'.supply, d.sessions⟩ :=
      ⟨hdrains.1, hdrains.2⟩
    obtain ⟨turns, hturns, hcourse⟩ := hdrains'.course g
    exact ⟨d.sessions, turns, hsame.trans hd,
      fun turn hturn => ⟨(hturns turn hturn).1, fun x hx => absurd hx ((hturns turn hturn).2 x)⟩, hcourse⟩
  cases v with
  | wait millis =>
    obtain rfl := Option.some.inj hv
    exact hother ⟨Nat.le_add_right _ _, List.suffix_rfl⟩ rfl
  | request limits timeout request input response =>
    obtain ⟨⟨served, host⟩, hserved, rfl⟩ := Option.map_eq_some_iff.1 hv
    by_cases happ : served.app = some id
    · exact course_of_serve hserved happ hd hguard ha
    · obtain ⟨served', hexchange, heq⟩ := Option.map_eq_some_iff.1 hserved
      obtain ⟨rfl, rfl⟩ := Prod.mk.inj heq
      obtain ⟨hnow, hsupply, -⟩ := h.settleExchange_spec served'
      refine hother ?_ (deployment?_settleExchange_of_ne happ)
      rw [hnow, hsupply]
      exact drains_serveExchange hguards hexchange

/-- No visit changes the applications, nor thus their guards. -/
theorem GuardsByCalls.visit (hguards : h.GuardsByCalls) {v : Visit} (hv : h.visit v = some h') : h'.GuardsByCalls := by
  cases v with
  | wait millis =>
    obtain rfl := Option.some.inj hv
    exact hguards
  | request limits timeout request input response =>
    obtain ⟨⟨served, host⟩, hserved, rfl⟩ := Option.map_eq_some_iff.1 hv
    obtain ⟨served', -, heq⟩ := Option.map_eq_some_iff.1 hserved
    obtain ⟨rfl, rfl⟩ := Prod.mk.inj heq
    exact hguards.settleExchange served'

/-- Visits one after another are a course of turns for the sessions of every application, by induction on the visits. -/
theorem course_of_visits (hguards : h.GuardsByCalls) (hd : h.deployment? id = some d)
    (hguard : d.app.guard = some g.guard) (ha : d.app.Uses (Op.SparesSession principalAttribute)) {vs : List Visit}
    (hvs : h.visits vs = some h') :
    ∃ sessions turns, h'.deployment? id = some { d with sessions } ∧
      (∀ turn ∈ turns, turn.IsModest ∧ ∀ x, turn = .check x → ∃ v ∈ vs, v.Brings x) ∧
      g.course ⟨h.now, h.supply, d.sessions⟩ turns = some ⟨h'.now, h'.supply, sessions⟩ := by
  induction vs generalizing h d with
  | nil =>
    obtain rfl := Option.some.inj hvs
    exact ⟨d.sessions, [], hd, by simp, rfl⟩
  | cons v vs ih =>
    obtain ⟨host, hv, hrest⟩ := Option.bind_eq_some_iff.1 hvs
    obtain ⟨sessions, turns, hhost, hturns, hcourse⟩ := course_of_visit hguards hd hguard ha hv
    obtain ⟨sessions', turns', hafter, hturns', hcourse'⟩ := ih (hguards.visit hv) hhost hguard ha hrest
    refine ⟨sessions', turns ++ turns', hafter, fun turn hturn => ?_, ?_⟩
    · -- `turn` is one of the first visit's or of the others'.
      rcases List.mem_append.1 hturn with hturn | hturn
      · obtain ⟨hmodest, hbrings⟩ := hturns turn hturn
        exact ⟨hmodest, fun x hx => ⟨v, List.mem_cons_self, hbrings x hx⟩⟩
      · obtain ⟨hmodest, hbrings⟩ := hturns' turn hturn
        refine ⟨hmodest, fun x hx => ?_⟩
        obtain ⟨v', hmem, hv'⟩ := hbrings x hx
        exact ⟨v', List.mem_cons_of_mem _ hmem, hv'⟩
    · rw [BasicAuth.course_append hcourse, hcourse']

end Host

end ServletContainer
