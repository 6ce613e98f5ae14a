import ServletContainer.Proofs.Dispatch.Sessions
import ServletContainer.Proofs.Host.Routed
import ServletContainer.Proofs.Security.Login

namespace ServletContainer

/-!
# Ids that are issued

The applications of a host draw ids from one supply, each for its own sessions. A client may ask for a session under
any id that it likes, but none is adopted.

* `Exchange.Starts`, `Exchange.FindsNone.starts` — where a client asks for a session that is not there, one is
  started under an id that is drawn.
* `Host.Issues` — the hosts that come about, with the ids that were drawn for each application on the way.
* `Host.IsKept`, `Host.Issues.forall_deployment` — what is kept by all that may happen to an application holds of each.
* `Host.holds_issued_only` — the sessions of an application have ids that were drawn for it, and requests to others
  leave them alone.
-/

/-! ### Starting a session -/

/-- `create?` returns if the supply has a block whose id is not held. -/
theorem SessionStore.isSome_create? {s : SessionStore} {supply : List Block} (h : ∃ b ∈ supply, ¬ s.Holds b.id)
    (now : Nat) : (s.create? now supply).isSome := by
  obtain ⟨b, hb, hfree⟩ := h
  rw [create?, insertFresh?, Option.isSome_map]
  exact isSome_freshId? ⟨b, hb, not_not.1 hfree⟩

namespace Exchange

variable {x y : Exchange}

/-- Whether there is no live session that `x` may look for. -/
def FindsNone (x : Exchange) : Prop := ∀ id, x.Knows id → x.timed.resolve? id = none

/-- Whether a session is started from `x` to `y`, under the id of the block `b` that is drawn for it. -/
structure Starts (x : Exchange) (b : Block) (y : Exchange) : Prop where
  drawn : ∃ passed, x.supply = passed ++ b :: y.supply
  bound : y.sessionId = some b.id
  unused : x.timed.resolve? b.id = none
  started : y.sessions.sessions.get? b.id = some (.start x.now x.sessions.config.timeoutMillis?)
  others : ∀ id ≠ b.id, y.sessions.Holds id → x.sessions.Holds id

/-- An exchange that `FindsNone` has no current session. -/
theorem FindsNone.currentSession_fst (h : x.FindsNone) : x.currentSession.1 = none := by
  obtain ⟨-, -, hfound, -⟩ := x.currentSession_spec
  refine Option.eq_none_iff_forall_ne_some.2 fun id hid => ?_
  obtain ⟨hknown, -, hlive⟩ := hfound id hid
  rw [SessionStore.find, SessionStore.change_fst] at hlive
  have hnone : (x.sessions.access x.now id).1 = none := h id hknown
  rw [hnone] at hlive
  cases hlive

/-- So `session? true` returns if there is a block whose id is free: it finds a session, or can start one. -/
theorem isSome_session?_true (h : ∃ b ∈ x.supply, ¬ x.sessions.Holds b.id) : (x.session? true).isSome := by
  have hlooked := x.looked_currentSession
  unfold session?
  split
  · rfl
  · next y hy =>
    rw [hy] at hlooked
    obtain ⟨b, hb, hfree⟩ := h
    have hsupply : y.supply = x.supply := hlooked.supply
    have hstill : ¬ y.sessions.Holds b.id := not_not.2 (hlooked.free b.id (not_not.1 hfree))
    rw [if_pos rfl, Option.isSome_map]
    exact SessionStore.isSome_create? ⟨b, hsupply ▸ hb, hstill⟩ _

/-- Where an exchange `FindsNone`, `session? true` `Starts` a session, under the id of a block that it draws. -/
theorem FindsNone.starts (hnone : x.FindsNone) {found : Option SessionId}
    (h : x.session? true = some (found, y)) : ∃ b, found = some b.id ∧ x.Starts b y := by
  have hfst := hnone.currentSession_fst
  have hlooked := x.looked_currentSession
  obtain ⟨hnarrow, -⟩ := x.currentSession_spec
  unfold session? at h
  split at h
  · next hx =>
    rw [hx] at hfst
    cases hfst
  · next w hx =>
    rw [hx] at hlooked hnarrow
    obtain ⟨⟨id, rest, store⟩, hs, heq⟩ := Option.map_eq_some_iff.1 h
    obtain ⟨rfl, hy⟩ := Prod.mk.inj heq
    obtain ⟨hfresh, rfl⟩ := SessionStore.insertFresh?_eq_some hs
    obtain ⟨passed, b, hsupply, rfl, -, hfree⟩ := SessionStore.freshId?_eq_some_iff.1 hfresh
    have hcookie := hy ▸ timed_addSessionCookie _ b.id
    have hrest : y.supply = rest := congrArg TimedStore.supply hcookie.1
    have hstore := congrArg TimedStore.store hcookie.1
    change y.sessions = { w.sessions with
      sessions := w.sessions.sessions.insert b.id (.start w.now w.sessions.config.timeoutMillis?) } at hstore
    have hnow : w.now = x.now := hlooked.now
    have hw : w.supply = x.supply := hlooked.supply
    have hconfig : w.sessions.config = x.sessions.config := hnarrow.config
    -- `b` is the first block that is free once the session has been looked for.
    refine ⟨b, rfl, ⟨passed, by rw [← hw, hsupply, hrest]⟩, hcookie.2, ?_, ?_, fun j hj hheld => ?_⟩
    · -- Looking for sessions keeps those that resolve.
      have hgone := TimedStore.attributes?_eq_none_iff.2
        (TimedStore.resolve?_of_get?_none (u := w.timed) (not_not.1 hfree))
      exact TimedStore.attributes?_eq_none_iff.1 ((hlooked.attributes b.id).symm.trans hgone)
    · rw [hstore, Table.get?_insert, if_pos rfl, hnow, hconfig]
    · rw [hstore, SessionStore.Holds, Table.get?_insert, if_neg hj] at hheld
      exact hnarrow.holds j hheld

end Exchange

/-! ### Steps of an application's life -/

namespace Deployment

variable {d d' : Deployment} {sid : SessionId}

/-- A step of a deployment's life leaves its sessions as they are, or drops them all. -/
theorem sessions_take (d : Deployment) (s : LifecycleStep) :
    (d.take s).2.sessions = d.sessions ∨ (d.take s).2.sessions = d.sessions.invalidateAll := by
  -- Only `destroy` drops the sessions.
  cases s with
  | init =>
    simp only [take, init]
    split
    · split <;> exact .inl rfl
    · exact .inl rfl
  | start | stop =>
    simp only [take, start, stop, move]
    split <;> exact .inl rfl
  | destroy =>
    simp only [take, destroy]
    split
    · exact .inl rfl
    · exact .inr rfl

/-- So no session comes by a `LifecycleStep`. -/
theorem holds_of_take {s : LifecycleStep} (h : (d.take s).2.sessions.Holds sid) : d.sessions.Holds sid := by
  rcases d.sessions_take s with hsame | hnone
  · rwa [hsame] at h
  · rw [hnone] at h
    exact absurd rfl h

/-- A `LifecycleStep` keeps the settings of the sessions. -/
theorem config_take (d : Deployment) (s : LifecycleStep) : (d.take s).2.sessions.config = d.sessions.config := by
  rcases d.sessions_take s with hsame | hnone
  · rw [hsame]
  · rw [hnone]
    rfl

end Deployment

/-! ### What was issued -/

/-- The ids of the blocks that were taken off the supply `before`, of which `after` is left. -/
def drawnIds (before after : List Block) : List SessionId :=
  (before.take (before.length - after.length)).map Block.id

/-- `drawnIds` are those of the blocks that were drawn. -/
theorem TimedStore.Draws.drawnIds_eq {t u : TimedStore} {drawn : List Block} (h : t.Draws drawn u) :
    drawnIds t.supply u.supply = drawn.map Block.id := by
  rw [drawnIds, h.supply, List.length_append, Nat.add_sub_cancel, List.take_left]

/-- For each application the ids that were drawn for its sessions. -/
abbrev Issued := AppId → List SessionId

/-- Enters `ids` that were drawn for `app`. -/
def Issued.enter (issued : Issued) (app : Option AppId) (ids : List SessionId) : Issued := fun id =>
  if app = some id then issued id ++ ids else issued id

namespace Host

/-- The sessions of `d`, with the clock and the supply of `h`. -/
def timed (h : Host) (d : Deployment) : TimedStore := ⟨h.now, h.supply, d.sessions⟩

/-- The host `h` after the sessions of the application `id` were called, which left `t`. -/
def putTimed (h : Host) (id : AppId) (d : Deployment) (t : TimedStore) : Host :=
  { h.put id { d with sessions := t.store } with now := t.now, supply := t.supply }

/-- Whether a host comes about, while these ids are drawn for the sessions of its applications: when it serves requests,
and when sessions are called between requests, by sweeps or by whoever has kept a handle. -/
inductive Issues : Host → Issued → Prop
  | start (supply : List Block) : Issues (start supply) fun _ => []
  | add {h : Host} {issued : Issued} (a : Application) : h.Issues issued → Issues (h.add a).2 issued
  | call {h : Host} {issued : Issued} (c : Call) : h.Issues issued → Issues (h.perform c).2 issued
  | setAvailable {h : Host} {issued : Issued} {id : AppId} {d : Deployment} (unavailable : Bool) :
    h.Issues issued → h.deployment? id = some d → Issues (h.put id { d with unavailable }) issued
  | serve {h : Host} {issued : Issued} {limits : Limits} {timeout : Nat} {x : Exchange} {served : Served} :
    h.Issues issued → h.serveExchange limits timeout x = some served →
    Issues (h.settleExchange served) (issued.enter served.app (drawnIds x.supply served.exchange.supply))
  | sessions {h : Host} {issued : Issued} {id : AppId} {d : Deployment} {c : SessionStore.Call}
    {r : SessionStore.Reply} {t : TimedStore} :
    h.Issues issued → h.deployment? id = some d → (h.timed d).perform c = some (r, t) →
    Issues (h.putTimed id d t) (issued.enter (some id) (drawnIds h.supply t.supply))
  | advance {h : Host} {issued : Issued} (millis : Nat) : h.Issues issued → Issues (h.advance millis) issued
  | takeJournal {h : Host} {issued : Issued} : h.Issues issued → Issues h.takeJournal.2 issued

/-- Every host that comes about `Issues` something or other. -/
theorem Arises.exists_issues {h : Host} (ha : h.Arises) : ∃ issued, h.Issues issued := by
  induction ha with
  | start supply => exact ⟨_, .start supply⟩
  | add a _ ih => exact ih.imp fun _ => .add a
  | call c _ ih => exact ih.imp fun _ => .call c
  | setAvailable unavailable _ hd ih => exact ih.imp fun _ hi => .setAvailable unavailable hi hd
  | serve _ hs ih =>
    obtain ⟨issued, hi⟩ := ih
    exact ⟨_, .serve hi hs⟩
  | advance millis _ ih => exact ih.imp fun _ => .advance millis
  | takeJournal _ ih => exact ih.imp fun _ => .takeJournal

variable {h g : Host} {issued : Issued} {limits : Limits} {timeout : Nat} {x : Exchange} {served : Served} {id : AppId}
  {d d' : Deployment}

/-! ### What becomes of an application -/

/-- A deployment behind `add` was there before, or is the new one. -/
theorem deployment?_add_cases {a : Application} (hd : (h.add a).2.deployment? id = some d) :
    h.deployment? id = some d ∨ d = .ofApplication a := by
  have hget : (h.deployments ++ [Deployment.ofApplication a])[id]? = some d := hd
  rw [List.getElem?_append] at hget
  split at hget
  · exact .inl hget
  · exact .inr (List.mem_singleton.1 (List.mem_of_getElem? hget))

/-- A deployment behind a call was there before, and has lived on. -/
theorem exists_lives_of_perform {c : Call} (hd' : (h.perform c).2.deployment? id = some d') :
    ∃ d, h.deployment? id = some d ∧ d.Lives d' := by
  have hlives := h.lives_perform c id
  rw [hd'] at hlives
  cases hd : h.deployment? id with
  | none =>
    rw [hd] at hlives
    cases hlives
  | some d =>
    rw [hd] at hlives
    cases hlives with
    | some hlives => exact ⟨d, rfl, hlives⟩

/-- Behind `put` it is the one that was put, or was there before. -/
theorem deployment?_put_cases {i : AppId} {e : Deployment} (he : (h.put id d).deployment? i = some e) :
    i = id ∧ e = d ∨ i ≠ id ∧ h.deployment? i = some e := by
  rw [deployment?_put] at he
  split at he
  · next hid =>
    obtain ⟨-, -, rfl⟩ := Option.map_eq_some_iff.1 he
    exact .inl ⟨hid, rfl⟩
  · next hid => exact .inr ⟨hid, he⟩

/-- Behind an exchange it has the sessions of the exchange, or is as it was. -/
theorem deployment?_settleExchange_cases (hd' : (h.settleExchange served).deployment? id = some d') :
    (served.app = some id ∧ ∃ d, h.deployment? id = some d ∧ d' = { d with sessions := served.exchange.sessions }) ∨
      served.app ≠ some id ∧ h.deployment? id = some d' := by
  by_cases happ : served.app = some id
  · obtain ⟨d, hd, -⟩ := exists_of_deployment?_settleExchange hd'
    rw [deployment?_settleExchange happ hd] at hd'
    exact .inl ⟨happ, d, hd, (Option.some.inj hd').symm⟩
  · rw [deployment?_settleExchange_of_ne happ] at hd'
    exact .inr ⟨happ, hd'⟩

/-- Serving a request calls the sessions of the application that it goes to, if the guards work by calls. -/
theorem reaches_of_serveExchange (hguards : h.GuardsByCalls)
    (hs : h.serveExchange limits timeout x = some served) (happ : served.app = some id)
    (hd : h.deployment? id = some d) :
    TimedStore.Reaches ⟨x.now, x.supply, d.sessions⟩ served.exchange.timed := by
  rcases serveExchange_ways hs with ⟨id', d', happ', hd', hserve⟩ | hanswers
  · obtain rfl := Option.some.inj (happ.symm.trans happ')
    obtain rfl := Option.some.inj (hd.symm.trans hd')
    exact reaches_serveWithin (fun guard hsome => hguards hd hsome) hserve
  · have hsame : served.exchange.timed = ⟨x.now, x.supply, d.sessions⟩ := by
      rw [Exchange.timed, hanswers.now, hanswers.supply, hanswers.sessions id d happ hd]
    rw [hsame]
    exact .refl _

/-! ### Every run -/

/-- Guards that work by calls in the host `g` did so in every `h` whose applications it keeps. -/
theorem GuardsByCalls.before (hguards : g.GuardsByCalls) (hkeeps : h.KeepsApplications g) : h.GuardsByCalls := by
  intro id d guard hd hguard
  obtain ⟨d', hd', happ⟩ := hkeeps id d hd
  exact hguards hd' (happ ▸ hguard)

/-- Whether `Q`, said of an application and of the ids that were drawn for it, holds of every application that was just
built, and is kept by whatever happens to one. -/
structure IsKept (Q : List SessionId → Deployment → Prop) : Prop where
  built : ∀ ids a, Q ids (.ofApplication a)
  take : ∀ {ids d} s, Q ids d → Q ids (d.take s).2
  available : ∀ {ids d} unavailable, Q ids d → Q ids { d with unavailable }
  /-- Its sessions are called, and ids are drawn for them. -/
  sessions : ∀ {ids d} {t u : TimedStore}, t.store = d.sessions → t.Reaches u → Q ids d →
    Q (ids ++ drawnIds t.supply u.supply) { d with sessions := u.store }

/-- What `IsKept` holds of all deployments of a host that comes about, with the ids that were drawn for them. -/
theorem Issues.forall_deployment {Q : List SessionId → Deployment → Prop} (hq : IsKept Q) (hi : h.Issues issued)
    (hguards : h.GuardsByCalls) : ∀ id d, h.deployment? id = some d → Q (issued id) d := by
  -- By induction on `hi`; the guards of the host in the end have been there before.
  induction hi with
  | start supply =>
    intro id d hd
    cases hd
  | add a _ ih =>
    intro id d hd
    rcases deployment?_add_cases hd with hold | rfl
    · exact ih (hguards.before (keepsApplications_add _ a)) id d hold
    · exact hq.built _ a
  | call c _ ih =>
    intro id d' hd'
    obtain ⟨d, hd, hlives⟩ := exists_lives_of_perform hd'
    exact hlives.keeps hq.take (ih (hguards.before (keepsApplications_perform _ c)) id d hd)
  | setAvailable unavailable _ hd ih =>
    intro i e he
    have hbefore := ih (hguards.before (keepsApplications_put hd rfl))
    rcases deployment?_put_cases he with ⟨rfl, rfl⟩ | ⟨-, hold⟩
    · exact hq.available unavailable (hbefore _ _ hd)
    · exact hbefore i e hold
  | @serve host _ _ _ _ _ _ hs ih =>
    intro i e he
    have hbefore : host.GuardsByCalls := hguards.before (keepsApplications_settleExchange _ _)
    rcases deployment?_settleExchange_cases he with ⟨happ, d, hd, rfl⟩ | ⟨hne, hold⟩
    · rw [Issued.enter, if_pos happ]
      exact hq.sessions rfl (reaches_of_serveExchange hbefore hs happ hd) (ih hbefore i d hd)
    · rw [Issued.enter, if_neg hne]
      exact ih hbefore i e hold
  | @sessions host _ id d _ _ _ _ hd hp ih =>
    intro i e he
    have hbefore := ih (hguards.before (keepsApplications_put hd rfl))
    rcases deployment?_put_cases he with ⟨rfl, rfl⟩ | ⟨hne, hold⟩
    · rw [Issued.enter, if_pos rfl]
      exact hq.sessions (t := host.timed d) rfl (.perform hp) (hbefore _ _ hd)
    · rw [Issued.enter, if_neg fun heq => hne (Option.some.inj heq).symm]
      exact hbefore i e hold
  | advance _ _ ih => exact ih hguards
  | takeJournal _ ih => exact ih hguards

/-- That the held ids are among those drawn `IsKept`. -/
theorem isKept_holds : IsKept fun ids d => ∀ sid, d.sessions.Holds sid → sid ∈ ids where
  built _ _ _ hsid := absurd rfl hsid
  take _ hids sid hsid := hids sid (Deployment.holds_of_take hsid)
  available _ hids := hids
  sessions ht hreaches hids sid hsid := by
    obtain ⟨drawn, hdraws⟩ := hreaches.exists_draws
    rw [hdraws.drawnIds_eq, List.mem_append]
    exact (hdraws.holds sid hsid).imp_left fun hold => hids sid (ht ▸ hold)

/-- A request is served by the application that its path belongs to. -/
theorem find?_of_serveExchange (hs : h.serveExchange limits timeout x = some served) (happ : served.app = some id) :
    h.find? (stripPathParameters x.request.uri).1 = some id := by
  -- On all other branches of `serveExchange` no application serves.
  unfold serveExchange at hs
  split at hs
  · obtain rfl := Option.some.inj hs
    cases happ
  · dsimp only at hs
    split at hs
    · obtain rfl := Option.some.inj hs
      cases happ
    · next id' hfind =>
      split at hs
      · obtain rfl := Option.some.inj hs
        cases happ
      · obtain ⟨y, -, rfl⟩ := Option.map_eq_some_iff.1 hs
        exact hfind.trans happ

/-- **No id is adopted.** Take any host that comes about (`hi`), by whatever requests with whatever ids in them, and by
calls of sessions between requests:

* every session that a deployment `Holds`, also one that has run out, is under an id that was drawn for its application;
* `serveExchange` leaves every application as it is but the one that `find?` gives for the path;
* where an exchange `FindsNone`, there being no live session that it may look for, whatever id the client asks for,
  `session? true` starts a session if the supply has a free id, and it gets an id that is drawn from there (`Starts`). -/
theorem holds_issued_only (hi : h.Issues issued) (hguards : h.GuardsByCalls) :
    (∀ id d sid, h.deployment? id = some d → d.sessions.Holds sid → sid ∈ issued id) ∧
    (∀ limits timeout x served, h.serveExchange limits timeout x = some served →
      ∀ id, h.find? (stripPathParameters x.request.uri).1 ≠ some id →
        (h.settleExchange served).deployment? id = h.deployment? id) ∧
    (∀ x : Exchange, x.FindsNone →
      ((∃ b ∈ x.supply, ¬ x.sessions.Holds b.id) → (x.session? true).isSome) ∧
      ∀ found y, x.session? true = some (found, y) → ∃ b, found = some b.id ∧ x.Starts b y) := by
  refine ⟨fun id d sid hd hsid => ?_, fun limits timeout x served hs id hother => ?_, fun x hnone => ?_⟩
  · exact hi.forall_deployment isKept_holds hguards id d hd sid hsid
  · exact deployment?_settleExchange_of_ne fun happ => hother (find?_of_serveExchange hs happ)
  · exact ⟨Exchange.isSome_session?_true, fun found y hy => hnone.starts hy⟩

/-! ### A fair -/

namespace Fair

/-- A stall at `contextPath`, whose servlet starts a session for whoever comes. -/
def stall (contextPath : String) : Application :=
  { Application.ofServlets contextPath [⟨"goods", .call (.session true) fun _ => .finish, fun _ => none, false⟩] with
    mapper := MappingTable.empty.assign "goods" (.below "/goods") }

/-- A host with two stalls in service; the next ids are made of zeros and of ones. -/
def host : Host :=
  let h := (((start [.replicate 16 0, .replicate 16 1]).add (stall "/fruit")).2.add (stall "/bread")).2
  ((h.perform (.deploy 0)).2.perform (.deploy 1)).2

/-- A visitor of the first `stall` who has made up an id. -/
def visitor : Exchange :=
  .start (.ofLine "GET /fruit/goods;jsessionid=MADEUP HTTP/1.1") none (.detached "HTTP/1.1") 0 host.supply

theorem issues_host : host.Issues fun _ => [] := .call (.deploy 1) (.call (.deploy 0) (.add _ (.add _ (.start _))))

/-- Neither stall has a guard. -/
theorem guardsByCalls_host : host.GuardsByCalls := by
  intro id d g hd hg
  have happs : host.deployments.map (·.app) = [stall "/fruit", stall "/bread"] := rfl
  have hmem := app_mem_of_deployment? happs hd
  simp only [List.mem_cons, List.not_mem_nil, or_false] at hmem
  rcases hmem with happ | happ <;> (rw [happ] at hg; cases hg)

/-- The request of the `visitor` once the made-up id is known to be asked for. -/
def asking : Exchange := { visitor with request.requestedSession := some ("MADEUP", .url) }

theorem findsNone_asking : asking.FindsNone := fun _ _ => rfl

/-- The made-up id is not adopted, and the other stall notices nothing. -/
theorem holds_issued_only_visitor : ∃ served, host.serveExchange ⟨1, 0⟩ 0 visitor = some served ∧
    (∀ d sid, (host.settleExchange served).deployment? 0 = some d → d.sessions.Holds sid →
      sid = Block.id (.replicate 16 0)) ∧
    (host.settleExchange served).deployment? 1 = host.deployment? 1 ∧
    asking.FindsNone ∧ (asking.session? true).isSome := by
  have hrun : (host.serveExchange ⟨1, 0⟩ 0 visitor).map
      (fun served => (served.app, drawnIds visitor.supply served.exchange.supply))
      = some (some 0, [Block.id (.replicate 16 0)]) := by decide +kernel
  obtain ⟨served, hs, heq⟩ := Option.map_eq_some_iff.1 hrun
  obtain ⟨happ, hdrawn⟩ := Prod.mk.inj heq
  have hafter := Issues.serve issues_host hs
  rw [happ, hdrawn] at hafter
  obtain ⟨hheld, -, hstart⟩ := holds_issued_only hafter (guardsByCalls_host.settleExchange served)
  obtain ⟨-, hapart, -⟩ := holds_issued_only issues_host guardsByCalls_host
  refine ⟨served, hs, fun d sid hd hsid => ?_, ?_, findsNone_asking, ?_⟩
  · simpa [Issued.enter] using hheld 0 d sid hd hsid
  · exact hapart ⟨1, 0⟩ 0 visitor served hs 1 (by decide +kernel)
  · exact (hstart asking findsNone_asking).1 ⟨.replicate 16 0, List.mem_cons_self, not_not.2 rfl⟩

end Fair

end Host

end ServletContainer
