import ServletContainer.Proofs.Dispatch.MadeCalls
import ServletContainer.Proofs.Host.Issued

namespace ServletContainer

/-!
# New sessions of a host

A session is new until it is looked up, in whichever exchange. A request that carries its id does so, but so does the
exchange that has started the session when it looks for it again.

* `Host.Meets` — the hosts that come about, with the ids whose sessions have been met on the way.
* `Host.Meets.remembers` — the sessions that are new are those that have not been met.
* `Host.exists_meets` — there is such a record for every host that comes about.
* `Host.tellsNew_of_meets` — what a handle tells, at any time and in any exchange, and what exchanges look for.
-/

namespace Host

/-- Whether a host comes about, while these sessions of its applications are met: when it serves requests, and when
sessions are called between requests. -/
inductive Meets : Host → (AppId → SessionId → Prop) → Prop
  | start (supply : List Block) : Meets (start supply) fun _ _ => False
  | add {h : Host} {met : AppId → SessionId → Prop} (a : Application) : h.Meets met → Meets (h.add a).2 met
  | call {h : Host} {met : AppId → SessionId → Prop} (c : Call) : h.Meets met → Meets (h.perform c).2 met
  | setAvailable {h : Host} {met : AppId → SessionId → Prop} {id : AppId} {d : Deployment} (unavailable : Bool) :
    h.Meets met → h.deployment? id = some d → Meets (h.put id { d with unavailable }) met
  /-- A request is served by an application, in which calls are made. -/
  | serve {h : Host} {met : AppId → SessionId → Prop} {limits : Limits} {timeout : Nat} {x : Exchange}
    {served : Served} {id : AppId} {d : Deployment} {calls : List MadeCall} :
    h.Meets met → h.serveExchange limits timeout x = some served → served.app = some id →
    h.deployment? id = some d → (d.receive x).Makes calls served.exchange →
    Meets (h.settleExchange served) (Function.update met id (metAfter calls (met id)))
  /-- A request is answered without running anything. -/
  | answer {h : Host} {met : AppId → SessionId → Prop} {limits : Limits} {timeout : Nat} {x : Exchange}
    {served : Served} :
    h.Meets met → h.serveExchange limits timeout x = some served → h.AnswersItself x served →
    Meets (h.settleExchange served) met
  | sessions {h : Host} {met : AppId → SessionId → Prop} {id : AppId} {d : Deployment} {c : SessionStore.Call}
    {r : SessionStore.Reply} {t : TimedStore} :
    h.Meets met → h.deployment? id = some d → (h.timed d).perform c = some (r, t) →
    Meets (h.putTimed id d t) (Function.update met id (c.meet (met id) r))
  | advance {h : Host} {met : AppId → SessionId → Prop} (millis : Nat) : h.Meets met → Meets (h.advance millis) met
  | takeJournal {h : Host} {met : AppId → SessionId → Prop} : h.Meets met → Meets h.takeJournal.2 met

variable {h : Host} {met : AppId → SessionId → Prop} {limits : Limits} {timeout : Nat} {x : Exchange} {served : Served}
  {id : AppId} {d : Deployment}

/-! ### Every run -/

/-- No step of a deployment's life meets a session. -/
theorem remembers_take {s : LifecycleStep} {m : SessionId → Prop} (h : d.sessions.Remembers m) :
    (d.take s).2.sessions.Remembers m := by
  rcases d.sessions_take s with hsame | hnone
  · rwa [hsame]
  · rw [hnone]
    exact SessionStore.remembers_of_empty rfl m

/-- However a host `Meets` sessions, those of its applications that are new are those that have not been met. -/
theorem Meets.remembers (hm : h.Meets met) : ∀ id d, h.deployment? id = some d → d.sessions.Remembers (met id) := by
  -- By induction on `hm`, as each step concerns the sessions of one application at most.
  induction hm with
  | start supply =>
    intro id d hd
    cases hd
  | add a _ ih =>
    intro id d hd
    rcases deployment?_add_cases hd with hold | rfl
    · exact ih id d hold
    · exact SessionStore.remembers_of_empty rfl _
  | call c _ ih =>
    intro id d' hd'
    obtain ⟨d, hd, hlives⟩ := exists_lives_of_perform hd'
    exact hlives.keeps (P := fun d => d.sessions.Remembers _) (fun s => remembers_take) (ih id d hd)
  | @setAvailable _ _ _ d unavailable _ hd ih =>
    intro i e he
    rcases deployment?_put_cases he with ⟨rfl, rfl⟩ | ⟨-, hold⟩
    · exact ih i d hd
    · exact ih i e hold
  | @serve _ _ _ _ _ _ id _ _ _ _ happ hd hmakes ih =>
    intro i e he
    rcases deployment?_settleExchange_cases he with ⟨happ', d', hd', rfl⟩ | ⟨hne, hold⟩
    · obtain rfl := Option.some.inj (happ.symm.trans happ')
      obtain rfl := Option.some.inj (hd.symm.trans hd')
      rw [Function.update_self]
      exact hmakes.remembers (ih _ _ hd)
    · have hother : i ≠ id := by
        rintro rfl
        exact hne happ
      rw [Function.update_of_ne hother]
      exact ih i e hold
  | answer _ _ hanswers ih =>
    intro i e he
    rcases deployment?_settleExchange_cases he with ⟨happ, d, hd, rfl⟩ | ⟨-, hold⟩
    · rw [hanswers.sessions i d happ hd]
      exact ih i d hd
    · exact ih i e hold
  | @sessions host _ id d _ _ _ _ hd hp ih =>
    intro i e he
    rcases deployment?_put_cases he with ⟨rfl, rfl⟩ | ⟨hne, hold⟩
    · rw [Function.update_self]
      exact TimedStore.remembers_perform (t := host.timed d) (ih _ _ hd) hp
    · rw [Function.update_of_ne hne]
      exact ih i e hold
  | advance _ _ ih => exact ih
  | takeJournal _ ih => exact ih

/-- The host `AnswersItself`, or an application serves the request and `Makes` calls for it, if the guards work by
calls. -/
theorem makes_of_serveExchange (hguards : h.GuardsByCalls) (hs : h.serveExchange limits timeout x = some served) :
    h.AnswersItself x served ∨ ∃ id d calls, served.app = some id ∧ h.deployment? id = some d ∧
      (d.receive x).Makes calls served.exchange := by
  rcases serveExchange_ways hs with ⟨id, d, happ, hd, hserve⟩ | hanswers
  · obtain ⟨calls, hmakes⟩ := exists_makes_serveWithin (fun guard hsome => hguards hd hsome) hserve
    exact .inr ⟨id, d, calls, happ, hd, hmakes⟩
  · exact .inl hanswers

/-- So every host that comes about `Meets` some sessions. -/
theorem exists_meets (ha : h.Arises) (hguards : h.GuardsByCalls) : ∃ met, h.Meets met := by
  -- By induction on `ha`; the guards of the host in the end have been there before.
  induction ha with
  | start supply => exact ⟨_, .start supply⟩
  | add a _ ih => exact (ih (hguards.before (keepsApplications_add _ a))).imp fun _ => .add a
  | call c _ ih => exact (ih (hguards.before (keepsApplications_perform _ c))).imp fun _ => .call c
  | setAvailable unavailable _ hd ih =>
    exact (ih (hguards.before (keepsApplications_put hd rfl))).imp fun _ hm => .setAvailable unavailable hm hd
  | @serve host _ _ _ _ _ hs ih =>
    have hbefore : host.GuardsByCalls := hguards.before (keepsApplications_settleExchange _ _)
    obtain ⟨met, hm⟩ := ih hbefore
    rcases makes_of_serveExchange hbefore hs with hanswers | ⟨id, d, calls, happ, hd, hmakes⟩
    · exact ⟨met, .answer hm hs hanswers⟩
    · exact ⟨_, .serve hm hs happ hd hmakes⟩
  | advance millis _ ih => exact (ih hguards).imp fun _ => .advance millis
  | takeJournal _ ih => exact (ih hguards).imp fun _ => .takeJournal

/-- **New until looked for.** For a host that comes about there is a record `met` of the sessions that it `Meets`, and
with any such record it holds:

* at any time, a handle tells that a session is new (`TellsNew`) if and only if it is live and has not been met;
* within an exchange of an application, it does so if and only if the session is live and `NewAfter` the calls: one of
  them has started it and none has found it since, or it was new before and none has found it; only a call that looks
  for the session of its exchange finds one;
* so in the exchange with the call `c` that `Starts` it, a live session is new until one of the `later` calls `Finds`
  it;
* an exchange that was bound to no session finds none but the one that its request asks for, by cookie or by URL, and
  those that it has started, or moved, under an id which it has drawn itself (`Issues`);
* the host `AnswersItself`, without running anything, or an application `Makes` such calls for the request.

So a session stays new until a later request comes with its id, wherever the exchange that has started it does not look
for it again. -/
theorem tellsNew_of_meets (h : Host) :
    (h.Arises → h.GuardsByCalls → ∃ met, h.Meets met) ∧
    ∀ met, h.Meets met →
      (∀ id d now sid, h.deployment? id = some d → d.sessions.TellsNew now sid (¬ met id sid)) ∧
      (∀ id d x calls y, h.deployment? id = some d → (d.receive x).Makes calls y →
        (∀ sid, y.sessions.TellsNew y.now sid (NewAfter calls (¬ met id sid) sid)) ∧
        (∀ earlier c later sid, calls = earlier ++ c :: later → c.Starts sid → (∀ c' ∈ later, ¬ c'.Starts sid) →
          y.sessions.TellsNew y.now sid (∀ c' ∈ later, ¬ c'.Finds sid)) ∧
        (x.sessionId = none → ∀ earlier c later sid, calls = earlier ++ c :: later → c.found = some sid →
          (d.receive x).request.requestedSession.map Prod.fst = some sid ∨ ∃ c' ∈ earlier, c'.Issues sid)) ∧
      (h.GuardsByCalls → ∀ limits timeout x served, h.serveExchange limits timeout x = some served →
        h.AnswersItself x served ∨ ∃ id d calls, served.app = some id ∧ h.deployment? id = some d ∧
          (d.receive x).Makes calls served.exchange) := by
  refine ⟨exists_meets, fun met hm => ⟨?_, ?_, ?_⟩⟩
  · intro id d now sid hd
    exact (hm.remembers id d hd).tellsNew now sid
  · intro id d x calls y hd hmakes
    -- `metAfter`: what is met after the calls is met before them, or by one of them.
    have htells : ∀ sid, y.sessions.TellsNew y.now sid (NewAfter calls (¬ met id sid) sid) := fun sid => by
      have hremembers : y.sessions.Remembers (metAfter calls (met id)) := hmakes.remembers (hm.remembers id d hd)
      rw [← not_metAfter_iff]
      exact hremembers.tellsNew y.now sid
    refine ⟨htells, fun earlier c later sid hcalls hc hlast => ?_, fun hnone earlier c later sid hcalls hfound => ?_⟩
    · rw [← newAfter_of_starts hc hlast (¬ met id sid), ← hcalls]
      exact htells sid
    · -- What `find` answers was known: the exchange came unbound, so it was asked for, or a call issued it.
      have hknown : c.before.Knows sid := (c.before.currentSession_spec.2.2.1 sid hfound).1
      rcases (hmakes.before hcalls).knows_cases hknown with (hbound | hasked) | hissued
      · have hfree : (d.receive x).sessionId = none := hnone
        rw [hfree] at hbound
        cases hbound
      · exact .inl hasked
      · exact .inr hissued
  · exact fun hguards limits timeout x served => makes_of_serveExchange hguards

/-! ### A reception -/

namespace Reception

/-- Looks for a session, starting one where there is none, notes what its handle tells, and goes on with `k`. -/
def look (k : Program) : Program :=
  .call (.session true) fun
    | none => k
    | some sid => .call (.handleState sid) fun state => .note (.session (some state)) k

/-- An application that looks for the session of a guest twice. -/
def app : Application :=
  { Application.ofServlets "/desk" [⟨"desk", look (look .finish), fun _ => none, false⟩] with
    mapper := MappingTable.empty.assign "desk" .default }

/-- A host with `app` in service, and with one id to draw. -/
def host : Host := (((start [.replicate 16 0]).add app).2.perform (.deploy 0)).2

/-- The id that `host` draws first. -/
def sid : SessionId := "00000000000000000000000000000000"

/-- A guest who asks for no session. -/
def guest : Exchange := .start (.ofLine "GET /desk HTTP/1.1") none (.detached "HTTP/1.1") 0 host.supply

/-- The deployment of `app` in service. -/
def desk : Deployment := (host.deployment? 0).getD (.ofApplication app)

/-- The exchange of the `guest` within the application. -/
def received : Exchange := desk.receive guest

theorem deployment_host : host.deployment? 0 = some desk := rfl

theorem arises_host : host.Arises := .call (.deploy 0) (.add app (.start _))

/-- The desk has no guard. -/
theorem guardsByCalls_host : host.GuardsByCalls := by
  intro id d g hd hg
  have happs : host.deployments.map (·.app) = [app] := rfl
  rw [List.mem_singleton.1 (app_mem_of_deployment? happs hd)] at hg
  cases hg

/-- What the handle of the session tells after the first look and after the second one. -/
theorem looks_received : ∃ y z, received.session? true = some (some sid, y) ∧ y.session? true = some (some sid, z) ∧
    y.currentSession.1 = some sid ∧ (y.sessions.handleState y.now sid).1 = ⟨sid, true, true⟩ ∧
    (z.sessions.handleState z.now sid).1 = ⟨sid, false, true⟩ := by
  have hlooks : ((received.session? true).bind fun p => (p.2.session? true).map fun q =>
      (p.1, q.1, p.2.currentSession.1, (p.2.sessions.handleState p.2.now sid).1,
        (q.2.sessions.handleState q.2.now sid).1))
        = some (some sid, some sid, some sid, ⟨sid, true, true⟩, ⟨sid, false, true⟩) := by decide +kernel
  obtain ⟨⟨found, y⟩, hy, hrest⟩ := Option.bind_eq_some_iff.1 hlooks
  obtain ⟨⟨again, z⟩, hz, heq⟩ := Option.map_eq_some_iff.1 hrest
  simp only [Prod.mk.injEq] at heq
  obtain ⟨rfl, rfl, hcurrent, hnew, hold⟩ := heq
  exact ⟨y, z, hy, hz, hcurrent, hnew, hold⟩

/-- The session is new after the first look of the exchange, which has started it, and not after the second one, which
finds it under the id that was drawn for it. The request makes such calls. -/
theorem tellsNew_of_meets_guest : ∃ met y z served calls, host.Meets met ∧
    NewAfter [⟨.session true, received, y⟩] (¬ met 0 sid) sid ∧
    ¬ NewAfter [⟨.session true, received, y⟩, ⟨.session true, y, z⟩] (¬ met 0 sid) sid ∧
    MadeCall.Issues ⟨.session true, received, y⟩ sid ∧
    host.serveExchange ⟨1, 0⟩ 0 guest = some served ∧ received.Makes calls served.exchange := by
  obtain ⟨hexists, htells⟩ := tellsNew_of_meets host
  obtain ⟨met, hm⟩ := hexists arises_host guardsByCalls_host
  obtain ⟨-, hwithin, hserves⟩ := htells met hm
  obtain ⟨y, z, hy, hz, hcurrent, hnew, hold⟩ := looks_received
  have hmakes : received.Makes [⟨.session true, received, y⟩] y :=
    .call (p := (some sid, y)) (.session true) .start hy
  have hmakes' : received.Makes [⟨.session true, received, y⟩, ⟨.session true, y, z⟩] z :=
    .call (p := (some sid, z)) (.session true) hmakes hz
  obtain ⟨hfirst, -, -⟩ := hwithin 0 desk guest _ y deployment_host hmakes
  obtain ⟨hsecond, -, hfinds⟩ := hwithin 0 desk guest _ z deployment_host hmakes'
  -- The application answers the request and leaves notes in the journal.
  have hrun : (host.serveExchange ⟨1, 0⟩ 0 guest).map (fun served => served.exchange.journal.isEmpty)
      = some false := by decide +kernel
  obtain ⟨served, hserved, hnotes⟩ := Option.map_eq_some_iff.1 hrun
  have hcalls : ∃ calls, received.Makes calls served.exchange := by
    rcases hserves guardsByCalls_host ⟨1, 0⟩ 0 guest served hserved with hanswers | ⟨id, d, calls, -, hd, hcalls⟩
    · rw [hanswers.journal] at hnotes
      cases hnotes
    · have hid : host.deployments = [desk] := rfl
      change host.deployments[id]? = some d at hd
      rw [hid] at hd
      obtain ⟨-, rfl⟩ : id = 0 ∧ desk = d := by simpa [List.getElem?_singleton] using hd
      exact ⟨calls, hcalls⟩
  obtain ⟨calls, hcalls⟩ := hcalls
  refine ⟨met, y, z, served, calls, hm, ((hfirst sid).1 (by rw [hnew])).2, fun hstill => ?_, ?_, hserved, hcalls⟩
  · have htold := (hsecond sid).2 ⟨by rw [hold], hstill⟩
    rw [hold] at htold
    cases htold
  · rcases hfinds rfl [⟨.session true, received, y⟩] ⟨.session true, y, z⟩ [] sid rfl hcurrent with hasked | hissued
    · have hnone : (desk.receive guest).request.requestedSession = none := by decide +kernel
      rw [hnone] at hasked
      cases hasked
    · simpa using hissued

/-- What an entry of the journal says that a handle told. -/
def told : Event → Option SessionStore.HandleState
  | .noted (.session state) => state
  | _ => none

/-- The guest comes with no id, and there is no session yet. The one that is started for him is new, and it is not new
any more when the same exchange looks for it again. -/
theorem not_new_in_first_exchange :
    received.request.requestedSession = none ∧ desk.sessions.isEmpty = true ∧
    (host.serveExchange ⟨1, 0⟩ 0 guest).map (fun served => served.exchange.journal.filterMap told)
      = some [⟨sid, true, true⟩, ⟨sid, false, true⟩] := by
  decide +kernel

end Reception

end Host

end ServletContainer
