import ServletContainer.Proofs.Security.Visits

namespace ServletContainer

/-!
# Session fixation

Whoever knows the id of a session before its caller logs in does not know it afterwards.

* `BasicAuth.LeavesOwn`, `BasicAuth.leavesOwn_of_logsIn` — what logging in leaves of a session.
* `BasicAuth.no_fixation` — what logging in does, and what holds of every session at any time.
-/

open SessionStore (Call)

/-! ### Logging in -/

namespace BasicAuth

variable {g : BasicAuth} {t : TimedStore} {x y : Exchange}

/-- What logging in as `name` leaves of the session that was under `old`: it is the session of `y`, under `new`; it
names the caller, and all else in it is as it was. Unless it named the caller before, `new` is the next id to be drawn,
and nothing is ever again under `old`. -/
structure LeavesOwn (g : BasicAuth) (name : String) (t : TimedStore) (old : SessionId) (y : Exchange)
    (new : SessionId) : Prop where
  session : y.currentSession.1 = some new
  names : y.timed.attribute? new principalAttribute = some (.text name)
  others : ∀ n, n ≠ principalAttribute → y.timed.attribute? new n = t.attribute? old n
  kept : t.attribute? old principalAttribute = some (.text name) → new = old
  drawn : t.attribute? old principalAttribute ≠ some (.text name) →
    t.supply.map Block.id = new :: y.supply.map Block.id
  gone : t.attribute? old principalAttribute ≠ some (.text name) →
    ∀ {later u}, g.course y.timed later = some u → u.resolve? old = none

/-- A login in a store that is `Fresh` leaves the caller a session of its own. One case for each of `LogsIn`: there was
none, which `hid` excludes, the session named the caller already, or it was moved. -/
theorem leavesOwn_of_logsIn (ht : t.Fresh) {name : String} (h : LogsIn name (x.withTimed t) y) {id : SessionId}
    (hid : (x.withTimed t).currentSession.1 = some id) : ∃ new, LeavesOwn g name t id y new := by
  cases h with
  | absent hnone _ =>
    rw [hid] at hnone
    cases hnone
  | @known id' hid' hattr hlooked hbound =>
    obtain rfl : id' = id := Option.some.inj (hid'.symm.trans hid)
    have hnames : t.attribute? id' principalAttribute = some (.text name) := hattr
    have hsame : ∀ n, y.timed.attribute? id' n = t.attribute? id' n := fun n => hlooked.attribute?_eq id' n
    have hlive : y.timed.attributes? id' ≠ none := by
      intro hnone
      rw [← hsame, TimedStore.attribute?, hnone] at hnames
      cases hnames
    exact ⟨id', Exchange.currentSession_of_bound hbound hlive, (hsame _).trans hnames, fun n _ => hsame n, fun _ => rfl,
      fun hother => absurd hnames hother, fun hother => absurd hnames hother⟩
  | @moved id' attributes b hid' hattr hother hsupply hnow hfresh hbound hb hmoved =>
    obtain rfl : id' = id := Option.some.inj (hid'.symm.trans hid)
    have hbefore : t.attributes? id' = some attributes := hattr
    have hdrawn : t.supply = b :: y.supply := hsupply
    have hnew : y.timed.attributes? b.id = some (attributes.insert principalAttribute (.text name)) := by
      rw [hmoved, if_pos rfl]
    have hold : t.attribute? id' principalAttribute ≠ some (.text name) := by
      rwa [TimedStore.attribute?, hbefore, Option.bind_some]
    -- `id'` has been drawn long ago, and there is nothing under it any more.
    have hspent : id' ∉ y.timed.supply.map Block.id := by
      obtain ⟨s, hs, -⟩ := TimedStore.attributes?_eq_some_iff.1 hbefore
      have hmem := ht.not_mem_supply hs
      rw [hdrawn, List.map_cons] at hmem
      exact fun hlater => hmem (List.mem_cons_of_mem _ hlater)
    have hempty : y.timed.attributes? id' = none := by rw [hmoved, if_neg hb.symm, if_pos rfl]
    refine ⟨b.id, Exchange.currentSession_of_bound hbound (by simp [hnew]), ?_, fun n hn => ?_,
      fun hnames => absurd hnames hold, fun _ => by rw [hdrawn, List.map_cons], fun _ later u hcourse => ?_⟩
    · rw [TimedStore.attribute?, hnew, Option.bind_some, Table.get?_insert, if_pos rfl]
    · rw [TimedStore.attribute?, TimedStore.attribute?, hnew, hbefore, Option.bind_some, Option.bind_some,
        Table.get?_insert, if_neg hn]
    · exact TimedStore.attributes?_eq_none_iff.1 (attributes?_course_of_none hfresh hcourse hspent hempty)

/-- **No session fixation.** Let ids never repeat (`hdistinct`), and let the code of an application name no caller in a
session (`ha`).

* What visits to its host make of the sessions of the application is a course of calls in which the guard is asked about
  requests, whatever credentials come and whatever session is asked for.
* Whenever the guard lets a request for a constrained path through that has a session, this becomes a session of the
  caller's own (`LeavesOwn`).
* At any time a session that names a caller was bound to it by the guard, and is under an id that was still to be drawn
  when the guard was asked (`BoundIn`). -/
theorem no_fixation {h : Host} (hguards : h.GuardsByCalls) {id : AppId} {d : Deployment}
    (hd : h.deployment? id = some d) (hnone : d.sessions.sessions = .empty) {g : BasicAuth}
    (hguard : d.app.guard = some g.guard) (ha : d.app.Uses (Op.SparesSession principalAttribute))
    (hdistinct : (h.supply.map Block.id).Nodup) :
    (∀ {visits h'}, h.visits visits = some h' → ∃ sessions turns,
      h'.deployment? id = some { d with sessions } ∧
      (∀ turn ∈ turns, turn.IsModest ∧ ∀ x, turn = .check x → ∃ v ∈ visits, v.Brings x) ∧
      g.course ⟨h.now, h.supply, d.sessions⟩ turns = some ⟨h'.now, h'.supply, sessions⟩) ∧
    (∀ {turns t} {x y : Exchange} {old}, g.course ⟨h.now, h.supply, d.sessions⟩ turns = some t →
      (g.constraint? x.request.relativePath).isSome → (x.withTimed t).currentSession.1 = some old →
      g.check? (x.withTimed t) = some (.allow, y) →
      ∃ caller new, Authenticates g.identities x.request.head.headers caller ∧
        LeavesOwn g caller.name t old y new) ∧
    ∀ {turns t current v}, (∀ turn ∈ turns, turn.IsModest) →
      g.course ⟨h.now, h.supply, d.sessions⟩ turns = some t → t.attribute? current principalAttribute = some v →
      BoundIn g ⟨h.now, h.supply, d.sessions⟩ turns t current v := by
  have hempty : ∀ j, d.sessions.sessions.get? j = none := fun j => by
    rw [hnone]
    rfl
  have hstart : TimedStore.Fresh ⟨h.now, h.supply, d.sessions⟩ := ⟨hdistinct, fun j _ => hempty j⟩
  refine ⟨fun hvisits => Host.course_of_visits hguards hd hguard ha hvisits, ?_, ?_⟩
  · intro turns t x y old hturns hconstraint hold hy
    have ht := (fresh_course hstart hturns).1
    rcases logsIn_of_check? (x := x.withTimed t) ht hy with ⟨-, hnone⟩ | ⟨caller, hcaller, -, hlogin⟩
    · have hfree : g.constraint? x.request.relativePath = none := hnone rfl
      rw [hfree] at hconstraint
      cases hconstraint
    · obtain ⟨new, hnew⟩ := leavesOwn_of_logsIn ht hlogin hold
      exact ⟨caller, new, hcaller, hnew⟩
  · intro turns t current v hmodest hturns hv
    rcases attribute_of_course hstart hmodest hturns hv with ⟨origin, horigin, -⟩ | hbound
    · -- `hempty`: there is no session at the beginning.
      obtain ⟨s, hs, -⟩ := TimedStore.attribute?_eq_some_iff.1 horigin
      rw [TimedStore.resolve?_eq, hempty] at hs
      cases hs
    · exact hbound

/-! ### A club -/

namespace Club

/-- The guard `BasicAuth` asks whoever goes to `/members` for credentials. -/
def guard : BasicAuth := ⟨"club", [⟨.below "/members", []⟩], IdentityStore.empty.addUser "ann" "key" []⟩

/-- An application that gives everybody a session. -/
def app : Application where
  contextPath := "/club"
  displayName := "club"
  servlets := [⟨"club", .perform (.session true) .finish, fun _ => none, false⟩]
  filters := []
  mapper := MappingTable.empty.assign "club" .default
  errorPages := .empty
  sessionConfig := .standard
  guard := some guard.guard
  resources := none

/-- A host with `app` in service, and with two ids to draw. -/
def host : Host := (((Host.start [Vector.replicate 16 0, Vector.replicate 16 1]).add app).2.deploy 0).2

/-- The id that `host` draws first. -/
def firstId : SessionId := "00000000000000000000000000000000"

/-- The id that `host` draws next. -/
def secondId : SessionId := "01010101010101010101010101010101"

/-- A request of a member who comes with `firstId`. -/
def memberRequest : Request :=
  let r := Host.knownRequest "GET /club/members HTTP/1.1"
  { r with head.headers := r.head.headers.append "Cookie" ("JSESSIONID=" ++ firstId) }

/-- A stranger is given `firstId`, and a minute later a member comes with it. -/
def visitors : List Host.Visit :=
  [.request ⟨1, 1⟩ 10 (.ofLine "GET /club HTTP/1.1") none (.detached "HTTP/1.1"), .wait 60000,
    .request ⟨1, 1⟩ 10 memberRequest none (.detached "HTTP/1.1")]

/-- The exchange of the `memberRequest` within the club. -/
def member : Exchange :=
  (Exchange.start memberRequest none (.detached "HTTP/1.1") 0 []).mapRequest fun r =>
    { r with contextPath := "/club", requestedSession := some (firstId, .cookie) }

/-- The club is guarded by `BasicAuth`, which works by calls. -/
theorem guardsByCalls_host : host.GuardsByCalls := by
  intro id d g hd hg
  have happs : host.deployments.map (·.app) = [app] := rfl
  rw [List.mem_singleton.1 (Host.app_mem_of_deployment? happs hd)] at hg
  obtain rfl : guard.guard = g := Option.some.inj hg
  exact guard.worksByCalls_guard

/-- Its servlet asks for a session, and names nobody in it. -/
theorem uses_app : app.Uses (Op.SparesSession principalAttribute) where
  servlets s hs := by
    obtain rfl := List.mem_singleton.1 hs
    refine ⟨fun _ _ hop => ?_, fun _ => trivial⟩
    cases hop
  filters f hf := by cases hf

/-- The guard is asked about the member after a session has been made, and in the end the member is named in the
session under the second id, where nobody else has been told it. -/
theorem no_fixation_club : ∃ d h' sessions turns, host.deployment? 0 = some d ∧ host.visits visitors = some h' ∧
    h'.deployment? 0 = some { d with sessions } ∧
    BoundIn guard ⟨host.now, host.supply, d.sessions⟩ turns ⟨h'.now, h'.supply, sessions⟩ secondId (.text "ann") ∧
    ∃ t y caller new, guard.course ⟨host.now, host.supply, d.sessions⟩ [.call .create] = some t ∧
      guard.check? (member.withTimed t) = some (.allow, y) ∧ LeavesOwn guard caller t firstId y new := by
  obtain ⟨d, hd, happ, hsessions⟩ :
      ∃ d, host.deployment? 0 = some d ∧ d.app = app ∧ d.sessions = .empty .standard := ⟨_, rfl, rfl, rfl⟩
  have hguard : d.app.guard = some guard.guard := by rw [happ]; rfl
  obtain ⟨hcourse, hleaves, hbound⟩ := no_fixation guardsByCalls_host hd (by rw [hsessions]; rfl) hguard
    (happ ▸ uses_app) (by decide +kernel)
  rw [hsessions] at hcourse hleaves hbound
  -- `names "ann"` of what the visits leave.
  have hnamed : ((host.visits visitors).bind fun h' => (h'.deployment? 0).map fun d =>
      names "ann" ((⟨h'.now, h'.supply, d.sessions⟩ : TimedStore).attribute? secondId principalAttribute))
        = some true := by decide +kernel
  obtain ⟨h', hvisits, hrest⟩ := Option.bind_eq_some_iff.1 hnamed
  obtain ⟨d', hd', hnames⟩ := Option.map_eq_some_iff.1 hrest
  obtain ⟨sessions, turns, hafter, hturns, hcourse⟩ := hcourse hvisits
  obtain rfl := Option.some.inj (hd'.symm.trans hafter)
  have hend := hbound (fun turn hmem => (hturns turn hmem).1) hcourse (names_eq_true_iff.1 hnames)
  -- What `check?` makes of the request of `member`.
  have hasked : ((guard.course ⟨host.now, host.supply, .empty .standard⟩ [.call .create]).bind fun t =>
      (guard.check? (member.withTimed t)).map fun p => ((member.withTimed t).currentSession.1, p.1))
        = some (some firstId, .allow) := by decide +kernel
  obtain ⟨t, ht, hrest⟩ := Option.bind_eq_some_iff.1 hasked
  obtain ⟨⟨decision, y⟩, hy, heq⟩ := Option.map_eq_some_iff.1 hrest
  obtain ⟨hfirst, rfl⟩ := Prod.mk.inj heq
  obtain ⟨caller, new, -, hnew⟩ := hleaves ht (by decide +kernel) hfirst hy
  refine ⟨d, h', sessions, turns, hd, hvisits, hafter, ?_, t, y, caller.name, new, ?_, hy, hnew⟩
  · rw [hsessions]
    exact hend
  · rw [hsessions]
    exact ht

end Club

end BasicAuth

end ServletContainer
