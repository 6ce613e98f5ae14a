import ServletContainer.Proofs.Dispatch.Paths
import ServletContainer.Proofs.Host
import ServletContainer.Proofs.Security.Login

namespace ServletContainer

/-!
# Whom the guard turns away

The path and the header fields of a request decide whether the guard turns it away. Everybody else is let through, as
long as there are ids for the sessions that have to be moved.

* `BasicAuth.Denies` — who is turned away, and with what answer.
* `BasicAuth.check?_of_denies` — turning somebody away changes nothing.
* `TimedStore.CanDraw` — there is an id to be drawn.
* `BasicAuth.exists_allow` — everybody else is let through.
* `Application.Allows` — a request that is let through, which is then dispatched; `serveWithin_of_denies` is about all
  others.
-/

/-! ### Ids to be drawn -/

/-- Whether `t` can draw an id that no session has. -/
def TimedStore.CanDraw (t : TimedStore) : Prop := ∃ b ∈ t.supply, t.store.sessions.get? b.id = none

/-- Looking at sessions (`h`) takes no id. -/
theorem TimedStore.Looked.canDraw {t u : TimedStore} (h : t.Looked u) (ht : t.CanDraw) : u.CanDraw := by
  obtain ⟨b, hb, hfree⟩ := ht
  exact ⟨b, h.supply ▸ hb, h.free b.id hfree⟩

namespace SessionStore

variable {s : SessionStore} {supply : List Block}

/-- Where a block that is still to be drawn has an unused id (`h`), `freshId?` finds one. -/
theorem isSome_freshId? (h : ∃ b ∈ supply, s.sessions.get? b.id = none) : (s.freshId? supply).isSome := by
  obtain ⟨b, hb, hfree⟩ := h
  exact Option.isSome_iff_ne_none.2 fun hnone => freshId?_eq_none_iff.1 hnone b hb hfree

/-- So `changeId?` of a store does not run dry there. -/
theorem isSome_changeId? (h : ∃ b ∈ supply, s.sessions.get? b.id = none) (now : Nat) (id : SessionId) :
    (s.changeId? now id supply).isSome := by
  unfold changeId?
  split
  · rfl
  · split
    · rfl
    · -- `erase id` makes no other id taken.
      obtain ⟨b, hb, hfree⟩ := h
      have herased : (s.sessions.erase id).get? b.id = none := by simp [Table.get?_erase, hfree]
      rw [Option.isSome_map, insertFresh?, Option.isSome_map]
      exact isSome_freshId? ⟨b, hb, herased⟩

end SessionStore

/-- So `changeSessionId?` of an exchange returns, if an id can be drawn (`hx`). -/
theorem Exchange.isSome_changeSessionId? {x : Exchange} (hx : x.timed.CanDraw) : x.changeSessionId?.isSome := by
  have hlooked := x.looked_currentSession
  unfold changeSessionId?
  split
  · rfl
  · next id y hy =>
    rw [hy] at hlooked
    rw [Option.isSome_map]
    exact SessionStore.isSome_changeId? (hlooked.canDraw hx) y.now id

/-! ### Decisions -/

namespace BasicAuth

variable {g : BasicAuth} {x : Exchange}

/-- So `bindSession?`, which changes the id at most once, returns (`hx`). -/
theorem isSome_bindSession? (hx : x.timed.CanDraw) (caller : Principal) : (bindSession? x caller).isSome := by
  have hlooked := x.looked_currentSession
  unfold bindSession?
  split
  · rfl
  · next id y hy =>
    rw [hy] at hlooked
    dsimp only
    split
    · rfl
    · have hread := (Exchange.getAttribute_spec y id principalAttribute).2
      rw [Option.isSome_map]
      exact Exchange.isSome_changeSessionId? (hread.canDraw (hlooked.canDraw hx))

/-- Who is turned away: on a constrained path, whoever is not known, and whoever has none of the roles that are asked
for. -/
inductive Denies (g : BasicAuth) (path : String) (h : Headers) : StatusCode → Option String → Prop
  | unknown {c : SecurityConstraint} : g.constraint? path = some c →
    (∀ caller, ¬ Authenticates g.identities h caller) →
    Denies g path h .unauthorized (some ("Basic realm=\"" ++ g.realm ++ "\""))
  | unfit {c : SecurityConstraint} {caller : Principal} : g.constraint? path = some c →
    Authenticates g.identities h caller → c.permits caller = false → Denies g path h .forbidden none

/-- Whoever is denied passage (`h`) is turned away, and that changes nothing. -/
theorem check?_of_denies {status : StatusCode} {challenge : Option String}
    (h : g.Denies x.request.relativePath x.request.head.headers status challenge) :
    g.check? x = some (.deny status.code challenge, x) := by
  -- In each case of `Denies` the path is constrained, so the guard goes on to the credentials.
  cases h with
  | unknown hc hunknown =>
    unfold check?
    rw [hc]
    dsimp only
    split
    · rfl
    · next user password hcredentials =>
      have hnone : g.identities.validate? user password = none :=
        Option.eq_none_iff_forall_ne_some.2 fun caller hcaller => hunknown caller ⟨user, password, hcredentials, hcaller⟩
      rw [hnone]
      rfl
  | unfit hc hcaller hunfit =>
    obtain ⟨user, password, hcredentials, hvalid⟩ := hcaller
    simp [check?, hc, hcredentials, hvalid, hunfit, StatusCode.code]

/-- Everybody else (`h`) is let through, if an id can be drawn (`hx`). -/
theorem exists_allow (hx : x.timed.CanDraw)
    (h : ∀ status challenge, ¬ g.Denies x.request.relativePath x.request.head.headers status challenge) :
    ∃ y, g.check? x = some (.allow, y) := by
  unfold check?
  cases hc : g.constraint? x.request.relativePath with
  | none => exact ⟨x, rfl⟩
  | some c =>
    dsimp only
    -- On a constrained path the caller `Authenticates`, or else would be turned away.
    have hknown : ∃ caller, Authenticates g.identities x.request.head.headers caller := by
      by_contra hunknown
      exact h _ _ (.unknown hc (not_exists.1 hunknown))
    obtain ⟨caller, user, password, hcredentials, hvalid⟩ := hknown
    have hpermits : c.permits caller = true := by
      by_contra hunfit
      exact h _ _ (.unfit hc ⟨user, password, hcredentials, hvalid⟩ (by simpa using hunfit))
    obtain ⟨y, hy⟩ := Option.isSome_iff_exists.1 (isSome_bindSession? hx caller)
    simp [hcredentials, hvalid, hpermits, hy]

end BasicAuth

/-! ### Applications -/

/-- Whether the guard of `a`, if there is one, is a `BasicAuth`. -/
def Application.IsGuardedByCredentials (a : Application) : Prop :=
  ∀ guard, a.guard = some guard → ∃ g : BasicAuth, guard = g.guard

namespace Application

variable {a : Application} {x y : Exchange}

/-- Letting a request through (`h`) keeps its paths, whether no guard is asked or one that works by calls (`hguard`). -/
theorem Allows.samePaths (hguard : ∀ guard, a.guard = some guard → guard.WorksByCalls) (h : a.Allows x y) :
    SamePaths x y := by
  unfold Allows at h
  split at h
  · rw [h]
    exact .refl x
  · next guard hsome => exact ((hguard guard hsome).check h).samePaths

variable (hguard : a.IsGuardedByCredentials)

include hguard

/-- So whoever no guard of the application turns away (`hdenies`) is let through. -/
theorem exists_allows (hx : x.timed.CanDraw) (hdenies : ∀ g : BasicAuth, a.guard = some g.guard →
    ∀ status challenge, ¬ g.Denies x.request.relativePath x.request.head.headers status challenge) :
    ∃ y, a.Allows x y := by
  unfold Allows
  split
  · exact ⟨x, rfl⟩
  · next guard hsome =>
    obtain ⟨g, rfl⟩ := hguard guard hsome
    exact BasicAuth.exists_allow hx (hdenies g hsome)

variable (h : a.Allows x y)

include h

/-- The path stays, and nothing is recorded. -/
theorem Allows.keeps : y.request.relativePath = x.request.relativePath ∧ y.journal = x.journal := by
  constructor
  · refine (h.samePaths fun guard hsome => ?_).relativePath
    obtain ⟨g, rfl⟩ := hguard guard hsome
    exact g.worksByCalls_guard
  · unfold Allows at h
    split at h
    · rw [h]
    · next guard hsome =>
      obtain ⟨g, rfl⟩ := hguard guard hsome
      exact (BasicAuth.quiet_check? h).journal

/-- What is let through is dispatched. -/
theorem Allows.routeWithin_eq (invoke : Invoker) : routeWithin invoke a x = dispatchRequest invoke a y := by
  unfold Allows at h
  unfold routeWithin
  cases hsome : a.guard with
  | none =>
    rw [hsome] at h
    rw [show y = x from h]
  | some guard =>
    rw [hsome] at h
    obtain ⟨g, rfl⟩ := hguard guard hsome
    dsimp only at h ⊢
    rw [h]
    show (dispatchRequest invoke a y).map id = _
    rw [Option.map_id_fun, id]

end Application

/-- Turning a request away (`hdenies`) ends it: the answer of `deny` is all that there is, whatever the application. -/
theorem serveWithin_of_denies (limits : Limits) (timeout : Nat) {app : Application} {g : BasicAuth} {x : Exchange}
    {status : StatusCode} {challenge : Option String} (hguard : app.guard = some g.guard)
    (hdenies : g.Denies x.request.relativePath x.request.head.headers status challenge) (hpending : x.pending = none) :
    serveWithin limits timeout app x = some (deny status.code challenge x) := by
  have hroute : routeWithin (invoke app limits.depth) app x = some (deny status.code challenge x) := by
    unfold routeWithin
    rw [hguard]
    dsimp only
    rw [show g.guard.check x = _ from BasicAuth.check?_of_denies hdenies]
    rfl
  have hdone : (deny status.code challenge x).pending = none := hpending
  rw [serveWithin, hroute, Option.bind_some, settle_of_pending_none hdone]

end ServletContainer
