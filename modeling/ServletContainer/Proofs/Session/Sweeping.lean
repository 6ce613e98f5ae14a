import Mathlib.Data.List.Forall2
import ServletContainer.Proofs.Session.Runs

namespace ServletContainer

/-!
# Sweeping

A sweep removes the sessions that have run out. Since every look-up passes them over anyway, it makes no difference
when a store is swept, except to one call: `invalidate` asks whether there is a record, live or not.

* `SessionStore.Swept` — calls with sweeps put in between.
* `TimedStore.Moment`, `TimedStore.moments` — the calls of a run, with what each was made on and what it reported.
* `TimedStore.Thins` — a store is another one but for sessions that have run out; `Thins.perform` is the step that a
  call takes in both, `Thins.sweep` the one that a sweep takes in the second alone.
* `TimedStore.Moment.ShowsAs` — what two moments have in common however often the second store was swept.
* `TimedStore.showsAs_of_swept` — whole runs; `TimedStore.invalidate_of_swept` shows the exception to be real.
-/

namespace SessionStore

/-- Whether calls are others with `expireIdle` put in between. -/
inductive Swept : List Call → List Call → Prop
  | nil : Swept [] []
  | call (c : Call) {calls calls' : List Call} : Swept calls calls' → Swept (c :: calls) (c :: calls')
  | sweep {calls calls' : List Call} : Swept calls calls' → Swept calls (.expireIdle :: calls')

/-- Whether a call is an `expireIdle`. -/
def Call.isSweep : Call → Bool
  | .expireIdle => true
  | _ => false

end SessionStore

namespace TimedStore

open SessionStore (Call Reply Swept)

variable {t t' u u' : TimedStore} {c : Call} {r : Reply} {id : SessionId}

/-! ### Moments of a run -/

/-- A `call` of a run, with the store that it was made on and what it reported. -/
structure Moment where
  before : TimedStore
  call : Call
  reply : Reply

/-- The moments of a run in order; none if a call needs an id and the supply of blocks has run dry. -/
def moments (t : TimedStore) : List Call → Option (List Moment)
  | [] => some []
  | c :: calls => (t.perform c).bind fun (r, u) => (u.moments calls).map (⟨t, c, r⟩ :: ·)

/-- The moments of `ms` that are no sweeps. -/
def unswept (ms : List Moment) : List Moment := ms.filter fun m => !m.call.isSweep

/-- The moments of calls are that of the first one and those of the others. -/
theorem moments_cons_eq_some {calls : List Call} {ms : List Moment} (h : t.moments (c :: calls) = some ms) :
    ∃ r u rest, t.perform c = some (r, u) ∧ u.moments calls = some rest ∧ ms = ⟨t, c, r⟩ :: rest := by
  obtain ⟨⟨r, u⟩, hr, hrest⟩ := Option.bind_eq_some_iff.1 h
  obtain ⟨rest, hmoments, rfl⟩ := Option.map_eq_some_iff.1 hrest
  exact ⟨r, u, rest, hr, hmoments, rfl⟩

/-- And they are put together so. -/
theorem moments_cons {calls : List Call} {rest : List Moment} (hc : t.perform c = some (r, u))
    (hrest : u.moments calls = some rest) : t.moments (c :: calls) = some (⟨t, c, r⟩ :: rest) := by
  rw [moments, hc]
  show Option.map _ (u.moments calls) = _
  rw [hrest, Option.map_some]

/-! ### Thinner stores -/

/-- Whether `u` is `t` but for sessions that have run out. -/
structure Thins (t u : TimedStore) : Prop where
  now : u.now = t.now
  supply : u.supply = t.supply
  config : u.store.config = t.store.config
  sessions : ∀ id, u.store.sessions.get? id = t.store.sessions.get? id ∨
    u.store.sessions.get? id = none ∧ t.resolve? id = none

/-- Whether `m` and `m'` show the same, the store of `m'` being thinner. Only an `invalidate` may find the record of a
session that has run out in the first store, and not in the second. -/
structure Moment.ShowsAs (m m' : Moment) : Prop where
  call : m'.call = m.call
  now : m'.before.now = m.before.now
  resolves : ∀ id, m'.before.resolve? id = m.before.resolve? id
  reply : m'.reply = m.reply ∨ ∃ id, m.call = .invalidate id ∧ m.before.resolve? id = none ∧
    m.reply = .flag true ∧ m'.reply = .flag false

namespace Thins

theorem refl (t : TimedStore) : t.Thins t := ⟨rfl, rfl, rfl, fun _ => .inl rfl⟩

/-- What has run out does not resolve, so a thinner store resolves the same. -/
theorem resolve?_eq (h : t.Thins u) (id : SessionId) : u.resolve? id = t.resolve? id := by
  rcases h.sessions id with hsame | ⟨hgone, hnone⟩
  · exact resolve?_of_get? h.now hsame
  · rw [resolve?_of_get?_none hgone, hnone]

/-- A sweep of the thinner store (`hs`) takes away what does not resolve. -/
theorem sweep (h : t.Thins u) (hs : u.perform .expireIdle = some (r, u')) : t.Thins u' := by
  have hconfig := config_perform hs
  obtain ⟨hnow, hsupply, hget⟩ := perform_expireIdle hs
  refine ⟨hnow.trans h.now, hsupply.trans h.supply, hconfig.trans h.config, fun id => ?_⟩
  rw [hget, h.resolve?_eq]
  cases hres : t.resolve? id with
  | none => exact .inr ⟨rfl, rfl⟩
  | some s =>
    obtain ⟨s', hs', hlive⟩ := Option.bind_eq_some_iff.1 (t.resolve?_eq id ▸ hres)
    obtain ⟨-, rfl⟩ := Session.liveAt_eq_some_iff.1 hlive
    exact .inl hs'.symm

end Thins

/-- Moving a session that does not resolve (`h`) draws nothing, so it always returns. -/
theorem isSome_perform_changeId (h : t.resolve? id = none) : (t.perform (.changeId id)).isSome := by
  rw [resolve?_eq] at h
  show (Option.map _ (t.store.changeId? t.now id t.supply)).isSome
  rw [Option.isSome_map, SessionStore.changeId?]
  cases hid : t.store.sessions.get? id with
  | none => rfl
  | some s =>
    rw [hid, Option.bind_some, Session.liveAt] at h
    have hexpired : s.isExpired t.now = true := by
      by_contra hlive
      rw [if_neg hlive] at h
      cases h
    simp only [hexpired, if_true, Option.isSome_some]

namespace Thins

/-- A call that returns in a store (`hc`) returns in a thinner one: both draw from the same supply. -/
theorem isSome_perform (h : t.Thins u) (ht : t.Fresh) (hu : u.Fresh) (hc : t.perform c = some (r, t')) :
    (u.perform c).isSome := by
  by_cases hmove : ∃ id, c = .changeId id ∧ t.resolve? id = none
  · obtain ⟨id, rfl, hnone⟩ := hmove
    exact isSome_perform_changeId ((h.resolve?_eq id).trans hnone)
  · refine hu.perform_isSome fun hdraws hempty => ?_
    -- By `h.supply` the call has drawn from the same supply.
    rw [h.supply] at hempty
    rcases ht.supply_cases hc with ⟨-, hno⟩ | ⟨-, b, hb, -⟩
    · cases c with
      | create =>
        obtain ⟨b, rest, hb, -⟩ := ht.perform_create hc
        simp [hempty] at hb
      | changeId id =>
        rcases ht.perform_changeId hc with ⟨hnone, -⟩ | ⟨s, b, rest, -, hb, -⟩
        · exact hmove ⟨id, rfl, hnone⟩
        · simp [hempty] at hb
      | _ => cases hdraws
    · simp [hempty] at hb

/-- What the tables hold of an id after a call that drew nothing for it (`ht`, `hu`). -/
theorem sessions_of_kept (h : t.Thins u) (hnow : t'.now = t.now)
    (ht : t'.store.sessions.get? id = t.store.sessions.get? id)
    (hu : u'.store.sessions.get? id = u.store.sessions.get? id) :
    u'.store.sessions.get? id = t'.store.sessions.get? id ∨
      u'.store.sessions.get? id = none ∧ t'.resolve? id = none := by
  rw [ht, hu, resolve?_of_get? hnow ht]
  exact h.sessions id

/-- To move a session draws the same id in a store and in a thinner one, or none in both. -/
theorem perform_changeId {i : SessionId} {r' : Reply} (h : t.Thins u) (ht : t.Fresh) (hu : u.Fresh)
    (hc : t.perform (.changeId i) = some (r, t')) (hc' : u.perform (.changeId i) = some (r', u')) :
    u'.supply = t'.supply ∧
      (∀ id, u'.store.sessions.get? id = t'.store.sessions.get? id ∨
        u'.store.sessions.get? id = none ∧ t'.resolve? id = none) ∧
      r' = r := by
  -- Both stores resolve `i` alike, so they take the same branch, and the mixed cases are absurd.
  have hres := h.resolve?_eq i
  rcases ht.perform_changeId hc with ⟨hnone, rfl, hnow, hsupply, hget⟩ | ⟨s, b, rest, hs, hb, rfl, hnow, hsupply, -, hget⟩
  · rcases hu.perform_changeId hc' with ⟨-, rfl, -, hsupply', hget'⟩ | ⟨s', -, -, hs', -⟩
    · refine ⟨by rw [hsupply, hsupply', h.supply], fun id => ?_, rfl⟩
      by_cases hid : id = i
      · rw [hget, hget', if_pos hid, if_pos hid]
        exact .inl rfl
      · exact h.sessions_of_kept hnow (by rw [hget, if_neg hid]) (by rw [hget', if_neg hid])
    · rw [hres, hnone] at hs'
      cases hs'
  · rcases hu.perform_changeId hc' with ⟨hnone', -⟩ | ⟨s', b', rest', hs', hb', rfl, -, hsupply', -, hget'⟩
    · rw [hres, hs] at hnone'
      cases hnone'
    · obtain rfl := Option.some.inj (hs'.symm.trans (hres.trans hs))
      obtain ⟨rfl, rfl⟩ := List.cons.inj (hb'.symm.trans (h.supply.trans hb))
      refine ⟨hsupply'.trans hsupply.symm, fun id => ?_, rfl⟩
      by_cases hnew : id = b'.id
      · rw [hget, hget', if_pos hnew, if_pos hnew]
        exact .inl rfl
      · by_cases hid : id = i
        · rw [hget, hget', if_neg hnew, if_neg hnew, if_pos hid, if_pos hid]
          exact .inl rfl
        · exact h.sessions_of_kept hnow (by rw [hget, if_neg hnew, if_neg hid])
            (by rw [hget', if_neg hnew, if_neg hid])

/-- A call shows the same in a store and in a thinner one, and leaves a store and a thinner one. One case for each call.
-/
theorem perform (h : t.Thins u) (ht : t.Fresh) (hu : u.Fresh) (hc : t.perform c = some (r, t')) :
    ∃ r' u', u.perform c = some (r', u') ∧ t'.Thins u' ∧
      (c.isSweep = false → Moment.ShowsAs ⟨t, c, r⟩ ⟨u, c, r'⟩) := by
  obtain ⟨⟨r', u'⟩, hc'⟩ := Option.isSome_iff_exists.1 (h.isSome_perform ht hu hc)
  refine ⟨r', u', hc', ?_⟩
  have hconfig : u'.store.config = t'.store.config := by
    rw [config_perform hc', config_perform hc, h.config]
  -- `now` and `resolve?` agree whatever `c` is; the supplies, the tables and the replies remain.
  suffices hrest : u'.supply = t'.supply ∧
      (∀ id, u'.store.sessions.get? id = t'.store.sessions.get? id ∨
        u'.store.sessions.get? id = none ∧ t'.resolve? id = none) ∧
      (c.isSweep = false → r' = r ∨ ∃ id, c = .invalidate id ∧ t.resolve? id = none ∧
        r = .flag true ∧ r' = .flag false) by
    have hnow : u'.now = t'.now := by rw [hu.now_perform hc', ht.now_perform hc, h.now]
    exact ⟨⟨hnow, hrest.1, hconfig, hrest.2.1⟩, fun hsweep => ⟨rfl, h.now, h.resolve?_eq, hrest.2.2 hsweep⟩⟩
  cases c with
  | create =>
    obtain ⟨b, rest, hb, rfl, hnow, rfl, hget⟩ := ht.perform_create hc
    obtain ⟨b', rest', hb', rfl, -, rfl, hget'⟩ := hu.perform_create hc'
    obtain ⟨rfl, hrest⟩ := List.cons.inj (hb'.symm.trans (h.supply.trans hb))
    refine ⟨hrest, fun id => ?_, fun _ => .inl rfl⟩
    by_cases hid : id = b'.id
    · rw [hget, hget', if_pos hid, if_pos hid, h.now, h.config]
      exact .inl rfl
    · exact h.sessions_of_kept hnow (by rw [hget, if_neg hid]) (by rw [hget', if_neg hid])
  | access i a =>
    obtain ⟨rfl, hnow, hsupply, hget⟩ := perform_access hc
    obtain ⟨rfl, -, hsupply', hget'⟩ := perform_access hc'
    refine ⟨by rw [hsupply, hsupply', h.supply], fun id => ?_, fun _ => .inl (by rw [h.resolve?_eq])⟩
    by_cases hid : id = i
    · rw [hget, hget', if_pos hid, if_pos hid, h.resolve?_eq, h.now]
      exact .inl rfl
    · exact h.sessions_of_kept hnow (by rw [hget, if_neg hid]) (by rw [hget', if_neg hid])
  | invalidate i =>
    obtain ⟨rfl, hnow, hsupply, hget⟩ := perform_invalidate hc
    obtain ⟨rfl, -, hsupply', hget'⟩ := perform_invalidate hc'
    refine ⟨by rw [hsupply, hsupply', h.supply], fun id => ?_, fun _ => ?_⟩
    · by_cases hid : id = i
      · rw [hget, hget', if_pos hid, if_pos hid]
        exact .inl rfl
      · exact h.sessions_of_kept hnow (by rw [hget, if_neg hid]) (by rw [hget', if_neg hid])
    · rcases h.sessions i with hsame | ⟨hgone, hnone⟩
      · exact .inl (by rw [hsame])
      · -- The record is in `t` at most, and has run out.
        rw [hgone]
        cases t.store.sessions.get? i with
        | none => exact .inl rfl
        | some s => exact .inr ⟨i, rfl, hnone, rfl, rfl⟩
  | changeId i =>
    obtain ⟨hsupply, hsessions, hreply⟩ := h.perform_changeId ht hu hc hc'
    exact ⟨hsupply, hsessions, fun _ => .inl hreply⟩
  | expireIdle =>
    obtain ⟨-, hsupply, hget⟩ := perform_expireIdle hc
    obtain ⟨-, hsupply', hget'⟩ := perform_expireIdle hc'
    refine ⟨by rw [hsupply, hsupply', h.supply], fun id => .inl ?_, fun hsweep => by cases hsweep⟩
    rw [hget, hget', h.resolve?_eq]
  | invalidateAll =>
    obtain ⟨rfl, rfl⟩ := Prod.mk.inj (Option.some.inj hc)
    obtain ⟨rfl, rfl⟩ := Prod.mk.inj (Option.some.inj hc')
    exact ⟨h.supply, fun id => .inl rfl, fun _ => .inl rfl⟩
  | advance millis =>
    obtain ⟨rfl, rfl⟩ := Prod.mk.inj (Option.some.inj hc)
    obtain ⟨rfl, rfl⟩ := Prod.mk.inj (Option.some.inj hc')
    refine ⟨h.supply, fun id => (h.sessions id).imp_right fun ⟨hgone, hnone⟩ => ⟨hgone, ?_⟩, fun _ => .inl rfl⟩
    -- By `resolve?_bind_liveAt` what has run out stays so as time passes.
    have hlater : (t.resolve? id).bind (Session.liveAt (t.now + millis)) = _ :=
      t.resolve?_bind_liveAt (Nat.le_add_right t.now millis)
    rw [hnone, Option.bind_none] at hlater
    rw [TimedStore.resolve?_eq]
    exact hlater.symm

end Thins

/-! ### Runs -/

/-- From call to run: runs in a store and in a thinner one that is swept more often (`hswept`) show the same. -/
theorem Thins.moments (h : t.Thins u) (ht : t.Fresh) (hu : u.Fresh) {calls calls' : List Call}
    (hswept : Swept calls calls') {ms : List Moment} (hms : t.moments calls = some ms) :
    ∃ ms', u.moments calls' = some ms' ∧ List.Forall₂ Moment.ShowsAs (unswept ms) (unswept ms') := by
  -- By induction on `hswept`, how the sweeps are put in; the two stores are carried along.
  induction hswept generalizing t u ms with
  | nil =>
    obtain rfl := Option.some.inj hms
    exact ⟨[], rfl, .nil⟩
  | call c _ ih =>
    obtain ⟨r, t', rest, hc, hrest, rfl⟩ := moments_cons_eq_some hms
    obtain ⟨r', u', hc', hthins, hshows⟩ := h.perform ht hu hc
    obtain ⟨rest', hrest', hall⟩ := ih hthins (ht.perform hc) (hu.perform hc') hrest
    refine ⟨_, moments_cons hc' hrest', ?_⟩
    cases hsweep : c.isSweep with
    | true => simpa [unswept, hsweep] using hall
    | false =>
      have hcons := List.Forall₂.cons (hshows hsweep) hall
      simpa [unswept, hsweep] using hcons
  -- `u` alone is swept, and the moment of the sweep is left out.
  | sweep _ ih =>
    obtain ⟨⟨r', u'⟩, hc'⟩ := Option.isSome_iff_exists.1 (hu.perform_isSome (c := .expireIdle) (by simp [Call.draws]))
    obtain ⟨rest', hrest', hall⟩ := ih (h.sweep hc') ht (hu.perform hc') hms
    exact ⟨_, moments_cons hc' hrest', by simpa [unswept, Call.isSweep] using hall⟩

/-- **Sweeping does not show.** Whatever is called since a store was empty, and wherever sweeps are put in (`hswept`):
both runs return, and their other calls are made at the same times, find the same sessions, and report the same. There
is one exception: to end a session that has run out reports that there was one, if no sweep has come first. -/
theorem showsAs_of_swept (config : SessionConfig) (now : Nat) {supply : List Block}
    (hsupply : (supply.map Block.id).Nodup) {calls calls' : List Call} (hswept : Swept calls calls')
    {ms : List Moment} (hms : (start config now supply).moments calls = some ms) :
    ∃ ms', (start config now supply).moments calls' = some ms' ∧
      List.Forall₂ Moment.ShowsAs (unswept ms) (unswept ms') := by
  have hstart : (start config now supply).Fresh := ⟨hsupply, fun _ _ => rfl⟩
  exact (Thins.refl _).moments hstart hstart hswept hms

/-- Calls that start a session, let it run out, and then move it, find it and start another one. -/
def idleCalls : List Call :=
  let id := "00000000000000000000000000000000"
  [.create, .advance 1800001, .changeId id, .access id .find, .create]

/-- The `idleCalls` with sweeps between them. -/
def sweptIdleCalls : List Call :=
  let id := "00000000000000000000000000000000"
  [.create, .expireIdle, .advance 1800001, .expireIdle, .changeId id, .access id .find, .expireIdle, .create]

/-- The sweeps stand behind the start, behind the wait and in front of the second start. -/
theorem swept_idleCalls : Swept idleCalls sweptIdleCalls :=
  .call _ (.sweep (.call _ (.sweep (.call _ (.call _ (.sweep (.call _ .nil)))))))

/-- A session that has run out is neither moved nor found, whether it was swept or not. -/
theorem showsAs_of_swept_idleCalls : ∃ ms ms', Swept idleCalls sweptIdleCalls ∧
    (start .standard 0 twoBlocks).moments idleCalls = some ms ∧
    (start .standard 0 twoBlocks).moments sweptIdleCalls = some ms' ∧ ms.length = 5 ∧
    List.Forall₂ Moment.ShowsAs (unswept ms) (unswept ms') := by
  obtain ⟨ms, hms, hlength⟩ :
      ∃ ms, (start .standard 0 twoBlocks).moments idleCalls = some ms ∧ ms.length = 5 := ⟨_, rfl, rfl⟩
  obtain ⟨ms', hms', hall⟩ := showsAs_of_swept .standard 0 (by decide +kernel) swept_idleCalls hms
  exact ⟨ms, ms', swept_idleCalls, hms, hms', hlength, hall⟩

/-- The exception is real: of one session that has run out, `invalidate` tells that there was one, and after a sweep
that there was none. -/
theorem invalidate_of_swept :
    let id := "00000000000000000000000000000000"
    let calls := [Call.create, .advance 1800001, .invalidate id]
    let calls' := [Call.create, .advance 1800001, .expireIdle, .invalidate id]
    Swept calls calls' ∧ ∃ ms ms', (start .standard 0 twoBlocks).moments calls = some ms ∧
      (start .standard 0 twoBlocks).moments calls' = some ms' ∧
      (unswept ms).map Moment.reply = [.id (some id), .done, .flag true] ∧
      (unswept ms').map Moment.reply = [.id (some id), .done, .flag false] :=
  ⟨.call _ (.call _ (.sweep (.call _ .nil))), _, _, rfl, rfl, rfl, rfl⟩

end TimedStore

end ServletContainer
