import ServletContainer.Proofs.Session.Drawn

namespace ServletContainer

/-!
# New sessions

A session is new from when it is started until it is first looked up for a request, whatever else is called, and also
when it is moved to another id in between.

* `SessionStore.Meets` — a session is looked up, or none is; all others stay as new as they were.
* `SessionStore.Remembers` — the invariant: the sessions that are new are those that have not been met.
* `Call.meet`, `TimedStore.remembers_perform` — what has been met after a call to the store.
* `SessionStore.TellsNew` — what a handle tells of its session.
-/

namespace SessionStore

variable {s t u : SessionStore} {found : Option SessionId} {met : SessionId → Prop}

/-! ### Looking up -/

/-- Whether the session `found`, if any, is not new any more in `u`, and every other one was in `s` before and was as
new. -/
def Meets (s : SessionStore) (found : Option SessionId) (u : SessionStore) : Prop :=
  ∀ id session, u.sessions.get? id = some session →
    found = some id ∧ session.isNew = false ∨
      found ≠ some id ∧ ∃ before, s.sessions.get? id = some before ∧ before.isNew = session.isNew

theorem Meets.refl (s : SessionStore) : s.Meets none s := fun _ session h => .inr ⟨by simp, session, h, rfl⟩

/-- A look-up behind one that has found nothing (`h`). -/
theorem Meets.trans (h : s.Meets none t) (h' : t.Meets found u) : s.Meets found u := by
  intro id session hid
  rcases h' id session hid with hfound | ⟨hother, before, hbefore, hnew⟩
  · exact .inl hfound
  · rcases h id before hbefore with ⟨hnone, -⟩ | ⟨-, first, hfirst, hsame⟩
    · cases hnone
    · exact .inr ⟨hother, first, hfirst, hsame.trans hnew⟩

/-- Where a call leaves nothing but what was there (`h`), nothing is met. -/
theorem Meets.of_subset (h : ∀ id session, u.sessions.get? id = some session → s.sessions.get? id = some session) :
    s.Meets none u := fun id session hid => .inr ⟨by simp, session, h id session hid, rfl⟩

/-- `find` meets the session that it finds, which is not new any more. -/
theorem meets_find (s : SessionStore) (now : Nat) (id : SessionId) :
    s.Meets (if (s.find now id).1 = true then some id else none) (s.find now id).2 := by
  intro j session hj
  have hget := s.get?_change now id j (Session.touched now)
  rw [find] at hj
  rw [hj] at hget
  rw [find, change_fst]
  -- `id` is the one that is touched, and any other session stays as it is.
  split at hget
  · next hid =>
    obtain ⟨before, hbefore, rfl⟩ := Option.map_eq_some_iff.1 hget.symm
    exact .inl ⟨by rw [hbefore, hid]; rfl, rfl⟩
  · next hid =>
    refine .inr ⟨fun h => ?_, session, hget.symm, rfl⟩
    split at h
    · exact hid (Option.some.inj h).symm
    · cases h

/-- Whatever else a handle is asked or told (`ha`), its session stays as new as it was. One case for each access. -/
theorem Access.meets_perform {a : Access} (ha : a ≠ .find) (now : Nat) (id : SessionId) (s : SessionStore) :
    s.Meets none (a.perform now id s).2 := by
  have hwrite : ∀ x, (a.write now x).isNew = x.isNew := by
    intro x
    cases a <;> first | rfl | exact absurd rfl ha
  intro j session hj
  rw [a.get?_perform] at hj
  split at hj
  · next hid =>
    obtain ⟨before, hbefore, rfl⟩ := Option.map_eq_some_iff.1 hj
    rw [access_fst, ← hid] at hbefore
    obtain ⟨held, hheld, hlive⟩ := Option.bind_eq_some_iff.1 hbefore
    obtain ⟨-, rfl⟩ := Session.liveAt_eq_some_iff.1 hlive
    exact .inr ⟨by simp, held, hheld, (hwrite held).symm⟩
  · exact .inr ⟨by simp, session, hj, rfl⟩

/-- Taking a session out meets nothing. -/
theorem meets_erase (s : SessionStore) (id : SessionId) : s.Meets none { s with sessions := s.sessions.erase id } :=
  .of_subset fun j session hj => by
    rw [Table.get?_erase] at hj
    split at hj
    · cases hj
    · exact hj

/-! ### What has been met -/

/-- Whether the sessions of `s` that are new are those that have not been `met`. -/
def Remembers (s : SessionStore) (met : SessionId → Prop) : Prop :=
  ∀ id session, s.sessions.get? id = some session → (session.isNew = true ↔ ¬ met id)

/-- A store without sessions remembers whatever was met. -/
theorem remembers_of_empty (h : s.sessions = .empty) (met : SessionId → Prop) : s.Remembers met := by
  intro id session hid
  rw [h] at hid
  cases hid

/-- `Remembers` asks what was met, however that is said (`heq`). -/
theorem Remembers.congr {met' : SessionId → Prop} (h : s.Remembers met) (heq : ∀ id, met id ↔ met' id) :
    s.Remembers met' := fun id session hid => (h id session hid).trans (not_congr (heq id))

/-- A store remembers what is found (`hu`) as met. -/
theorem Remembers.meets (h : s.Remembers met) (hu : s.Meets found u) :
    u.Remembers fun id => found = some id ∨ met id := by
  intro id session hid
  rcases hu id session hid with ⟨hfound, hold⟩ | ⟨hother, before, hbefore, hsame⟩
  · simp [hfound, hold]
  · rw [← hsame, h id before hbefore]
    simp [hother]

/-- Where nothing is found (`hu`), nothing more has been met. -/
theorem Remembers.meets_none (h : s.Remembers met) (hu : s.Meets none u) : u.Remembers met :=
  (h.meets hu).congr fun id => by simp

/-- A session that is put under a fresh id (`hs`) is as new as it was (`hsession`). -/
theorem Remembers.insertFresh? (h : s.Remembers met) {session : Session} {supply rest : List Block} {new : SessionId}
    {metThere : Prop} (hsession : session.isNew = true ↔ ¬ metThere)
    (hs : s.insertFresh? session supply = some (new, rest, u)) :
    u.Remembers fun id => id = new ∧ metThere ∨ id ≠ new ∧ met id := by
  obtain ⟨-, rfl⟩ := insertFresh?_eq_some hs
  intro id x hid
  rw [Table.get?_insert] at hid
  split at hid
  · next hnew =>
    obtain rfl := Option.some.inj hid
    simpa [hnew] using hsession
  · next hother => simpa [hother] using h id x hid

/-- A session that is started (`hs`) is new. -/
theorem Remembers.create? (h : s.Remembers met) {now : Nat} {supply rest : List Block} {new : SessionId}
    (hs : s.create? now supply = some (new, rest, u)) : u.Remembers fun id => id ≠ new ∧ met id := by
  have hstarted : (Session.start now s.config.timeoutMillis?).isNew = true ↔ ¬ False := by simp [Session.start]
  exact (h.insertFresh? hstarted hs).congr fun id => by simp

/-- A session that is moved (`hs`) is as new as it was under its old id. -/
theorem Remembers.changeId? (h : s.Remembers met) {now : Nat} {old : SessionId} {supply rest : List Block}
    {changed : Option SessionId} (hs : s.changeId? now old supply = some (changed, rest, u)) :
    u.Remembers fun id => changed = some id ∧ met old ∨ changed ≠ some id ∧ met id := by
  have herased := h.meets_none (s.meets_erase old)
  unfold SessionStore.changeId? at hs
  split at hs
  · obtain ⟨rfl, rfl, rfl⟩ := hs
    exact h.congr fun id => by simp
  · next session hget =>
    split at hs
    · obtain ⟨rfl, rfl, rfl⟩ := hs
      exact herased.congr fun id => by simp
    · obtain ⟨⟨new, left, v⟩, hv, heq⟩ := Option.map_eq_some_iff.1 hs
      obtain ⟨rfl, rfl, rfl⟩ := heq
      exact (herased.insertFresh? (h old session hget) hv).congr fun id => by simp [eq_comm]

/-- Whether `handleState` tells that the session of `id` is new if and only if it is live and `new`. -/
def TellsNew (s : SessionStore) (now : Nat) (id : SessionId) (new : Prop) : Prop :=
  (s.handleState now id).1.isNew = true ↔ (s.handleState now id).1.isValid = true ∧ new

/-- A handle tells that a session is new if it is live and has not been met. -/
theorem Remembers.tellsNew (h : s.Remembers met) (now : Nat) (id : SessionId) : s.TellsNew now id (¬ met id) := by
  have hstate : (s.handleState now id).1
      = ⟨id, ((s.access now id).1.map Session.isNew).getD false, (s.access now id).1.isSome⟩ := by
    simpa [Access.perform, Access.answer, report] using Access.perform_fst .handleState now id s
  rw [TellsNew, hstate, access_fst]
  cases hget : s.sessions.get? id with
  | none => simp
  | some session =>
    have hnew := h id session hget
    cases hlive : session.isExpired now <;> simp [Session.liveAt, hlive, hnew]

/-- What has been met after a call to the store and its reply: a session that is started has not, one that is moved has
if it had been `met` before, and one that `find` finds for a request has. -/
def Call.meet (met : SessionId → Prop) : Call → Reply → SessionId → Prop
  | .create, .id new => fun id => new ≠ some id ∧ met id
  | .changeId old, .id new => fun id => new = some id ∧ met old ∨ new ≠ some id ∧ met id
  | .access found .find, .flag true => fun id => found = id ∨ met id
  | _, _ => met

end SessionStore

open SessionStore (Access Call Reply)

/-- Whatever is called, a store remembers what has been met: `Call.meet` says what that is. One case for each call. -/
theorem TimedStore.remembers_perform {t u : TimedStore} {c : Call} {r : Reply} {met : SessionId → Prop}
    (ht : t.store.Remembers met) (h : t.perform c = some (r, u)) : u.store.Remembers (c.meet met r) := by
  cases c with
  | create =>
    obtain ⟨⟨new, rest, store⟩, hs, heq⟩ := Option.map_eq_some_iff.1 h
    obtain ⟨rfl, rfl⟩ := Prod.mk.inj heq
    exact (ht.create? hs).congr fun id => by simp [Call.meet, eq_comm]
  | changeId old =>
    obtain ⟨⟨new, rest, store⟩, hs, heq⟩ := Option.map_eq_some_iff.1 h
    obtain ⟨rfl, rfl⟩ := Prod.mk.inj heq
    exact ht.changeId? hs
  | access id a =>
    obtain ⟨rfl, rfl⟩ := Prod.mk.inj (Option.some.inj h)
    -- Of the accesses, only `find` meets a session, and only if it finds it.
    by_cases ha : a = .find
    · subst ha
      have hmeets := ht.meets (t.store.meets_find t.now id)
      show SessionStore.Remembers _ (Call.meet met (.access id .find) (.flag (t.store.find t.now id).1))
      cases hfound : (t.store.find t.now id).1 <;> exact hmeets.congr fun j => by simp [hfound, Call.meet]
    · have hkept := ht.meets_none (Access.meets_perform ha t.now id t.store)
      cases a <;> first | exact hkept | exact absurd rfl ha
  | invalidate id =>
    obtain ⟨rfl, rfl⟩ := Prod.mk.inj (Option.some.inj h)
    exact ht.meets_none (t.store.meets_erase id)
  | expireIdle =>
    obtain ⟨-, -, hget⟩ := perform_expireIdle h
    obtain ⟨rfl, -⟩ := Prod.mk.inj (Option.some.inj h)
    -- What `expireIdle` leaves was there before, unchanged.
    refine ht.meets_none (.of_subset fun id session hid => ?_)
    rw [hget, resolve?_eq] at hid
    obtain ⟨held, hheld, hlive⟩ := Option.bind_eq_some_iff.1 hid
    obtain ⟨-, rfl⟩ := Session.liveAt_eq_some_iff.1 hlive
    exact hheld
  | invalidateAll =>
    obtain ⟨rfl, rfl⟩ := Prod.mk.inj (Option.some.inj h)
    exact SessionStore.remembers_of_empty rfl _
  | advance millis =>
    obtain ⟨rfl, rfl⟩ := Prod.mk.inj (Option.some.inj h)
    exact ht

end ServletContainer
