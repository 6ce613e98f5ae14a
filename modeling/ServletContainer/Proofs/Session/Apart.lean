import Mathlib.Data.List.Dedup
import Mathlib.Data.List.Perm.Subperm
import ServletContainer.Proofs.Session.Drawn
import ServletContainer.Proofs.Session.Identifiers
import ServletContainer.Proofs.Session.Life

namespace ServletContainer

/-!
# Sessions that stay apart

A supply may repeat its blocks, and then a block is drawn whose id a session has already. The search for an id passes
it over, so that no session ever gets in the way of another one.

* `SessionStore.FirstFree` — where the search for an id ends.
* `SessionStore.exists_free_of_size_lt` — it does if there are more blocks than sessions.
* `TimedStore.perform_create_spec`, `TimedStore.perform_changeId_spec` — what starting and moving a session leaves.
* `SessionStore.Call.Shifts`, `SessionStore.ShiftsTo` — under which id a session is after calls that others make.
* `TimedStore.KeepsApart`, `TimedStore.keepsApart_of_run` — everything that holds after every run.
-/

namespace SessionStore

variable {s u : SessionStore} {supply rest : List Block} {id : SessionId} {session : Session}

/-! ### The search for an id -/

/-- Whether `b` is the first block of `supply` whose id no session of `s` has, and `rest` comes after it. -/
def FirstFree (s : SessionStore) (supply : List Block) (b : Block) (rest : List Block) : Prop :=
  ∃ passed, supply = passed ++ b :: rest ∧ (∀ p ∈ passed, s.Holds p.id) ∧ ¬ s.Holds b.id

/-- As many sessions as there are different blocks are needed to take the ids of all of them. -/
theorem exists_free_of_size_lt (h : s.size < supply.dedup.length) : ∃ b ∈ supply, ¬ s.Holds b.id := by
  by_contra hnone
  have htaken : ∀ b ∈ supply, s.Holds b.id := fun b hb => by_contra fun hfree => hnone ⟨b, hb, hfree⟩
  -- `id_injective`: different blocks have different ids, and so there are no fewer ids than blocks among the keys.
  have hnodup : (supply.dedup.map Block.id).Nodup := (List.nodup_dedup supply).map id_injective
  have hsub : supply.dedup.map Block.id ⊆ s.sessions.keys := by
    intro id hid
    obtain ⟨b, hb, rfl⟩ := List.mem_map.1 hid
    exact (s.sessions.contains_eq_true_iff b.id).1 (contains_iff_holds.2 (htaken b (List.mem_dedup.1 hb)))
  have hkeys : s.sessions.keys.length = s.size := List.length_map _
  have hle := (List.subperm_of_subset hnodup hsub).length_le
  rw [List.length_map, hkeys] at hle
  exact absurd h (Nat.not_lt.2 hle)

/-! ### Putting and moving -/

/-- `insertFresh?` puts its session under the first id that is free, beside all that there are. -/
theorem insertFresh?_spec (h : s.insertFresh? session supply = some (id, rest, u)) :
    ∃ b, b.id = id ∧ s.FirstFree supply b rest ∧ u.size = s.size + 1 ∧
      ∀ j, u.sessions.get? j = if j = id then some session else s.sessions.get? j := by
  obtain ⟨hfresh, rfl⟩ := insertFresh?_eq_some h
  obtain ⟨passed, b, hsupply, rfl, hpassed, hfree⟩ := freshId?_eq_some_iff.1 hfresh
  exact ⟨b, rfl, ⟨passed, hsupply, hpassed, hfree⟩, Table.size_insert_of_none (not_not.1 hfree) session,
    fun j => Table.get?_insert _ b.id j session⟩

/-- `changeId?` finds no live session, and leaves none under the id; or it moves the session to the first id that is
free. The session is taken out before the search, so its own old id is free for it. -/
theorem changeId?_spec {now : Nat} {changed : Option SessionId}
    (h : s.changeId? now id supply = some (changed, rest, u)) :
    (changed = none ∧ (s.access now id).1 = none ∧ rest = supply ∧
      ∀ j, u.sessions.get? j = if j = id then none else s.sessions.get? j) ∨
    (∃ session b, changed = some b.id ∧ (s.access now id).1 = some session ∧
      (s.invalidate id).2.FirstFree supply b rest ∧ u.size = s.size ∧
      ∀ j, u.sessions.get? j = if j = b.id then some session else if j = id then none else s.sessions.get? j) := by
  rw [access_fst]
  unfold changeId? at h
  cases hid : s.sessions.get? id with
  | none =>
    rw [hid] at h
    obtain ⟨rfl, rfl, rfl⟩ := h
    refine .inl ⟨rfl, rfl, rfl, fun j => ?_⟩
    by_cases hj : j = id <;> simp [hj, hid]
  | some session =>
    rw [hid] at h
    by_cases hexpired : session.isExpired now = true
    · simp only [hexpired, if_true] at h
      obtain ⟨rfl, rfl, rfl⟩ := h
      exact .inl ⟨rfl, by simp [Session.liveAt, hexpired], rfl, Table.get?_erase _ id⟩
    · simp only [hexpired, Bool.false_eq_true, if_false] at h
      obtain ⟨⟨new, left, v⟩, hs, heq⟩ := Option.map_eq_some_iff.1 h
      obtain ⟨rfl, rfl, rfl⟩ := heq
      obtain ⟨b, rfl, hfirst, hsize, hget⟩ := insertFresh?_spec hs
      -- `erase` leaves one session less, and `insert` then one more.
      have herased : (s.sessions.erase id).size + 1 = s.size := Table.size_erase (by simp [hid])
      refine .inr ⟨session, b, rfl, by simp [Session.liveAt, hexpired], hfirst, hsize.trans herased, fun j => ?_⟩
      rw [hget, Table.get?_erase]

/-- `insertFresh?` searches on if and only if all ids are taken. -/
theorem insertFresh?_eq_none_iff : s.insertFresh? session supply = none ↔ ∀ b ∈ supply, s.Holds b.id := by
  rw [insertFresh?, Option.map_eq_none_iff, freshId?_eq_none_iff]

/-- So does `changeId?`, if there is a session to move. -/
theorem changeId?_eq_none_iff {now : Nat} : s.changeId? now id supply = none ↔
    (s.access now id).1 ≠ none ∧ ∀ b ∈ supply, (s.invalidate id).2.Holds b.id := by
  rw [access_fst]
  unfold changeId?
  cases hid : s.sessions.get? id with
  | none => simp
  | some session =>
    by_cases hexpired : session.isExpired now = true
    · simp [Session.liveAt, hexpired]
    · simp [Session.liveAt, hexpired, insertFresh?_eq_none_iff, invalidate]

theorem not_holds_of_firstFree {b : Block} (h : s.FirstFree supply b rest) : ¬ s.Holds b.id := by
  obtain ⟨-, -, -, hfree⟩ := h
  exact hfree

/-- Taking one session out leaves the others. -/
theorem holds_invalidate {j : SessionId} (hne : j ≠ id) (h : s.Holds j) : (s.invalidate id).2.Holds j := by
  rw [Holds]
  change (s.sessions.erase id).get? j ≠ none
  rwa [Table.get?_erase, if_neg hne]

/-! ### Under which id a session is -/

/-- Whether a session of `id` is under `id'` after a call that went to others, or moved it. -/
inductive Call.Shifts (id : SessionId) : Call → Reply → SessionId → Prop where
  | apart {c : Call} (r : Reply) (h : c.concerns id = false) : Shifts id c r id
  | moved (new : SessionId) : Shifts id (.changeId id) (.id (some new)) new

/-- Whether a session of `id` is under `id'` after calls that went to others, or moved it. -/
inductive ShiftsTo : SessionId → List (Call × Reply) → SessionId → Prop where
  | nil (id : SessionId) : ShiftsTo id [] id
  | cons {id id₁ id' : SessionId} {c : Call} {r : Reply} {l : List (Call × Reply)} (h : c.Shifts id r id₁)
      (hrest : ShiftsTo id₁ l id') : ShiftsTo id ((c, r) :: l) id'

end SessionStore

namespace TimedStore

open SessionStore (Call Reply ShiftsTo)

variable {t u : TimedStore} {c : Call} {r : Reply} {id id' : SessionId}

/-! ### One call -/

/-- What `create` does, of a store with its clock and blocks. -/
theorem perform_create_spec (h : t.perform .create = some (r, u)) :
    ∃ b, t.store.FirstFree t.supply b u.supply ∧ r = .id (some b.id) ∧ u.store.size = t.store.size + 1 ∧
      ∀ j, u.store.sessions.get? j
        = if j = b.id then some (.start t.now t.store.config.timeoutMillis?) else t.store.sessions.get? j := by
  obtain ⟨⟨id, rest, store⟩, hs, heq⟩ := Option.map_eq_some_iff.1 h
  obtain ⟨rfl, rfl⟩ := Prod.mk.inj heq
  obtain ⟨b, rfl, hfirst, hsize, hget⟩ := SessionStore.insertFresh?_spec hs
  exact ⟨b, hfirst, rfl, hsize, hget⟩

/-- What `changeId` does there. -/
theorem perform_changeId_spec (h : t.perform (.changeId id) = some (r, u)) :
    (r = .id none ∧ t.resolve? id = none ∧ u.supply = t.supply ∧
      ∀ j, u.store.sessions.get? j = if j = id then none else t.store.sessions.get? j) ∨
    (∃ session b, r = .id (some b.id) ∧ t.resolve? id = some session ∧
      (t.store.invalidate id).2.FirstFree t.supply b u.supply ∧ u.store.size = t.store.size ∧
      ∀ j, u.store.sessions.get? j
        = if j = b.id then some session else if j = id then none else t.store.sessions.get? j) := by
  obtain ⟨⟨changed, rest, store⟩, hs, heq⟩ := Option.map_eq_some_iff.1 h
  obtain ⟨rfl, rfl⟩ := Prod.mk.inj heq
  rcases SessionStore.changeId?_spec hs with ⟨rfl, hnone, hrest, hget⟩ | ⟨session, b, rfl, hsome, hfirst, hsize, hget⟩
  · exact .inl ⟨rfl, hnone, hrest, hget⟩
  · exact .inr ⟨session, b, rfl, hsome, hfirst, hsize, hget⟩

/-- A `create` does not return if and only if all ids are taken. -/
theorem perform_create_eq_none_iff : t.perform .create = none ↔ ∀ b ∈ t.supply, t.store.Holds b.id := by
  show Option.map _ (t.store.create? t.now t.supply) = none ↔ _
  rw [Option.map_eq_none_iff, SessionStore.create?, SessionStore.insertFresh?_eq_none_iff]

/-- A `changeId` does not return if and only if there is a session to move and all ids are taken. -/
theorem perform_changeId_eq_none_iff : t.perform (.changeId id) = none ↔
    t.resolve? id ≠ none ∧ ∀ b ∈ t.supply, (t.store.invalidate id).2.Holds b.id := by
  show Option.map _ (t.store.changeId? t.now id t.supply) = none ↔ _
  rw [Option.map_eq_none_iff, SessionStore.changeId?_eq_none_iff, resolve?]

/-- A block whose id is free (`hfree`) is enough for every call to return. -/
theorem isSome_perform (hfree : ∃ b ∈ t.supply, ¬ t.store.Holds b.id) (c : Call) : (t.perform c).isSome := by
  obtain ⟨b, hb, hnot⟩ := hfree
  rw [Option.isSome_iff_ne_none]
  cases c with
  | create => exact fun hnone => hnot (perform_create_eq_none_iff.1 hnone b hb)
  | changeId id => exact fun hnone => hnot (SessionStore.holds_erase ((perform_changeId_eq_none_iff.1 hnone).2 b hb))
  | _ => exact Option.some_ne_none _

/-! ### Sessions that others leave alone -/

/-- A session that a call does not go to (`hc`) stays, even where the call draws its id. One case for each call. -/
theorem get?_perform_of_not_concerns (h : t.perform c = some (r, u)) (hc : c.concerns id = false)
    (hid : t.store.Holds id) : u.store.sessions.get? id = t.store.sessions.get? id := by
  cases c with
  | create =>
    obtain ⟨b, hfirst, -, -, hget⟩ := perform_create_spec h
    -- A drawn id is free, and `id` is held.
    have hne : id ≠ b.id := fun he => SessionStore.not_holds_of_firstFree hfirst (he ▸ hid)
    rw [hget, if_neg hne]
  | changeId i =>
    have hi : id ≠ i := fun he => by simp [Call.concerns, he] at hc
    rcases perform_changeId_spec h with ⟨-, -, -, hget⟩ | ⟨session, b, -, -, hfirst, -, hget⟩
    · rw [hget, if_neg hi]
    · have hne : id ≠ b.id := fun he =>
        SessionStore.not_holds_of_firstFree hfirst (he ▸ SessionStore.holds_invalidate hi hid)
      rw [hget, if_neg hne, if_neg hi]
  | access i a =>
    have hi : id ≠ i := fun he => by simp [Call.concerns, he] at hc
    rw [(perform_access h).2.2.2, if_neg hi]
  | invalidate i =>
    have hi : id ≠ i := fun he => by simp [Call.concerns, he] at hc
    rw [(perform_invalidate h).2.2.2, if_neg hi]
  | expireIdle => simp [Call.concerns] at hc
  | invalidateAll => simp [Call.concerns] at hc
  | advance millis =>
    obtain ⟨-, rfl⟩ := Prod.mk.inj (Option.some.inj h)
    rfl

/-- A move that succeeds (`h`) gives the session that was there, and an id that no other session has. -/
theorem get?_perform_of_moved {new : SessionId} (h : t.perform (.changeId id) = some (.id (some new), u)) :
    u.store.sessions.get? new = t.store.sessions.get? id ∧ ∀ j, j ≠ id → t.store.Holds j → j ≠ new := by
  rcases perform_changeId_spec h with ⟨hr, -⟩ | ⟨session, b, hr, hsession, hfirst, -, hget⟩
  · cases hr
  · obtain rfl : new = b.id := by simpa using hr
    obtain ⟨session', hstored, hlive⟩ := Option.bind_eq_some_iff.1 (t.resolve?_eq id ▸ hsession)
    obtain ⟨-, rfl⟩ := Session.liveAt_eq_some_iff.1 hlive
    refine ⟨by rw [hget, if_pos rfl, hstored], fun j hj hid he => ?_⟩
    exact SessionStore.not_holds_of_firstFree hfirst (he ▸ SessionStore.holds_invalidate hj hid)

/-- So a session that a call moves, or does not go to (`hshifts`), is what it was. -/
theorem get?_of_shifts (h : t.perform c = some (r, u)) (hid : t.store.Holds id) (hshifts : c.Shifts id r id') :
    u.store.sessions.get? id' = t.store.sessions.get? id := by
  cases hshifts with
  | apart _ hc => exact get?_perform_of_not_concerns h hc hid
  | moved new => exact (get?_perform_of_moved h).1

/-- One call brings no two sessions (`hne`) under one id. -/
theorem ne_of_shifts {j j' : SessionId} (h : t.perform c = some (r, u)) (hid : t.store.Holds id)
    (hj : t.store.Holds j) (hne : j ≠ id) (hshifts : c.Shifts id r id') (hshifts' : c.Shifts j r j') : j' ≠ id' := by
  cases hshifts with
  | apart _ hc =>
    cases hshifts' with
    | apart => exact hne
    | moved new => exact ((get?_perform_of_moved h).2 id hne.symm hid).symm
  | moved new =>
    cases hshifts' with
    | apart => exact (get?_perform_of_moved h).2 j hne hj
    | moved => exact absurd rfl hne

/-! ### Runs -/

/-- From call to run: calls that go to others, or move it (`hshifts`), leave a session as it was. -/
theorem get?_of_shiftsTo {calls : List Call} {rs : List Reply} (h : t.run calls = some (rs, u))
    (hid : t.store.Holds id) (hshifts : ShiftsTo id (calls.zip rs) id') :
    u.store.sessions.get? id' = t.store.sessions.get? id := by
  induction calls generalizing t rs id with
  | nil =>
    obtain ⟨rfl, rfl⟩ := Prod.mk.inj (Option.some.inj h)
    cases hshifts
    rfl
  | cons c calls ih =>
    obtain ⟨r, v, rs', hc, hrest, rfl⟩ := run_cons_eq_some h
    cases hshifts with
    | cons hfirst hshifts =>
      -- The session is still there after `c`, under the id that the other calls start from.
      have hget := get?_of_shifts hc hid hfirst
      have hheld : v.store.Holds _ := fun hnone => hid (hget.symm.trans hnone)
      exact (ih hrest hheld hshifts).trans hget

/-- Such calls bring no two sessions (`hne`) under one id. By induction on the calls, each of which keeps the two apart.
-/
theorem ne_of_shiftsTo {j j' : SessionId} {calls : List Call} {rs : List Reply} (h : t.run calls = some (rs, u))
    (hid : t.store.Holds id) (hj : t.store.Holds j) (hne : j ≠ id) (hshifts : ShiftsTo id (calls.zip rs) id')
    (hshifts' : ShiftsTo j (calls.zip rs) j') : j' ≠ id' := by
  induction calls generalizing t rs id j with
  | nil =>
    obtain ⟨rfl, rfl⟩ := Prod.mk.inj (Option.some.inj h)
    cases hshifts
    cases hshifts'
    exact hne
  | cons c calls ih =>
    obtain ⟨r, v, rs', hc, hrest, rfl⟩ := run_cons_eq_some h
    cases hshifts with
    | cons hfirst hshifts =>
      cases hshifts' with
      | cons hfirst' hshifts' =>
        -- Both are still held behind `c`, under the ids they have shifted to.
        have hid' : v.store.Holds _ := fun hnone => hid ((get?_of_shifts hc hid hfirst).symm.trans hnone)
        have hj' : v.store.Holds _ := fun hnone => hj ((get?_of_shifts hc hj hfirst').symm.trans hnone)
        exact ih hrest hid' hj' (ne_of_shifts hc hid hj hne hfirst hfirst') hshifts hshifts'

/-- A run reaches what it leaves. -/
theorem reaches_of_run {calls : List Call} {rs : List Reply} (h : t.run calls = some (rs, u)) : t.Reaches u := by
  induction calls generalizing t rs with
  | nil =>
    obtain ⟨-, rfl⟩ := Prod.mk.inj (Option.some.inj h)
    exact .refl t
  | cons c calls ih =>
    obtain ⟨r, v, rs', hc, hrest, -⟩ := run_cons_eq_some h
    exact (Reaches.perform hc).trans (ih hrest)

/-- Whether the sessions of `t` keep apart, whatever blocks it draws. -/
structure KeepsApart (t : TimedStore) : Prop where
  /-- Every id is the thirty-two digits of a block. -/
  digits : ∀ id, t.store.Holds id → id.length = 32 ∧ IsHexText id ∧ ∃ b : Block, b.id = id
  /-- A session is started under the first id that is free, beside all that there are. -/
  starts : ∀ r u, t.perform .create = some (r, u) →
    ∃ b, t.store.FirstFree t.supply b u.supply ∧ r = .id (some b.id) ∧ u.store.size = t.store.size + 1 ∧
      ∀ j, u.store.sessions.get? j
        = if j = b.id then some (.start t.now t.store.config.timeoutMillis?) else t.store.sessions.get? j
  /-- A session is moved to the first id that is free once its own is; nothing else is there more or less. -/
  moves : ∀ id r u, t.perform (.changeId id) = some (r, u) →
    (r = .id none ∧ t.resolve? id = none ∧ u.supply = t.supply ∧
      ∀ j, u.store.sessions.get? j = if j = id then none else t.store.sessions.get? j) ∨
    (∃ session b, r = .id (some b.id) ∧ t.resolve? id = some session ∧
      (t.store.invalidate id).2.FirstFree t.supply b u.supply ∧ u.store.size = t.store.size ∧
      ∀ j, u.store.sessions.get? j
        = if j = b.id then some session else if j = id then none else t.store.sessions.get? j)
  /-- Where an id is searched for, the search goes on only over ids that are taken. -/
  searches : (t.perform .create = none ↔ ∀ b ∈ t.supply, t.store.Holds b.id) ∧
    ∀ id, t.perform (.changeId id) = none ↔
      t.resolve? id ≠ none ∧ ∀ b ∈ t.supply, (t.store.invalidate id).2.Holds b.id
  /-- With more blocks than sessions every call returns. -/
  returns : t.store.size < t.supply.dedup.length → ∀ c, (t.perform c).isSome
  /-- Calls that go to others, or move it, leave a session as it was, under an id of its own. -/
  follows : ∀ calls rs u id id', t.run calls = some (rs, u) → t.store.Holds id → ShiftsTo id (calls.zip rs) id' →
    u.store.sessions.get? id' = t.store.sessions.get? id ∧
      ∀ j j', t.store.Holds j → j ≠ id → ShiftsTo j (calls.zip rs) j' → j' ≠ id'

/-- **Sessions keep apart.** Let the supply repeat its blocks as often as it will, and let anything have been done to
the store (`before`):

* different blocks have different ids;
* the store `KeepsApart`: a session that is started or moved goes under the first id that is free, and takes nothing
  from any other. -/
theorem keepsApart_of_run (config : SessionConfig) (now : Nat) (supply : List Block) {before : List Call}
    {replies : List Reply} (h : (start config now supply).run before = some (replies, t)) :
    Function.Injective Block.id ∧ t.KeepsApart where
  left := id_injective
  right := {
    digits := fun id hid => by
      -- `hold` is absurd: a store starts empty, and so all its ids have been drawn.
      obtain ⟨drawn, hdraws⟩ := (reaches_of_run h).exists_draws
      rcases hdraws.holds id hid with hold | hnew
      · exact absurd rfl hold
      · obtain ⟨b, -, rfl⟩ := List.mem_map.1 hnew
        exact ⟨length_id b, isHexText_id b, b, rfl⟩
    starts := fun r u => perform_create_spec
    moves := fun id r u => perform_changeId_spec
    searches := ⟨perform_create_eq_none_iff, fun id => perform_changeId_eq_none_iff⟩
    returns := fun hlt => isSome_perform (SessionStore.exists_free_of_size_lt hlt)
    follows := fun calls rs u id id' hrun hid hshifts =>
      ⟨get?_of_shiftsTo hrun hid hshifts, fun j j' hj hne => ne_of_shiftsTo hrun hid hj hne hshifts⟩ }

/-- Three blocks, each of which comes again and again. -/
def repeatingBlocks : List Block :=
  let zero := Vector.replicate 16 0
  let one := Vector.replicate 16 1
  let last := Vector.replicate 16 255
  [zero, zero, one, one, zero, one, zero, last, zero]

/-- The second session gets the second block, and the first one, moved, its own id again. -/
theorem keepsApart_of_run_repeatingBlocks :
    ∃ t, (start .standard 0 repeatingBlocks).run
        [.create, .create, .changeId "00000000000000000000000000000000", .create]
      = some ([.id (some "00000000000000000000000000000000"), .id (some "01010101010101010101010101010101"),
          .id (some "00000000000000000000000000000000"), .id (some "FFFFFFFFFFFFFFFFFFFFFFFFFFFFFFFF")], t) ∧
      t.store.size = 3 ∧ t.supply.length = 1 ∧ Function.Injective Block.id ∧ t.KeepsApart := by
  have hrun : ∃ t, (start .standard 0 repeatingBlocks).run
        [.create, .create, .changeId "00000000000000000000000000000000", .create]
      = some ([.id (some "00000000000000000000000000000000"), .id (some "01010101010101010101010101010101"),
          .id (some "00000000000000000000000000000000"), .id (some "FFFFFFFFFFFFFFFFFFFFFFFFFFFFFFFF")], t) ∧
      t.store.size = 3 ∧ t.supply.length = 1 := ⟨_, rfl, rfl, rfl⟩
  obtain ⟨t, hrun, hsize, hsupply⟩ := hrun
  exact ⟨t, hrun, hsize, hsupply, keepsApart_of_run .standard 0 repeatingBlocks hrun⟩

end TimedStore

end ServletContainer
