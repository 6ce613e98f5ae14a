import ServletContainer.Proofs.Session.Calls

namespace ServletContainer

/-!
# The life of a session

A session that has run out stays in its store until a call meets it. Seen through look-ups this does not show:
a session resolves under its id until it is ended, moved, or idle for too long, and never again.

* `SessionStore.Call.leaves`, `SessionStore.fate` — what becomes of one session by the calls and the clock alone,
  told without a table; `SessionStore.Recorded` reads the fields of what is left off the calls.
* `TimedStore.Fresh.perform` — ids that are still to be drawn stay unused.
* `TimedStore.Fresh.resolve?_perform` — what resolves after one call; over runs, see `TimedStore.SessionsById`.
-/

namespace SessionStore

/-! ### What becomes of a session -/

/-- The clock after a call: only `advance` moves it. -/
def Call.clock (now : Nat) : Call → Nat
  | .advance millis => now + millis
  | _ => now

/-- The session of `id` with what a call writes to it. -/
def Call.written (id : SessionId) (now : Nat) (s : Session) : Call → Session
  | .access i a => if i = id then a.write now s else s
  | _ => s

/-- What a call leaves of the live session of `id`. -/
def Call.leaves (id : SessionId) (now : Nat) (s : Session) : Call → Option Session
  | .create => some s
  | .access i a => if i = id then (a.write now s).liveAt now else some s
  | .invalidate i => if i = id then none else some s
  | .changeId i => if i = id then none else some s
  | .expireIdle => some s
  | .invalidateAll => none
  | .advance millis => s.liveAt (now + millis)

/-- What calls leave of the live session of `id`. Once a call leaves nothing, the session is gone for good. -/
def fate (id : SessionId) : Nat → Session → List Call → Option Session
  | _, s, [] => some s
  | now, s, c :: calls => (c.leaves id now s).bind fun s => fate id (c.clock now) s calls

/-- What the last call that `sets` something has set it to, if one does. -/
def lastSet {α : Type} (sets : Nat → Call → Option α) : Nat → List Call → Option α
  | _, [] => none
  | now, c :: calls => (lastSet sets (c.clock now) calls).or (sets now c)

/-- The time at which a call finds `id`. -/
def Call.finds (id : SessionId) (now : Nat) : Call → Option Nat
  | .access i .find => if i = id then some now else none
  | _ => none

/-- The idle limit that a call sets for `id`. -/
def Call.limits (id : SessionId) (_ : Nat) : Call → Option (Option Nat)
  | .access i (.setMaxInactive limit) => if i = id then some limit else none
  | _ => none

/-- The value that a call gives to an attribute of `id`; the inner none removes it. -/
def Call.writes (id : SessionId) (name : String) (_ : Nat) : Call → Option (Option Value)
  | .access i (.setAttribute n v) => if i = id ∧ name = n then some (some v) else none
  | .access i (.removeAttribute n) => if i = id ∧ name = n then some none else none
  | _ => none

/-- What is left of `s` is `s'`, each of whose fields is as the last of `calls` that set it has set it. -/
structure Recorded (id : SessionId) (now : Nat) (s : Session) (calls : List Call) (s' : Session) : Prop where
  created : s'.created = s.created
  lastAccessed : s'.lastAccessed = (lastSet (Call.finds id) now calls).getD s.lastAccessed
  maxInactive : s'.maxInactive = (lastSet (Call.limits id) now calls).getD s.maxInactive
  attributes : ∀ name,
    s'.attributes.get? name = (lastSet (Call.writes id name) now calls).getD (s.attributes.get? name)

/-- Whether a call goes to what is stored under `id`. -/
def Call.concerns (id : SessionId) : Call → Bool
  | .create => false
  | .access i _ => i = id
  | .invalidate i => i = id
  | .changeId i => i = id
  | .expireIdle => true
  | .invalidateAll => true
  | .advance _ => false

/-- Whether a call draws from the supply of blocks: `create` or `changeId`. -/
def Call.draws : Call → Bool
  | .create => true
  | .changeId _ => true
  | _ => false

/-- Whether a call has ended or moved the session of `id`. -/
def Call.takes (id : SessionId) : Call → Reply → Bool
  | .invalidate i, .flag gone => i = id && gone
  | .changeId i, .id new => i = id && new.isSome
  | _, _ => false

/-- How many calls of a run have ended or moved the session of `id`. -/
def takenCount (id : SessionId) (calls : List Call) (replies : List Reply) : Nat :=
  (calls.zip replies).countP fun p => p.1.takes id p.2

section Fate

variable {id : SessionId} {now : Nat} {s s' : Session}

/-- What a call leaves (`h`) is the session with what the call itself has written. One case for each call. -/
theorem Call.eq_written {c : Call} (h : c.leaves id now s = some s') : s' = c.written id now s := by
  -- `leaves` differs from `written` in whether the session stays live, and not in what it becomes.
  cases c with
  | create => exact (Option.some.inj h).symm
  | expireIdle => exact (Option.some.inj h).symm
  | invalidateAll => cases h
  | advance millis => exact (Session.liveAt_eq_some_iff.1 h).2.symm
  | access i a =>
    simp only [leaves] at h
    split at h
    · next he => rw [written, if_pos he, (Session.liveAt_eq_some_iff.1 h).2]
    · next he => rw [written, if_neg he, Option.some.inj h]
  | invalidate i =>
    simp only [leaves, Option.ite_none_left_eq_some] at h
    exact (Option.some.inj h.2).symm
  | changeId i =>
    simp only [leaves, Option.ite_none_left_eq_some] at h
    exact (Option.some.inj h.2).symm

/-- A field to which every call writes what it sets, or leaves it (`hsets`), is at the end what the last call has set,
by induction on the calls. -/
theorem lastSet_of_fate {α : Type} (field : Session → α) (sets : Nat → Call → Option α)
    (hsets : ∀ (c : Call) now s, field (c.written id now s) = (sets now c).getD (field s))
    {calls : List Call} (h : fate id now s calls = some s') :
    field s' = (lastSet sets now calls).getD (field s) := by
  induction calls generalizing now s with
  | nil => rw [Option.some.inj h]; rfl
  | cons c calls ih =>
    obtain ⟨s₁, hc, hrest⟩ := Option.bind_eq_some_iff.1 h
    rw [ih hrest, Call.eq_written hc, hsets, lastSet]
    cases lastSet sets (c.clock now) calls <;> rfl

/-- Where no call sets anything, none is the last to do so. -/
theorem lastSet_none {α : Type} (calls : List Call) : lastSet (fun _ _ => (none : Option α)) now calls = none := by
  induction calls generalizing now with
  | nil => rfl
  | cons c calls ih => rw [lastSet, ih, Option.or_none]

/-- What calls leave of a session (`h`) is as `Recorded` says: `lastSet_of_fate` for each of its fields. -/
theorem recorded_of_fate {calls : List Call} (h : fate id now s calls = some s') :
    Recorded id now s calls s' where
  created := by
    have hset : ∀ (c : Call) now s, (c.written id now s).created = (none : Option Nat).getD s.created := by
      intro c now s
      cases c with
      | access i a => cases a <;> by_cases hi : i = id <;> simp [Call.written, Access.write, hi]
      | _ => rfl
    have hlast := lastSet_of_fate Session.created (fun _ _ => none) hset h
    rwa [lastSet_none] at hlast
  lastAccessed := by
    refine lastSet_of_fate Session.lastAccessed (Call.finds id) (fun c now s => ?_) h
    cases c with
    | access i a => cases a <;> by_cases hi : i = id <;> simp [Call.written, Call.finds, Access.write, hi]
    | _ => rfl
  maxInactive := by
    refine lastSet_of_fate Session.maxInactive (Call.limits id) (fun c now s => ?_) h
    cases c with
    | access i a => cases a <;> by_cases hi : i = id <;> simp [Call.written, Call.limits, Access.write, hi]
    | _ => rfl
  attributes name := by
    refine lastSet_of_fate (fun s => s.attributes.get? name) (Call.writes id name) (fun c now s => ?_) h
    cases c with
    | access i a =>
      by_cases hi : i = id
      · cases a with
        | setAttribute n v =>
          by_cases hn : name = n <;> simp [Call.written, Call.writes, Access.write, hi, Table.get?_insert, hn]
        | removeAttribute n =>
          by_cases hn : name = n <;> simp [Call.written, Call.writes, Access.write, hi, Table.get?_erase, hn]
        | _ => simp [Call.written, Call.writes, Access.write, hi]
      · cases a <;> simp [Call.written, Call.writes, hi]
    | _ => rfl

end Fate

end SessionStore

namespace TimedStore

open SessionStore (Access Call Reply fate takenCount Recorded)

variable {t u : TimedStore} {c : Call} {r : Reply}

/-! ### Ids that are drawn -/

/-- A call either leaves the supply as it is, or hands out the id of the next block. -/
theorem Fresh.supply_cases (ht : t.Fresh) (h : t.perform c = some (r, u)) :
    (u.supply = t.supply ∧ ∀ id, r ≠ .id (some id)) ∨
      (c.draws = true ∧ ∃ b, t.supply = b :: u.supply ∧ r = .id (some b.id)) := by
  cases c with
  -- `ht`: the first block is never taken, so exactly one is drawn.
  | create =>
    obtain ⟨b, rest, hs, rfl, -, rfl, -⟩ := ht.perform_create h
    exact .inr ⟨rfl, b, hs, rfl⟩
  | changeId i =>
    rcases ht.perform_changeId h with ⟨-, rfl, -, hu, -⟩ | ⟨s, b, rest, -, hs, rfl, -, rfl, -⟩
    · exact .inl ⟨hu, fun id => by simp⟩
    · exact .inr ⟨rfl, b, hs, rfl⟩
  | access i a =>
    obtain ⟨rfl, -, hu, -⟩ := perform_access h
    exact .inl ⟨hu, fun id => by cases a <;> simp [Access.answer]⟩
  | _ =>
    obtain ⟨rfl, rfl⟩ := Prod.mk.inj (Option.some.inj h)
    exact .inl ⟨rfl, fun id => by simp⟩

/-- So what is left to be drawn is the end of what was. -/
theorem Fresh.supply_suffix (ht : t.Fresh) (h : t.perform c = some (r, u)) : u.supply <:+ t.supply := by
  rcases ht.supply_cases h with ⟨hu, -⟩ | ⟨-, b, hs, -⟩
  · exact hu ▸ List.suffix_rfl
  · exact ⟨[b], hs.symm⟩

/-- An id that is handed out (`hr`) was the next of the supply. -/
theorem Fresh.drawn (ht : t.Fresh) (h : t.perform c = some (r, u)) {id : SessionId} (hr : r = .id (some id)) :
    t.supply.map Block.id = id :: u.supply.map Block.id := by
  rcases ht.supply_cases h with ⟨-, hno⟩ | ⟨-, b, hs, hb⟩
  · exact absurd hr (hno id)
  · obtain rfl : b.id = id := by simpa [hb] using hr
    rw [hs, List.map_cons]

/-- A call draws one block at most, and only if it `draws`. -/
theorem Fresh.length_supply_le (ht : t.Fresh) (h : t.perform c = some (r, u)) :
    t.supply.length ≤ u.supply.length + if c.draws then 1 else 0 := by
  rcases ht.supply_cases h with ⟨hu, -⟩ | ⟨hdraws, b, hs, -⟩
  · rw [hu]
    exact Nat.le_add_right _ _
  · rw [hs, if_pos hdraws]
    exact Nat.le_refl _

/-- Only an id that is handed out comes to name a session. One case for each call. -/
theorem Fresh.get?_perform_of_none (ht : t.Fresh) (h : t.perform c = some (r, u)) {id : SessionId}
    (hid : t.store.sessions.get? id = none) (hr : r ≠ .id (some id)) : u.store.sessions.get? id = none := by
  cases c with
  -- Only a drawn id comes to be held, and by `hr` the call has not answered `id`.
  | create =>
    obtain ⟨b, rest, -, rfl, -, -, hu⟩ := ht.perform_create h
    have hne : id ≠ b.id := fun he => hr (by rw [he])
    rw [hu, if_neg hne, hid]
  | changeId i =>
    rcases ht.perform_changeId h with ⟨-, -, -, -, hu⟩ | ⟨s, b, rest, -, -, rfl, -, -, -, hu⟩
    · rw [hu, hid, ite_self]
    · have hne : id ≠ b.id := fun he => hr (by rw [he])
      rw [hu, if_neg hne, hid, ite_self]
  | access i a =>
    rw [(perform_access h).2.2.2]
    split
    · next he =>
      subst he
      simp [resolve?_eq, hid]
    · exact hid
  | invalidate i => rw [(perform_invalidate h).2.2.2, hid, ite_self]
  | expireIdle => rw [(perform_expireIdle h).2.2, resolve?_eq, hid, Option.bind_none]
  | invalidateAll =>
    obtain ⟨-, rfl⟩ := Prod.mk.inj (Option.some.inj h)
    rfl
  | advance millis =>
    obtain ⟨-, rfl⟩ := Prod.mk.inj (Option.some.inj h)
    exact hid

/-- Every call keeps what is still to be drawn unused. -/
theorem Fresh.perform (ht : t.Fresh) (h : t.perform c = some (r, u)) : u.Fresh where
  distinct := ht.distinct.sublist ((ht.supply_suffix h).sublist.map _)
  unused id hid := by
    have hmem : id ∈ t.supply.map Block.id := ((ht.supply_suffix h).sublist.map _).subset hid
    refine ht.get?_perform_of_none h (ht.unused id hmem) fun hr => ?_
    -- `ht.distinct`: an id that was drawn just now is not among those that are left.
    have hd := ht.distinct
    rw [ht.drawn h hr, List.nodup_cons] at hd
    exact hd.1 hid

/-! ### What a call leaves under an id -/

section Perform

variable {id : SessionId}

/-- What resolves (`hs`) has been drawn. -/
theorem Fresh.not_mem_supply (ht : t.Fresh) {s : Session} (hs : t.resolve? id = some s) :
    id ∉ t.supply.map Block.id := by
  intro hmem
  rw [resolve?_eq, ht.unused id hmem] at hs
  cases hs

/-- A call hands out no id that has been drawn (`hid`). -/
theorem Fresh.ne_drawn (ht : t.Fresh) (h : t.perform c = some (r, u)) (hid : id ∉ t.supply.map Block.id) :
    r ≠ .id (some id) := by
  intro hr
  exact hid (ht.drawn h hr ▸ List.mem_cons_self)

/-- Only `advance` moves the clock. -/
theorem Fresh.now_perform (ht : t.Fresh) (h : t.perform c = some (r, u)) : u.now = c.clock t.now := by
  cases c with
  | create =>
    obtain ⟨-, -, -, -, hnow, -⟩ := ht.perform_create h
    exact hnow
  | changeId i =>
    rcases ht.perform_changeId h with ⟨-, -, hnow, -⟩ | ⟨-, -, -, -, -, -, hnow, -⟩
    · exact hnow
    · exact hnow
  | access i a => exact (perform_access h).2.1
  | invalidate i => exact (perform_invalidate h).2.1
  | expireIdle => exact (perform_expireIdle h).1
  | invalidateAll =>
    obtain ⟨-, rfl⟩ := Prod.mk.inj (Option.some.inj h)
    rfl
  | advance millis =>
    obtain ⟨-, rfl⟩ := Prod.mk.inj (Option.some.inj h)
    rfl

/-- A call that does not go to an id (`hc`), nor hands it out (`hr`), leaves what the table holds under it. One case for
each call. -/
theorem Fresh.get?_perform_of_not_concerns (ht : t.Fresh) (h : t.perform c = some (r, u))
    (hc : c.concerns id = false) (hr : r ≠ .id (some id)) :
    u.store.sessions.get? id = t.store.sessions.get? id := by
  cases c with
  | create =>
    obtain ⟨b, rest, -, rfl, -, -, hu⟩ := ht.perform_create h
    have hne : id ≠ b.id := fun he => hr (by rw [he])
    rw [hu, if_neg hne]
  | changeId i =>
    have hi : id ≠ i := fun he => by simp [Call.concerns, he] at hc
    rcases ht.perform_changeId h with ⟨-, -, -, -, hu⟩ | ⟨s, b, rest, -, -, rfl, -, -, -, hu⟩
    · rw [hu, if_neg hi]
    · have hne : id ≠ b.id := fun he => hr (by rw [he])
      rw [hu, if_neg hne, if_neg hi]
  | access i a =>
    have hi : id ≠ i := fun he => by simp [Call.concerns, he] at hc
    rw [(perform_access h).2.2.2, if_neg hi]
  | invalidate i =>
    have hi : id ≠ i := fun he => by simp [Call.concerns, he] at hc
    rw [(perform_invalidate h).2.2.2, if_neg hi]
  -- `expireIdle` and `invalidateAll` concern every session.
  | expireIdle => simp [Call.concerns] at hc
  | invalidateAll => simp [Call.concerns] at hc
  | advance millis =>
    obtain ⟨-, rfl⟩ := Prod.mk.inj (Option.some.inj h)
    rfl

/-- What resolves (`hs`) is live. -/
theorem liveAt_of_resolve? {s : Session} (hs : t.resolve? id = some s) : s.liveAt t.now = some s := by
  obtain ⟨s', -, hlive⟩ := Option.bind_eq_some_iff.1 (t.resolve?_eq id ▸ hs)
  obtain ⟨-, rfl⟩ := Session.liveAt_eq_some_iff.1 hlive
  exact hlive

/-- To ask now and then later (`hle`) whether a session is live is to ask later. -/
theorem resolve?_bind_liveAt (t : TimedStore) {later : Nat} (hle : t.now ≤ later) :
    (t.resolve? id).bind (Session.liveAt later) = (t.store.sessions.get? id).bind (Session.liveAt later) := by
  rw [resolve?_eq, Option.bind_assoc]
  exact congrArg _ (funext fun s => s.liveAt_bind_liveAt hle)

/-- A call that leaves what the table holds under an id (`hget`), at one time (`hnow`), leaves what resolves. -/
theorem resolve?_of_get? (hnow : u.now = t.now) (hget : u.store.sessions.get? id = t.store.sessions.get? id) :
    u.resolve? id = t.resolve? id := by
  rw [resolve?_eq, resolve?_eq, hnow, hget]

/-- Where the table holds nothing (`hget`), nothing resolves. -/
theorem resolve?_of_get?_none (hget : u.store.sessions.get? id = none) : u.resolve? id = none := by
  rw [resolve?_eq, hget, Option.bind_none]

/-- What resolves under an id after a call, unless the call has handed the id out (`hr`), is what the call `leaves` of
what did before. One case for each call; those that do not go to the id are all alike (`hkept`). -/
theorem Fresh.resolve?_perform (ht : t.Fresh) (h : t.perform c = some (r, u)) (hr : r ≠ .id (some id)) :
    u.resolve? id = (t.resolve? id).bind fun s => c.leaves id t.now s := by
  have hnow := ht.now_perform h
  have hkept (hc : c.concerns id = false) (hclock : c.clock t.now = t.now) : u.resolve? id = t.resolve? id :=
    resolve?_of_get? (hnow.trans hclock) (ht.get?_perform_of_not_concerns h hc hr)
  cases c with
  | create => rw [hkept rfl rfl]; exact (Option.bind_fun_some _).symm
  | changeId i =>
    by_cases hi : i = id
    · have hnone : u.store.sessions.get? id = none := by
        rcases ht.perform_changeId h with ⟨-, -, -, -, hu⟩ | ⟨s, b, rest, -, -, rfl, -, -, -, hu⟩
        · rw [hu, if_pos hi.symm]
        · have hne : id ≠ b.id := fun he => hr (by rw [he])
          rw [hu, if_neg hne, if_pos hi.symm]
      simp [resolve?_of_get?_none hnone, Call.leaves, hi]
    · simp [hkept (by simpa [Call.concerns] using hi) rfl, Call.leaves, hi]
  | access i a =>
    by_cases hi : i = id
    · subst hi
      rw [resolve?_eq, (perform_access h).2.2.2, if_pos rfl, hnow, Option.bind_map]
      simp [Call.leaves, Call.clock, Function.comp_def]
    · simp [hkept (by simpa [Call.concerns] using hi) rfl, Call.leaves, hi]
  | invalidate i =>
    by_cases hi : i = id
    · have hnone : u.store.sessions.get? id = none := by rw [(perform_invalidate h).2.2.2, if_pos hi.symm]
      simp [resolve?_of_get?_none hnone, Call.leaves, hi]
    · simp [hkept (by simpa [Call.concerns] using hi) rfl, Call.leaves, hi]
  | expireIdle =>
    rw [resolve?_eq, (perform_expireIdle h).2.2, hnow]
    -- By `resolve?_bind_liveAt` what resolves is live already.
    calc (t.resolve? id).bind (Session.liveAt t.now)
        = (t.store.sessions.get? id).bind (Session.liveAt t.now) := t.resolve?_bind_liveAt (Nat.le_refl _)
      _ = t.resolve? id := (t.resolve?_eq id).symm
      _ = (t.resolve? id).bind some := (Option.bind_fun_some _).symm
  | invalidateAll =>
    obtain ⟨-, rfl⟩ := Prod.mk.inj (Option.some.inj h)
    exact (resolve?_of_get?_none rfl).trans (Option.bind_fun_none _).symm
  | advance millis =>
    rw [resolve?_eq, ht.get?_perform_of_not_concerns h rfl hr, hnow]
    exact (t.resolve?_bind_liveAt (Nat.le_add_right _ _)).symm

end Perform

/-- Every call returns, as long as there are ids to draw (`hc`). -/
theorem Fresh.perform_isSome (ht : t.Fresh) (hc : c.draws = true → t.supply ≠ []) : (t.perform c).isSome := by
  cases c with
  | create =>
    obtain ⟨b, rest, hs⟩ := List.exists_cons_of_ne_nil (hc rfl)
    have hb : t.store.sessions.get? b.id = none := ht.unused b.id (by simp [hs])
    show (Option.map _ (t.store.create? t.now t.supply)).isSome
    rw [Option.isSome_map, hs, SessionStore.create?, SessionStore.insertFresh?_cons hb, Option.isSome_some]
  -- `changeId?` answers an expired or unknown session without a draw.
  | changeId i =>
    obtain ⟨b, rest, hs⟩ := List.exists_cons_of_ne_nil (hc rfl)
    have hb : (t.store.sessions.erase i).get? b.id = none := by
      rw [Table.get?_erase, ht.unused b.id (by simp [hs]), ite_self]
    show (Option.map _ (t.store.changeId? t.now i t.supply)).isSome
    rw [Option.isSome_map, hs, SessionStore.changeId?]
    split
    · rfl
    · split
      · rfl
      · rw [Option.isSome_map, SessionStore.insertFresh?_cons hb, Option.isSome_some]
  | _ => rfl

end TimedStore

end ServletContainer
