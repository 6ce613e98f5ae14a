import ServletContainer.Proofs.Session.Life

namespace ServletContainer

/-!
# The attributes of sessions

What a session holds, seen through look-ups by its id.

* `TimedStore.attributes?` — the attributes of the live session of an id.
* `TimedStore.attributes?_access` — a call to a session changes the attributes of that session alone.
* `TimedStore.Looked` — sessions were only looked at.
* `TimedStore.Fresh.attributes?_changeId` — a session that is moved takes its attributes along.
* `SessionStore.Call.heir` — where a session goes on after a call.
* `TimedStore.Fresh.attribute_of_perform` — an attribute that a session has after a call was there before, unless the
  call sets it.
-/

namespace SessionStore

/-- Whether `c` leaves the attribute `name` alone, or removes it at most. -/
def Call.Spares (name : String) (c : Call) : Prop := ∀ id value, c ≠ .access id (.setAttribute name value)

/-- The id under which the session of `id` goes on after a call. -/
def Call.heir (id : SessionId) : Call → Reply → SessionId
  | .changeId i, .id (some new) => if i = id then new else id
  | _, _ => id

end SessionStore

namespace TimedStore

open SessionStore (Access Call Reply)

variable {t u v : TimedStore} {r : Reply} {id j : SessionId}

/-- The attributes of the live session of `id`. -/
def attributes? (t : TimedStore) (id : SessionId) : Option (Table String Value) :=
  (t.resolve? id).map Session.attributes

/-- The attribute `name` of the live session of `id`. -/
def attribute? (t : TimedStore) (id : SessionId) (name : String) : Option Value :=
  (t.attributes? id).bind fun attributes => attributes.get? name

/-- `attributes?` are those of the live session. -/
theorem attributes?_eq_some_iff {attributes : Table String Value} :
    t.attributes? id = some attributes ↔ ∃ s, t.resolve? id = some s ∧ s.attributes = attributes := Option.map_eq_some_iff

/-- There are no `attributes?` if and only if there is no live session. -/
theorem attributes?_eq_none_iff : t.attributes? id = none ↔ t.resolve? id = none := Option.map_eq_none_iff

/-- `attribute?` is one of the live session. -/
theorem attribute?_eq_some_iff {name : String} {value : Value} :
    t.attribute? id name = some value ↔ ∃ s, t.resolve? id = some s ∧ s.attributes.get? name = some value := by
  unfold attribute? attributes?
  rw [Option.bind_map, Option.bind_eq_some_iff]
  rfl

/-- `getAttribute` answers with it. -/
theorem getAttribute_fst (t : TimedStore) (id : SessionId) (name : String) :
    (t.store.getAttribute t.now id name).1 = t.attribute? id name := by
  unfold attribute? attributes?
  rw [Option.bind_map]
  rfl

/-! ### Calls to a session -/

/-- What the sessions hold after an `access` that does not make its session run out (`ha`). -/
theorem attributes?_access {a : Access} (h : t.perform (.access id a) = some (r, u))
    (ha : ∀ s : Session, s.isExpired t.now = false → (a.write t.now s).isExpired t.now = false) (j : SessionId) :
    u.attributes? j
      = if j = id then (t.resolve? id).map fun s => (a.write t.now s).attributes else t.attributes? j := by
  obtain ⟨-, hnow, -, hget⟩ := perform_access h
  unfold attributes?
  rw [u.resolve?_eq, hget, hnow]
  by_cases hj : j = id
  · rw [if_pos hj, if_pos hj]
    cases hs : t.resolve? id with
    | none => rfl
    | some s =>
      have hlive := ha s (Session.liveAt_eq_some_iff.1 (liveAt_of_resolve? hs)).1
      rw [Option.map_some, Option.bind_some, Session.liveAt_eq_some_iff.2 ⟨hlive, rfl⟩]
      rfl
  · rw [if_neg hj, if_neg hj, t.resolve?_eq]

/-- `setAttribute` inserts the attribute, and leaves the other sessions. -/
theorem attributes?_setAttribute {name : String} {value : Value}
    (h : t.perform (.access id (.setAttribute name value)) = some (r, u)) (j : SessionId) :
    u.attributes? j = if j = id then (t.attributes? id).map (·.insert name value) else t.attributes? j := by
  have hset : (t.attributes? id).map (·.insert name value)
      = (t.resolve? id).map fun s => (Access.write t.now s (.setAttribute name value)).attributes := Option.map_map _ _ _
  rw [attributes?_access h (fun _ hs => hs), hset]

/-! ### Looking -/

/-- Whether sessions were only looked at from `t` to `u`. -/
structure Looked (t u : TimedStore) : Prop where
  now : u.now = t.now
  supply : u.supply = t.supply
  attributes : ∀ id, u.attributes? id = t.attributes? id
  /-- An id that no session has stays free. -/
  free : ∀ id, t.store.sessions.get? id = none → u.store.sessions.get? id = none

namespace Looked

theorem refl (t : TimedStore) : t.Looked t := ⟨rfl, rfl, fun _ => rfl, fun _ h => h⟩

/-- Looking goes on. -/
theorem trans (h : t.Looked u) (h' : u.Looked v) : t.Looked v where
  now := h'.now.trans h.now
  supply := h'.supply.trans h.supply
  attributes id := (h'.attributes id).trans (h.attributes id)
  free id hid := h'.free id (h.free id hid)

theorem fresh (h : t.Looked u) (ht : t.Fresh) : u.Fresh where
  distinct := h.supply ▸ ht.distinct
  unused j hj := h.free j (ht.unused j (h.supply ▸ hj))

theorem attribute?_eq (h : t.Looked u) (id : SessionId) (name : String) : u.attribute? id name = t.attribute? id name := by
  rw [attribute?, attribute?, h.attributes]

/-- An `access` only looks if it neither makes its session run out (`ha`) nor changes the attributes (`hattr`). -/
theorem of_access {a : Access} (h : t.perform (.access id a) = some (r, u))
    (ha : ∀ s : Session, s.isExpired t.now = false → (a.write t.now s).isExpired t.now = false)
    (hattr : ∀ s : Session, (a.write t.now s).attributes = s.attributes) : t.Looked u := by
  obtain ⟨-, hnow, hsupply, hget⟩ := perform_access h
  refine ⟨hnow, hsupply, fun j => ?_, fun j hj => ?_⟩
  · -- `ha` and `hattr`: what is live stays live with its attributes.
    rw [attributes?_access h ha]
    simp only [hattr]
    split
    · next hj =>
      rw [hj]
      rfl
    · rfl
  · -- What is absent stays absent.
    rw [hget]
    split
    · next heq =>
      subst heq
      rw [t.resolve?_eq, hj]
      rfl
    · exact hj

/-- `find` only looks. -/
theorem find (h : t.perform (.access id .find) = some (r, u)) : t.Looked u := by
  refine of_access h (fun s _ => ?_) fun _ => rfl
  -- `write` sets the time of the last access to `now`, so the session has not been idle.
  cases hlimit : s.maxInactive <;> simp [Access.write, Session.isExpired, hlimit]

/-- `getAttribute` only looks. -/
theorem getAttribute {name : String} (h : t.perform (.access id (.getAttribute name)) = some (r, u)) : t.Looked u :=
  of_access h (fun _ hs => hs) fun _ => rfl

end Looked

/-! ### Moving -/

/-- Moving a live session (`hlive`) puts its attributes under the next id to be drawn, and leaves nothing under the old
one. -/
theorem Fresh.attributes?_changeId (ht : t.Fresh) (h : t.perform (.changeId id) = some (r, u))
    (hlive : t.attributes? id ≠ none) :
    ∃ b, t.supply = b :: u.supply ∧ r = .id (some b.id) ∧ u.now = t.now ∧ b.id ≠ id ∧
      ∀ j, u.attributes? j = if j = b.id then t.attributes? id else if j = id then none else t.attributes? j := by
  rcases ht.perform_changeId h with ⟨hnone, -⟩ | ⟨s, b, rest, hs, hsupply, hr, hnow, rfl, hb, hget⟩
  · exact absurd (attributes?_eq_none_iff.2 hnone) hlive
  · refine ⟨b, hsupply, hr, hnow, hb, fun j => ?_⟩
    unfold attributes?
    rw [u.resolve?_eq, hget, hnow]
    split
    · rw [Option.bind_some, liveAt_of_resolve? hs, hs]
    · split
      · rfl
      · rw [t.resolve?_eq]

/-! ### Attributes after a call -/

/-- An attribute that a call writes to a session is one that was there, if the call does not set it (`hc`). -/
theorem attribute_of_written {name : String} {value : Value} {c : Call} {now : Nat} {s : Session}
    (hc : c.Spares name) (h : (c.written id now s).attributes.get? name = some value) :
    s.attributes.get? name = some value := by
  -- Of all calls only `access` writes attributes, with `setAttribute` or `removeAttribute`.
  cases c with
  | access i a =>
    rw [Call.written] at h
    split at h
    · cases a with
      | setAttribute n w =>
        have hne : name ≠ n := by
          rintro rfl
          exact hc i w rfl
        simp only [Access.write, Table.get?_insert, if_neg hne] at h
        exact h
      | removeAttribute n =>
        simp only [Access.write, Table.get?_erase, Option.ite_none_left_eq_some] at h
        exact h.2
      | _ => exact h
    · exact h
  | _ => exact h

/-- An attribute that a session has after a call (`hu`) was there before, under the id that it had, unless the call sets
it (`hc`). -/
theorem Fresh.attribute_of_perform (ht : t.Fresh) {c : Call} (h : t.perform c = some (r, u)) {name : String}
    {value : Value} (hc : c.Spares name) (hu : u.attribute? id name = some value) :
    ∃ origin, t.attribute? origin name = some value ∧ c.heir origin r = id := by
  by_cases hr : r = .id (some id)
  · -- `id` is handed out just now: to a session without attributes, or to one that had another id.
    cases c with
    | create =>
      obtain ⟨b, rest, -, hb, hnow, -, hget⟩ := ht.perform_create h
      obtain rfl : b.id = id := by simpa [hr] using hb.symm
      obtain ⟨s, hs, hattr⟩ := attribute?_eq_some_iff.1 hu
      rw [resolve?_eq, hget, if_pos rfl, hnow, Option.bind_some, Session.liveAt_start] at hs
      obtain rfl := Option.some.inj hs
      cases hattr
    | changeId i =>
      subst hr
      have hlive : t.attributes? i ≠ none := by
        intro hnone
        rcases ht.perform_changeId h with ⟨-, hno, -⟩ | ⟨s, -, -, hs, -⟩
        · cases hno
        · rw [attributes?_eq_none_iff, hs] at hnone
          cases hnone
      obtain ⟨b, -, hb, -, -, hattr⟩ := ht.attributes?_changeId h hlive
      obtain rfl : b.id = id := by simpa using hb.symm
      refine ⟨i, ?_, if_pos rfl⟩
      rw [attribute?, hattr, if_pos rfl] at hu
      exact hu
    | _ =>
      rcases ht.supply_cases h with ⟨-, hno⟩ | ⟨hdraws, -⟩
      · exact absurd hr (hno id)
      · cases hdraws
  · obtain ⟨s', hs', hattr⟩ := attribute?_eq_some_iff.1 hu
    rw [ht.resolve?_perform h hr, Option.bind_eq_some_iff] at hs'
    obtain ⟨s, hs, hleaves⟩ := hs'
    rw [Call.eq_written hleaves] at hattr
    refine ⟨id, attribute?_eq_some_iff.2 ⟨s, hs, attribute_of_written hc hattr⟩, ?_⟩
    -- The session has not been moved away, since it is still there.
    unfold Call.heir
    split
    · next i new =>
      have hne : i ≠ id := by
        rintro rfl
        simp [Call.leaves] at hleaves
      exact if_neg hne
    · rfl

end TimedStore

end ServletContainer
