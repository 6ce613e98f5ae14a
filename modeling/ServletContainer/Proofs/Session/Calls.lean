import ServletContainer.Session.Store

namespace ServletContainer

/-!
# Calls to a session store

Everything that can be done to a session store and to the handles of its sessions, as data, and what each call
leaves under an id.

* `SessionStore.Access` — the calls that go to the live session of an id; `Access.answer` and `Access.write` say
  what they report and what they change, given the session alone.
* `SessionStore.Call` — every call, and the passing of time.
* `TimedStore` — a store with the clock that it reads and the blocks that it draws ids from.
* `TimedStore.perform`, `TimedStore.run` — one call, and calls in order, with what they report.
* `TimedStore.Fresh` — the invariant of a supply that never repeats an id: what is still to be drawn names no
  session.
-/

namespace Session

/-- The session `s` as long as it has not run out. -/
def liveAt (now : Nat) (s : Session) : Option Session := if s.isExpired now then none else some s

/-- `liveAt` is the session itself, if it has not run out. -/
theorem liveAt_eq_some_iff {now : Nat} {s s' : Session} :
    s.liveAt now = some s' ↔ s.isExpired now = false ∧ s = s' := by
  unfold liveAt
  cases s.isExpired now <;> simp

/-- What has run out (`h`) stays so. -/
theorem isExpired_of_le {now later : Nat} {s : Session} (hle : now ≤ later) (h : s.isExpired now = true) :
    s.isExpired later = true := by
  unfold isExpired at h ⊢
  cases hl : s.maxInactive with
  | none => simp [hl] at h
  | some limit =>
    simp only [hl, decide_eq_true_eq] at h ⊢
    omega

/-- To ask twice is to ask the second time. -/
theorem liveAt_bind_liveAt {now later : Nat} (hle : now ≤ later) (s : Session) :
    (s.liveAt now).bind (liveAt later) = s.liveAt later := by
  unfold liveAt
  by_cases h : s.isExpired now = true
  · simp [h, isExpired_of_le hle h]
  · simp [h]

theorem liveAt_start (now : Nat) (limit : Option Nat) : (start now limit).liveAt now = some (start now limit) := by
  cases limit <;> simp [liveAt, isExpired, start]

end Session

namespace SessionStore

/-! ### Calls -/

/-- A call that goes to the live session of an id, if there is one. -/
inductive Access where
  /-- Looks the session up for a request that came with the id. -/
  | find
  | contains
  | handleState
  | createdAt
  | lastAccessedAt
  | maxInactive
  | setMaxInactive (limit : Option Nat)
  | getAttribute (name : String)
  | setAttribute (name : String) (v : Value)
  | removeAttribute (name : String)
  | attributeNames

/-- A call to a `SessionStore` or to the handle of a session. -/
inductive Call where
  | create
  | access (id : SessionId) (a : Access)
  | invalidate (id : SessionId)
  | changeId (id : SessionId)
  | expireIdle
  | invalidateAll
  /-- Time passes. -/
  | advance (millis : Nat)

/-- What a `Call` reports. -/
inductive Reply where
  | done
  | flag (b : Bool)
  /-- The id that a session got, if any. -/
  | id (new : Option SessionId)
  | state (s : HandleState)
  | time (millis : Option Nat)
  | value (v : Option Value)
  | names (l : List String)
  | count (n : Nat)

/-- The result of an operation, reported as `f` says. -/
def report {α : Type} (f : α → Reply) (p : α × SessionStore) : Reply × SessionStore := (f p.1, p.2)

namespace Access

/-- Carries an `Access` out. -/
def perform (now : Nat) (id : SessionId) (s : SessionStore) : Access → Reply × SessionStore
  | .find => report .flag (s.find now id)
  | .contains => report .flag (s.contains now id)
  | .handleState => report .state (s.handleState now id)
  | .createdAt => report .time (s.createdAt now id)
  | .lastAccessedAt => report .time (s.lastAccessedAt now id)
  | .maxInactive => report .time (s.maxInactive now id)
  | .setMaxInactive limit => (.done, s.setMaxInactive now id limit)
  | .getAttribute name => report .value (s.getAttribute now id name)
  | .setAttribute name v => report .flag (s.setAttribute now id name v)
  | .removeAttribute name => report .value (s.removeAttribute now id name)
  | .attributeNames => report .names (s.attributeNames now id)

/-- What an `Access` reports of the live session `s`, or of its absence. -/
def answer (id : SessionId) (s : Option Session) : Access → Reply
  | .find => .flag s.isSome
  | .contains => .flag s.isSome
  | .handleState => .state ⟨id, (s.map Session.isNew).getD false, s.isSome⟩
  | .createdAt => .time (s.map Session.created)
  | .lastAccessedAt => .time (s.map Session.lastAccessed)
  | .maxInactive => .time (s.bind Session.maxInactive)
  | .setMaxInactive _ => .done
  | .getAttribute name => .value (s.bind fun x => x.attributes.get? name)
  | .setAttribute _ _ => .flag s.isSome
  | .removeAttribute name => .value (s.bind fun x => x.attributes.get? name)
  | .attributeNames => .names ((s.map fun x => x.attributes.keys).getD [])

/-- What an `Access` makes of the live session `s`. -/
def write (now : Nat) (s : Session) : Access → Session
  | .find => { s with lastAccessed := now, isNew := false }
  | .setMaxInactive limit => { s with maxInactive := limit }
  | .setAttribute name v => { s with attributes := s.attributes.insert name v }
  | .removeAttribute name => { s with attributes := s.attributes.erase name }
  | _ => s

end Access

/-! ### Looking sessions up -/

section LookUp

variable (s : SessionStore) (now : Nat) (id j : SessionId)

/-- `access` meets the session of the id, if it is live. -/
theorem access_fst : (s.access now id).1 = (s.sessions.get? id).bind (Session.liveAt now) := by
  unfold access
  cases h : s.sessions.get? id with
  | none => rfl
  | some session => by_cases he : session.isExpired now = true <;> simp [Session.liveAt, he]

/-- After `access` the store holds a session under the id only if it is live. -/
theorem get?_access : (s.access now id).2.sessions.get? j
    = if j = id then (s.access now id).1 else s.sessions.get? j := by
  rw [access_fst]
  unfold access
  cases h : s.sessions.get? id with
  | none => by_cases hj : j = id <;> simp [hj, h]
  | some session =>
    by_cases he : session.isExpired now = true
    · simp [Session.liveAt, he, Table.get?_erase]
    · by_cases hj : j = id <;> simp [Session.liveAt, he, hj, h]

@[simp] theorem config_access : (s.access now id).2.config = s.config := by
  unfold access
  split
  · rfl
  · split <;> rfl

/-- A second `access` meets the same session. -/
theorem access_access_fst : ((s.access now id).2.access now id).1 = (s.access now id).1 := by
  have h := s.get?_access now id id
  rw [if_pos rfl] at h
  rw [access_fst, h, access_fst, Option.bind_assoc]
  exact congrArg _ (funext fun x => x.liveAt_bind_liveAt (Nat.le_refl now))

variable (f : Session → Session)

/-- `change` tells whether it met a session. -/
theorem change_fst : (s.change now id f).1 = (s.access now id).1.isSome := by
  unfold change
  rcases s.access now id with ⟨_ | _, _⟩ <;> rfl

/-- `change` puts `f` of the session that it met in its place. -/
theorem get?_change : (s.change now id f).2.sessions.get? j
    = if j = id then (s.access now id).1.map f else s.sessions.get? j := by
  have h := s.get?_access now id
  unfold change
  rcases hs : s.access now id with ⟨_ | session, t⟩
  · rw [hs] at h
    exact h j
  · rw [hs] at h
    have hget : t.sessions.get? j = if j = id then some session else s.sessions.get? j := h j
    show (t.sessions.adjust id f).get? j = _
    rw [Table.get?_adjust, hget]
    by_cases hj : j = id <;> simp [hj]

@[simp] theorem config_change : (s.change now id f).2.config = s.config := by
  have h := s.config_access now id
  unfold change
  rcases hs : s.access now id with ⟨_ | _, _⟩ <;> simpa [hs] using h

end LookUp

namespace Access

variable (a : Access) (now : Nat) (id : SessionId) (s : SessionStore)

/-- An `Access` reports the `answer` of the session that it meets. -/
theorem perform_fst : (a.perform now id s).1 = a.answer id (s.access now id).1 := by
  cases a with
  | find => exact congrArg _ (s.change_fst now id _)
  | setAttribute name v => exact congrArg _ (s.change_fst now id _)
  | handleState =>
    show Reply.state _ = Reply.state _
    cases h : (s.access now id).1 <;> simp [SessionStore.handleState, read, h]
  | _ => rfl

/-- An `Access` leaves what it makes of the session (`write`), and all other sessions. -/
theorem get?_perform (j : SessionId) : (a.perform now id s).2.sessions.get? j
    = if j = id then (s.access now id).1.map fun x => a.write now x else s.sessions.get? j := by
  have hread := s.get?_access now id j
  have hkept : (s.access now id).2.sessions.get? j
      = if j = id then (s.access now id).1.map fun x => x else s.sessions.get? j := by simpa using hread
  cases a with
  | find => exact s.get?_change now id j _
  | setMaxInactive limit => exact s.get?_change now id j _
  | setAttribute name v => exact s.get?_change now id j _
  | removeAttribute name =>
    -- `removeAttribute` looks the session up twice, first to read the attribute and then to remove it.
    show ((s.access now id).2.change now id _).2.sessions.get? j = _
    rw [get?_change, access_access_fst, hread]
    by_cases hj : j = id <;> simp [hj, write]
  | _ => exact hkept

@[simp] theorem config_perform : (a.perform now id s).2.config = s.config := by
  have hread := s.config_access now id
  cases a with
  | find => exact s.config_change now id _
  | setMaxInactive limit => exact s.config_change now id _
  | setAttribute name v => exact s.config_change now id _
  | removeAttribute name => exact ((s.access now id).2.config_change now id _).trans hread
  | _ => exact hread

end Access

/-! ### Fresh ids -/

/-- If the id of the first block is free (`h`), the session goes there. -/
theorem insertFresh?_cons {s : SessionStore} {b : Block} (h : s.sessions.get? b.id = none) (session : Session)
    (rest : List Block) : s.insertFresh? session (b :: rest)
      = some (b.id, rest, { s with sessions := s.sessions.insert b.id session }) := by
  simp [insertFresh?, freshId?, Table.contains, h]

/-- `insertFresh?` keeps the settings. -/
theorem config_insertFresh? {s u : SessionStore} {session : Session} {supply rest : List Block} {id : SessionId}
    (h : s.insertFresh? session supply = some (id, rest, u)) : u.config = s.config := by
  obtain ⟨⟨_, _⟩, -, heq⟩ := Option.map_eq_some_iff.1 h
  obtain ⟨rfl, rfl, rfl⟩ := heq
  rfl

/-- So does `changeId?`. -/
theorem config_changeId? {s u : SessionStore} {now : Nat} {id : SessionId} {supply rest : List Block}
    {new : Option SessionId} (h : s.changeId? now id supply = some (new, rest, u)) : u.config = s.config := by
  unfold changeId? at h
  split at h
  · obtain ⟨rfl, rfl, rfl⟩ := h
    rfl
  · split at h
    · obtain ⟨rfl, rfl, rfl⟩ := h
      rfl
    · obtain ⟨⟨_, _, _⟩, hs, heq⟩ := Option.map_eq_some_iff.1 h
      obtain ⟨rfl, rfl, rfl⟩ := heq
      have hu := config_insertFresh? hs
      exact hu

end SessionStore

/-! ### Stores in time -/

/-- A session store with the clock that it reads and the blocks that it draws ids from. -/
structure TimedStore where
  now : Nat
  supply : List Block
  store : SessionStore

namespace TimedStore

open SessionStore (Access Call Reply)

/-- A `TimedStore` without sessions. -/
def start (config : SessionConfig) (now : Nat) (supply : List Block) : TimedStore := ⟨now, supply, .empty config⟩

/-- The session that a look-up of `id` in `t` meets. -/
def resolve? (t : TimedStore) (id : SessionId) : Option Session := (t.store.access t.now id).1

/-- Carries a `Call` out; none if it needs an id and the supply of blocks has run dry. -/
def perform (t : TimedStore) : Call → Option (Reply × TimedStore)
  | .create => (t.store.create? t.now t.supply).map fun (id, supply, store) =>
    (.id (some id), { t with supply, store })
  | .access id a => some ((a.perform t.now id t.store).1, { t with store := (a.perform t.now id t.store).2 })
  | .invalidate id => some (.flag (t.store.invalidate id).1, { t with store := (t.store.invalidate id).2 })
  | .changeId id => (t.store.changeId? t.now id t.supply).map fun (new, supply, store) =>
    (.id new, { t with supply, store })
  | .expireIdle => some (.count (t.store.expireIdle t.now).1, { t with store := (t.store.expireIdle t.now).2 })
  | .invalidateAll => some (.done, { t with store := t.store.invalidateAll })
  | .advance millis => some (.done, { t with now := t.now + millis })

/-- Carries calls out in order, with `perform`; gives what they report. -/
def run (t : TimedStore) : List Call → Option (List Reply × TimedStore)
  | [] => some ([], t)
  | c :: calls => (t.perform c).bind fun (r, u) => (u.run calls).map fun (rs, v) => (r :: rs, v)

/-- Whether what `t` is still to draw is all different, and names no session. -/
structure Fresh (t : TimedStore) : Prop where
  distinct : (t.supply.map Block.id).Nodup
  unused : ∀ id ∈ t.supply.map Block.id, t.store.sessions.get? id = none

/-- `resolve?` is the session of the id, if it is live. -/
theorem resolve?_eq (t : TimedStore) (id : SessionId) :
    t.resolve? id = (t.store.sessions.get? id).bind (Session.liveAt t.now) :=
  t.store.access_fst t.now id

/-! ### One call -/

section Perform

variable {t u : TimedStore} {r : Reply}

/-- A run of calls is the first one and a run of the others. -/
theorem run_cons_eq_some {c : Call} {calls : List Call} {rs : List Reply} {v : TimedStore}
    (h : t.run (c :: calls) = some (rs, v)) :
    ∃ r u rs', t.perform c = some (r, u) ∧ u.run calls = some (rs', v) ∧ rs = r :: rs' := by
  obtain ⟨⟨r, u⟩, hr, hrest⟩ := Option.bind_eq_some_iff.1 h
  obtain ⟨⟨rs', w⟩, hrs, heq⟩ := Option.map_eq_some_iff.1 hrest
  obtain ⟨rfl, rfl⟩ := Prod.mk.inj heq
  exact ⟨r, u, rs', hr, hrs, rfl⟩

/-- Every call keeps the settings. One case for each call. -/
theorem config_perform {c : Call} (h : t.perform c = some (r, u)) : u.store.config = t.store.config := by
  cases c with
  | create =>
    obtain ⟨⟨new, rest, store⟩, hs, heq⟩ := Option.map_eq_some_iff.1 h
    obtain ⟨-, rfl⟩ := Prod.mk.inj heq
    exact SessionStore.config_insertFresh? hs
  | changeId id =>
    obtain ⟨⟨new, rest, store⟩, hs, heq⟩ := Option.map_eq_some_iff.1 h
    obtain ⟨-, rfl⟩ := Prod.mk.inj heq
    exact SessionStore.config_changeId? hs
  | access id a =>
    obtain ⟨-, rfl⟩ := Prod.mk.inj (Option.some.inj h)
    exact a.config_perform t.now id t.store
  | _ =>
    obtain ⟨-, rfl⟩ := Prod.mk.inj (Option.some.inj h)
    rfl

/-- What an `access` does: it answers and writes by the live session of its id, and touches nothing else. -/
theorem perform_access {id : SessionId} {a : Access} (h : t.perform (.access id a) = some (r, u)) :
    r = a.answer id (t.resolve? id) ∧ u.now = t.now ∧ u.supply = t.supply ∧
      ∀ j, u.store.sessions.get? j
        = if j = id then (t.resolve? id).map fun x => a.write t.now x else t.store.sessions.get? j := by
  obtain ⟨rfl, rfl⟩ := Prod.mk.inj (Option.some.inj h)
  exact ⟨a.perform_fst t.now id t.store, rfl, rfl, a.get?_perform t.now id t.store⟩

/-- What `invalidate` does: it takes out what there is under the id, live or not, and tells whether there was anything.
-/
theorem perform_invalidate {id : SessionId} (h : t.perform (.invalidate id) = some (r, u)) :
    r = .flag (t.store.sessions.get? id).isSome ∧ u.now = t.now ∧ u.supply = t.supply ∧
      ∀ j, u.store.sessions.get? j = if j = id then none else t.store.sessions.get? j := by
  obtain ⟨rfl, rfl⟩ := Prod.mk.inj (Option.some.inj h)
  exact ⟨rfl, rfl, rfl, Table.get?_erase _ id⟩

/-- What `expireIdle` does: what is left are the live sessions. -/
theorem perform_expireIdle (h : t.perform .expireIdle = some (r, u)) :
    u.now = t.now ∧ u.supply = t.supply ∧ ∀ j, u.store.sessions.get? j = t.resolve? j := by
  obtain ⟨-, rfl⟩ := Prod.mk.inj (Option.some.inj h)
  refine ⟨rfl, rfl, fun j => ?_⟩
  show (t.store.sessions.filter fun _ session => !session.isExpired t.now).get? j = _
  rw [Table.get?_filter, resolve?_eq]
  cases t.store.sessions.get? j with
  | none => rfl
  | some x => cases hx : x.isExpired t.now <;> simp [Option.filter, Session.liveAt, hx]

/-- Where ids do not repeat (`ht`), `create` puts a new session under the id of the next block. -/
theorem Fresh.perform_create (ht : t.Fresh) (h : t.perform .create = some (r, u)) :
    ∃ b rest, t.supply = b :: rest ∧ r = .id (some b.id) ∧ u.now = t.now ∧ u.supply = rest ∧
      ∀ j, u.store.sessions.get? j
        = if j = b.id then some (.start t.now t.store.config.timeoutMillis?) else t.store.sessions.get? j := by
  change Option.map _ (t.store.create? t.now t.supply) = _ at h
  cases hs : t.supply with
  | nil => simp [hs, SessionStore.create?, SessionStore.insertFresh?, SessionStore.freshId?] at h
  | cons b rest =>
    have hb : t.store.sessions.get? b.id = none := ht.unused b.id (by simp [hs])
    rw [hs, SessionStore.create?, SessionStore.insertFresh?_cons hb] at h
    obtain ⟨rfl, rfl⟩ := Prod.mk.inj (Option.some.inj h)
    exact ⟨b, rest, rfl, rfl, rfl, rfl, fun j => Table.get?_insert _ b.id j _⟩

/-- There `changeId` either finds no live session, or puts the whole record under the id of the next block. Either way
nothing is left under the old one. -/
theorem Fresh.perform_changeId (ht : t.Fresh) {id : SessionId} (h : t.perform (.changeId id) = some (r, u)) :
    (t.resolve? id = none ∧ r = .id none ∧ u.now = t.now ∧ u.supply = t.supply ∧
      ∀ j, u.store.sessions.get? j = if j = id then none else t.store.sessions.get? j) ∨
    (∃ s b rest, t.resolve? id = some s ∧ t.supply = b :: rest ∧ r = .id (some b.id) ∧ u.now = t.now ∧
      u.supply = rest ∧ b.id ≠ id ∧
      ∀ j, u.store.sessions.get? j
        = if j = b.id then some s else if j = id then none else t.store.sessions.get? j) := by
  change Option.map _ (t.store.changeId? t.now id t.supply) = _ at h
  have hres := t.resolve?_eq id
  unfold SessionStore.changeId? at h
  cases hid : t.store.sessions.get? id with
  | none =>
    rw [hid] at h hres
    obtain ⟨rfl, rfl⟩ := Prod.mk.inj (Option.some.inj h)
    refine .inl ⟨hres, rfl, rfl, rfl, fun j => ?_⟩
    by_cases hj : j = id <;> simp [hj, hid]
  | some s =>
    rw [hid] at h hres
    by_cases he : s.isExpired t.now = true
    · rw [Option.bind_some, Session.liveAt, if_pos he] at hres
      simp only [he, if_true] at h
      obtain ⟨rfl, rfl⟩ := Prod.mk.inj (Option.some.inj h)
      exact .inl ⟨hres, rfl, rfl, rfl, Table.get?_erase _ id⟩
    · rw [Option.bind_some, Session.liveAt, if_neg he] at hres
      simp only [he] at h
      cases hs : t.supply with
      | nil => simp [hs, SessionStore.insertFresh?, SessionStore.freshId?] at h
      | cons b rest =>
        -- `ht.unused`: the next block is unused, and stays so when the session is taken out.
        have hb : t.store.sessions.get? b.id = none := ht.unused b.id (by simp [hs])
        have hne : b.id ≠ id := by
          rintro rfl
          simp [hb] at hid
        have hb' : (t.store.sessions.erase id).get? b.id = none := by rw [Table.get?_erase, if_neg hne, hb]
        rw [hs] at h
        simp only [Bool.false_eq_true, if_false] at h
        rw [SessionStore.insertFresh?_cons hb'] at h
        obtain ⟨rfl, rfl⟩ := Prod.mk.inj (Option.some.inj h)
        refine .inr ⟨s, b, rest, hres, rfl, rfl, rfl, rfl, hne, fun j => ?_⟩
        show ((t.store.sessions.erase id).insert b.id s).get? j = _
        rw [Table.get?_insert, Table.get?_erase]

end Perform

end TimedStore

end ServletContainer
