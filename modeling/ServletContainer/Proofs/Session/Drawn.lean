import Mathlib.Logic.Relation
import ServletContainer.Proofs.Session.Calls

namespace ServletContainer

/-!
# Ids that are drawn

A store takes no id from anybody: where it puts a session under an id that it did not hold before, the id is that of
a block which it has drawn from its supply.

* `SessionStore.freshId?_eq_some_iff`, `SessionStore.freshId?_eq_none_iff` — the block that is drawn: the first whose id is
  not taken, if there is one.
* `SessionStore.insertFresh?_eq_some`, `SessionStore.changeId?_cases` — what is put under its id.
* `TimedStore.Draws` — blocks are drawn, and no id comes in any other way; `TimedStore.exists_draws_perform` is the step
  lemma.
* `TimedStore.Reaches` — sessions that come from others by calls, for which `TimedStore.Reaches.exists_draws` follows.
-/

namespace SessionStore

variable {s u : SessionStore} {supply rest : List Block} {id : SessionId}

/-- Whether `s` has a session under `id`, be it live or not. -/
def Holds (s : SessionStore) (id : SessionId) : Prop := s.sessions.get? id ≠ none

/-- `contains` decides `Holds`. -/
theorem contains_iff_holds : s.sessions.contains id = true ↔ s.Holds id := Option.isSome_iff_ne_none

/-- `freshId?` passes over blocks as long as their ids are taken, and takes the first one that is free. By induction on
the supply. -/
theorem freshId?_eq_some_iff : s.freshId? supply = some (id, rest) ↔ ∃ passed b,
    supply = passed ++ b :: rest ∧ b.id = id ∧ (∀ p ∈ passed, s.Holds p.id) ∧ ¬ s.Holds b.id := by
  induction supply with
  | nil => simp [freshId?]
  | cons b supply ih =>
    rw [freshId?]
    -- A taken block is passed and heads `passed`; a free one is the answer and leaves `passed` empty.
    by_cases htaken : s.Holds b.id
    · rw [if_pos (contains_iff_holds.2 htaken), ih]
      constructor
      · rintro ⟨passed, b', rfl, hid, hpassed, hfree⟩
        exact ⟨b :: passed, b', rfl, hid, List.forall_mem_cons.2 ⟨htaken, hpassed⟩, hfree⟩
      · rintro ⟨passed, b', hsupply, hid, hpassed, hfree⟩
        cases passed with
        | nil =>
          obtain ⟨rfl, -⟩ := List.cons.inj hsupply
          exact absurd htaken hfree
        | cons p passed =>
          obtain ⟨-, rfl⟩ := List.cons.inj hsupply
          exact ⟨passed, b', rfl, hid, (List.forall_mem_cons.1 hpassed).2, hfree⟩
    · rw [if_neg fun h => htaken (contains_iff_holds.1 h)]
      constructor
      · intro h
        obtain ⟨hid, rfl⟩ := Prod.mk.inj (Option.some.inj h)
        exact ⟨[], b, rfl, hid, by simp, htaken⟩
      · rintro ⟨passed, b', hsupply, rfl, hpassed, -⟩
        cases passed with
        | nil =>
          obtain ⟨rfl, rfl⟩ := List.cons.inj hsupply
          rfl
        | cons p passed =>
          obtain ⟨rfl, -⟩ := List.cons.inj hsupply
          exact absurd (hpassed b List.mem_cons_self) htaken

/-- `freshId?` fails where all ids are taken. -/
theorem freshId?_eq_none_iff : s.freshId? supply = none ↔ ∀ b ∈ supply, s.Holds b.id := by
  induction supply with
  | nil => simp [freshId?]
  | cons b supply ih =>
    rw [freshId?, List.forall_mem_cons]
    by_cases htaken : s.Holds b.id
    · rw [if_pos (contains_iff_holds.2 htaken), ih, and_iff_right htaken]
    · rw [if_neg fun h => htaken (contains_iff_holds.1 h)]
      exact iff_of_false (Option.some_ne_none _) fun h => htaken h.1

/-- `insertFresh?` puts the session under the id that `freshId?` finds. -/
theorem insertFresh?_eq_some {session : Session} (h : s.insertFresh? session supply = some (id, rest, u)) :
    s.freshId? supply = some (id, rest) ∧ u = { s with sessions := s.sessions.insert id session } := by
  obtain ⟨⟨_, _⟩, hfresh, heq⟩ := Option.map_eq_some_iff.1 h
  obtain ⟨rfl, rfl, rfl⟩ := heq
  exact ⟨hfresh, rfl⟩

/-- Taking a session out brings no id. -/
theorem holds_erase {j : SessionId} (h : Holds { s with sessions := s.sessions.erase id } j) : s.Holds j := by
  rw [Holds, Table.get?_erase] at h
  split at h
  · exact absurd rfl h
  · exact h

/-- `changeId?` moves a session by taking it out and putting it under a fresh id; otherwise sessions are lost at most.
-/
theorem changeId?_cases {now : Nat} {changed : Option SessionId}
    (h : s.changeId? now id supply = some (changed, rest, u)) :
    (changed = none ∧ rest = supply ∧ u.config = s.config ∧ ∀ j, u.Holds j → s.Holds j) ∨
      ∃ session new, changed = some new ∧
        insertFresh? session supply { s with sessions := s.sessions.erase id } = some (new, rest, u) := by
  unfold changeId? at h
  split at h
  · obtain ⟨rfl, rfl, rfl⟩ := h
    exact .inl ⟨rfl, rfl, rfl, fun _ hj => hj⟩
  · split at h
    · obtain ⟨rfl, rfl, rfl⟩ := h
      exact .inl ⟨rfl, rfl, rfl, fun _ hj => holds_erase hj⟩
    · next session _ _ =>
      obtain ⟨⟨new, left, v⟩, hs, heq⟩ := Option.map_eq_some_iff.1 h
      obtain ⟨rfl, rfl, rfl⟩ := heq
      exact .inr ⟨session, new, rfl, hs⟩

end SessionStore

namespace TimedStore

open SessionStore (Call Reply)

/-! ### Blocks and ids -/

/-- Whether from `t` to `u` the blocks `drawn` are drawn, and sessions are under no ids but those that were taken before
and those of the blocks. -/
structure Draws (t : TimedStore) (drawn : List Block) (u : TimedStore) : Prop where
  supply : t.supply = drawn ++ u.supply
  holds : ∀ id, u.store.Holds id → t.store.Holds id ∨ id ∈ drawn.map Block.id

variable {t u v : TimedStore} {drawn drawn' : List Block}

theorem Draws.refl (t : TimedStore) : t.Draws [] t := ⟨rfl, fun _ h => .inl h⟩

/-- What draws and then draws again has drawn both. -/
theorem Draws.trans (h : t.Draws drawn u) (h' : u.Draws drawn' v) : t.Draws (drawn ++ drawn') v where
  supply := by rw [h.supply, h'.supply, List.append_assoc]
  holds id hid := by
    rw [List.map_append, List.mem_append]
    rcases h'.holds id hid with hold | hnew
    · exact (h.holds id hold).imp_right .inl
    · exact .inr (.inr hnew)

/-- To put a session under a fresh id (`h`) is to draw the blocks that were passed over and the one taken. -/
theorem exists_draws_of_insertFresh? {s store : SessionStore} {session : Session} {rest : List Block} {id : SessionId}
    (hs : ∀ j, s.Holds j → t.store.Holds j) (h : s.insertFresh? session t.supply = some (id, rest, store)) :
    ∃ drawn, t.Draws drawn { t with supply := rest, store } := by
  obtain ⟨hfresh, rfl⟩ := SessionStore.insertFresh?_eq_some h
  obtain ⟨passed, b, hsupply, rfl, -⟩ := SessionStore.freshId?_eq_some_iff.1 hfresh
  refine ⟨passed ++ [b], ⟨by simpa using hsupply, fun j hj => ?_⟩⟩
  change (s.sessions.insert b.id session).get? j ≠ none at hj
  rw [Table.get?_insert] at hj
  split at hj
  · next hnew => exact .inr (by simp [hnew])
  · exact .inl (hs j hj)

/-- A call that leaves the supply alone (`hsupply`) and brings no id (`h`) draws nothing. -/
theorem Draws.of_subset (hsupply : u.supply = t.supply) (h : ∀ j, u.store.Holds j → t.store.Holds j) : t.Draws [] u :=
  ⟨hsupply.symm, fun j hj => .inl (h j hj)⟩

/-- An `access` brings no id. -/
theorem holds_of_perform_access {id j : SessionId} {a : SessionStore.Access} {r : Reply}
    (h : t.perform (.access id a) = some (r, u)) (hj : u.store.Holds j) : t.store.Holds j := by
  obtain ⟨-, -, -, hget⟩ := perform_access h
  rw [SessionStore.Holds, hget] at hj
  split at hj
  · next hid =>
    -- `hid`: what is written back was found there.
    rintro hnone
    rw [resolve?_eq, ← hid, hnone] at hj
    exact hj rfl
  · exact hj

/-- Every call draws. One case for each call. -/
theorem exists_draws_perform {c : Call} {r : Reply} (h : t.perform c = some (r, u)) : ∃ drawn, t.Draws drawn u := by
  cases c with
  | create =>
    obtain ⟨⟨id, rest, store⟩, hs, heq⟩ := Option.map_eq_some_iff.1 h
    obtain ⟨-, rfl⟩ := Prod.mk.inj heq
    exact exists_draws_of_insertFresh? (fun _ hj => hj) hs
  | changeId id =>
    obtain ⟨⟨new, rest, store⟩, hs, heq⟩ := Option.map_eq_some_iff.1 h
    obtain ⟨-, rfl⟩ := Prod.mk.inj heq
    -- `changeId` of a missing session draws nothing, and none of the other calls do.
    rcases SessionStore.changeId?_cases hs with ⟨-, rfl, -, hless⟩ | ⟨session, new, -, hinsert⟩
    · exact ⟨[], .of_subset rfl hless⟩
    · exact exists_draws_of_insertFresh? (fun _ => SessionStore.holds_erase) hinsert
  | access id a =>
    obtain ⟨-, -, hsupply, -⟩ := perform_access h
    exact ⟨[], .of_subset hsupply fun _ => holds_of_perform_access h⟩
  | invalidate id =>
    obtain ⟨-, rfl⟩ := Prod.mk.inj (Option.some.inj h)
    exact ⟨[], .of_subset rfl fun _ => SessionStore.holds_erase⟩
  | expireIdle =>
    obtain ⟨-, hsupply, hget⟩ := perform_expireIdle h
    refine ⟨[], .of_subset hsupply fun j hj hnone => ?_⟩
    rw [SessionStore.Holds, hget, resolve?_eq, hnone] at hj
    exact hj rfl
  | invalidateAll =>
    obtain ⟨-, rfl⟩ := Prod.mk.inj (Option.some.inj h)
    exact ⟨[], .of_subset rfl fun _ hj => absurd rfl hj⟩
  | advance millis =>
    obtain ⟨-, rfl⟩ := Prod.mk.inj (Option.some.inj h)
    exact ⟨[], .of_subset rfl fun _ hj => hj⟩

/-- No call turns the clock back. -/
theorem now_le_perform {c : Call} {r : Reply} (h : t.perform c = some (r, u)) : t.now ≤ u.now := by
  cases c with
  | create | changeId =>
    obtain ⟨⟨_, _, _⟩, -, heq⟩ := Option.map_eq_some_iff.1 h
    obtain ⟨-, rfl⟩ := Prod.mk.inj heq
    exact Nat.le_refl _
  | advance millis =>
    obtain ⟨-, rfl⟩ := Prod.mk.inj (Option.some.inj h)
    exact Nat.le_add_right _ _
  | _ =>
    obtain ⟨-, rfl⟩ := Prod.mk.inj (Option.some.inj h)
    exact Nat.le_refl _

/-! ### Calls in order -/

/-- Whether a `TimedStore` comes from another by calls. -/
def Reaches : TimedStore → TimedStore → Prop := Relation.ReflTransGen fun t u => ∃ c r, t.perform c = some (r, u)

theorem Reaches.refl (t : TimedStore) : t.Reaches t := Relation.ReflTransGen.refl

theorem Reaches.trans (h : t.Reaches u) (h' : u.Reaches v) : t.Reaches v := Relation.ReflTransGen.trans h h'

theorem Reaches.perform {c : Call} {r : Reply} (h : t.perform c = some (r, u)) : t.Reaches u := .single ⟨c, r, h⟩

/-- From call to run: a relation that is reflexive, transitive and kept by every call (`hperform`) holds between what is
reached and the start. -/
theorem Reaches.lift {R : TimedStore → TimedStore → Prop} (hrefl : ∀ t, R t t)
    (htrans : ∀ {t u v}, R t u → R u v → R t v)
    (hperform : ∀ {c r t u}, t.perform c = some (r, u) → R t u) (h : t.Reaches u) : R t u := by
  induction h with
  | refl => exact hrefl t
  | tail _ hlast ih =>
    obtain ⟨c, r, hc⟩ := hlast
    exact htrans ih (hperform hc)

theorem Reaches.exists_draws (h : t.Reaches u) : ∃ drawn, t.Draws drawn u :=
  h.lift (R := fun t u => ∃ drawn, t.Draws drawn u) (fun t => ⟨[], .refl t⟩)
    (fun ⟨_, h⟩ ⟨_, h'⟩ => ⟨_, h.trans h'⟩) exists_draws_perform

theorem Reaches.config_eq (h : t.Reaches u) : u.store.config = t.store.config :=
  h.lift (R := fun t u => u.store.config = t.store.config) (fun _ => rfl) (fun h h' => h'.trans h) config_perform

end TimedStore

end ServletContainer
