import ServletContainer.Proofs.Security.Login
import ServletContainer.Proofs.Session.Runs

namespace ServletContainer

/-!
# Courses of turns

The sessions of an application are called by its code and by the container, time passes, and ids are drawn from the
same supply for other applications. Now and then the guard is asked about a request, whatever session the client asks
for.

* `BasicAuth.Turn`, `BasicAuth.course` — what happens to the sessions, one thing after another.
* `BasicAuth.heir` — the id under which a session goes on, when code moves it.
* `BasicAuth.attributes?_take_of_none`, `BasicAuth.attributes?_course_of_none` — what is gone does not come back.
* `BasicAuth.attribute_of_take`, `BasicAuth.attribute_of_course` — a session that names a caller was made to do so by
  the guard: one turn, and by induction a course.
-/

open SessionStore (Call)

namespace BasicAuth

/-! ### Courses -/

/-- What may happen to the sessions of an application with a `BasicAuth` guard. -/
inductive Turn where
  /-- A call by code or by the container, or time that passes. -/
  | call (c : Call)
  /-- Blocks are drawn for the sessions of other applications. -/
  | elsewhere (blocks : Nat)
  /-- The guard is asked about the request of an exchange. -/
  | check (x : Exchange)

/-- Whether a turn is not a call that sets `principalAttribute`. -/
def Turn.IsModest : Turn → Prop
  | .call c => c.Spares principalAttribute
  | .elsewhere _ => True
  | .check _ => True

variable (g : BasicAuth)

/-- Takes a turn; none if the supply of blocks runs dry. -/
def take (t : TimedStore) : Turn → Option TimedStore
  | .call c => (t.perform c).map Prod.snd
  | .elsewhere blocks => some { t with supply := t.supply.drop blocks }
  | .check x => (g.check? (x.withTimed t)).map fun p => p.2.timed

/-- Takes turns in order, with `take`. -/
def course : TimedStore → List Turn → Option TimedStore
  | t, [] => some t
  | t, turn :: turns => (g.take t turn).bind fun u => course u turns

/-- The id under which the session of `id` goes on after a turn, if it is not the guard that moves it. -/
def Turn.heir (t : TimedStore) (id : SessionId) : Turn → SessionId
  | .call c =>
    match t.perform c with
    | some (r, _) => c.heir id r
    | none => id
  | .elsewhere _ => id
  | .check _ => id

/-- The id under which the session of an id goes on after turns, by `Turn.heir`. -/
def heir : TimedStore → SessionId → List Turn → SessionId
  | _, id, [] => id
  | t, id, turn :: turns =>
    match g.take t turn with
    | some u => heir u (turn.heir t id) turns
    | none => id

variable {g}

theorem course_cons_eq_some {t v : TimedStore} {turn : Turn} {turns : List Turn}
    (h : g.course t (turn :: turns) = some v) : ∃ u, g.take t turn = some u ∧ g.course u turns = some v :=
  Option.bind_eq_some_iff.1 h

/-- Turns may be added at the end of a course. -/
theorem course_append {t u : TimedStore} {turns : List Turn} (h : g.course t turns = some u) (more : List Turn) :
    g.course t (turns ++ more) = g.course u more := by
  induction turns generalizing t with
  | nil =>
    obtain rfl := Option.some.inj h
    rfl
  | cons turn turns ih =>
    obtain ⟨v, hv, hrest⟩ := course_cons_eq_some h
    show Option.bind (g.take t turn) (fun v => g.course v (turns ++ more)) = _
    rw [hv, Option.bind_some, ih hrest]

/-! ### One turn -/

section Take

variable {t u : TimedStore} {turn : Turn} {id : SessionId}

/-- To ask the guard is to look at sessions (`Looked`), or to log a caller in who is authenticated. -/
theorem take_check_cases (ht : t.Fresh) {x : Exchange} (h : g.take t (.check x) = some u) :
    t.Looked u ∨ ∃ caller y, Authenticates g.identities x.request.head.headers caller ∧
      g.check? (x.withTimed t) = some (.allow, y) ∧ LogsIn caller.name (x.withTimed t) y ∧ u = y.timed := by
  obtain ⟨⟨decision, y⟩, hy, rfl⟩ := Option.map_eq_some_iff.1 h
  rcases logsIn_of_check? (x := x.withTimed t) ht hy with ⟨hsame, -⟩ | ⟨caller, hcaller, hallow, hlogin⟩
  · obtain rfl : y = x.withTimed t := hsame
    exact .inl (.refl t)
  · obtain rfl : decision = .allow := hallow
    exact .inr ⟨caller, y, hcaller, hy, hlogin, rfl⟩

/-- A login keeps what is still to be drawn unused: it draws one block at most. -/
theorem LogsIn.fresh {name : String} {x y : Exchange} (h : LogsIn name x y) (hx : x.timed.Fresh) :
    y.timed.Fresh ∧ y.timed.supply <:+ x.timed.supply := by
  cases h with
  | absent _ hlooked => exact ⟨hlooked.fresh hx, hlooked.supply ▸ List.suffix_rfl⟩
  | known _ _ hlooked _ => exact ⟨hlooked.fresh hx, hlooked.supply ▸ List.suffix_rfl⟩
  | @moved _ _ b _ _ _ hsupply _ hfresh _ _ _ => exact ⟨hfresh, [b], hsupply.symm⟩

/-- So does every turn. One case for each kind. -/
theorem fresh_take (ht : t.Fresh) (h : g.take t turn = some u) : u.Fresh ∧ u.supply <:+ t.supply := by
  cases turn with
  | call c =>
    obtain ⟨⟨r, v⟩, hv, rfl⟩ := Option.map_eq_some_iff.1 h
    exact ⟨ht.perform hv, ht.supply_suffix hv⟩
  | elsewhere blocks =>
    obtain rfl := Option.some.inj h
    have hsuffix := List.drop_suffix blocks t.supply
    exact ⟨⟨ht.distinct.sublist (hsuffix.sublist.map _), fun id hid =>
      ht.unused id ((hsuffix.sublist.map _).subset hid)⟩, hsuffix⟩
  | check x =>
    rcases take_check_cases ht h with hlooked | ⟨caller, y, -, -, hlogin, rfl⟩
    · exact ⟨hlooked.fresh ht, hlooked.supply ▸ List.suffix_rfl⟩
    · exact hlogin.fresh ht

/-- An id that has been drawn (`hid`), and under which there is no session (`hnone`), stays without one: a turn gives
sessions no other ids than those that it draws. -/
theorem attributes?_take_of_none (ht : t.Fresh) (h : g.take t turn = some u) (hid : id ∉ t.supply.map Block.id)
    (hnone : t.attributes? id = none) : u.attributes? id = none := by
  cases turn with
  | call c =>
    obtain ⟨⟨r, v⟩, hv, rfl⟩ := Option.map_eq_some_iff.1 h
    rw [TimedStore.attributes?_eq_none_iff] at hnone ⊢
    rw [ht.resolve?_perform hv (ht.ne_drawn hv hid), hnone, Option.bind_none]
  | elsewhere blocks =>
    obtain rfl := Option.some.inj h
    exact hnone
  | check x =>
    rcases take_check_cases ht h with hlooked | ⟨caller, y, -, -, hlogin, rfl⟩
    · exact (hlooked.attributes id).trans hnone
    · cases hlogin with
      | absent _ hlooked => exact (hlooked.attributes id).trans hnone
      | known _ _ hlooked _ => exact (hlooked.attributes id).trans hnone
      -- A login moves the session to a drawn id, which `id` is not.
      | @moved old _ b _ _ _ hsupply _ _ _ _ hmoved =>
        have hne : id ≠ b.id := by
          rintro rfl
          have hb : t.supply = b :: y.supply := hsupply
          simp [hb] at hid
        have hsame : (x.withTimed t).timed.attributes? id = none := hnone
        rw [hmoved, if_neg hne, hsame, ite_self]

/-- Whether `g`, asked in `x`, binds a session to `caller` under `id`, which it draws for it. -/
structure Binds (g : BasicAuth) (t : TimedStore) (x y : Exchange) (caller : Principal) (id : SessionId) : Prop where
  allowed : g.check? (x.withTimed t) = some (.allow, y)
  known : Authenticates g.identities x.request.head.headers caller
  session : y.currentSession.1 = some id
  names : y.timed.attribute? id principalAttribute = some (.text caller.name)
  drawn : t.supply.map Block.id = id :: y.supply.map Block.id

/-- A session that names a caller after a turn (`hu`) did so before, or the guard has just bound it. No other turn names
callers (`hmodest`). -/
theorem attribute_of_take (ht : t.Fresh) (hmodest : turn.IsModest) (h : g.take t turn = some u) {v : Value}
    (hu : u.attribute? id principalAttribute = some v) :
    (∃ origin, t.attribute? origin principalAttribute = some v ∧ turn.heir t origin = id) ∨
    ∃ x y caller, turn = .check x ∧ Binds g t x y caller id ∧ v = .text caller.name ∧ u = y.timed := by
  cases turn with
  | call c =>
    obtain ⟨⟨r, w⟩, hw, rfl⟩ := Option.map_eq_some_iff.1 h
    obtain ⟨origin, horigin, hheir⟩ := ht.attribute_of_perform hw hmodest hu
    refine .inl ⟨origin, horigin, ?_⟩
    simp only [Turn.heir, hw]
    exact hheir
  | elsewhere blocks =>
    obtain rfl := Option.some.inj h
    exact .inl ⟨id, hu, rfl⟩
  | check x =>
    have hlookedCase (hlooked : t.Looked u) : t.attribute? id principalAttribute = some v :=
      (hlooked.attribute?_eq id principalAttribute).symm.trans hu
    rcases take_check_cases ht h with hlooked | ⟨caller, y, hcaller, hallow, hlogin, rfl⟩
    · exact .inl ⟨id, hlookedCase hlooked, rfl⟩
    · cases hlogin with
      | absent _ hlooked => exact .inl ⟨id, hlookedCase hlooked, rfl⟩
      | known _ _ hlooked _ => exact .inl ⟨id, hlookedCase hlooked, rfl⟩
      | @moved old attributes b hold hattr hother hsupply hnow hfresh hbound hb hmoved =>
        by_cases hid : id = b.id
        · -- `b.id` is the session that is bound just now.
          subst hid
          have hnames : y.timed.attribute? b.id principalAttribute = some (.text caller.name) := by
            rw [TimedStore.attribute?, hmoved, if_pos rfl, Option.bind_some, Table.get?_insert, if_pos rfl]
          have hlive : y.timed.attributes? b.id ≠ none := by simp [hmoved]
          refine .inr ⟨x, y, caller, rfl, ⟨hallow, hcaller, ?_, hnames, ?_⟩, ?_, rfl⟩
          · exact Exchange.currentSession_of_bound hbound hlive
          · have hb' : t.supply = b :: y.supply := hsupply
            rw [hb', List.map_cons]
          · exact Option.some.inj (hu.symm.trans hnames)
        · rw [TimedStore.attribute?, hmoved, if_neg hid] at hu
          by_cases hold' : id = old
          · rw [if_pos hold'] at hu
            cases hu
          · rw [if_neg hold'] at hu
            exact .inl ⟨id, hu, rfl⟩

end Take

/-! ### Courses, turn by turn -/

section Course

variable {t u : TimedStore} {turns : List Turn} {id : SessionId}

/-- From turn to course: what is still to be drawn stays unused. -/
theorem fresh_course (ht : t.Fresh) (h : g.course t turns = some u) : u.Fresh ∧ u.supply <:+ t.supply := by
  induction turns generalizing t with
  | nil =>
    obtain rfl := Option.some.inj h
    exact ⟨ht, List.suffix_rfl⟩
  | cons turn turns ih =>
    obtain ⟨w, hw, hrest⟩ := course_cons_eq_some h
    obtain ⟨hfresh, hsuffix⟩ := fresh_take ht hw
    obtain ⟨hu, hsuffix'⟩ := ih hfresh hrest
    exact ⟨hu, hsuffix'.trans hsuffix⟩

/-- An id without a session (`hnone`) that has been drawn (`hid`) never gets one again in a course. -/
theorem attributes?_course_of_none (ht : t.Fresh) (h : g.course t turns = some u) (hid : id ∉ t.supply.map Block.id)
    (hnone : t.attributes? id = none) : u.attributes? id = none := by
  induction turns generalizing t with
  | nil =>
    obtain rfl := Option.some.inj h
    exact hnone
  | cons turn turns ih =>
    obtain ⟨w, hw, hrest⟩ := course_cons_eq_some h
    obtain ⟨hfresh, hsuffix⟩ := fresh_take ht hw
    exact ih hfresh hrest (TimedStore.not_mem_ids_of_suffix hsuffix hid) (attributes?_take_of_none ht hw hid hnone)

/-- After one turn a session is under its id, or under one that was still to be drawn. -/
theorem heir_turn_cases (ht : t.Fresh) (turn : Turn) (id : SessionId) :
    turn.heir t id = id ∨ turn.heir t id ∈ t.supply.map Block.id := by
  cases turn with
  | elsewhere _ | check _ => exact .inl rfl
  | call c =>
    unfold Turn.heir
    dsimp only
    -- Only a `changeId` that went through has an heir, and that id is drawn.
    split
    · next r u hu =>
      unfold Call.heir
      split
      · split
        · exact .inr (ht.drawn hu rfl ▸ List.mem_cons_self)
        · exact .inl rfl
      · exact .inl rfl
    · exact .inl rfl

/-- After a course a session is under its id, or under one that was still to be drawn, by induction on the turns. -/
theorem heir_cases (ht : t.Fresh) (turns : List Turn) (id : SessionId) :
    g.heir t id turns = id ∨ g.heir t id turns ∈ t.supply.map Block.id := by
  induction turns generalizing t id with
  | nil => exact .inl rfl
  | cons turn turns ih =>
    rw [heir]
    split
    · next u hu =>
      obtain ⟨hfresh, hsuffix⟩ := fresh_take ht hu
      rcases ih hfresh (turn.heir t id) with hsame | hdrawn
      · rw [hsame]
        exact heir_turn_cases ht turn id
      · exact .inr ((hsuffix.sublist.map _).subset hdrawn)
    · exact .inl rfl

/-- Whether the session of `id` was bound to a caller by `g` in the course of `turns`, and goes on under `id` since; the
id was still to be drawn when `g` was asked. -/
inductive BoundIn (g : BasicAuth) (t : TimedStore) (turns : List Turn) (u : TimedStore) (id : SessionId)
    (v : Value) : Prop
  | intro {before x after w y caller first} :
    turns = before ++ .check x :: after → g.course t before = some w → Binds g w x y caller first →
    v = .text caller.name → g.course y.timed after = some u → g.heir y.timed first after = id →
    id ∈ w.supply.map Block.id → BoundIn g t turns u id v

/-- A session that names a caller at the end of a course (`hu`) did so at its beginning, or was bound by the guard in
the course of it. -/
theorem attribute_of_course (ht : t.Fresh) (hmodest : ∀ turn ∈ turns, turn.IsModest) (h : g.course t turns = some u)
    {v : Value} (hu : u.attribute? id principalAttribute = some v) :
    (∃ origin, t.attribute? origin principalAttribute = some v ∧ g.heir t origin turns = id) ∨
      BoundIn g t turns u id v := by
  -- By induction on `turns`: what the rest finds at its beginning is what the first turn has left.
  induction turns generalizing t with
  | nil =>
    obtain rfl := Option.some.inj h
    exact .inl ⟨id, hu, rfl⟩
  | cons turn turns ih =>
    obtain ⟨w, hw, hrest⟩ := course_cons_eq_some h
    have hfresh := (fresh_take ht hw).1
    have hturn := hmodest turn List.mem_cons_self
    rcases ih hfresh (fun turn' hmem => hmodest turn' (List.mem_cons_of_mem _ hmem)) hrest with
      ⟨middle, hmiddle, hheir⟩ | @⟨before, x, after, asked, _, _, _, rfl, hbefore, hbinds, hv, hafter, hheir, hmem⟩
    · rcases attribute_of_take ht hturn hw hmiddle with
        ⟨origin, horigin, hheir'⟩ | ⟨x, y, caller, rfl, hbinds, hv, rfl⟩
      · refine .inl ⟨origin, horigin, ?_⟩
        rw [heir, hw]
        show g.heir w (turn.heir t origin) turns = id
        rw [hheir', hheir]
      · have hbegin : Turn.check x :: turns = [] ++ .check x :: turns := rfl
        have hempty : g.course t [] = some t := rfl
        refine .inr ⟨hbegin, hempty, hbinds, hv, hrest, hheir, ?_⟩
        -- `heir_cases`: since `x` the session has been under the id drawn for it, or under one drawn later.
        rw [hbinds.drawn, ← hheir]
        rcases heir_cases (g := g) hfresh turns middle with hsame | hdrawn
        · rw [hsame]
          exact List.mem_cons_self
        · exact List.mem_cons_of_mem _ hdrawn
    · have hbegin : turn :: (before ++ .check x :: after) = (turn :: before) ++ .check x :: after := rfl
      have hlonger : g.course t (turn :: before) = some asked := by
        show Option.bind (g.take t turn) _ = _
        rw [hw]
        exact hbefore
      -- It was bound within the rest, so the first turn goes in front of what came before that.
      exact .inr ⟨hbegin, hlonger, hbinds, hv, hafter, hheir, hmem⟩

end Course

end BasicAuth

end ServletContainer
