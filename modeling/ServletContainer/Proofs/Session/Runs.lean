import ServletContainer.Proofs.Session.Life

namespace ServletContainer

/-!
# Sessions over every run

What holds of a session store however it was called since it was empty, provided that its supply of ids does not
repeat itself.

* `TimedStore.Fresh.run`, `TimedStore.Fresh.resolve?_run` — the step lemmas along a run.
* `TimedStore.Fresh.takenCount_le_one` — a session is ended or moved once.
* `TimedStore.SessionsById`, `TimedStore.sessionsById_of_run` — the life of sessions, seen through their ids.
-/

namespace TimedStore

open SessionStore (Access Call Reply fate takenCount Recorded)

variable {t u : TimedStore} {calls : List Call} {rs : List Reply} {id : SessionId}

/-! ### The invariant -/

/-- From call to run: a store stays `Fresh`, and what is left to be drawn is the end of what was. -/
theorem Fresh.supply_suffix_run (ht : t.Fresh) (h : t.run calls = some (rs, u)) :
    u.Fresh ∧ u.supply <:+ t.supply := by
  induction calls generalizing t rs with
  | nil =>
    obtain ⟨-, rfl⟩ := Prod.mk.inj (Option.some.inj h)
    exact ⟨ht, List.suffix_rfl⟩
  | cons c calls ih =>
    obtain ⟨r, v, rs', hc, hrest, -⟩ := run_cons_eq_some h
    obtain ⟨hu, hsuffix⟩ := ih (ht.perform hc) hrest
    exact ⟨hu, hsuffix.trans (ht.supply_suffix hc)⟩

/-- A store stays `Fresh` in a run. -/
theorem Fresh.run (ht : t.Fresh) (h : t.run calls = some (rs, u)) : u.Fresh := (ht.supply_suffix_run h).1

theorem not_mem_ids_of_suffix {l l' : List Block} (h : l <:+ l') (hid : id ∉ l'.map Block.id) :
    id ∉ l.map Block.id := fun hmem => hid ((h.sublist.map _).subset hmem)

/-- An id that is handed out once (`hid`) is not to be drawn any more. -/
theorem Fresh.not_mem_supply_of_handed (ht : t.Fresh) (h : t.run calls = some (rs, u))
    (hid : Reply.id (some id) ∈ rs) : id ∉ u.supply.map Block.id := by
  induction calls generalizing t rs with
  | nil =>
    obtain ⟨rfl, -⟩ := Prod.mk.inj (Option.some.inj h)
    cases hid
  | cons c calls ih =>
    obtain ⟨r, v, rs', hc, hrest, rfl⟩ := run_cons_eq_some h
    have hv := ht.perform hc
    rcases List.mem_cons.1 hid with hr | hmem
    · have hd := ht.distinct
      rw [ht.drawn hc hr.symm, List.nodup_cons] at hd
      exact not_mem_ids_of_suffix (hv.supply_suffix_run hrest).2 hd.1
    · exact ih hv hrest hmem

/-- A run keeps the settings. -/
theorem config_run (h : t.run calls = some (rs, u)) : u.store.config = t.store.config := by
  induction calls generalizing t rs with
  | nil =>
    obtain ⟨-, rfl⟩ := Prod.mk.inj (Option.some.inj h)
    rfl
  | cons c calls ih =>
    obtain ⟨r, v, rs', hc, hrest, -⟩ := run_cons_eq_some h
    exact (ih hrest).trans (config_perform hc)

/-! ### What resolves after a run -/

/-- What resolves after a run under an id that is not to be drawn (`hid`) is what the calls leave of what did before:
the `fate` of the session. By induction on the calls. -/
theorem Fresh.resolve?_run (ht : t.Fresh) (h : t.run calls = some (rs, u)) (hid : id ∉ t.supply.map Block.id) :
    u.resolve? id = (t.resolve? id).bind fun s => fate id t.now s calls := by
  induction calls generalizing t rs with
  | nil =>
    obtain ⟨-, rfl⟩ := Prod.mk.inj (Option.some.inj h)
    exact (Option.bind_fun_some _).symm
  | cons c calls ih =>
    obtain ⟨r, v, rs', hc, hrest, -⟩ := run_cons_eq_some h
    have hid' := not_mem_ids_of_suffix (ht.supply_suffix hc) hid
    -- What `c` leaves of the session meets the `fate` of `calls`.
    calc u.resolve? id
        = (v.resolve? id).bind fun s => fate id v.now s calls := ih (ht.perform hc) hrest hid'
      _ = ((t.resolve? id).bind fun s => c.leaves id t.now s).bind fun s => fate id v.now s calls := by
        rw [ht.resolve?_perform hc (ht.ne_drawn hc hid)]
      _ = (t.resolve? id).bind fun s => fate id t.now s (c :: calls) := by
        rw [Option.bind_assoc, ht.now_perform hc]
        rfl

/-! ### Ended or moved once -/

/-- A call counts if it `takes` the session. -/
theorem takenCount_cons (c : Call) (r : Reply) :
    takenCount id (c :: calls) (r :: rs) = takenCount id calls rs + if c.takes id r then 1 else 0 := by
  rw [takenCount, List.zip_cons_cons, List.countP_cons]
  rfl

/-- A call that ends or moves a session (`hc`) has found it in the table, and leaves nothing there. -/
theorem Fresh.get?_of_takes (ht : t.Fresh) {c : Call} {r : Reply} (h : t.perform c = some (r, u))
    (hc : c.takes id r = true) : t.store.sessions.get? id ≠ none ∧ u.store.sessions.get? id = none := by
  cases c with
  | invalidate i =>
    obtain ⟨rfl, -, -, hu⟩ := perform_invalidate h
    obtain ⟨rfl, hgone⟩ : i = id ∧ (t.store.sessions.get? i).isSome = true := by
      simpa [Call.takes] using hc
    exact ⟨Option.isSome_iff_ne_none.1 hgone, by rw [hu, if_pos rfl]⟩
  | changeId i =>
    rcases ht.perform_changeId h with ⟨-, rfl, -⟩ | ⟨s, b, rest, hs, -, rfl, -, -, hb, hu⟩
    · simp [Call.takes] at hc
    · obtain rfl : i = id := by simpa [Call.takes] using hc
      -- `hs`: the id was changed, so a session was found under it.
      refine ⟨fun hnone => ?_, by rw [hu, if_neg hb.symm, if_pos rfl]⟩
      rw [resolve?_eq, hnone] at hs
      cases hs
  | _ => simp [Call.takes] at hc

/-- Where the table holds nothing under an id (`hnone`) that is not to be drawn (`hid`), no call of a run ends or moves
a session of this id. -/
theorem Fresh.takenCount_eq_zero (ht : t.Fresh) (h : t.run calls = some (rs, u))
    (hid : id ∉ t.supply.map Block.id) (hnone : t.store.sessions.get? id = none) : takenCount id calls rs = 0 := by
  induction calls generalizing t rs with
  | nil => rfl
  | cons c calls ih =>
    obtain ⟨r, v, rs', hc, hrest, rfl⟩ := run_cons_eq_some h
    have hnot : ¬ c.takes id r = true := fun htakes => (ht.get?_of_takes hc htakes).1 hnone
    have hv : v.store.sessions.get? id = none := ht.get?_perform_of_none hc hnone (ht.ne_drawn hc hid)
    have hid' := not_mem_ids_of_suffix (ht.supply_suffix hc) hid
    rw [takenCount_cons, if_neg hnot, ih (ht.perform hc) hrest hid' hv]

/-- So at most one call of a run ends or moves the session of an id. By induction on the calls. -/
theorem Fresh.takenCount_le_one (ht : t.Fresh) (h : t.run calls = some (rs, u)) : takenCount id calls rs ≤ 1 := by
  induction calls generalizing t rs with
  | nil => exact Nat.zero_le 1
  | cons c calls ih =>
    obtain ⟨r, v, rs', hc, hrest, rfl⟩ := run_cons_eq_some h
    rw [takenCount_cons]
    by_cases htakes : c.takes id r = true
    · obtain ⟨hsome, hnone⟩ := ht.get?_of_takes hc htakes
      -- `ht.unused`: what is in the table has been drawn, so nothing comes back under the id.
      have hid : id ∉ t.supply.map Block.id := fun hmem => hsome (ht.unused id hmem)
      have hid' := not_mem_ids_of_suffix (ht.supply_suffix hc) hid
      have hzero := (ht.perform hc).takenCount_eq_zero hrest hid' hnone
      rw [if_pos htakes]
      omega
    · rw [if_neg htakes]
      exact ih (ht.perform hc) hrest

/-! ### The whole life of sessions -/

/-- A run returns if there is an id for every call that may need one (`h`). -/
theorem Fresh.run_isSome (ht : t.Fresh) (h : calls.countP Call.draws ≤ t.supply.length) : (t.run calls).isSome := by
  induction calls generalizing t with
  | nil => rfl
  | cons c calls ih =>
    rw [List.countP_cons] at h
    have hdraws : c.draws = true → t.supply ≠ [] := by
      rintro hc hnil
      simp [hc, hnil] at h
    obtain ⟨⟨r, v⟩, hv⟩ := Option.isSome_iff_exists.1 (ht.perform_isSome hdraws)
    have hrest : (v.run calls).isSome := by
      -- A call that `draws` takes one block, and no other takes any.
      have hlength := ht.length_supply_le hv
      exact ih (ht.perform hv) (by omega)
    show (Option.bind (t.perform c) _).isSome
    rw [hv, Option.bind_some, Option.isSome_map]
    exact hrest

/-- The life of sessions as it shows under their ids in `t`, which comes of calls with `replies`. -/
structure SessionsById (config : SessionConfig) (replies : List Reply) (t : TimedStore) : Prop where
  /-- A new session gets an id under which nothing resolved. -/
  starts : ∀ {r u}, t.perform .create = some (r, u) →
    ∃ id, r = .id (some id) ∧ t.resolve? id = none ∧ u.resolve? id = some (.start t.now config.timeoutMillis?)
  /-- Whatever is called, what resolves under its id is what the calls leave of the record. -/
  lives : ∀ {id s calls rs u}, t.resolve? id = some s → t.run calls = some (rs, u) →
    u.resolve? id = fate id t.now s calls ∧
      ∀ s', fate id t.now s calls = some s' → Recorded id t.now s calls s'
  /-- A look-up, and an operation of a handle, reports of the session that resolves, or that it is missing. -/
  reports : ∀ {id a r u}, t.perform (.access id a) = some (r, u) → r = a.answer id (t.resolve? id)
  /-- What resolves can be ended, and nothing is left. -/
  ends : ∀ {id s r u}, t.resolve? id = some s → t.perform (.invalidate id) = some (r, u) →
    r = .flag true ∧ u.resolve? id = none
  /-- Moving a session reports that it is missing, or makes the whole record resolve under a new id only. -/
  moves : ∀ {id r u}, t.perform (.changeId id) = some (r, u) →
    (t.resolve? id = none ∧ r = .id none) ∨
      ∃ s new, t.resolve? id = some s ∧ r = .id (some new) ∧ t.resolve? new = none ∧
        u.resolve? new = some s ∧ u.resolve? id = none
  /-- Calls end or move what is under an id at most once. -/
  once : ∀ {id calls rs u}, t.run calls = some (rs, u) → takenCount id calls rs ≤ 1
  /-- An id that was handed out and does not resolve never does again. -/
  gone : ∀ {id calls rs u}, .id (some id) ∈ replies → t.resolve? id = none → t.run calls = some (rs, u) →
    u.resolve? id = none
  /-- A call that neither goes to an id nor hands it out does not show under it, now or later. -/
  apart : ∀ {id c r u}, t.perform c = some (r, u) → c.concerns id = false → r ≠ .id (some id) →
    u.store.sessions.get? id = t.store.sessions.get? id
  /-- A run returns if there is an id for every call that may need one. -/
  returns : ∀ {calls}, calls.countP Call.draws ≤ t.supply.length → (t.run calls).isSome

/-- **Sessions by their ids.** However a store was called since it was empty (`hbefore`), if no block repeats
(`hsupply`), its sessions live by their ids: each from when it is started, with what was written last, until it is
ended, moved or idle for too long, and then never again. -/
theorem sessionsById_of_run (config : SessionConfig) (now : Nat) {supply : List Block}
    (hsupply : (supply.map Block.id).Nodup) {before : List Call} {replies : List Reply}
    (hbefore : (start config now supply).run before = some (replies, t)) : t.SessionsById config replies := by
  -- Every field is read off the store behind `before`, whose supply is still fresh.
  have hstart : (start config now supply).Fresh := ⟨hsupply, fun _ _ => rfl⟩
  have hconfig : t.store.config = config := config_run hbefore
  have ht : t.Fresh := hstart.run hbefore
  constructor
  case starts =>
    intro r u h
    obtain ⟨b, rest, hs, rfl, hnow, -, hu⟩ := ht.perform_create h
    refine ⟨b.id, rfl, resolve?_of_get?_none (ht.unused b.id (by simp [hs])), ?_⟩
    rw [resolve?_eq, hu, if_pos rfl, hnow, Option.bind_some, Session.liveAt_start, hconfig]
  case lives =>
    intro id s calls rs u hs h
    have hres := ht.resolve?_run h (ht.not_mem_supply hs)
    rw [hs, Option.bind_some] at hres
    exact ⟨hres, fun s' => SessionStore.recorded_of_fate⟩
  case reports =>
    intro id a r u h
    exact (perform_access h).1
  case ends =>
    intro id s r u hs h
    obtain ⟨rfl, -, -, hu⟩ := perform_invalidate h
    obtain ⟨s', hget, -⟩ := Option.bind_eq_some_iff.1 (t.resolve?_eq id ▸ hs)
    exact ⟨by rw [hget, Option.isSome_some], resolve?_of_get?_none (by rw [hu, if_pos rfl])⟩
  case moves =>
    intro id r u h
    rcases ht.perform_changeId h with ⟨hnone, rfl, -⟩ | ⟨s, b, rest, hs, hsupply, rfl, hnow, -, hb, hu⟩
    · exact .inl ⟨hnone, rfl⟩
    · refine .inr ⟨s, b.id, hs, rfl, resolve?_of_get?_none (ht.unused b.id (by simp [hsupply])), ?_, ?_⟩
      · rw [resolve?_eq, hu, if_pos rfl, hnow, Option.bind_some, liveAt_of_resolve? hs]
      · exact resolve?_of_get?_none (by rw [hu, if_neg hb.symm, if_pos rfl])
  case once =>
    intro id calls rs u h
    exact ht.takenCount_le_one h
  case gone =>
    intro id calls rs u hid hnone h
    rw [ht.resolve?_run h (hstart.not_mem_supply_of_handed hbefore hid), hnone, Option.bind_none]
  case apart =>
    intro id c r u h hc hr
    exact ht.get?_perform_of_not_concerns h hc hr
  case returns =>
    intro calls h
    exact ht.run_isSome h

/-- The supply of a store in which one session is started and moved. -/
def twoBlocks : List Block := [Vector.replicate 16 0, Vector.replicate 16 1]

/-- Calls that start a session, find it, move it, and let it run out under its new id. -/
def briefCalls : List Call :=
  let old := "00000000000000000000000000000000"
  let new := "01010101010101010101010101010101"
  [.create, .advance 400, .access old .find, .access old (.setMaxInactive (some 700)), .advance 600,
    .changeId old, .access old .contains, .access new .lastAccessedAt, .advance 101, .access new .find]

/-- A session that is moved, and then idle for longer than its limit. -/
theorem sessionsById_of_run_briefCalls : ∃ replies t,
    (start .standard 0 twoBlocks).run briefCalls = some (replies, t) ∧ replies.getLast? = some (.flag false) ∧
      t.SessionsById .standard replies := by
  obtain ⟨⟨replies, t⟩, hrun, hlast⟩ :
      ∃ p, (start .standard 0 twoBlocks).run briefCalls = some p ∧ p.1.getLast? = some (.flag false) :=
    ⟨_, rfl, rfl⟩
  exact ⟨replies, t, hrun, hlast, sessionsById_of_run .standard 0 (by decide +kernel) hrun⟩

end TimedStore

end ServletContainer
