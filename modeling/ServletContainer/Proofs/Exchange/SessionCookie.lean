import ServletContainer.Exchange.Program
import ServletContainer.Proofs.Session.Drawn
import ServletContainer.Proofs.Session.CookiePair

namespace ServletContainer

/-!
# The session cookie of an exchange

An exchange may start a session, move it to another id and end it, and then start the next one. Every id goes out
on a cookie field of its own, but the fields make one line, of which the client takes the first pair.

* `SessionCall`, `Exchange.call?`, `Exchange.calls?` — calls that concern the session, and the ids they hand out.
* `Exchange.currentSession_spec`, `Exchange.steps_call?` — what looking the session up does, and what a call does.
* `Exchange.HandedOut` — after some ids were handed out, only the last one can still lead to the session.
* `Exchange.HandedOut.calls?` — a sequence of calls keeps this.
* `Exchange.handedPair?_of_calls?` — the pair that the client takes, and the session that the exchange ends with.
-/

/-- A call that concerns the session of an exchange, or time that passes between two calls. -/
inductive SessionCall where
  | session (create : Bool)
  | changeId
  | invalidate (id : SessionId)
  | wait (millis : Nat)
  deriving DecidableEq, Repr

namespace Exchange

/-- Carries a `SessionCall` out, and tells the id that it hands out: that of a session it starts, or the one it moves
the session to. -/
def call? (x : Exchange) : SessionCall → Option (List SessionId × Exchange)
  | .session create => (Op.perform (.session create) x).map fun (found, y) =>
    (if x.currentSession.1 = none then found.toList else [], y)
  | .changeId => (Op.perform .changeSessionId x).map fun (moved, y) => (moved.toOption.toList, y)
  | .invalidate id => (Op.perform (.invalidateSession id) x).map fun (_, y) => ([], y)
  | .wait millis => some ([], { x with now := x.now + millis })

/-- Carries calls out in order with `call?`, and tells the ids that they hand out. -/
def calls? : List SessionCall → Exchange → Option (List SessionId × Exchange)
  | [], x => some ([], x)
  | c :: calls, x => do
    let (ids, y) ← x.call? c
    let (ids', z) ← calls? calls y
    some (ids ++ ids', z)

/-- Whether `x` may look for its session under `id`: it is bound to it, or the client asked for it. -/
def Knows (x : Exchange) (id : SessionId) : Prop :=
  x.sessionId = some id ∨ x.request.requestedSession.map Prod.fst = some id

/-- Whether `x` has a session under `id`, be it live or not. -/
def Holds (x : Exchange) (id : SessionId) : Prop := x.sessions.sessions.get? id ≠ none

/-! ### Looking the session up -/

/-- Whether `y` is left of `x` by looking for sessions or ending them. -/
structure Narrows (x y : Exchange) : Prop where
  request : y.request = x.request
  response : y.response = x.response
  config : y.sessions.config = x.sessions.config
  holds : ∀ id, y.Holds id → x.Holds id

/-- What changes nothing `Narrows`. -/
theorem Narrows.refl (x : Exchange) : Narrows x x := ⟨rfl, rfl, rfl, fun _ h => h⟩

/-- `Narrows` composes. -/
theorem Narrows.trans {x y z : Exchange} (h : Narrows x y) (h' : Narrows y z) : Narrows x z :=
  ⟨h'.request.trans h.request, h'.response.trans h.response, h'.config.trans h.config,
    fun id hid => h.holds id (h'.holds id hid)⟩

section BindSession

variable (x : Exchange) (id : SessionId)

/-- `bindSession` finds a session if and only if `access` to the store does. -/
theorem bindSession_fst : (x.bindSession id).1 = (x.sessions.access x.now id).1.isSome :=
  x.sessions.change_fst x.now id _

/-- Behind `bindSession` the session under `id` is the one that `access` found, `touched` now, or gone if it found none;
those under other ids are as they were. -/
theorem get?_bindSession (j : SessionId) : (x.bindSession id).2.sessions.sessions.get? j
    = if j = id then (x.sessions.access x.now id).1.map (Session.touched x.now) else x.sessions.sessions.get? j :=
  x.sessions.get?_change x.now id j _

/-- So there is a session under `id` behind `bindSession` if and only if it was found. -/
theorem holds_bindSession_iff : (x.bindSession id).2.Holds id ↔ (x.bindSession id).1 = true := by
  rw [Holds, get?_bindSession, if_pos rfl, bindSession_fst, Option.isSome_iff_ne_none, ne_eq,
    Option.map_eq_none_iff]

/-- `bindSession` `Narrows`: it changes the sessions and the binding only, and adds none. -/
theorem narrows_bindSession : Narrows x (x.bindSession id).2 := by
  refine ⟨rfl, rfl, x.sessions.config_change x.now id _, fun j hj => ?_⟩
  by_cases hji : j = id
  · subst hji
    have hfound := (x.holds_bindSession_iff j).1 hj
    rw [bindSession_fst, SessionStore.access_fst] at hfound
    intro hnone
    rw [hnone] at hfound
    cases hfound
  · rwa [Holds, get?_bindSession, if_neg hji] at hj

/-- A session that `bindSession` finds after it has not found `b` could have been found before. -/
theorem bindSession_bindSession_fst {b : SessionId} (hb : (x.bindSession b).1 ≠ true)
    (hid : ((x.bindSession b).2.bindSession id).1 = true) : (x.bindSession id).1 = true := by
  have hnone : (x.sessions.access x.now b).1 = none := by
    rw [bindSession_fst] at hb
    exact Option.not_isSome_iff_eq_none.1 hb
  rw [bindSession_fst, SessionStore.access_fst] at hid ⊢
  rw [get?_bindSession] at hid
  by_cases h : id = b
  · rw [if_pos h, hnone] at hid
    cases hid
  · rwa [if_neg h] at hid

end BindSession

/-- Looks for a session under an id, with `bindSession`, if there is one. -/
def seek (x : Exchange) : Option SessionId → Option SessionId × Exchange
  | none => (none, x)
  | some id => (if (x.bindSession id).1 = true then some id else none, (x.bindSession id).2)

/-- What `seek` does: it `Narrows`; what it finds was asked for and is held; what it does not find is gone; and the
exchange is bound to what it finds, if it was bound to no other id. -/
theorem seek_spec (x : Exchange) (id? : Option SessionId) :
    Narrows x (x.seek id?).2 ∧
      (∀ id, (x.seek id?).1 = some id → id? = some id ∧ (x.seek id?).2.Holds id ∧ (x.bindSession id).1 = true) ∧
      ((x.seek id?).1 = none → ∀ id, id? = some id → ¬ (x.seek id?).2.Holds id ∧ (x.bindSession id).1 ≠ true) ∧
      (x.sessionId = none ∨ id? = x.sessionId → (x.seek id?).2.sessionId = (x.seek id?).1) := by
  cases id? with
  -- No id to look for, so nothing is found and nothing is bound.
  | none =>
    refine ⟨.refl x, fun id hid => ?_, fun _ id hid => ?_, fun h => ?_⟩
    · cases hid
    · cases hid
    · rcases h with h | h
      · exact h
      · exact h.symm
  | some a =>
    refine ⟨x.narrows_bindSession a, fun id hid => ?_, fun hnone id hid => ?_, fun _ => rfl⟩
    · obtain ⟨hfound, rfl⟩ : (x.bindSession a).1 = true ∧ a = id := by simpa [seek] using hid
      exact ⟨rfl, (x.holds_bindSession_iff a).2 hfound, hfound⟩
    · obtain rfl := Option.some.inj hid
      have hlost : (x.bindSession a).1 ≠ true := by simpa [seek] using hnone
      exact ⟨fun h => hlost ((x.holds_bindSession_iff a).1 h), hlost⟩

/-- `currentSession` is `seek` for the id that the exchange is bound to, and then for the one that the client asked for.
-/
theorem currentSession_eq (x : Exchange) : x.currentSession =
    if (x.seek x.sessionId).1 = none then
      (x.seek x.sessionId).2.seek (x.request.requestedSession.map Prod.fst)
    else x.seek x.sessionId := by
  unfold currentSession
  -- The session that the exchange is bound to comes first, then the one that is asked for.
  cases hbound : x.sessionId with
  | none =>
    cases hasked : x.request.requestedSession with
    | none => simp [seek, hasked]
    | some p =>
      simp only [seek, hasked, if_true, Option.map_some]
      rfl
  | some b =>
    by_cases hfound : (x.bindSession b).1 = true
    · simp [seek, hfound]
    · have hrequest : (x.bindSession b).2.request = x.request := rfl
      cases hasked : x.request.requestedSession with
      | none => simp [seek, hfound, hrequest, hasked]
      | some p => simp [seek, hfound, hrequest, hasked]

/-- So a transitive relation that `seek` keeps is kept by `currentSession`. -/
theorem currentSession_lift {R : Exchange → Exchange → Prop} (htrans : ∀ {x y z}, R x y → R y z → R x z)
    (hseek : ∀ x id?, R x (seek x id?).2) (x : Exchange) : R x x.currentSession.2 := by
  rw [currentSession_eq]
  split
  · exact htrans (hseek _ _) (hseek _ _)
  · exact hseek _ _

/-- Behind `currentSession` the exchange is bound to what was found, which it `Knows` and which is live. Where nothing
was found, nothing is held of what the exchange `Knows`. -/
theorem currentSession_spec (x : Exchange) :
    Narrows x x.currentSession.2 ∧ x.currentSession.2.sessionId = x.currentSession.1 ∧
      (∀ id, x.currentSession.1 = some id →
        x.Knows id ∧ x.currentSession.2.Holds id ∧ (x.sessions.find x.now id).1 = true) ∧
      (x.currentSession.1 = none → ∀ id, x.Knows id → ¬ x.currentSession.2.Holds id) := by
  obtain ⟨hnarrow, hsome, hnone, hbound⟩ := x.seek_spec x.sessionId
  rw [currentSession_eq]
  split
  · next hlost =>
    obtain ⟨hnarrow', hsome', hnone', hbound'⟩ :=
      (x.seek x.sessionId).2.seek_spec (x.request.requestedSession.map Prod.fst)
    have hfree : (x.seek x.sessionId).2.sessionId = none := (hbound (.inr rfl)).trans hlost
    refine ⟨hnarrow.trans hnarrow', hbound' (.inl hfree), fun id hid => ?_, fun hno id hid hholds => ?_⟩
    · obtain ⟨hasked, hholds, hfound⟩ := hsome' id hid
      refine ⟨.inr hasked, hholds, ?_⟩
      -- The session under the first id was not there, and is not this one.
      cases hb : x.sessionId with
      | none => rwa [hb] at hfound
      | some b =>
        rw [hb] at hfound
        exact x.bindSession_bindSession_fst id (hnone hlost b hb).2 hfound
    · rcases hid with hid | hid
      · exact (hnone hlost id hid).1 (hnarrow'.holds id hholds)
      · exact (hnone' hno id hid).1 hholds
  · next hfound =>
    refine ⟨hnarrow, hbound (.inr rfl), fun id hid => ?_, fun hno => absurd hno hfound⟩
    obtain ⟨hknown, hholds, hlive⟩ := hsome id hid
    exact ⟨.inl hknown, hholds, hlive⟩

/-! ### Calls -/

theorem isHexText_of_freshId? {s : SessionStore} {supply rest : List Block} {id : SessionId}
    (h : s.freshId? supply = some (id, rest)) : IsHexText id := by
  obtain ⟨-, b, -, rfl, -⟩ := SessionStore.freshId?_eq_some_iff.1 h
  exact isHexText_id b

/-- Whether `y` is left of `x` by handing out `id`, to which it is then bound. -/
structure HandsOut (x y : Exchange) (id : SessionId) : Prop where
  hex : IsHexText id
  bound : y.sessionId = some id
  request : y.request = x.request
  config : y.sessions.config = x.sessions.config
  response : x.sessions.config.tracksCookies = true → y.response = x.response.addHeader "Set-Cookie"
    (x.sessions.config.cookie.headerValue id x.request.contextPath x.request.secure)
  /-- What else the exchange can find was not the session that was moved. -/
  holds : ∀ j, x.Knows j → y.Holds j → j = id ∨ ∃ c, c ≠ j ∧ x.Knows c ∧ x.Holds c ∧ x.Holds j

/-- Where cookies are tracked, `addSessionCookie` adds the `Set-Cookie` field for the id. -/
theorem response_addSessionCookie (x : Exchange) (id : SessionId)
    (h : x.sessions.config.tracksCookies = true) :
    (x.addSessionCookie id).response = x.response.addHeader "Set-Cookie"
      (x.sessions.config.cookie.headerValue id x.request.contextPath x.request.secure) := by
  unfold addSessionCookie
  simp only [h, if_true]
  rfl

/-- It leaves request, sessions and binding alone. -/
theorem addSessionCookie_spec (x : Exchange) (id : SessionId) : (x.addSessionCookie id).request = x.request ∧
    (x.addSessionCookie id).sessions = x.sessions ∧ (x.addSessionCookie id).sessionId = x.sessionId := by
  unfold addSessionCookie
  dsimp only
  split
  · exact ⟨rfl, rfl, rfl⟩
  · exact ⟨rfl, rfl, rfl⟩

/-- To put a session under a fresh id by `insertFresh?`, to bind the exchange to it and to add its cookie `HandsOut`
that id. Any other session that the exchange knows and still holds was one of two before (`hholds`). -/
theorem handsOut_of_insertFresh? {x y : Exchange} {session : Session} {supply rest : List Block} {id : SessionId}
    {s u : SessionStore} (hrequest : y.request = x.request) (hresponse : y.response = x.response)
    (hs : s.insertFresh? session supply = some (id, rest, u)) (hconfig : s.config = x.sessions.config)
    (hholds : ∀ j, x.Knows j → s.sessions.get? j ≠ none → ∃ c, c ≠ j ∧ x.Knows c ∧ x.Holds c ∧ x.Holds j) :
    HandsOut x (({ y with sessions := u, supply := rest, sessionId := some id } : Exchange).addSessionCookie id)
      id := by
  have huconfig := (SessionStore.config_insertFresh? hs).trans hconfig
  obtain ⟨⟨_, _⟩, hfresh, heq⟩ := Option.map_eq_some_iff.1 hs
  obtain ⟨rfl, rfl, rfl⟩ := heq
  obtain ⟨hrequest', hsessions, hbound⟩ := addSessionCookie_spec
    { y with sessions := { s with sessions := s.sessions.insert id session }, supply := rest,
             sessionId := some id } id
  refine ⟨isHexText_of_freshId? hfresh, hbound, hrequest'.trans hrequest, ?_, fun htracks => ?_,
    fun j hj hhold => ?_⟩
  · rw [hsessions]
    exact huconfig
  · have hadded := response_addSessionCookie
      { y with sessions := { s with sessions := s.sessions.insert id session }, supply := rest,
               sessionId := some id } id
    rw [← hconfig] at htracks
    rw [hadded htracks]
    simp only [hconfig, hresponse, hrequest]
  · -- Under any other id the sessions are those of `s`.
    rw [Holds, hsessions] at hhold
    simp only [Table.get?_insert] at hhold
    by_cases hnew : j = id
    · exact .inl hnew
    · rw [if_neg hnew] at hhold
      exact .inr (hholds j hj hhold)

section Cases

variable {x y : Exchange} {ids : List SessionId}

/-- What a call may do: hand out nothing and `Narrows` at most, or `HandsOut` the id that the exchange is then bound to.
-/
def Steps (x : Exchange) (ids : List SessionId) (y : Exchange) : Prop :=
  (ids = [] ∧ Narrows x y ∧ ∀ id, y.sessionId = some id → x.Knows id) ∨ ∃ id, ids = [id] ∧ HandsOut x y id

/-- `currentSession` hands out nothing. -/
theorem steps_currentSession (x : Exchange) : x.Steps [] x.currentSession.2 := by
  obtain ⟨hnarrow, hbound, hsome, -⟩ := x.currentSession_spec
  refine .inl ⟨rfl, hnarrow, fun id hid => ?_⟩
  exact (hsome id (hbound.symm.trans hid)).1

/-- `session?` hands out the id of a session that it starts. -/
theorem steps_session {create : Bool} (h : x.call? (.session create) = some (ids, y)) : x.Steps ids y := by
  have hsame := x.steps_currentSession
  obtain ⟨hnarrow, hbound, hsome, hnone⟩ := x.currentSession_spec
  obtain ⟨⟨found, z⟩, hz, heq⟩ := Option.map_eq_some_iff.1 h
  obtain ⟨rfl, rfl⟩ := Prod.mk.inj heq
  change x.session? create = some (found, z) at hz
  unfold session? at hz
  split at hz
  · next id w hx =>
    obtain ⟨rfl, rfl⟩ := Prod.mk.inj (Option.some.inj hz)
    rw [hx] at hsame
    simpa [hx] using hsame
  · -- There is no session: one is started if `create` says so.
    next w hx =>
    rw [hx] at hnarrow hnone hsame
    cases create with
    | false =>
      obtain ⟨rfl, rfl⟩ := Prod.mk.inj (Option.some.inj hz)
      simpa [hx] using hsame
    | true =>
      obtain ⟨⟨id, rest, u⟩, hs, heq⟩ := Option.map_eq_some_iff.1 hz
      obtain ⟨rfl, rfl⟩ := Prod.mk.inj heq
      refine .inr ⟨id, by simp [hx], handsOut_of_insertFresh? hnarrow.request hnarrow.response hs
        hnarrow.config fun j hj hhold => ?_⟩
      exact absurd hhold (hnone rfl j hj)

/-- `changeSessionId?` hands out the id that it moves the session to. -/
theorem steps_changeId (h : x.call? .changeId = some (ids, y)) : x.Steps ids y := by
  have hsame := x.steps_currentSession
  obtain ⟨hnarrow, hbound, hsome, -⟩ := x.currentSession_spec
  obtain ⟨⟨moved, z⟩, hz, heq⟩ := Option.map_eq_some_iff.1 h
  obtain ⟨rfl, rfl⟩ := Prod.mk.inj heq
  change x.changeSessionId? = some (moved, z) at hz
  unfold changeSessionId? at hz
  split at hz
  · next w hx =>
    obtain ⟨rfl, rfl⟩ := Prod.mk.inj (Option.some.inj hz)
    rwa [hx] at hsame
  · next c w hx =>
    rw [hx] at hnarrow hbound hsome
    obtain ⟨⟨changed, rest, u⟩, hchange, heq⟩ := Option.map_eq_some_iff.1 hz
    obtain ⟨hknown, hheld, -⟩ := hsome c rfl
    rcases SessionStore.changeId?_cases hchange with ⟨rfl, -, hconfig, hget⟩ | ⟨session, new, rfl, hs⟩
    · obtain ⟨rfl, rfl⟩ := Prod.mk.inj heq
      refine .inl ⟨rfl, ⟨hnarrow.request, hnarrow.response, hconfig.trans hnarrow.config, fun j hj => ?_⟩,
        fun id hid => ?_⟩
      · exact hnarrow.holds j (hget j hj)
      · obtain rfl := Option.some.inj (hbound.symm.trans hid)
        exact hknown
    · obtain ⟨rfl, rfl⟩ := Prod.mk.inj heq
      refine .inr ⟨new, rfl, handsOut_of_insertFresh? hnarrow.request hnarrow.response hs
        hnarrow.config fun j hj hhold => ?_⟩
      -- The session that was moved is not among those still there.
      rw [Table.get?_erase] at hhold
      split at hhold
      · exact absurd rfl hhold
      · next hne => exact ⟨c, fun hcj => hne hcj.symm, hknown, hnarrow.holds c hheld, hnarrow.holds j hhold⟩

/-- So `call?` hands out one id at most, as `Steps` says, whatever the call. -/
theorem steps_call? {c : SessionCall} (h : x.call? c = some (ids, y)) : x.Steps ids y := by
  cases c with
  | session create => exact steps_session h
  | changeId => exact steps_changeId h
  | invalidate id =>
    obtain ⟨rfl, rfl⟩ := Prod.mk.inj (Option.some.inj h)
    refine .inl ⟨rfl, ⟨rfl, rfl, rfl, fun j hj => ?_⟩, fun j hj => .inl hj⟩
    -- What is left in the table was there before.
    have hget : (x.sessions.sessions.erase id).get? j ≠ none := hj
    rw [Table.get?_erase] at hget
    split at hget
    · exact absurd rfl hget
    · exact hget
  | wait millis =>
    obtain ⟨rfl, rfl⟩ := Prod.mk.inj (Option.some.inj h)
    exact .inl ⟨rfl, ⟨rfl, rfl, rfl, fun _ hj => hj⟩, fun j hj => .inl hj⟩

end Cases

/-! ### The ids handed out -/

/-- What holds of `y` after calls on `x` that handed out `ids`. -/
structure HandedOut (x : Exchange) (ids : List SessionId) (y : Exchange) : Prop where
  hex : ∀ id ∈ ids, IsHexText id
  request : y.request = x.request
  config : y.sessions.config = x.sessions.config
  response : y.response = { x.response with headers := x.response.headers.appendAll "Set-Cookie" (ids.map fun id =>
    x.sessions.config.cookie.headerValue id x.request.contextPath x.request.secure) }
  /-- There is one session at most that the exchange may find. -/
  single : ∀ i j, y.Knows i → y.Holds i → y.Knows j → y.Holds j → i = j
  /-- If any id was handed out, that session has the last one. -/
  last : ∀ id, y.Knows id → y.Holds id → ids = [] ∨ ids.getLast? = some id

section HandedOut

variable {x y z : Exchange} {ids ids' : List SessionId}

/-- An exchange that is bound to no session has handed out nothing yet. -/
theorem handedOut_nil (hfree : x.sessionId = none) : HandedOut x [] x := by
  refine ⟨nofun, rfl, rfl, by simp, fun i j hi _ hj _ => ?_, fun _ _ _ => .inl rfl⟩
  -- Nothing is bound yet, so both are what the client asked for.
  have hi' := hi.resolve_left (by simp [hfree])
  have hj' := hj.resolve_left (by simp [hfree])
  exact Option.some.inj (hi'.symm.trans hj')

/-- What `Narrows` and binds no other session keeps `HandedOut`. -/
theorem HandedOut.of_narrows (h : HandedOut x ids y) (hz : Narrows y z)
    (hbound : ∀ id, z.sessionId = some id → y.Knows id) : HandedOut x ids z := by
  have hknows : ∀ id, z.Knows id → y.Knows id := by
    rintro id (hid | hid)
    · exact hbound id hid
    · exact .inr (by rwa [hz.request] at hid)
  refine ⟨h.hex, hz.request.trans h.request, hz.config.trans h.config, hz.response.trans h.response, ?_, ?_⟩
  · intro i j hi hi' hj hj'
    exact h.single i j (hknows i hi) (hz.holds i hi') (hknows j hj) (hz.holds j hj')
  · intro id hid hid'
    exact h.last id (hknows id hid) (hz.holds id hid')

/-- What `HandsOut` one more id adds it at the end, if cookies are tracked (`htracks`) and the head can still change
(`hmutable`). -/
theorem HandedOut.of_handsOut (h : HandedOut x ids y) (htracks : x.sessions.config.tracksCookies = true)
    (hmutable : x.response.headIsMutable = true) {id : SessionId} (hz : HandsOut y z id) :
    HandedOut x (ids ++ [id]) z := by
  -- The exchange is bound to the new id, and holds no other that it knows: it would have held two before, against
  -- `single`.
  have honly : ∀ j, z.Knows j → z.Holds j → j = id := by
    rintro j (hj | hj) hhold
    · exact Option.some.inj (hj.symm.trans hz.bound)
    · have hknows : y.Knows j := .inr (by rwa [hz.request] at hj)
      rcases hz.holds j hknows hhold with hid | ⟨c, hne, hc, hc', hj'⟩
      · exact hid
      · exact absurd (h.single c j hc hc' hknows hj') hne
  refine ⟨?_, hz.request.trans h.request, hz.config.trans h.config, ?_, ?_, ?_⟩
  · intro i hi
    rcases List.mem_append.1 hi with hi | hi
    · exact h.hex i hi
    · exact List.mem_singleton.1 hi ▸ hz.hex
  · have hresponse := hz.response (by rwa [h.config])
    have hstill : y.response.headIsMutable = true := by rwa [h.response]
    rw [hresponse, Response.addHeader, if_pos hstill, h.config, h.request, h.response, List.map_append,
      List.map_singleton, ← Headers.append_appendAll]
  · intro i j hi hi' hj hj'
    rw [honly i hi hi', honly j hj hj']
  · intro j hj hj'
    exact .inr (by rw [honly j hj hj', List.getLast?_concat])

/-- So `calls?` adds the ids that it tells, by induction on the calls. -/
theorem HandedOut.calls? (h : HandedOut x ids y) (htracks : x.sessions.config.tracksCookies = true)
    (hmutable : x.response.headIsMutable = true) {calls : List SessionCall}
    (hcalls : Exchange.calls? calls y = some (ids', z)) : HandedOut x (ids ++ ids') z := by
  induction calls generalizing y ids ids' with
  | nil =>
    obtain ⟨rfl, rfl⟩ := Prod.mk.inj (Option.some.inj hcalls)
    rwa [List.append_nil]
  | cons c calls ih =>
    obtain ⟨⟨first, w⟩, hc, hrest⟩ := Option.bind_eq_some_iff.1 hcalls
    obtain ⟨⟨later, v⟩, hlater, heq⟩ := Option.bind_eq_some_iff.1 hrest
    obtain ⟨rfl, rfl⟩ := Prod.mk.inj (Option.some.inj heq)
    rw [← List.append_assoc]
    -- The first call hands one id out, or none; the others go on from there.
    refine ih ?_ hlater
    rcases steps_call? hc with ⟨rfl, hnarrows, hbound⟩ | ⟨id, rfl, hhands⟩
    · rw [List.append_nil]
      exact h.of_narrows hnarrows hbound
    · exact h.of_handsOut htracks hmutable hhands

end HandedOut

end Exchange

/-! ### What the client takes -/

/-- Whether a head can still change, `begun` of it being written, and hands out no cookie so far. -/
structure Response.CookieFree (r : Response) (begun : String) : Prop where
  isMutable : r.headIsMutable = true
  head : r.head = Text.Utf8.encode begun
  endsLine : EndsLine begun
  noField : r.headers.contains "Set-Cookie" = false
  noLine : cookieLines (r.headText begun) = []

/-- A status line ends its line. -/
theorem Response.endsLine_statusLine (r : Response) : EndsLine r.statusLine := by
  unfold statusLine
  split
  · exact .inr (by simp [List.getLast?_append, List.getLast?_cons])
  · exact .inr (by simp [List.getLast?_append, List.getLast?_cons])

/-- Of several `Set-Cookie` values that were added to a `CookieFree` head, the client takes the pair of the first: they
are joined in one line. -/
theorem Response.CookieFree.handedPair? {r : Response} {begun : String} (h : r.CookieFree begun)
    {c : CookieConfig} {contextPath : String} {secure : Bool} (hplain : c.IsPlain contextPath secure)
    {id : SessionId} {ids : List SessionId} (hids : ∀ id' ∈ id :: ids, IsHexText id') :
    handedPair? (Response.headText { r with headers := r.headers.appendAll "Set-Cookie" ((id :: ids).map fun id' =>
      c.headerValue id' contextPath secure) } begun) = some (c.pair id) := by
  obtain ⟨rest, hrest, hjoin⟩ := hplain.exists_joinValues_eq hids
  -- Both heads are the same but for the cookie line.
  let before := (if begun = "" then r.statusLine else begun) ++ r.headers.text
  let after := closingLine r.headers ++ "\r\n"
  have hbefore : EndsLine before := by
    refine EndsLine.append ?_ r.headers.endsLine_text
    split
    · exact r.endsLine_statusLine
    · exact h.endsLine
  have hold : r.headText begun = before ++ after := by
    rw [headText, text_sentHeaders, String.append_assoc, ← String.append_assoc]
  have hnothing := h.noLine
  rw [hold] at hnothing
  rw [List.map_cons] at hjoin
  have hclosing : closingLine (r.headers.appendAll "Set-Cookie" ((id :: ids).map fun id' =>
      c.headerValue id' contextPath secure)) = closingLine r.headers := by
    have hother : sameName "Set-Cookie" "connection" = false := by decide
    rw [closingLine, Headers.contains_appendAll, hother, Bool.false_and, Bool.or_false, closingLine]
  have hnew : headText { r with headers := r.headers.appendAll "Set-Cookie" ((id :: ids).map fun id' =>
      c.headerValue id' contextPath secure) } begun
        = before ++ Headers.line "Set-Cookie" (c.pair id ++ ";" ++ rest) ++ after := by
    rw [headText, text_sentHeaders, hclosing, List.map_cons, Headers.text_appendAll h.noField, hjoin,
      ← String.toList_inj]
    simp [before, after, statusLine, reasonPhrase?]
  rw [hnew]
  exact handedPair?_append hbefore hnothing (hplain.pair_chars (hids id List.mem_cons_self)) hrest

namespace Exchange

/-- So of the ids that were handed out it takes the first. -/
theorem HandedOut.handedPair? {x y : Exchange} {begun : String} {first : SessionId} {others : List SessionId}
    (h : HandedOut x (first :: others) y)
    (hplain : x.sessions.config.cookie.IsPlain x.request.contextPath x.request.secure)
    (hhead : x.response.CookieFree begun) :
    y.response.writeHeaders.head = Text.Utf8.encode (y.response.headText begun) ∧
      ServletContainer.handedPair? (y.response.headText begun) = some (x.sessions.config.cookie.pair first) := by
  have hmutable := hhead.isMutable
  rw [Response.headIsMutable, Bool.and_eq_true, decide_eq_true_eq] at hmutable
  constructor
  · refine Response.head_writeHeaders ?_ ?_
    · rw [h.response]
      exact hmutable.1
    · rw [h.response]
      exact hhead.head
  · rw [h.response]
    exact hhead.handedPair? hplain h.hex

/-- **One line for all cookies.** Take any `calls` that concern the session of an exchange, whose head can still change
and is `CookieFree`, and let them hand out `ids` and end with a live session (`hlive`). This session has the id that was
handed out last, but `handedPair?`, the pair that the client takes, has the one that was handed out first. So the client
reaches the session if and only if the two are the same, as they are where one id was handed out. -/
theorem handedPair?_of_calls? {x x' : Exchange} {begun : String} {calls : List SessionCall} {ids : List SessionId}
    {id : SessionId} (htracks : x.sessions.config.tracksCookies = true)
    (hplain : x.sessions.config.cookie.IsPlain x.request.contextPath x.request.secure) (hfree : x.sessionId = none)
    (hhead : x.response.CookieFree begun) (hcalls : calls? calls x = some (ids, x')) (hids : ids ≠ [])
    (hlive : x'.currentSession.1 = some id) :
    ∃ first, ids.head? = some first ∧ ids.getLast? = some id ∧
      x'.response.writeHeaders.head = Text.Utf8.encode (x'.response.headText begun) ∧
      handedPair? (x'.response.headText begun) = some (x.sessions.config.cookie.pair first) ∧
      (handedPair? (x'.response.headText begun) = some (x.sessions.config.cookie.pair id) ↔ first = id) ∧
      (∀ params, requestedSession? x'.sessions.config
        (Headers.empty.append "Cookie" (x.sessions.config.cookie.pair first)) params = some (first, .cookie)) ∧
      (x'.sessions.find x'.now id).1 = true := by
  have hout := (handedOut_nil hfree).calls? htracks hhead.isMutable hcalls
  rw [List.nil_append] at hout
  obtain ⟨hnarrows, -, hsome, -⟩ := x'.currentSession_spec
  obtain ⟨hknown, hheld, hfound⟩ := hsome id hlive
  -- The session that is found was handed out last, and the client is handed the first.
  have hlast : ids.getLast? = some id :=
    (hout.last id hknown (hnarrows.holds id hheld)).resolve_left hids
  obtain ⟨first, others, rfl⟩ := List.exists_cons_of_ne_nil hids
  have hhex := hout.hex first List.mem_cons_self
  obtain ⟨hsent, htext⟩ := hout.handedPair? hplain hhead
  have hinjective : x.sessions.config.cookie.pair first = x.sessions.config.cookie.pair id ↔ first = id := by
    unfold CookieConfig.pair
    rw [String.append_right_inj]
  refine ⟨first, rfl, hlast, hsent, htext, ?_, fun params => ?_, hfound⟩
  · rw [htext, Option.some.injEq, hinjective]
  · rw [hout.config]
    exact hplain.requestedSession?_pair hhex rfl htracks params

/-! ### A shop -/

/-- A visit to a shop, which knows of no session; the next ids are made of zeros and of ones. -/
def visit : Exchange :=
  { start (.ofLine "GET /shop HTTP/1.1") none (.detached "HTTP/1.1") 0 [.replicate 16 0, .replicate 16 1] with
    request.contextPath := "/shop" }

/-- The standard cookie is plain in the context of the shop. -/
theorem isPlain_visit :
    visit.sessions.config.cookie.IsPlain visit.request.contextPath visit.request.secure := by
  refine ⟨by decide +kernel, ?_⟩
  unfold HidesNothing
  decide +kernel

theorem cookieFree_visit : visit.response.CookieFree "" := by
  exact ⟨rfl, rfl, .inl rfl, rfl, by decide +kernel⟩

/-- A session is started and asked for again: one id is handed out, and the client takes it. -/
theorem handedPair?_of_calls?_create : ∃ x',
    calls? [.session true, .session false] visit = some ([Block.id (.replicate 16 0)], x') ∧
    handedPair? (x'.response.headText "") = some "JSESSIONID=00000000000000000000000000000000" ∧
    (x'.sessions.find x'.now (Block.id (.replicate 16 0))).1 = true := by
  have hrun : (calls? [.session true, .session false] visit).map (fun p => (p.1, p.2.currentSession.1))
      = some ([Block.id (.replicate 16 0)], some (Block.id (.replicate 16 0))) := by
    decide +kernel
  obtain ⟨⟨ids, x'⟩, hcalls, heq⟩ := Option.map_eq_some_iff.1 hrun
  obtain ⟨rfl, hlive⟩ := Prod.mk.inj heq
  obtain ⟨first, hfirst, -, -, hpair, -, -, hfound⟩ :=
    handedPair?_of_calls? rfl isPlain_visit rfl cookieFree_visit hcalls (List.cons_ne_nil _ _) hlive
  obtain rfl := Option.some.inj hfirst
  refine ⟨x', hcalls, ?_, hfound⟩
  rw [hpair]
  decide +kernel

/-- A session is started and moved at once: the client takes the id under which it is not found any more. -/
theorem handedPair?_of_moved_session : ∃ x',
    calls? [.session true, .changeId] visit
      = some ([Block.id (.replicate 16 0), Block.id (.replicate 16 1)], x') ∧
    x'.currentSession.1 = some (Block.id (.replicate 16 1)) ∧
    handedPair? (x'.response.headText "") = some "JSESSIONID=00000000000000000000000000000000" ∧
    (x'.sessions.find x'.now (Block.id (.replicate 16 0))).1 = false := by
  have hrun : (calls? [.session true, .changeId] visit).map (fun p => (p.1, p.2.currentSession.1,
      (p.2.sessions.find p.2.now (Block.id (.replicate 16 0))).1))
      = some ([Block.id (.replicate 16 0), Block.id (.replicate 16 1)], some (Block.id (.replicate 16 1)),
          false) := by
    decide +kernel
  obtain ⟨⟨ids, x'⟩, hcalls, heq⟩ := Option.map_eq_some_iff.1 hrun
  obtain ⟨rfl, heq⟩ := Prod.mk.inj heq
  obtain ⟨hcurrent, hlost⟩ := Prod.mk.inj heq
  have hout : HandedOut visit [Block.id (.replicate 16 0), Block.id (.replicate 16 1)] x' :=
    (handedOut_nil rfl).calls? rfl rfl hcalls
  refine ⟨x', hcalls, hcurrent, ?_, hlost⟩
  rw [(hout.handedPair? isPlain_visit cookieFree_visit).2]
  decide +kernel

end Exchange

end ServletContainer
