import ServletContainer.Proofs.Dispatch.Attributes
import ServletContainer.Proofs.Exchange.SessionUrl
import ServletContainer.Proofs.Exchange.Steps
import ServletContainer.Proofs.Session.Newness

namespace ServletContainer

/-!
# The calls made in an exchange

What is done to an exchange is to make calls, and in between to change what concerns no sessions. Some of the calls look
for the session of the exchange; those alone find a session, start one or move it, and a session that is found is not
new any more, whether the exchange was asked for it or has started it itself.

* `MadeCall`, `Exchange.Makes` — the calls that were made, in order.
* `Op.Seeks`, `Exchange.Sought`, `Op.sought_perform` — the calls that look for the session, and all that they can do.
* `MadeCall.meet`, `Exchange.Makes.remembers` — which sessions have been met by the end.
* `MadeCall.Issues`, `Exchange.Makes.knows_cases` — an exchange looks for no session but the one that it is asked for
  and those that it has put under an id itself.
-/

/-! ### Looking for the session -/

namespace Exchange

variable (x : Exchange)

/-- To `seek` a session is to meet the one that is found, and no other. -/
theorem meets_seek (id? : Option SessionId) : x.sessions.Meets (x.seek id?).1 (x.seek id?).2.sessions := by
  cases id? with
  | none => exact .refl x.sessions
  | some id => exact x.sessions.meets_find x.now id

/-- So `currentSession` meets the one that it finds. -/
theorem meets_currentSession : x.sessions.Meets x.currentSession.1 x.currentSession.2.sessions := by
  have hbound := x.meets_seek x.sessionId
  rw [currentSession_eq]
  split
  · next hnone =>
    rw [hnone] at hbound
    exact hbound.trans (meets_seek _ _)
  · exact hbound

theorem sessionId_currentSession : x.currentSession.2.sessionId = x.currentSession.1 := x.currentSession_spec.2.1

theorem supply_seek (id? : Option SessionId) : (x.seek id?).2.supply = x.supply := by
  cases id? <;> rfl

theorem supply_currentSession : x.currentSession.2.supply = x.supply :=
  x.currentSession_lift (R := fun x y => y.supply = x.supply) (fun h h' => h'.trans h) supply_seek

/-- What may become of `x` when its session is looked for. -/
inductive Sought (x : Exchange) : Exchange → Prop
  | looked : Sought x x.currentSession.2
  /-- No session was found, and one is started. -/
  | started {id : SessionId} {supply : List Block} {sessions : SessionStore} : x.currentSession.1 = none →
    x.currentSession.2.sessions.create? x.currentSession.2.now x.currentSession.2.supply = some (id, supply, sessions) →
    Sought x (addSessionCookie { x.currentSession.2 with sessions, supply, sessionId := some id } id)
  /-- The session that was found is moved. -/
  | moved {old new : SessionId} {supply : List Block} {sessions : SessionStore} : x.currentSession.1 = some old →
    x.currentSession.2.sessions.changeId? x.currentSession.2.now old x.currentSession.2.supply
      = some (some new, supply, sessions) →
    Sought x (addSessionCookie { x.currentSession.2 with sessions, supply, sessionId := some new } new)
  /-- The session that was found is gone by the time that it would be moved. -/
  | lost {old : SessionId} {supply : List Block} {sessions : SessionStore} : x.currentSession.1 = some old →
    x.currentSession.2.sessions.changeId? x.currentSession.2.now old x.currentSession.2.supply
      = some (none, supply, sessions) →
    Sought x { x.currentSession.2 with sessions, supply }

end Exchange

/-! ### Calls -/

namespace Op

variable {op : Op} {x : Exchange} {p : op.Reply × Exchange}

/-- Whether an `Op` looks for the session of `x`. -/
def Seeks (x : Exchange) : Op → Prop
  | .session _ => True
  | .changeSessionId => True
  | .encodeUrl url => x.Rewrites url
  | _ => False

/-- All that a call that `Seeks` can do is among the cases of `Sought`. -/
theorem sought_perform (hseeks : op.Seeks x) (h : op.perform x = some p) : x.Sought p.2 := by
  -- Only these three look for the session; the cases are the ways their definitions branch.
  cases op with
  | session create =>
    change x.session? create = some p at h
    unfold Exchange.session? at h
    split at h
    · next id y hx =>
      obtain rfl := Option.some.inj h
      obtain rfl : x.currentSession.2 = y := congrArg Prod.snd hx
      exact .looked
    · next y hx =>
      obtain rfl : x.currentSession.2 = y := congrArg Prod.snd hx
      cases create with
      | false =>
        obtain rfl := Option.some.inj h
        exact .looked
      | true =>
        obtain ⟨⟨id, supply, sessions⟩, hs, rfl⟩ := Option.map_eq_some_iff.1 h
        exact .started (congrArg Prod.fst hx) hs
  | changeSessionId =>
    change x.changeSessionId? = some p at h
    unfold Exchange.changeSessionId? at h
    split at h
    · next y hx =>
      obtain rfl := Option.some.inj h
      obtain rfl : x.currentSession.2 = y := congrArg Prod.snd hx
      exact .looked
    · next old y hx =>
      obtain rfl : x.currentSession.2 = y := congrArg Prod.snd hx
      obtain ⟨⟨changed, supply, sessions⟩, hs, rfl⟩ := Option.map_eq_some_iff.1 h
      cases changed with
      | none => exact .lost (congrArg Prod.fst hx) hs
      | some new => exact .moved (congrArg Prod.fst hx) hs
  | encodeUrl url =>
    obtain rfl := Option.some.inj h
    rw [Exchange.encodeUrl_of_rewrites hseeks]
    exact .looked
  | _ => cases hseeks

/-- A call that does not `Seeks` leaves the exchange bound as it is, and sessions as new as they are: it may meet no
session. -/
theorem meets_perform (hseeks : ¬ op.Seeks x) (h : op.perform x = some p) :
    x.sessions.Meets none p.2.sessions ∧ p.2.sessionId = x.sessionId := by
  -- No access to a session but `find` meets it.
  have haccess : ∀ (id : SessionId) (a : SessionStore.Access), a ≠ .find →
      x.sessions.Meets none (a.perform x.now id x.sessions).2 :=
    fun id a ha => SessionStore.Access.meets_perform ha x.now id x.sessions
  cases op with
  -- The calls that seek a session are left out.
  | session create => exact absurd trivial hseeks
  | changeSessionId => exact absurd trivial hseeks
  | encodeUrl url =>
    obtain rfl := Option.some.inj h
    rw [Exchange.encodeUrl_of_not_rewrites hseeks]
    exact ⟨.refl _, rfl⟩
  | requestedSessionIsValid =>
    obtain rfl := Option.some.inj h
    unfold Exchange.requestedSessionIsValid
    split
    · exact ⟨.refl _, rfl⟩
    · exact ⟨haccess _ .contains nofun, rfl⟩
  | handleState id =>
    obtain rfl := Option.some.inj h
    exact ⟨haccess id .handleState nofun, rfl⟩
  | sessionAttribute id name =>
    obtain rfl := Option.some.inj h
    exact ⟨haccess id (.getAttribute name) nofun, rfl⟩
  | setSessionAttribute id name v =>
    obtain rfl := Option.some.inj h
    exact ⟨haccess id (.setAttribute name v) nofun, rfl⟩
  | removeSessionAttribute id name =>
    obtain rfl := Option.some.inj h
    exact ⟨haccess id (.removeAttribute name) nofun, rfl⟩
  | sessionAttributeNames id =>
    obtain rfl := Option.some.inj h
    exact ⟨haccess id .attributeNames nofun, rfl⟩
  | setSessionLimit id limit =>
    obtain rfl := Option.some.inj h
    exact ⟨haccess id (.setMaxInactive limit) nofun, rfl⟩
  | invalidateSession id =>
    obtain rfl := Option.some.inj h
    exact ⟨x.sessions.meets_erase id, rfl⟩
  | sendRedirect location =>
    obtain rfl := Option.some.inj h
    unfold Exchange.sendRedirect
    split
    · exact ⟨.refl _, rfl⟩
    · split <;> exact ⟨.refl _, rfl⟩
  | startAsync c =>
    obtain rfl := Option.some.inj h
    unfold Exchange.startAsync
    split <;> exact ⟨.refl _, rfl⟩
  | _ =>
    obtain rfl := Option.some.inj h
    exact ⟨.refl _, rfl⟩

end Op

/-! ### Calls in order -/

/-- Where `a` stands in a list that `b` was added to. -/
theorem exists_of_append_singleton_eq {α : Type} {l earlier later : List α} {a b : α}
    (h : l ++ [b] = earlier ++ a :: later) :
    (l = earlier ∧ b = a ∧ later = []) ∨ ∃ between, later = between ++ [b] ∧ l = earlier ++ a :: between := by
  rcases List.eq_nil_or_concat later with rfl | ⟨between, last, rfl⟩
  · obtain ⟨rfl, hlast⟩ := List.append_inj' h rfl
    exact .inl ⟨rfl, List.singleton_inj.1 hlast, rfl⟩
  · rw [List.concat_eq_append, ← List.cons_append, ← List.append_assoc] at h
    obtain ⟨rfl, hlast⟩ := List.append_inj' h rfl
    exact .inr ⟨between, by rw [List.concat_eq_append, List.singleton_inj.1 hlast], rfl⟩

/-- An `op` that was called, with the exchange `before` and `after` it. -/
structure MadeCall where
  op : Op
  before : Exchange
  after : Exchange

namespace Exchange

/-- Whether what was done from `x` to `y` concerns neither the sessions nor what `x` may look for. -/
structure Aside (x y : Exchange) : Prop where
  now : x.now ≤ y.now
  supply : y.supply = x.supply
  sessions : y.sessions = x.sessions
  sessionId : y.sessionId = x.sessionId
  requested : y.request.requestedSession = x.request.requestedSession

/-- What changes nothing is an `Aside`. -/
theorem Aside.refl (x : Exchange) : x.Aside x := ⟨Nat.le_refl _, rfl, rfl, rfl, rfl⟩

/-- Whether an exchange comes of `x` by these calls, and by what is `Aside`. -/
inductive Makes (x : Exchange) : List MadeCall → Exchange → Prop
  | start : Makes x [] x
  | call {calls : List MadeCall} {y : Exchange} (op : Op) {p : op.Reply × Exchange} : Makes x calls y →
    op.perform y = some p → Makes x (calls ++ [⟨op, y, p.2⟩]) p.2
  | aside {calls : List MadeCall} {y z : Exchange} : Makes x calls y → y.Aside z → Makes x calls z

namespace Makes

variable {x y z : Exchange} {calls calls' : List MadeCall}

/-- `Makes` composes, by appending the calls. -/
theorem trans (h : x.Makes calls y) (h' : y.Makes calls' z) : x.Makes (calls ++ calls') z := by
  induction h' with
  | start => rwa [List.append_nil]
  | call op _ hp ih =>
    rw [← List.append_assoc]
    exact .call op ih hp
  | aside _ haside ih => exact .aside ih haside

/-- An `Aside` makes no calls. -/
theorem of_aside (h : x.Aside y) : x.Makes [] y := .aside .start h

/-- Each call was made by the exchange that comes of those before it. -/
theorem before {c : MadeCall} {earlier later : List MadeCall} (h : x.Makes calls y)
    (hcalls : calls = earlier ++ c :: later) : x.Makes earlier c.before := by
  induction h generalizing later with
  | start => simp at hcalls
  | call op hmade hp ih =>
    rcases exists_of_append_singleton_eq hcalls with ⟨rfl, rfl, -⟩ | ⟨between, -, hearlier⟩
    · exact hmade
    · exact ih hearlier
  | aside _ _ ih => exact ih hcalls

end Makes

end Exchange

/-! ### What has been met -/

namespace MadeCall

/-- Whether `c` looked for the session of its exchange. -/
def Seeks (c : MadeCall) : Prop := c.op.Seeks c.before

/-- The session that `c.before` had, if it is looked for. -/
def found (c : MadeCall) : Option SessionId := c.before.currentSession.1

/-- Whether `c` found a session that was under `id`, or has put it there. -/
def Finds (c : MadeCall) (id : SessionId) : Prop :=
  c.Seeks ∧ (c.found = some id ∨ c.found ≠ none ∧ c.after.sessionId = some id)

/-- Whether `c` found no session, and started one under `id`. -/
def Starts (c : MadeCall) (id : SessionId) : Prop := c.Seeks ∧ c.found = none ∧ c.after.sessionId = some id

/-- What has been met after `c`: what it `Finds`, and what had been `met`, but nothing that it `Starts`. -/
def meet (c : MadeCall) (met : SessionId → Prop) (id : SessionId) : Prop := c.Finds id ∨ ¬ c.Starts id ∧ met id

end MadeCall

/-- What has been met after `calls` in order, by `meet`. -/
def metAfter (calls : List MadeCall) (met : SessionId → Prop) : SessionId → Prop :=
  calls.foldl (fun met c => c.meet met) met

/-- Whether the session under `id` is new after `calls` in order: one of them `Starts` it and none `Finds` it since, or
it was new before and none of them `Finds` it. -/
def NewAfter (calls : List MadeCall) (wasNew : Prop) (id : SessionId) : Prop :=
  (∃ earlier c later, calls = earlier ++ c :: later ∧ c.Starts id ∧ ∀ c' ∈ later, ¬ c'.Finds id) ∨
    wasNew ∧ ∀ c ∈ calls, ¬ c.Finds id

/-- A call that `Starts` a session does not find it. -/
theorem MadeCall.Starts.not_finds {c : MadeCall} {id : SessionId} (h : c.Starts id) : ¬ c.Finds id := by
  rintro ⟨-, hfound | ⟨hfound, -⟩⟩
  · rw [h.2.1] at hfound
    cases hfound
  · exact hfound h.2.1

/-- `NewAfter` changes with the last call `c`: what it starts is new, what it finds is not, and any other session is as
it was. -/
theorem newAfter_append (calls : List MadeCall) (c : MadeCall) (wasNew : Prop) (id : SessionId) :
    NewAfter (calls ++ [c]) wasNew id ↔ c.Starts id ∨ ¬ c.Finds id ∧ NewAfter calls wasNew id := by
  constructor
  · -- The last call that starts the session is `c`, or one of those before it; or there is none.
    rintro (⟨earlier, c', later, hcalls, hstarts, hlater⟩ | ⟨hnew, hnone⟩)
    · rcases exists_of_append_singleton_eq hcalls with ⟨-, rfl, -⟩ | ⟨between, rfl, rfl⟩
      · exact .inl hstarts
      · rw [List.forall_mem_append, List.forall_mem_singleton] at hlater
        exact .inr ⟨hlater.2, .inl ⟨earlier, c', between, rfl, hstarts, hlater.1⟩⟩
    · rw [List.forall_mem_append, List.forall_mem_singleton] at hnone
      exact .inr ⟨hnone.2, .inr ⟨hnew, hnone.1⟩⟩
  · rintro (hstarts | ⟨hnot, ⟨earlier, c', later, rfl, hstarts, hlater⟩ | ⟨hnew, hnone⟩⟩)
    · exact .inl ⟨calls, c, [], rfl, hstarts, by simp⟩
    · refine .inl ⟨earlier, c', later ++ [c], by simp, hstarts, ?_⟩
      rw [List.forall_mem_append, List.forall_mem_singleton]
      exact ⟨hlater, hnot⟩
    · refine .inr ⟨hnew, ?_⟩
      rw [List.forall_mem_append, List.forall_mem_singleton]
      exact ⟨hnone, hnot⟩

/-- So `metAfter`, which `Remembers` goes by, says of the same sessions that they are not new, by induction from the
last call. -/
theorem not_metAfter_iff (calls : List MadeCall) (met : SessionId → Prop) (id : SessionId) :
    ¬ metAfter calls met id ↔ NewAfter calls (¬ met id) id := by
  -- By induction from the last call, which is the one that counts first.
  induction calls using List.reverseRecOn with
  | nil => simp [metAfter, NewAfter]
  | append_singleton calls c ih =>
    have hexclusive : c.Starts id → ¬ c.Finds id := MadeCall.Starts.not_finds
    rw [newAfter_append, ← ih, metAfter, List.foldl_append]
    show ¬ (c.Finds id ∨ ¬ c.Starts id ∧ metAfter calls met id) ↔ _
    tauto

/-- From the call `c` that has started it for the last time, a session is new until one of the `later` calls finds it.
-/
theorem newAfter_of_starts {earlier later : List MadeCall} {c : MadeCall} {id : SessionId} (hc : c.Starts id)
    (hlast : ∀ c' ∈ later, ¬ c'.Starts id) (wasNew : Prop) :
    NewAfter (earlier ++ c :: later) wasNew id ↔ ∀ c' ∈ later, ¬ c'.Finds id := by
  -- By induction from the last call, up to the one that has started the session.
  induction later using List.reverseRecOn with
  | nil => simp [newAfter_append, hc]
  | append_singleton later last ih =>
    rw [List.forall_mem_append, List.forall_mem_singleton] at hlast ⊢
    rw [← List.cons_append, ← List.append_assoc, newAfter_append, ih hlast.1]
    have hnot := hlast.2
    tauto

namespace Exchange

variable {x y : Exchange} {met : SessionId → Prop}

/-- Whatever is `Sought`, the sessions that are new are those that were not met, with what it finds and what it starts.
-/
theorem Sought.remembers (h : x.Sought y) (hx : x.sessions.Remembers met) : y.sessions.Remembers fun id =>
    (x.currentSession.1 = some id ∨ x.currentSession.1 ≠ none ∧ y.sessionId = some id) ∨
      ¬ (x.currentSession.1 = none ∧ y.sessionId = some id) ∧ met id := by
  have hmeets := hx.meets x.meets_currentSession
  have hbound := x.sessionId_currentSession
  -- A session that is started was not met under its id, one that is moved is met under the new one.
  cases h with
  | looked =>
    refine hmeets.congr fun id => ?_
    rw [hbound]
    cases x.currentSession.1 <;> simp
  | @started new _ _ hnone hs =>
    obtain ⟨-, hsessions, hid⟩ := addSessionCookie_spec _ new
    rw [hsessions]
    refine (hmeets.create? hs).congr fun id => ?_
    rw [hid]
    simp [hnone, eq_comm]
  | @moved old new _ _ hold hs =>
    obtain ⟨-, hsessions, hid⟩ := addSessionCookie_spec _ new
    rw [hsessions]
    refine (hmeets.changeId? hs).congr fun id => ?_
    rw [hid]
    by_cases hnew : new = id <;> simp [hold, hnew]
  | lost hold hs =>
    refine (hmeets.changeId? hs).congr fun id => ?_
    simp [hold, hbound]

end Exchange

/-- Whatever is called, the sessions that are new are those that have not been met, if they were so before (`hx`). -/
theorem Op.remembers_perform {op : Op} {x : Exchange} {p : op.Reply × Exchange} {met : SessionId → Prop}
    (h : op.perform x = some p) (hx : x.sessions.Remembers met) :
    p.2.sessions.Remembers (MadeCall.meet ⟨op, x, p.2⟩ met) := by
  by_cases hseeks : op.Seeks x
  · refine ((sought_perform hseeks h).remembers hx).congr fun id => ?_
    simp only [MadeCall.meet, MadeCall.Finds, MadeCall.Starts, MadeCall.Seeks, MadeCall.found, hseeks, true_and]
  · refine (hx.meets_none (meets_perform hseeks h).1).congr fun id => ?_
    simp [MadeCall.meet, MadeCall.Finds, MadeCall.Starts, MadeCall.Seeks, hseeks]

/-- So after any calls the new sessions are those that `metAfter` does not have, by induction on the calls. -/
theorem Exchange.Makes.remembers {x y : Exchange} {calls : List MadeCall} {met : SessionId → Prop}
    (h : x.Makes calls y) (hx : x.sessions.Remembers met) : y.sessions.Remembers (metAfter calls met) := by
  induction h with
  | start => exact hx
  | call op _ hp ih =>
    rw [metAfter, List.foldl_append]
    exact Op.remembers_perform hp ih
  | aside _ haside ih => rwa [haside.sessions]

/-! ### What is looked for -/

namespace MadeCall

/-- Whether `c` put the session of its exchange under `id`, which it has drawn. -/
structure Issues (c : MadeCall) (id : SessionId) : Prop where
  seeks : c.Seeks
  bound : c.after.sessionId = some id
  drawn : ∃ passed b, c.before.supply = passed ++ b :: c.after.supply ∧ b.id = id

end MadeCall

/-- No call changes what the client asked for. -/
theorem Op.requestedSession_perform {op : Op} {x : Exchange} {p : op.Reply × Exchange} (h : op.perform x = some p) :
    p.2.request.requestedSession = x.request.requestedSession := by
  refine (Op.steps_perform h).lift
    (R := fun x y => y.request.requestedSession = x.request.requestedSession) (fun _ => rfl)
    (fun h h' => h'.trans h) fun hstep => ?_
  cases hstep with
  | put name v _ => exact (Request.sameButAttributes_putAttribute _ name v).requestedSession
  | _ => rfl

namespace Exchange

variable {x y : Exchange} {id : SessionId}

/-- `insertFresh?` draws the id of a block from the supply, behind those that it passes over. -/
theorem exists_drawn_of_insertFresh? {s u : SessionStore} {session : Session} {supply rest : List Block}
    (h : s.insertFresh? session supply = some (id, rest, u)) :
    ∃ passed b, supply = passed ++ b :: rest ∧ b.id = id := by
  obtain ⟨passed, b, hsupply, hid, -, -⟩ := SessionStore.freshId?_eq_some_iff.1 (SessionStore.insertFresh?_eq_some h).1
  exact ⟨passed, b, hsupply, hid⟩

/-- What is `Sought` leaves the exchange bound to a session that it knew of, or that it has just put under an id which
it has drawn. -/
theorem Sought.bound_cases (h : x.Sought y) (hid : y.sessionId = some id) :
    x.Knows id ∨ ∃ passed b, x.supply = passed ++ b :: y.supply ∧ b.id = id := by
  have hbound := x.sessionId_currentSession
  -- What was found was known, and what was handed out was drawn; each call did one or the other.
  have hknown : x.currentSession.1 = some id → x.Knows id := fun hfound => (x.currentSession_spec.2.2.1 id hfound).1
  have hdrawn : ∀ {z : Exchange} {new rest}, y = addSessionCookie z new → z.sessionId = some new → z.supply = rest →
      (∃ passed b, x.currentSession.2.supply = passed ++ b :: rest ∧ b.id = new) →
      ∃ passed b, x.supply = passed ++ b :: y.supply ∧ b.id = id := by
    rintro z new rest rfl hz rfl hnew
    obtain ⟨htimed, hsession⟩ := z.timed_addSessionCookie new
    obtain rfl := Option.some.inj (hz.symm.trans (hsession.symm.trans hid))
    have hsupply : (z.addSessionCookie new).supply = z.supply := congrArg TimedStore.supply htimed
    rwa [← x.supply_currentSession, hsupply]
  cases h with
  | looked => exact .inl (hknown (hbound.symm.trans hid))
  | started _ hs => exact .inr (hdrawn rfl rfl rfl (exists_drawn_of_insertFresh? hs))
  | moved _ hs =>
    rcases SessionStore.changeId?_cases hs with ⟨hnone, -⟩ | ⟨session, new, hsome, hs⟩
    · cases hnone
    · obtain rfl := Option.some.inj hsome
      exact .inr (hdrawn rfl rfl rfl (exists_drawn_of_insertFresh? hs))
  | lost hold _ => exact .inl (hknown (hbound.symm.trans hid))

/-- What an exchange `Knows` after some calls it knew before, or one of them `Issues` it. -/
theorem Makes.knows_cases {calls : List MadeCall} (h : x.Makes calls y) (hid : y.Knows id) :
    x.Knows id ∨ ∃ c ∈ calls, c.Issues id := by
  induction h with
  | start => exact .inl hid
  | @call calls y op p _ hp ih =>
    have hearlier : y.Knows id → x.Knows id ∨ ∃ c ∈ calls ++ [⟨op, y, p.2⟩], c.Issues id := fun hknown =>
      (ih hknown).imp_right fun ⟨c, hc, hissues⟩ => ⟨c, List.mem_append_left _ hc, hissues⟩
    -- An exchange knows the id that it is bound to, and the one that the client asked for.
    rcases hid with hbound | hasked
    · -- Only a call that seeks a session binds the exchange to another one.
      by_cases hseeks : op.Seeks y
      · rcases (Op.sought_perform hseeks hp).bound_cases hbound with hknown | hdrawn
        · exact hearlier hknown
        · exact .inr ⟨⟨op, y, p.2⟩, by simp, hseeks, hbound, hdrawn⟩
      · exact hearlier (.inl ((Op.meets_perform hseeks hp).2.symm.trans hbound))
    · rw [Op.requestedSession_perform hp] at hasked
      exact hearlier (.inr hasked)
  | aside _ haside ih => exact ih (by rwa [Knows, haside.sessionId, haside.requested] at hid)

end Exchange

end ServletContainer
