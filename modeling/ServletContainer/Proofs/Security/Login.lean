import ServletContainer.Proofs.Exchange.SessionCookie
import ServletContainer.Proofs.Exchange.Steps
import ServletContainer.Proofs.Security.Protection
import ServletContainer.Proofs.Session.Attributes

namespace ServletContainer

/-!
# Logging in

What the guard by credentials does to the session of an exchange that it lets through.

* `Exchange.looked_currentSession` — to look for the session of an exchange is to look at sessions.
* `BasicAuth.LogsIn` — nothing happens where there is no session or the session names the caller; any other session
  is moved to a fresh id, and names the caller from then on.
* `BasicAuth.logsIn_of_bindSession?` — the guard does no other thing.
* `BasicAuth.logsIn_of_check?` — and it does so only for callers that it knows.
-/

open SessionStore (Access)

/-! ### The session of an exchange -/

namespace Exchange

variable {x : Exchange} {id : SessionId}

/-- `bindSession` only looks at sessions. -/
theorem looked_bindSession (x : Exchange) (id : SessionId) : x.timed.Looked (x.bindSession id).2.timed := by
  have hfind : x.timed.perform (.access id .find) = some (_, (x.bindSession id).2.timed) := rfl
  exact .find hfind

/-- `seek` only looks at sessions. -/
theorem looked_seek (x : Exchange) (id? : Option SessionId) : x.timed.Looked (x.seek id?).2.timed := by
  cases id? with
  | none => exact .refl _
  | some id => exact x.looked_bindSession id

/-- `currentSession` only looks at sessions. -/
theorem looked_currentSession (x : Exchange) : x.timed.Looked x.currentSession.2.timed :=
  x.currentSession_lift (R := fun x y => x.timed.Looked y.timed) .trans looked_seek

/-- `bindSession` finds the sessions that have attributes, which are the live ones. -/
theorem bindSession_fst_eq_true_iff : (x.bindSession id).1 = true ↔ x.timed.attributes? id ≠ none := by
  rw [bindSession_fst, Option.isSome_iff_ne_none, ne_eq, ne_eq, TimedStore.attributes?_eq_none_iff]
  rfl

/-- The session that `currentSession` finds (`h`) is live, and bound to the exchange. -/
theorem live_of_currentSession (h : x.currentSession.1 = some id) :
    x.timed.attributes? id ≠ none ∧ x.currentSession.2.sessionId = some id := by
  obtain ⟨-, hbound, hfound, -⟩ := x.currentSession_spec
  exact ⟨bindSession_fst_eq_true_iff.1 (hfound id h).2.2, hbound.trans h⟩

/-- And a live session (`hlive`) that an exchange is bound to (`hbound`) is found. -/
theorem currentSession_of_bound (hbound : x.sessionId = some id) (hlive : x.timed.attributes? id ≠ none) :
    x.currentSession.1 = some id := by
  have hseek : (x.seek x.sessionId).1 = some id := by
    rw [hbound]
    exact if_pos (bindSession_fst_eq_true_iff.2 hlive)
  rw [currentSession_eq, if_neg (by simp [hseek]), hseek]

/-- A live session (`hlive`) to which the exchange is bound (`hbound`) is moved to the next id, and the exchange with
it. The id is new, and all other sessions keep theirs. -/
theorem changeSessionId?_of_bound {p : Except ServletError SessionId × Exchange} (hx : x.timed.Fresh)
    (hbound : x.sessionId = some id) (hlive : x.timed.attributes? id ≠ none) (h : x.changeSessionId? = some p) :
    ∃ b, p.1 = .ok b.id ∧ x.supply = b :: p.2.supply ∧ p.2.sessionId = some b.id ∧ p.2.now = x.now ∧
      p.2.timed.Fresh ∧ b.id ≠ id ∧ ∀ j, p.2.timed.attributes? j
        = if j = b.id then x.timed.attributes? id else if j = id then none else x.timed.attributes? j := by
  have hlooked := x.looked_currentSession
  have hfound := currentSession_of_bound hbound hlive
  unfold changeSessionId? at h
  split at h
  · next hnone =>
    rw [hnone] at hfound
    cases hfound
  · next id' y hsome =>
    rw [hsome] at hfound hlooked
    obtain rfl : id = id' := (Option.some.inj hfound).symm
    obtain ⟨⟨changed, supply, sessions⟩, hs, rfl⟩ := Option.map_eq_some_iff.1 h
    have hmove : y.timed.perform (.changeId id) = some (.id changed, ⟨y.now, supply, sessions⟩) := by
      show Option.map _ (y.sessions.changeId? y.now id y.supply) = _
      rw [hs]
      rfl
    have hy := hlooked.fresh hx
    have hyLive : y.timed.attributes? id ≠ none := hlooked.attributes id ▸ hlive
    obtain ⟨b, hsupply, hr, -, hb, hattr⟩ := hy.attributes?_changeId hmove hyLive
    obtain rfl : changed = some b.id := by simpa using hr
    -- By `timed_addSessionCookie`, handing the id out changes the response alone.
    let z : Exchange := { y with sessions, supply, sessionId := some b.id }
    obtain ⟨htimed, hsession⟩ := z.timed_addSessionCookie b.id
    refine ⟨b, rfl, ?_, hsession, (congrArg TimedStore.now htimed).trans hlooked.now, ?_, hb, fun j => ?_⟩
    · have hrest := congrArg TimedStore.supply htimed
      exact hlooked.supply.symm.trans (hsupply.trans (congrArg (b :: ·) hrest.symm))
    · exact htimed ▸ hy.perform hmove
    · have hz := hattr j
      simp only [hlooked.attributes] at hz
      exact htimed ▸ hz

/-- Reading an attribute of a session gives it, and is only to look. -/
theorem getAttribute_spec (x : Exchange) (id : SessionId) (name : String) :
    (x.onSessions fun now s => s.getAttribute now id name).1 = x.timed.attribute? id name ∧
      x.timed.Looked (x.onSessions fun now s => s.getAttribute now id name).2.timed := by
  have hread : x.timed.perform (.access id (.getAttribute name))
    = some (_, (x.onSessions fun now s => s.getAttribute now id name).2.timed) := rfl
  exact ⟨x.timed.getAttribute_fst id name, .getAttribute hread⟩

/-- Setting one changes the attributes of no other session. -/
theorem setAttribute_spec (x : Exchange) (id : SessionId) (name : String) (v : Value) :
    (x.timed.Fresh → (x.onSessions fun now s => s.setAttribute now id name v).2.timed.Fresh) ∧
      ∀ j, (x.onSessions fun now s => s.setAttribute now id name v).2.timed.attributes? j
        = if j = id then (x.timed.attributes? id).map (·.insert name v) else x.timed.attributes? j := by
  have hset : x.timed.perform (.access id (.setAttribute name v))
    = some (_, (x.onSessions fun now s => s.setAttribute now id name v).2.timed) := rfl
  exact ⟨fun hx => hx.perform hset, TimedStore.attributes?_setAttribute hset⟩

end Exchange

/-! ### The guard -/

namespace BasicAuth

variable {g : BasicAuth} {x y : Exchange} {caller : Principal}

/-- What becomes of the sessions of `x` when the caller `name` comes through. -/
inductive LogsIn (name : String) (x y : Exchange) : Prop
  /-- There is no session. -/
  | absent : x.currentSession.1 = none → x.timed.Looked y.timed → LogsIn name x y
  /-- The session names the caller. -/
  | known {id} : x.currentSession.1 = some id → x.timed.attribute? id principalAttribute = some (.text name) →
    x.timed.Looked y.timed → y.sessionId = some id → LogsIn name x y
  /-- The session is moved to a fresh id, and names the caller from now on. -/
  | moved {id attributes b} : x.currentSession.1 = some id → x.timed.attributes? id = some attributes →
    attributes.get? principalAttribute ≠ some (.text name) → x.supply = b :: y.supply → y.now = x.now →
    y.timed.Fresh → y.sessionId = some b.id → b.id ≠ id →
    (∀ j, y.timed.attributes? j = if j = b.id then some (attributes.insert principalAttribute (.text name))
      else if j = id then none else x.timed.attributes? j) → LogsIn name x y

/-- `names` asks whether a value is the caller's name. -/
theorem names_eq_true_iff {name : String} {v : Option Value} : names name v = true ↔ v = some (.text name) := by
  unfold names
  cases v with
  | none => simp
  | some v => cases v <;> simp [Value.text?]

/-- A session that is found (`hid`) is live; to ask whom it names is to look at it and stay bound to it. -/
theorem askSession_spec {id : SessionId} (hid : x.currentSession.1 = some id) :
    ∃ attributes, x.timed.attributes? id = some attributes ∧
      (askSession x id).1 = attributes.get? principalAttribute ∧
      x.timed.Looked (askSession x id).2.timed ∧ (askSession x id).2.sessionId = some id := by
  obtain ⟨hlive, hbound⟩ := Exchange.live_of_currentSession hid
  obtain ⟨attributes, hattr⟩ := Option.ne_none_iff_exists'.1 hlive
  obtain ⟨hvalue, hread⟩ := x.currentSession.2.getAttribute_spec id principalAttribute
  have hlooked := x.looked_currentSession
  refine ⟨attributes, hattr, ?_, hlooked.trans hread, hbound⟩
  rw [askSession, hvalue, hlooked.attribute?_eq, TimedStore.attribute?, hattr, Option.bind_some]

/-- Such a session, asked and then moved (`h`), has an id that nobody was told, under which it is found again. -/
theorem changeSessionId?_of_asked {id : SessionId} {changed : Except ServletError SessionId} (hx : x.timed.Fresh)
    (hid : x.currentSession.1 = some id) (h : (askSession x id).2.changeSessionId? = some (changed, y)) :
    ∃ b, changed = .ok b.id ∧ x.supply = b :: y.supply ∧ y.now = x.now ∧ y.timed.Fresh ∧ b.id ≠ id ∧
      y.currentSession.1 = some b.id ∧ ∀ j, y.timed.attributes? j
        = if j = b.id then x.timed.attributes? id else if j = id then none else x.timed.attributes? j := by
  obtain ⟨attributes, hattr, -, hread, hbound⟩ := askSession_spec hid
  have hlive : (askSession x id).2.timed.attributes? id ≠ none := by simp [hread.attributes id, hattr]
  obtain ⟨b, hchanged, hsupply, hsession, hnow, hfresh, hb, hmoved⟩ :=
    Exchange.changeSessionId?_of_bound (hread.fresh hx) hbound hlive h
  simp only [hread.attributes] at hmoved
  have hnew : y.timed.attributes? b.id ≠ none := by simp [hmoved, hattr]
  exact ⟨b, hchanged, hread.supply.symm.trans hsupply, hnow.trans hread.now, hfresh, hb,
    Exchange.currentSession_of_bound hsession hnew, hmoved⟩

/-- What `bindSession?` makes of the sessions is a login. By the cases of what it records, of which `stuck` and `lost`
do not come about in a store that is `Fresh`. -/
theorem logsIn_of_bindSession? (hx : x.timed.Fresh) (h : bindSession? x caller = some y) :
    LogsIn caller.name x y := by
  cases records_of_bindSession? h with
  | absent hnone => exact .absent hnone x.looked_currentSession
  | known hid hnames =>
    obtain ⟨attributes, hattr, hvalue, hread, hbound⟩ := askSession_spec hid
    rw [hvalue, names_eq_true_iff] at hnames
    exact .known hid (by rw [TimedStore.attribute?, hattr, Option.bind_some, hnames]) hread hbound
  -- By `changeSessionId?_of_asked` a fresh supply leaves neither `stuck` nor `lost`.
  | stuck hid _ hw =>
    obtain ⟨b, hchanged, -⟩ := changeSessionId?_of_asked hx hid hw
    cases hchanged
  | lost hid _ hw hlost =>
    obtain ⟨b, -, -, -, -, -, hfound, -⟩ := changeSessionId?_of_asked hx hid hw
    rw [hlost] at hfound
    cases hfound
  | @moved id _ w id' hid hother hw hagain =>
    obtain ⟨attributes, hattr, hvalue, -, -⟩ := askSession_spec hid
    obtain ⟨b, -, hsupply, hnow, hfresh, hb, hfound, hmoved⟩ := changeSessionId?_of_asked hx hid hw
    -- The session is moved to `b.id` first, and the name bound there.
    obtain rfl : id' = b.id := Option.some.inj (hagain.symm.trans hfound)
    rw [hvalue, ← Bool.not_eq_true, names_eq_true_iff] at hother
    have hlooked := w.looked_currentSession
    obtain ⟨hfresh', hset⟩ := w.currentSession.2.setAttribute_spec b.id principalAttribute (.text caller.name)
    refine .moved hid hattr hother ?_ (hlooked.now.trans hnow) (hfresh' (hlooked.fresh hfresh))
      (Exchange.live_of_currentSession hfound).2 hb fun j => ?_
    · exact hsupply.trans (congrArg (b :: ·) hlooked.supply.symm)
    · rw [hset, hlooked.attributes, hlooked.attributes, hmoved, hmoved, hattr, if_pos rfl]
      by_cases hj : j = b.id
      · simp [hj]
      · simp [hj]

/-- What is known of the request does not count for the sessions. -/
theorem LogsIn.mapRequest {name : String} (h : LogsIn name x y) (f : Request → Request) :
    LogsIn name x (y.mapRequest f) := by
  cases h with
  | absent hnone hlooked => exact .absent hnone hlooked
  | known hid hattr hlooked hbound => exact .known hid hattr hlooked hbound
  | moved hid hattr hother hsupply hnow hfresh hbound hb hmoved =>
    exact .moved hid hattr hother hsupply hnow hfresh hbound hb hmoved

/-- To ask the guard changes nothing, or lets a known caller through and logs it in. On a constrained path nobody else
comes through. -/
theorem logsIn_of_check? {p : Decision × Exchange} (hx : x.timed.Fresh) (h : g.check? x = some p) :
    p.2 = x ∧ (p.1 = .allow → g.constraint? x.request.relativePath = none) ∨
    ∃ caller, Authenticates g.identities x.request.head.headers caller ∧ p.1 = .allow ∧
      LogsIn caller.name x p.2 := by
  rcases check?_cases h with hsame | ⟨user, password, caller, z, hcredentials, hcaller, hz, rfl⟩
  · exact .inl hsame
  · have hlogin := (logsIn_of_bindSession? hx hz).mapRequest fun r => { r with principal := some caller }
    exact .inr ⟨caller, ⟨user, password, hcredentials, hcaller⟩, rfl, hlogin⟩

end BasicAuth

end ServletContainer
