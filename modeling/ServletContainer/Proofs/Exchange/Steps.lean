import Mathlib.Logic.Relation
import ServletContainer.Exchange.Program
import ServletContainer.Proofs.Response.Calls
import ServletContainer.Proofs.Session.Calls

namespace ServletContainer

/-!
# What the calls of application code are made of

Each call that touches the exchange comes down to a few steps: calls to the response, calls to the session store,
and changes to what is known of the request. A relation that every step keeps is kept by the call.

* `Exchange.timed`, `Exchange.withTimed` — the sessions of an exchange, with the clock and the supply of blocks.
* `Op.Step` — one step of a call. It tells what only some calls do: set an attribute of the request or of a
  session, defer the request, leave a note. No step touches the lock, the paths or the dispatch.
* `Op.Steps.lift` — from steps to calls.
* `Op.steps_perform` — every call is made of steps.
-/

open SessionStore (Access)

/-! ### Sessions of an exchange -/

namespace Exchange

/-- The sessions of `x`, with the clock and the supply of blocks. -/
def timed (x : Exchange) : TimedStore := ⟨x.now, x.supply, x.sessions⟩

/-- The exchange `x` with the sessions, the clock and the supply of `t`. -/
def withTimed (x : Exchange) (t : TimedStore) : Exchange :=
  { x with now := t.now, supply := t.supply, sessions := t.store }

@[simp] theorem timed_withTimed (x : Exchange) (t : TimedStore) : (x.withTimed t).timed = t := rfl

/-- The cookie is a header field, and touches neither the sessions nor what the exchange is bound to. -/
theorem timed_addSessionCookie (x : Exchange) (id : SessionId) :
    (x.addSessionCookie id).timed = x.timed ∧ (x.addSessionCookie id).sessionId = x.sessionId := by
  unfold addSessionCookie
  dsimp only
  split
  · exact ⟨rfl, rfl⟩
  · exact ⟨rfl, rfl⟩

end Exchange

/-! ### Steps -/

namespace Op

/-- Whether `op` may come down to `c`, a call to the session store: only `setSessionAttribute` sets an attribute. -/
def MayStore (op : Op) (c : SessionStore.Call) : Prop :=
  ∀ id name v, c = .access id (.setAttribute name v) → op = .setSessionAttribute id name v

/-- Whether `op` sets or removes the attribute `name` of the request. -/
def Puts (op : Op) (name : String) : Prop := (∃ v, op = .setAttribute name v) ∨ op = .removeAttribute name

/-- One step of `op`. -/
inductive Step (op : Op) (x : Exchange) : Exchange → Prop
  /-- A call to the response that leaves its lock alone. -/
  | respond (c : Response.Call) : (∀ locked, c ≠ .setLocked locked) → Step op x (x.mapResponse (·.apply c))
  /-- A call to the session store. -/
  | store (c : SessionStore.Call) {p : SessionStore.Reply × TimedStore} :
    op.MayStore c → x.timed.perform c = some p → Step op x (x.withTimed p.2)
  /-- The exchange is bound to a session, or to none. -/
  | bind (id : Option SessionId) : Step op x { x with sessionId := id }
  /-- An attribute of the request is set or removed. -/
  | put (name : String) (v : Option Value) :
    op.Puts name → Step op x (x.mapRequest (·.putAttribute name v))
  /-- The header fields of the request change. -/
  | fields (h : Headers) : Step op x (x.mapRequest fun r => { r with head.headers := h })
  /-- Input is read. -/
  | input (rest : Option Source) : Step op x { x with input := rest }
  /-- The request is deferred. -/
  | defer (c : Continuation) : op = .startAsync c → Step op x { x with pending := some c }
  /-- A note is left. -/
  | note (n : Note) : op = .note n → Step op x (x.log (.noted n))

/-- Some steps of `op` in order, by `Step`. -/
def Steps (op : Op) : Exchange → Exchange → Prop := Relation.ReflTransGen op.Step

variable {op : Op} {x y z : Exchange}

theorem Step.steps (h : op.Step x y) : op.Steps x y := .single h

theorem Steps.refl (op : Op) (x : Exchange) : op.Steps x x := Relation.ReflTransGen.refl

/-- `Steps` composes. -/
theorem Steps.trans (h : op.Steps x y) (h' : op.Steps y z) : op.Steps x z := Relation.ReflTransGen.trans h h'

/-- A preorder `R` that every `Step` keeps is kept by `Steps`. -/
theorem Steps.lift {R : Exchange → Exchange → Prop} (hrefl : ∀ x, R x x)
    (htrans : ∀ {x y z}, R x y → R y z → R x z) (hstep : ∀ {x y}, op.Step x y → R x y) (h : op.Steps x y) :
    R x y := by
  induction h with
  | refl => exact hrefl x
  | tail _ hlast ih => exact htrans ih (hstep hlast)

/-- A call that is known to give `(a, y)` gives no other exchange than `y`. -/
theorem Steps.of_eq_some {α : Type} {a : α} {p : α × Exchange} (hp : some (a, y) = some p) (h : op.Steps x y) :
    op.Steps x p.2 := by
  obtain rfl := Option.some.inj hp
  exact h

/-- An access to the live session of an id is one call to the store. -/
theorem steps_access (x : Exchange) {id : SessionId} {a : Access}
    (ha : ∀ name v, a = .setAttribute name v → op = .setSessionAttribute id name v) :
    op.Steps x { x with sessions := (a.perform x.now id x.sessions).2 } := by
  have hmay : op.MayStore (.access id a) := by
    rintro id' name v h
    obtain ⟨rfl, rfl⟩ := SessionStore.Call.access.inj h
    exact ha name v rfl
  exact (Step.store (.access id a) hmay rfl).steps

theorem steps_respond (op : Op) (x : Exchange) {c : Response.Call} (hc : ∀ locked, c ≠ .setLocked locked) :
    op.Steps x (x.mapResponse (·.apply c)) := (Step.respond c hc).steps

/-! ### The session of an exchange -/

variable (op : Op) (x : Exchange)

/-- `sendRedirect` makes calls to the response, or none. -/
theorem steps_sendRedirect (location : String) : op.Steps x (x.sendRedirect location).2 := by
  unfold Exchange.sendRedirect
  split
  · exact .refl op x
  · split
    · exact .refl op x
    · have hreset := steps_respond op x (c := .resetBuffer) (by simp)
      have hstatus := hreset.trans (steps_respond op _ (c := .setStatus StatusCode.found.code) (by simp))
      exact hstatus.trans (steps_respond op _ (c := .setHeader "Location" location) (by simp))

/-- `bindSession` looks an id up, and binds the exchange to it or to none. -/
theorem steps_bindSession (id : SessionId) : op.Steps x (x.bindSession id).2 :=
  (steps_access x (a := .find) (by simp)).trans (Step.bind _).steps

/-- `currentSession` does so for the id that is bound, and then for the one that is asked for. -/
theorem steps_currentSession : op.Steps x x.currentSession.2 := by
  -- Whichever session is looked up, binding it is all that happens.
  unfold Exchange.currentSession
  cases x.sessionId with
  | none =>
    dsimp only
    split
    · exact .refl op x
    · exact steps_bindSession op x _
  | some id =>
    have hbound := steps_bindSession op x id
    dsimp only
    split
    · exact hbound
    · split
      · exact hbound
      · exact hbound.trans (steps_bindSession op _ _)

/-- `addSessionCookie` adds a header field, or none. -/
theorem steps_addSessionCookie (id : SessionId) : op.Steps x (x.addSessionCookie id) := by
  unfold Exchange.addSessionCookie
  dsimp only
  split
  · exact steps_respond op x (c := .addHeader "Set-Cookie" _) (by simp)
  · exact .refl op x

variable {op x}

/-- `session?` looks the session up, and may create one, bind the exchange to it and hand it out. -/
theorem steps_session? {create : Bool} {p : Option SessionId × Exchange} (h : x.session? create = some p) :
    op.Steps x p.2 := by
  have hc := steps_currentSession op x
  unfold Exchange.session? at h
  split at h
  · next hx =>
    rw [hx] at hc
    exact .of_eq_some h hc
  · -- A look-up that finds nothing is followed by a new session, the binding and the cookie.
    next y hx =>
    rw [hx] at hc
    split at h
    · obtain ⟨⟨id, supply, sessions⟩, hs, rfl⟩ := Option.map_eq_some_iff.1 h
      have hstored : y.timed.perform .create = some (.id (some id), ⟨y.now, supply, sessions⟩) := by
        show Option.map _ (y.sessions.create? y.now y.supply) = _
        rw [hs]
        rfl
      have hmade := hc.trans (Step.store .create (by simp [MayStore]) hstored).steps
      exact (hmade.trans (Step.bind (some id)).steps).trans (steps_addSessionCookie op _ id)
    · exact .of_eq_some h hc

/-- `changeSessionId?` looks it up, and may move it, bind the exchange to the new id and hand that out. -/
theorem steps_changeSessionId? {p : Except ServletError SessionId × Exchange} (h : x.changeSessionId? = some p) :
    op.Steps x p.2 := by
  have hc := steps_currentSession op x
  unfold Exchange.changeSessionId? at h
  split at h
  · next hx =>
    rw [hx] at hc
    exact .of_eq_some h hc
  · -- The session is found, moved in the store, bound again and handed out.
    next id y hx =>
    rw [hx] at hc
    obtain ⟨⟨changed, supply, sessions⟩, hs, rfl⟩ := Option.map_eq_some_iff.1 h
    have hstored : y.timed.perform (.changeId id) = some (.id changed, ⟨y.now, supply, sessions⟩) := by
      show Option.map _ (y.sessions.changeId? y.now id y.supply) = _
      rw [hs]
      rfl
    have hmoved := hc.trans (Step.store (.changeId id) (by simp [MayStore]) hstored).steps
    cases changed with
    | none => exact hmoved
    | some new => exact (hmoved.trans (Step.bind (some new)).steps).trans (steps_addSessionCookie op _ new)

/-- `requestedSessionIsValid` asks the store at most. -/
theorem steps_requestedSessionIsValid : op.Steps x x.requestedSessionIsValid.2 := by
  unfold Exchange.requestedSessionIsValid
  split
  · exact .refl op x
  · exact steps_access x (a := .contains) (by simp)

/-- `encodeUrl` looks the session up at most. -/
theorem steps_encodeUrl (url : String) : op.Steps x (x.encodeUrl url).2 := by
  have hc := steps_currentSession op x
  unfold Exchange.encodeUrl
  dsimp only
  split
  · exact .refl op x
  · split
    · next hx => simpa [hx] using hc
    · next hx => simpa [hx] using hc

/-! ### Calls -/

/-- So every call of an application is made of `Steps`. What they keep, application code keeps. -/
theorem steps_perform {op : Op} {x : Exchange} {p : op.Reply × Exchange} (h : op.perform x = some p) :
    op.Steps x p.2 := by
  cases op with
  -- One case for each call. Most are one step; calls to the response are, if they leave its lock.
  | observe => exact .of_eq_some h (.refl _ x)
  | note n => exact .of_eq_some h (Step.note n rfl).steps
  | setStatus code => exact .of_eq_some h (steps_respond _ x (c := .setStatus code) (by simp))
  | setStatusWithReason code reason =>
    exact .of_eq_some h (steps_respond _ x (c := .setStatusWithReason code reason) (by simp))
  | addHeader name value => exact .of_eq_some h (steps_respond _ x (c := .addHeader name value) (by simp))
  | setHeader name value => exact .of_eq_some h (steps_respond _ x (c := .setHeader name value) (by simp))
  | writeStatusLine => exact .of_eq_some h (steps_respond _ x (c := .writeStatusLine) (by simp))
  | writeHeaders => exact .of_eq_some h (steps_respond _ x (c := .writeHeaders) (by simp))
  | write data => exact .of_eq_some h (steps_respond _ x (c := .write data) (by simp))
  | flush => exact .of_eq_some h (steps_respond _ x (c := .flush) (by simp))
  | stream data => exact .of_eq_some h (steps_respond _ x (c := .stream data) (by simp))
  | close => exact .of_eq_some h (steps_respond _ x (c := .close) (by simp))
  | resetBuffer => exact .of_eq_some h (steps_respond _ x (c := .resetBuffer) (by simp))
  | sendRedirect location => exact .of_eq_some h (steps_sendRedirect _ x location)
  | setAttribute name v => exact .of_eq_some h (Step.put name (some v) (.inl ⟨v, rfl⟩)).steps
  | removeAttribute name => exact .of_eq_some h (Step.put name none (.inr rfl)).steps
  | setRequestHeader name value => exact .of_eq_some h (Step.fields _).steps
  | removeRequestHeader name => exact .of_eq_some h (Step.fields _).steps
  | readBody limit => exact .of_eq_some h (Step.input _).steps
  | startAsync c =>
    obtain rfl := Option.some.inj h
    unfold Exchange.startAsync
    split
    · exact .refl _ x
    · exact (Step.defer c rfl).steps
  | session create => exact steps_session? h
  | changeSessionId => exact steps_changeSessionId? h
  | requestedSessionIsValid => exact .of_eq_some h steps_requestedSessionIsValid
  | encodeUrl url => exact .of_eq_some h (steps_encodeUrl url)
  | handleState id => exact .of_eq_some h (steps_access x (a := .handleState) (by simp))
  | sessionAttribute id name => exact .of_eq_some h (steps_access x (a := .getAttribute name) (by simp))
  | setSessionAttribute id name v =>
    refine .of_eq_some h (steps_access x (a := .setAttribute name v) ?_)
    rintro name' v' heq
    obtain ⟨rfl, rfl⟩ := Access.setAttribute.inj heq
    rfl
  | removeSessionAttribute id name => exact .of_eq_some h (steps_access x (a := .removeAttribute name) (by simp))
  | sessionAttributeNames id => exact .of_eq_some h (steps_access x (a := .attributeNames) (by simp))
  | setSessionLimit id limit => exact .of_eq_some h (steps_access x (a := .setMaxInactive limit) (by simp))
  | invalidateSession id => exact .of_eq_some h (Step.store (.invalidate id) (by simp [MayStore]) rfl).steps

end Op

end ServletContainer
