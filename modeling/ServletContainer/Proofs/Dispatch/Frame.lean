import ServletContainer.Dispatch.Chain
import ServletContainer.Proofs.Exchange.Effects

namespace ServletContainer

/-!
# What application code leaves alone

Filters, servlets and guards work on an exchange through calls. None of the calls reaches the paths of the
request, the kind of the dispatch, the name of the servlet or the lock of the response.

* `SameFrame` — two exchanges that agree in these four.
* `Op.sameFrame_perform` — a call keeps them, since each of its steps does.
* `Guard.WorksByCalls` — a guard that works as application code does; `BasicAuth.worksByCalls_guard` shows it of
  the one by credentials.
-/

/-! ### The frame of an exchange -/

/-- Whether `x` and `y` agree in what only the container sets. -/
structure SameFrame (x y : Exchange) : Prop where
  paths : y.request.pathState = x.request.pathState
  dispatcher : y.dispatcher = x.dispatcher
  servletName : y.servletName = x.servletName
  locked : y.response.locked = x.response.locked

/-- Whether `f` keeps `SameFrame` when it runs to its end. -/
def Keeps (f : Exchange → Run) : Prop := ∀ ⦃x : Exchange⦄ ⦃p : Outcome × Exchange⦄, f x = some p → SameFrame x p.2

namespace SameFrame

variable {x y z : Exchange}

/-- An exchange is in the `SameFrame` as itself. -/
theorem refl (x : Exchange) : SameFrame x x := ⟨rfl, rfl, rfl, rfl⟩

/-- `SameFrame` composes. -/
theorem trans (h : SameFrame x y) (h' : SameFrame y z) : SameFrame x z :=
  ⟨h'.paths.trans h.paths, h'.dispatcher.trans h.dispatcher, h'.servletName.trans h.servletName,
    h'.locked.trans h.locked⟩

/-- A change of the request keeps the frame if it keeps `pathState`. -/
theorem of_mapRequest {f : Request → Request} (h : (f x.request).pathState = x.request.pathState) :
    SameFrame x (x.mapRequest f) := ⟨h, rfl, rfl, rfl⟩

theorem of_mapResponse {f : Response → Response} (h : (f x.response).locked = x.response.locked) :
    SameFrame x (x.mapResponse f) := ⟨rfl, rfl, rfl, h⟩

/-- A call that is known to give `(a, y)` gives no other exchange than `y`. -/
theorem of_eq_some {α : Type} {a : α} {p : α × Exchange} (h : some (a, y) = some p) (hf : SameFrame x y) :
    SameFrame x p.2 := by
  obtain rfl := Option.some.inj h
  exact hf

end SameFrame

/-! ### The lock of a response -/

namespace Response

variable (r : Response)

@[simp] theorem locked_setStatus (code : Nat) : (r.setStatus code).locked = r.locked := by
  unfold setStatus
  split <;> rfl

@[simp] theorem locked_setStatusWithReason (code : Nat) (reason : String) :
    (r.setStatusWithReason code reason).locked = r.locked := by
  unfold setStatusWithReason
  split <;> rfl

@[simp] theorem locked_addHeader (name value : String) : (r.addHeader name value).locked = r.locked := by
  unfold addHeader
  split <;> rfl

@[simp] theorem locked_setHeader (name value : String) : (r.setHeader name value).locked = r.locked := by
  unfold setHeader
  split <;> rfl

@[simp] theorem locked_writeStatusLine : r.writeStatusLine.locked = r.locked := by
  unfold writeStatusLine
  split <;> rfl

@[simp] theorem locked_writeHeaders : r.writeHeaders.locked = r.locked := by
  unfold writeHeaders
  split
  · exact r.locked_writeStatusLine
  · rfl

@[simp] theorem locked_write (data : Bytes) : (r.write data).2.locked = r.locked := by
  unfold write
  split
  · rfl
  · exact r.locked_writeHeaders

@[simp] theorem locked_send (s : Sink) : (r.send s).2.locked = r.locked := by
  unfold send
  split
  · rfl
  · split <;> rfl

@[simp] theorem locked_flush : r.flush.2.locked = r.locked := by
  unfold flush
  split
  · rfl
  · dsimp only
    split
    · exact r.locked_writeHeaders
    · rw [locked_send, locked_writeHeaders]

@[simp] theorem locked_stream (data : Bytes) : (r.stream data).2.locked = r.locked := by
  have hf := r.locked_flush
  unfold stream
  split
  · next h => simpa [h] using hf
  · next h =>
    rw [h] at hf
    split
    · exact hf
    · split <;> exact hf

@[simp] theorem locked_shutdownSink : r.shutdownSink.2.locked = r.locked := by
  unfold shutdownSink
  split <;> rfl

@[simp] theorem locked_close : r.close.2.locked = r.locked := by
  unfold close
  split
  · rfl
  · show r.flush.2.shutdownSink.2.locked = r.locked
    rw [locked_shutdownSink, locked_flush]

@[simp] theorem locked_resetBuffer : r.resetBuffer.2.locked = r.locked := by
  unfold resetBuffer
  split
  · rfl
  · split <;> rfl

@[simp] theorem locked_writeDefaultError (status : Nat) : (r.writeDefaultError status).locked = r.locked := by
  unfold writeDefaultError
  simp [writeText]

end Response

/-! ### Calls -/

/-- Of the calls to a response `setLocked` alone reaches the lock. -/
theorem Response.locked_apply (r : Response) {c : Call} (hc : ∀ locked, c ≠ .setLocked locked) :
    (r.apply c).locked = r.locked := by
  cases c with
  | setLocked locked => exact absurd rfl (hc locked)
  | setStatus code => exact r.locked_setStatus code
  | setStatusWithReason code reason => exact r.locked_setStatusWithReason code reason
  | addHeader name value => exact r.locked_addHeader name value
  | setHeader name value => exact r.locked_setHeader name value
  | writeStatusLine => exact r.locked_writeStatusLine
  | writeHeaders => exact r.locked_writeHeaders
  | write data => exact r.locked_write data
  | flush => exact r.locked_flush
  | stream data => exact r.locked_stream data
  | resetBuffer => exact r.locked_resetBuffer
  | close => exact r.locked_close

/-- No step of an application's call sets paths, kind, name or lock. -/
theorem Op.Step.sameFrame {op : Op} {x y : Exchange} (h : op.Step x y) : SameFrame x y := by
  cases h with
  | respond c hc => exact .of_mapResponse (x.response.locked_apply hc)
  | put name v _ => exact .of_mapRequest (by cases v <;> rfl)
  | fields h => exact .of_mapRequest rfl
  | store | bind | input | defer | note => exact ⟨rfl, rfl, rfl, rfl⟩

theorem Op.sameFrame_perform {op : Op} {x : Exchange} {p : op.Reply × Exchange} (h : op.perform x = some p) :
    SameFrame x p.2 :=
  (Op.steps_perform h).lift .refl .trans Op.Step.sameFrame

/-! ### Guards -/

/-- Whether an exchange comes from `x` by `Op`s, and by noting who the caller is. -/
inductive ByCalls (x : Exchange) : Exchange → Prop
  | start : ByCalls x x
  | call {y : Exchange} (op : Op) {p : op.Reply × Exchange} :
    ByCalls x y → op.perform y = some p → ByCalls x p.2
  | principal {y : Exchange} (caller : Principal) :
    ByCalls x y → ByCalls x (y.mapRequest fun r => { r with principal := some caller })

/-- What comes of an exchange `ByCalls` is in its frame, by induction on the calls. -/
theorem ByCalls.sameFrame {x y : Exchange} (h : ByCalls x y) : SameFrame x y := by
  induction h with
  | start => exact .refl x
  | call op _ hp ih => exact ih.trans (Op.sameFrame_perform hp)
  | principal caller _ ih => exact ih.trans (.of_mapRequest rfl)

/-- Whether `g` changes exchanges in no other way than `ByCalls`. -/
structure Guard.WorksByCalls (g : Guard) : Prop where
  check : ∀ {x : Exchange} {p : Decision × Exchange}, g.check x = some p → ByCalls x p.2
  after : ∀ x : Exchange, ByCalls x (g.after x)

/-- `PathGate` changes nothing at all. -/
theorem PathGate.worksByCalls_guard (g : PathGate) : g.guard.WorksByCalls where
  check {x p} h := by
    obtain rfl := Option.some.inj h
    exact .call (.note _) .start rfl
  after x := .call (.note _) .start rfl

namespace BasicAuth

/-- A look-up that creates no session always returns, as it draws no id. -/
theorem session?_false (x : Exchange) : x.session? false = some x.currentSession := by
  unfold Exchange.session?
  split
  · next h => rw [h]
  · next h => rw [h]; rfl

/-- `bindSession?` looks the session up, changes its id, and sets an attribute in it, all of which an application can do
as well. -/
theorem byCalls_bindSession? {x y : Exchange} {caller : Principal} (h : bindSession? x caller = some y) :
    ByCalls x y := by
  have hfound : ByCalls x x.currentSession.2 := .call (.session false) .start (session?_false x)
  have hasked (id : SessionId) : ByCalls x (askSession x id).2 :=
    .call (.sessionAttribute id principalAttribute) hfound rfl
  -- The cases of `Records` are how far it gets; each call in them is an `Op`.
  cases records_of_bindSession? h with
  | absent _ => exact hfound
  | known _ _ => exact hasked _
  | stuck _ _ hw => exact .call .changeSessionId (hasked _) hw
  | lost _ _ hw _ => exact .call (.session false) (.call .changeSessionId (hasked _) hw) (session?_false _)
  | moved _ _ hw _ =>
    have hlast : ByCalls x _ := .call (.session false) (.call .changeSessionId (hasked _) hw) (session?_false _)
    exact .call (.setSessionAttribute _ principalAttribute _) hlast rfl

/-- `BasicAuth` looks sessions up, moves them to fresh ids, and notes the caller as `principal`. -/
theorem worksByCalls_guard (g : BasicAuth) : g.guard.WorksByCalls where
  after x := .start
  check {x p} h := by
    rcases check?_cases h with ⟨hsame, -⟩ | ⟨user, password, caller, y, -, -, hy, rfl⟩
    · exact hsame ▸ .start
    · exact .principal caller (byCalls_bindSession? hy)

end BasicAuth

end ServletContainer
