import ServletContainer.Proofs.Dispatch.Restore
import ServletContainer.Proofs.Response.Locked

namespace ServletContainer

/-!
# What an include leaves of the response

The target of an include can add output, and nothing else. All of this rests on the lock: a call to a locked
response extends it, an include within the include locks it again, and a forward fails.

* `Response.IsReliable`, `Response.IsReliable.sound` — responses whose output cannot get lost on the way.
* `Confined` — the relation that whatever runs keeps: as long as the response is locked it is extended at most.
* `steady_confined` — calls, forwards and includes keep it.
* `extends_includeWith` — so an include extends the response, locked or not.
-/

/-! ### Reliable responses -/

namespace Response

/-- Whether `r` has come about by calls to a response that is `detached`, or `connected` to a peer that takes
everything. -/
def IsReliable (r : Response) : Prop :=
  ∃ protocol calls, r = (detached protocol).run calls ∨
    ∃ failsShutdown, r = (connected protocol (.fresh .unlimited failsShutdown)).run calls

/-- `Sound` is an invariant of the calls to a response. -/
theorem Sound.run {r : Response} (h : r.Sound) (calls : List Call) : (r.run calls).Sound := by
  induction calls generalizing r with
  | nil => exact h
  | cons c calls ih => exact ih (h.apply c)

/-- A response that `IsReliable` is `Sound`, detached or connected. -/
theorem IsReliable.sound {r : Response} (h : r.IsReliable) : r.Sound := by
  rcases h with ⟨protocol, calls, rfl | ⟨failsShutdown, rfl⟩⟩
  · have hstart : (detached protocol).Sound := ⟨by rintro p ⟨⟩, fun _ => rfl⟩
    exact hstart.run calls
  · have hstart : (connected protocol (.fresh .unlimited failsShutdown)).Sound := ⟨by rintro p ⟨⟩; rfl, fun _ => rfl⟩
    exact hstart.run calls

end Response

/-! ### Confinement -/

/-- Whether the response of `y` is as locked as that of `x`, is still `Sound` if it was, and `Extends` it if it is
locked. -/
structure Confined (x y : Exchange) : Prop where
  locked : y.response.locked = x.response.locked
  sound : x.response.Sound → y.response.Sound
  extends_of_locked : x.response.locked = true → x.response.Sound → x.response.Extends y.response

namespace Confined

variable {x y z : Exchange}

/-- An exchange is `Confined` by another that has the same response. -/
theorem of_eq (h : y.response = x.response) : Confined x y := by
  refine ⟨by rw [h], fun hs => h ▸ hs, fun _ _ => ?_⟩
  rw [h]
  exact .refl _

/-- `Confined` composes, since a response that is locked stays locked. -/
theorem trans (h : Confined x y) (h' : Confined y z) : Confined x z where
  locked := h'.locked.trans h.locked
  sound hs := h'.sound (h.sound hs)
  extends_of_locked hl hs :=
    (h.extends_of_locked hl hs).trans (h'.extends_of_locked (h.locked.trans hl) (h.sound hs))

/-- Any call to the response but `setLocked` is `Confined`. -/
theorem of_apply (x : Exchange) {c : Response.Call} (hc : ∀ locked, c ≠ .setLocked locked) :
    Confined x (x.mapResponse (·.apply c)) where
  locked := x.response.locked_apply hc
  sound hs := hs.apply c
  extends_of_locked hl hs := hs.extends_apply hl c

end Confined

/-- So every step of an application's call is. -/
theorem Op.Step.confined {op : Op} {x y : Exchange} (h : op.Step x y) : Confined x y := by
  cases h with
  | respond c hc => exact .of_apply x hc
  | store | bind | put | fields | input | defer | note => exact .of_eq rfl

section Jumps

variable {invoke : Invoker} {app : Application} {location : String}

/-- `forwardWith` is `Confined` if the target's `invoke` is (`hi`): on a locked response it fails before it does
anything. -/
theorem confined_forwardWith (hi : ∀ target, Carries Confined (invoke target .forward)) :
    Carries Confined (forwardWith invoke app location) := by
  intro x p h
  have hreset : Confined x x.startOver := .of_apply x (c := .resetBuffer) (by simp)
  rcases forwardWith_cases app location x with ⟨e, y, hy, heq⟩ | ⟨target, -, heq⟩
  · -- `forwardWith` fails, at the lock or once the response has started over.
    obtain rfl := Option.some.inj ((heq invoke).symm.trans h)
    rcases hy with rfl | ⟨-, rfl⟩
    · exact .of_eq rfl
    · exact hreset
  · rw [heq] at h
    obtain ⟨q, hq, rfl⟩ := Option.map_eq_some_iff.1 h
    have hinto : Confined x.startOver (x.intoForward app (Request.splitTarget location).1
        (Request.splitTarget location).2 target) := by
      unfold Exchange.intoForward
      split <;> exact .of_eq rfl
    have hout : Confined q.2 (x.outOfForward q.2) := by
      unfold Exchange.outOfForward
      dsimp only
      split <;> exact .of_eq rfl
    exact hreset.trans (hinto.trans ((hi _ hq).trans hout))

/-- `includeWith` extends a `Sound` response, whether or not it is locked already: it is locked for the target. -/
theorem extends_of_includeWith (hi : ∀ target, Carries Confined (invoke target .inclusion)) {x : Exchange}
    {p : Outcome × Exchange} (h : includeWith invoke app location x = some p) (hs : x.response.Sound) :
    x.response.Extends p.2.response ∧ p.2.response.Sound := by
  rcases includeWith_cases app location x with ⟨e, heq⟩ | ⟨target, -, heq⟩
  · obtain rfl := Option.some.inj ((heq invoke).symm.trans h)
    exact ⟨.refl _, hs⟩
  · rw [heq] at h
    obtain ⟨q, hq, rfl⟩ := Option.map_eq_some_iff.1 h
    have hrun := hi _ hq
    have hlocked : (x.response.setLocked true).Sound := hs.apply (.setLocked true)
    have hinner : (x.response.setLocked true).Extends q.2.response := hrun.extends_of_locked rfl hlocked
    -- `setLocked` and putting the lock back do not show.
    exact ⟨⟨hinner.protocol, hinner.status, hinner.reason, hinner.headers, hinner.output⟩,
      (hrun.sound hlocked).apply (.setLocked x.response.locked)⟩

/-- So `includeWith` is `Confined`. -/
theorem confined_includeWith (hi : ∀ target, Carries Confined (invoke target .inclusion)) :
    Carries Confined (includeWith invoke app location) := by
  intro x p h
  refine ⟨?_, fun hs => (extends_of_includeWith hi h hs).2, fun _ hs => (extends_of_includeWith hi h hs).1⟩
  rcases includeWith_cases app location x with ⟨e, heq⟩ | ⟨target, -, heq⟩
  · obtain rfl := Option.some.inj ((heq invoke).symm.trans h)
    rfl
  · rw [heq] at h
    obtain ⟨q, -, rfl⟩ := Option.map_eq_some_iff.1 h
    rfl

end Jumps

/-- `Confined` is `Steady` under all calls, for every kind of dispatch. -/
theorem steady_confined : Steady (fun _ => True) (fun _ => True) Confined where
  forwards := trivial
  includes := trivial
  refl _ := .of_eq rfl
  trans := .trans
  perform _ hp := (Op.steps_perform hp).lift (fun _ => .of_eq rfl) .trans Op.Step.confined
  entered _ _ _ := .of_eq rfl
  left _ _ _ := .of_eq rfl
  within _ h := ⟨h.locked, h.sound, h.extends_of_locked⟩
  forward := confined_forwardWith
  inclusion := confined_includeWith

/-- Where a response `Extends` another, the header fields are the same, or `Connection: close` is added to fields that
have no `Connection`. -/
theorem Response.headers_of_extends {r r' : Response} (h : r.Extends r') :
    r'.headers = r.headers ∨
      r.headers.contains "connection" = false ∧ r'.headers = r.headers.append "Connection" "close" := by
  rcases h.headers with hsame | hsent
  · exact .inl hsame
  · unfold sentHeaders at hsent
    split at hsent
    · exact .inl hsent
    · next hnone => exact .inr ⟨by simpa using hnone, hsent⟩

/-- **Includes.** Let `includeWith` return `y`, whatever the target and its filters do and with whatever `result`, on a
response that `IsReliable`: one without a peer, or with one that takes everything. Status and reason phrase stay. The
header fields stay as well, apart from `Connection: close`, which is added where there is no `Connection`. And what was
written before, be it on the wire or in the head and body that are still kept, is a prefix of what is written then. -/
theorem extends_includeWith {app : Application} {depth : Nat} {location : String} {x y : Exchange}
    {result : Outcome} (hx : x.response.IsReliable)
    (h : includeWith (invoke app depth) app location x = some (result, y)) :
    y.response.status = x.response.status ∧ y.response.reason = x.response.reason ∧
    (y.response.headers = x.response.headers ∨
      x.response.headers.contains "connection" = false ∧
        y.response.headers = x.response.headers.append "Connection" "close") ∧
    x.response.wire ++ x.response.head ++ x.response.body
      <+: y.response.wire ++ y.response.head ++ y.response.body := by
  have hinner : ∀ target, Carries Confined (invoke app depth target .inclusion) := fun target =>
    steady_confined.invoke app.uses_true depth target trivial
  obtain ⟨hextends, -⟩ := extends_of_includeWith hinner h hx.sound
  exact ⟨hextends.status, hextends.reason, Response.headers_of_extends hextends, hextends.output⟩

/-! ### An unruly page -/

/-- A page that tries to change the head, to start over, to go elsewhere and to end the response, and then fails. -/
def unrulyPage : Program :=
  .perform (.setStatus 500) <| .perform (.addHeader "X-Late" "1") <| .perform (.sendRedirect "/away") <|
  .jump .forward "/part" fun _ => .perform (.session true) <| .perform .resetBuffer <|
  .write (Text.Utf8.encode "b") fun _ => .jump .inclusion "/part" fun _ =>
  .perform .close <| .fail (.ofStatus 418)

/-- An application with the `unrulyPage`, and a part for it to include. -/
def unruly : Application where
  contextPath := ""
  displayName := "ROOT"
  servlets := [⟨"page", unrulyPage, fun _ => none, false⟩,
    ⟨"part", .write (Text.Utf8.encode "c") fun _ => .finish, fun _ => none, false⟩]
  filters := []
  mapper := (MappingTable.empty.assign "page" .default).assign "part" (.exact "/part")
  errorPages := .empty
  sessionConfig := .standard
  guard := none
  resources := none

/-- An exchange whose response has `201` and a first byte written. -/
def unrulyExchange : Exchange :=
  .start (.ofLine "GET / HTTP/1.1") none
    ((Response.connected "HTTP/1.1" (.fresh .unlimited false)).run [.setStatus 201, .write (Text.Utf8.encode "a")])
    0 [Vector.replicate 16 0]

/-- All that `unrulyPage` gets done is to write `b`, to include its part, and to close the response. -/
theorem extends_includeWith_unruly : ∃ y,
    includeWith (invoke unruly 2) unruly "/page" unrulyExchange = some (.error (.ofStatus 418), y) ∧
    y.response.wire = Text.Utf8.encode "HTTP/1.1 201 Created\r\nConnection: close\r\n\r\nabc" ∧
    y.response.status = 201 ∧
    unrulyExchange.response.wire ++ unrulyExchange.response.head ++ unrulyExchange.response.body
      <+: y.response.wire ++ y.response.head ++ y.response.body := by
  have hrun : (includeWith (invoke unruly 2) unruly "/page" unrulyExchange).map
      (fun p => (p.1, p.2.response.wire))
        = some (.error (.ofStatus 418),
            Text.Utf8.encode "HTTP/1.1 201 Created\r\nConnection: close\r\n\r\nabc") := by
    decide +kernel
  obtain ⟨⟨result, y⟩, hy, heq⟩ := Option.map_eq_some_iff.1 hrun
  obtain ⟨rfl, hwire⟩ := Prod.mk.inj heq
  have hreliable : unrulyExchange.response.IsReliable := ⟨_, _, .inr ⟨_, rfl⟩⟩
  obtain ⟨hstatus, -, -, hprefix⟩ := extends_includeWith hreliable hy
  exact ⟨y, hy, hwire, hstatus.trans (by decide +kernel), hprefix⟩

end ServletContainer
