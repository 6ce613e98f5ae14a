import ServletContainer.Dispatch.ErrorPage
import ServletContainer.Proofs.Dispatch.Carried
import ServletContainer.Proofs.Dispatch.Restore
import ServletContainer.Proofs.Exchange.Effects
import ServletContainer.Proofs.Response.Head

namespace ServletContainer

/-!
# When an error page fails

A failure is answered by an error page, and if the page fails by a line of text. That line goes behind whatever
the page has left in the response, and a request that the page has deferred stays so.

* `Response.IsDefaultError` — the answer that the line is meant to be.
* `Response.writeDefaultError_of_new`, `Response.writeDefaultError_of_headersWritten` — what writing it does.
* `carried_reaches` — dispatches change the response by calls only; so a body is there only behind a head.
* `handleError_of_failed_page` — when the line is all of the answer.
-/

/-! ### The container's own answer -/

namespace Response

/-- The line of text for `status`. -/
def defaultErrorText (status : Nat) : String :=
  toString status ++ " " ++
    match StatusCode.ofCode? status with
    | some s => s.reason
    | none => "Error"

/-- The type of `defaultErrorText`. -/
def defaultErrorType : String := "text/plain; charset=utf-8"

/-- Whether `r` is the container's own answer to a failure with `code`, and nothing else. -/
structure IsDefaultError (r : Response) (code : Nat) : Prop where
  status : r.status = code
  contentType : r.headers.getAll "Content-Type" = [defaultErrorType]
  body : r.body = Text.Utf8.encode (defaultErrorText code)

variable (r : Response)

/-- `writeHeaders` completes the head without changing the status. -/
@[simp] theorem status_writeHeaders : r.writeHeaders.status = r.status := by
  unfold writeHeaders writeStatusLine
  split
  · split <;> rfl
  · rfl

/-- Nor does it write to the body. -/
@[simp] theorem body_writeHeaders : r.writeHeaders.body = r.body := by
  unfold writeHeaders writeStatusLine
  split
  · split <;> rfl
  · rfl

variable {r}

/-- On a response that is not closed, `write` completes the head and appends `data`. -/
theorem write_of_ne_closed (hc : r.state ≠ .closed) (data : Bytes) :
    (r.write data).2.status = r.status ∧ (r.write data).2.headers = r.writeHeaders.headers ∧
      (r.write data).2.body = r.body ++ data := by
  unfold write
  rw [if_neg hc]
  exact ⟨r.status_writeHeaders, rfl, congrArg (· ++ data) r.body_writeHeaders⟩

/-- Where the state is `new` and the head is not locked, `writeDefaultError` sets status and `Content-Type`, and appends
its line. -/
theorem writeDefaultError_of_new (hn : r.state = .new) (hl : r.locked = false) (code : Nat) :
    (r.writeDefaultError code).status = code ∧
      (r.writeDefaultError code).headers.getAll "Content-Type" = [defaultErrorType] ∧
      (r.writeDefaultError code).body = r.body ++ Text.Utf8.encode (defaultErrorText code) := by
  have hhead : (r.setStatus code).setHeader "Content-Type" defaultErrorType
      = { r with status := code, reason := none, headers := r.headers.set "Content-Type" defaultErrorType } := by
    simp [setStatus, setHeader, headIsMutable, hn, hl]
  obtain ⟨hstatus, hheaders, hbody⟩ := write_of_ne_closed
    (r := (r.setStatus code).setHeader "Content-Type" defaultErrorType) (by simp [hhead, hn])
    (Text.Utf8.encode (defaultErrorText code))
  refine ⟨hstatus.trans (by rw [hhead]), ?_, hbody.trans (by rw [hhead])⟩
  refine (congrArg (Headers.getAll · "Content-Type") hheaders).trans ?_
  rw [writeHeaders_of_new (by simp [hhead, hn]), hhead]
  exact (getAll_sentHeaders_of_not_sameName _ (by decide)).trans (Headers.getAll_set_same _ _ _)

/-- Where the state is `headersWritten`, it appends the line, and `setStatus` and `setHeader` do nothing. -/
theorem writeDefaultError_of_headersWritten (hs : r.state = .headersWritten) (code : Nat) :
    (r.writeDefaultError code).status = r.status ∧ (r.writeDefaultError code).headers = r.headers ∧
      (r.writeDefaultError code).body = r.body ++ Text.Utf8.encode (defaultErrorText code) := by
  have hhead : (r.setStatus code).setHeader "Content-Type" defaultErrorType = r := by
    simp [setStatus, setHeader, headIsMutable, hs]
  have hwrite : r.writeDefaultError code = (r.write (Text.Utf8.encode (defaultErrorText code))).2 :=
    congrArg (fun q => (Response.write q (Text.Utf8.encode (defaultErrorText code))).2) hhead
  obtain ⟨hstatus, hheaders, hbody⟩ := write_of_ne_closed (r := r) (by simp [hs])
    (Text.Utf8.encode (defaultErrorText code))
  rw [writeHeaders_of_ne_new (by simp [hs])] at hheaders
  rw [hwrite]
  exact ⟨hstatus, hheaders, hbody⟩

/-- `BodyBehindHead` is an invariant of the calls to a response. -/
theorem BodyBehindHead.reaches {r' : Response} (h : r.BodyBehindHead) (hr : r.Reaches r') : r'.BodyBehindHead := by
  obtain ⟨calls, rfl⟩ := hr
  induction calls generalizing r with
  | nil => exact h
  | cons c calls ih => exact ih (h.apply c)

end Response

/-! ### Error pages -/

/-- Dispatches change the response by calls alone, so `Reaches` is `Carried` with all of them allowed. -/
theorem carried_reaches : Carried (fun _ => True) fun x y => x.response.Reaches y.response where
  refl _ := .refl _
  trans := .trans
  perform _ h := (Op.effect h).response
  log _ _ _ := .refl _
  request _ _ := .refl _
  place _ _ _ := .refl _
  reset _ := .apply _ .resetBuffer
  lock _ locked := .apply _ (.setLocked locked)

section Page

variable {app : Application} {depth : Nat} {x z : Exchange} {e e' : ServletError}

/-- `prepareError` on a response that is not committed resets what was written, sets the status and unlocks the head.
The header fields stay. -/
theorem response_prepareError_eq (hx : x.response.isCommitted = false) (code : Nat) :
    (prepareError code x).response = { x.response with
      status := code, reason := none, locked := false, head := [], body := [], bodyWritten := 0, state := .new } := by
  have hreset : (x.response.setLocked false).resetBuffer.2
      = { x.response with locked := false, head := [], body := [], bodyWritten := 0, state := .new } := by
    have hc : (x.response.setLocked false).isCommitted = false := hx
    rw [Response.resetBuffer, hc]
    rfl
  have hstatus : (prepareError code x).response
      = ((x.response.setLocked false).resetBuffer.2).setStatus code := rfl
  rw [hstatus, hreset]
  simp [Response.setStatus, Response.headIsMutable]

/-- So the response is `new` behind it, and its head is open. -/
theorem response_prepareError (hx : x.response.isCommitted = false) (code : Nat) :
    (prepareError code x).response.state = .new ∧ (prepareError code x).response.locked = false ∧
      (prepareError code x).response.body = [] := by
  rw [response_prepareError_eq hx]
  exact ⟨rfl, rfl, rfl⟩

/-- However `invoke` ends, it leaves the response by calls. -/
theorem reaches_of_invoke {target : MappingMatch} {kind : DispatcherKind} {p : Outcome × Exchange}
    (h : invoke app depth target kind x = some p) : x.response.Reaches p.2.response := by
  rcases carried_reaches.dispatched app.uses_true h with hsame | ⟨filters, hrun⟩
  · rw [hsame]
    exact .refl _
  · exact hrun

/-- So does `runErrorPage`, and the lock of the head is as before. -/
theorem response_runErrorPage {path : String} {query : Option String} {target : MappingMatch}
    {p : Outcome × Exchange} (h : runErrorPage (invoke app depth) app path query target e x = some p) :
    x.response.Reaches p.2.response ∧ p.2.response.locked = x.response.locked := by
  obtain ⟨q, hq, rfl⟩ := Option.map_eq_some_iff.1 h
  have hreaches := reaches_of_invoke hq
  exact ⟨hreaches, (keeps_invoke app depth _ _ hq).locked⟩

/-- On a response that is neither committed nor locked, `writeDefaultError` gives `IsDefaultError` if and only if the
head is not complete, or is complete with the status and the type of the line and no body. -/
theorem Response.isDefaultError_writeDefaultError_iff {r : Response} {code : Nat} (hc : r.isCommitted = false)
    (hl : r.locked = false) (hbody : r.BodyBehindHead) :
    (r.writeDefaultError code).IsDefaultError code ↔
      r.state = .new ∨
        (r.status = code ∧ r.headers.getAll "Content-Type" = [defaultErrorType] ∧ r.body = []) := by
  cases hs : r.state with
  | new =>
    obtain ⟨hstatus, htype, happend⟩ := writeDefaultError_of_new hs hl code
    rw [hbody hs, List.nil_append] at happend
    exact ⟨fun _ => .inl rfl, fun _ => ⟨hstatus, htype, happend⟩⟩
  | headersWritten =>
    -- Behind `headersWritten` the head can change no more, so it has to be the right one already.
    obtain ⟨hstatus, hheaders, happend⟩ := writeDefaultError_of_headersWritten hs code
    constructor
    · rintro ⟨h₁, h₂, h₃⟩
      have hnone : r.body = [] := by simpa [happend] using h₃
      exact .inr ⟨hstatus.symm.trans h₁, hheaders ▸ h₂, hnone⟩
    · rintro (h | ⟨h₁, h₂, h₃⟩)
      · cases h
      · exact ⟨hstatus.trans h₁, hheaders.symm ▸ h₂, by rw [happend, h₃, List.nil_append]⟩
  | committed => simp [isCommitted, hs] at hc
  | closed => simp [isCommitted, hs] at hc

section Failed

variable {location : String} {target : MappingMatch} (hx : x.response.isCommitted = false)
  (hpage : errorPage? app e (prepareError e.statusCode x) = some location)
  (htarget : app.mapper.map? (Request.splitTarget location).1 = some target)
  (hrun : runErrorPage (invoke app depth) app (Request.splitTarget location).1 (Request.splitTarget location).2
    target e (prepareError e.statusCode x) = some (.error e', z))
  (hz : z.response.isCommitted = false)

include hx hpage htarget hrun hz

/-- When `runErrorPage` fails (`hrun`) and the response is not committed after it (`hz`), `handleError` comes to
`writeDefaultError`. -/
theorem handleError_eq_writeDefaultError :
    handleError (invoke app depth) app e x = some (z.mapResponse (·.writeDefaultError e.statusCode)) := by
  unfold handleError
  rw [if_neg (by simp [hx])]
  simp only [hpage, htarget, hrun, Option.map_some, hz, Bool.false_eq_true, if_false]

/-- **Failed error pages.** Let the page for a failure fail as well (`hrun`), with the response not committed (`hz`).
`handleError` appends the line of `writeDefaultError` to what the page has left. The answer `IsDefaultError` with
nothing pending, if and only if the page has deferred nothing, and has not completed the head or else has completed it,
without a body, with the status and the type of that line. -/
theorem handleError_of_failed_page :
    ∃ y, handleError (invoke app depth) app e x = some y ∧
      (y.response.IsDefaultError e.statusCode ∧ y.pending = none ↔
        (z.response.state = .new ∨
          (z.response.status = e.statusCode ∧
            z.response.headers.getAll "Content-Type" = [Response.defaultErrorType] ∧ z.response.body = [])) ∧
        z.pending = none) := by
  obtain ⟨hnew, hunlocked, hempty⟩ := response_prepareError hx e.statusCode
  obtain ⟨hreaches, hlocked⟩ := response_runErrorPage hrun
  -- `prepareError` has emptied the body, and every call keeps `BodyBehindHead`.
  have hstart : (prepareError e.statusCode x).response.BodyBehindHead := fun _ => hempty
  refine ⟨_, handleError_eq_writeDefaultError hx hpage htarget hrun hz, and_congr ?_ Iff.rfl⟩
  exact Response.isDefaultError_writeDefaultError_iff hz (hlocked.trans hunlocked) (hstart.reaches hreaches)

end Failed

end Page

/-! ### A teapot -/

/-- An application that fails every request, with an error page at `/err`. -/
def teapot (page : Program) : Application where
  contextPath := ""
  displayName := "ROOT"
  servlets := [⟨"tea", .fail (.ofStatus 418), fun _ => none, false⟩, ⟨"page", page, fun _ => none, false⟩]
  filters := []
  mapper := (MappingTable.empty.assign "tea" .default).assign "page" (.exact "/err")
  errorPages := .ofList [⟨.any, "/err"⟩]
  sessionConfig := .standard
  guard := none
  resources := none

/-- The exchange in which a `teapot` has failed. -/
def teaExchange : Exchange := .start (.ofLine "GET /tea HTTP/1.1") none (.detached "HTTP/1.1") 0 []

/-- The error page of a `teapot`. -/
def pageTarget : MappingMatch := ⟨"page", .exact "/err", "/err", none⟩

/-- `/err` is mapped to the servlet `page` in every `teapot`. -/
theorem map?_splitTarget_err (page : Program) :
    (teapot page).mapper.map? (Request.splitTarget "/err").1 = some pageTarget := by
  have hmapped : ((MappingTable.empty.assign "tea" .default).assign "page" (.exact "/err")).map?
      (Request.splitTarget "/err").1 = some pageTarget := by decide +kernel
  exact hmapped

/-- Runs `page` as the error page of a `teapot` for its failure. -/
def runTeaPage (page : Program) : Run :=
  runErrorPage (invoke (teapot page) 1) (teapot page) (Request.splitTarget "/err").1 (Request.splitTarget "/err").2
    pageTarget (.ofStatus 418) (prepareError 418 teaExchange)

/-- A page that sets a status and fails before it writes. -/
def hastyPage : Program := .perform (.setStatus 200) (.fail (.ofStatus 500))

/-- A page that fails after it has written. -/
def halfPage : Program := .write (Text.Utf8.encode "half") fun _ => .fail (.ofStatus 500)

/-- `hastyPage` sets a status and fails, and nothing is left of it. -/
theorem handleError_of_failed_page_hasty : ∃ y,
    handleError (invoke (teapot hastyPage) 1) (teapot hastyPage) (.ofStatus 418) teaExchange = some y ∧
    y.response.IsDefaultError 418 ∧ y.pending = none := by
  have hpage : errorPage? (teapot hastyPage) (.ofStatus 418) (prepareError 418 teaExchange) = some "/err" := by
    decide +kernel
  have hrun : (runTeaPage hastyPage).map
      (fun p => (p.1, p.2.response.state, p.2.response.isCommitted, p.2.pending.isNone))
        = some (.error (.ofStatus 500), .new, false, true) := by decide +kernel
  obtain ⟨⟨result, z⟩, hz, heq⟩ := Option.map_eq_some_iff.1 hrun
  obtain ⟨rfl, heq⟩ := Prod.mk.inj heq
  obtain ⟨hnew, heq⟩ := Prod.mk.inj heq
  obtain ⟨hopen, hdone⟩ := Prod.mk.inj heq
  obtain ⟨y, hy, hiff⟩ := handleError_of_failed_page rfl hpage (map?_splitTarget_err _) hz hopen
  exact ⟨y, hy, hiff.2 ⟨.inl hnew, Option.isNone_iff_eq_none.1 hdone⟩⟩

/-- What `halfPage` has written stays in front of the line, under a head without a type. -/
theorem handleError_behind_half_a_page :
    (runTeaPage halfPage).map (fun p => (p.1, p.2.response.isCommitted)) = some (.error (.ofStatus 500), false) ∧
    (handleError (invoke (teapot halfPage) 1) (teapot halfPage) (.ofStatus 418) teaExchange).map
      (fun y => (y.response.headers.getAll "Content-Type", y.response.body))
        = some ([], Text.Utf8.encode "half418 Error") := by
  decide +kernel

end ServletContainer
