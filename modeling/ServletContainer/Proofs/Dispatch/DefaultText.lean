import ServletContainer.Proofs.Dispatch.ErrorPages
import ServletContainer.Proofs.Response.Answers
import ServletContainer.Proofs.Response.Values
import ServletContainer.Proofs.Text.Numeral

namespace ServletContainer

/-!
# The length that is declared for the line of text

A failure that no page answers is answered by a line of text. The type of what was written before is replaced by that of
the line, but whatever was declared of its length is sent along.

* `AnsweredByText` — the ways to that, each with the exchange that the line is written to.
* `Response.prepareCalls`, `Response.defaultErrorCalls` — starting over and writing the line, call by call.
* `Response.exists_wire_defaultError` — what a peer receives then.
* `LengthFits` — whether the values of the field for the length declare no other length than a given one.
* `lengthFits_of_answeredByText` — no other length is declared than that of what is sent, exactly if the code that ran
  has left none.
-/

/-! ### Ways to the line of text -/

/-- The calls that make a response start over with the status `code`. -/
def Response.prepareCalls (code : Nat) : List Response.Call := [.setLocked false, .resetBuffer, .setStatus code]

/-- `prepareError` acts on the response by the calls of `prepareCalls`. -/
theorem response_prepareError_eq_run (code : Nat) (x : Exchange) :
    (prepareError code x).response = x.response.run (Response.prepareCalls code) := rfl

/-- How the failure `e` in `x` comes to be answered by the line of text, and the exchange that `writeDefaultError` acts
on. Nothing is committed yet, and no location from `errorPage?` is mapped to a servlet, or the page fails as well. -/
inductive AnsweredByText (app : Application) (depth : Nat) (e : ServletError) (x : Exchange) : Exchange → Prop
  | unmapped : x.response.isCommitted = false →
    (∀ location, errorPage? app e (prepareError e.statusCode x) = some location →
      app.mapper.map? (Request.splitTarget location).1 = none) →
    AnsweredByText app depth e x (prepareError e.statusCode x)
  | failed {location : String} {target : MappingMatch} {e' : ServletError} {z : Exchange} :
    x.response.isCommitted = false →
    errorPage? app e (prepareError e.statusCode x) = some location →
    app.mapper.map? (Request.splitTarget location).1 = some target →
    runErrorPage (invoke app depth) app (Request.splitTarget location).1 (Request.splitTarget location).2 target e
      (prepareError e.statusCode x) = some (.error e', z) →
    z.response.isCommitted = false → AnsweredByText app depth e x z

namespace AnsweredByText

variable {app : Application} {depth : Nat} {e : ServletError} {x y z : Exchange}

/-- In either case of `AnsweredByText`, `handleError` comes to `writeDefaultError` on the exchange `z` that it names. -/
theorem handleError_eq (h : AnsweredByText app depth e x z) :
    handleError (invoke app depth) app e x = some (z.mapResponse (·.writeDefaultError e.statusCode)) := by
  cases h with
  | unmapped hx hpage => exact handleError_of_unmapped hx _ hpage
  | failed hx hpage htarget hrun hz => exact handleError_eq_writeDefaultError hx hpage htarget hrun hz

/-- `AnsweredByText` is one of three outcomes of `handleError`. The others are a response that `isCommitted` already,
which is left alone, and a `runErrorPage` that returns `.ok` or has committed the response. -/
theorem or_answered (hy : handleError (invoke app depth) app e x = some y) :
    (x.response.isCommitted = true ∧ y = x) ∨ (∃ z, AnsweredByText app depth e x z) ∨
    ∃ location target result, errorPage? app e (prepareError e.statusCode x) = some location ∧
      app.mapper.map? (Request.splitTarget location).1 = some target ∧
      runErrorPage (invoke app depth) app (Request.splitTarget location).1 (Request.splitTarget location).2 target e
        (prepareError e.statusCode x) = some (result, y) ∧
      (result = .ok () ∨ y.response.isCommitted = true) := by
  -- The branches of `handleError`: committed, no page, a page that is not mapped, and one that runs.
  unfold handleError at hy
  split at hy
  · next hx =>
    obtain rfl := Option.some.inj hy
    exact .inl ⟨hx, rfl⟩
  · next hx =>
    have hx : x.response.isCommitted = false := by simpa using hx
    dsimp only at hy
    split at hy
    · next hnone => exact .inr (.inl ⟨_, .unmapped hx fun location hpage => by rw [hnone] at hpage; cases hpage⟩)
    · next location hpage =>
      split at hy
      · next hnone =>
        refine .inr (.inl ⟨_, .unmapped hx fun location' hpage' => ?_⟩)
        obtain rfl := Option.some.inj (hpage.symm.trans hpage')
        exact hnone
      · next target htarget =>
        obtain ⟨⟨result, z⟩, hrun, rfl⟩ := Option.map_eq_some_iff.1 hy
        -- Where the page fails too, `writeDefaultError` follows unless the page has committed the response.
        cases result with
        | ok => exact .inr (.inr ⟨location, target, .ok (), hpage, htarget, hrun, .inl rfl⟩)
        | error e' =>
          cases hz : z.response.isCommitted with
          | false => exact .inr (.inl ⟨z, .failed hx hpage htarget hrun hz⟩)
          | true =>
            dsimp only
            rw [if_pos hz]
            exact .inr (.inr ⟨location, target, .error e', hpage, htarget, hrun, .inr hz⟩)

/-- A failure is `AnsweredByText` only where the response was not committed. -/
theorem isOpen (h : AnsweredByText app depth e x z) : x.response.isCommitted = false := by
  cases h with
  | unmapped hx _ => exact hx
  | failed hx _ _ _ _ => exact hx

/-- Nor is it committed where the line is written: by `prepareError` if there is no page, by the hypothesis on the
failed page else. -/
theorem isCommitted_eq_false (h : AnsweredByText app depth e x z) : z.response.isCommitted = false := by
  cases h with
  | unmapped hx _ => simp [Response.isCommitted, (response_prepareError hx e.statusCode).1]
  | failed _ _ _ _ hz => exact hz

/-- The response that the line is written to comes of that of `x` by `prepareCalls`, and behind them the calls `page` of
an error page that has failed, of which there are none if none has run. -/
theorem exists_page (h : AnsweredByText app depth e x z) :
    ∃ page, z.response = x.response.run (Response.prepareCalls e.statusCode ++ page) ∧
      (z = prepareError e.statusCode x → page = []) := by
  by_cases hz : z = prepareError e.statusCode x
  · refine ⟨[], ?_, fun _ => rfl⟩
    rw [hz, List.append_nil, response_prepareError_eq_run]
  · cases h with
    | unmapped _ _ => exact absurd rfl hz
    -- By `response_runErrorPage` the page's calls are all that has reached the response.
    | failed _ _ _ hrun _ =>
      obtain ⟨page, hpage⟩ := (response_runErrorPage hrun).1
      refine ⟨page, ?_, fun heq => absurd heq hz⟩
      rw [hpage, Response.run_append, response_prepareError_eq_run]

end AnsweredByText

/-! ### Writing it -/

namespace Response

/-- The calls of `writeDefaultError`, which write the line of text for `code`. -/
def defaultErrorCalls (code : Nat) : List Call :=
  [.setStatus code, .setHeader "Content-Type" defaultErrorType, .write (Text.Utf8.encode (defaultErrorText code))]

variable {r : Response} {code : Nat}

/-- `writeDefaultError` makes the three calls of `defaultErrorCalls`. -/
theorem writeDefaultError_eq_run (r : Response) (code : Nat) :
    r.writeDefaultError code = r.run (defaultErrorCalls code) := rfl

/-- None of `defaultErrorCalls` names `Content-Length`. -/
theorem names_defaultErrorCalls {m : Moment} (hm : m ∈ r.moments (defaultErrorCalls code)) :
    m.names "Content-Length" = false := by
  have hother : sameName "Content-Type" "Content-Length" = false := by decide
  have hcall := call_mem_of_mem_moments hm
  obtain ⟨before, c⟩ := m
  simp only [defaultErrorCalls, List.mem_cons, List.not_mem_nil, or_false] at hcall
  rcases hcall with rfl | rfl | rfl <;> simp [Moment.names, hother]

/-- `setStatus` and `setHeader`, the first two of `defaultErrorCalls`, leave the state of the response as it is. -/
theorem state_typed (r : Response) (code : Nat) :
    ((r.apply (.setStatus code)).apply (.setHeader "Content-Type" defaultErrorType)).state = r.state := by
  rw [state_of_completesHead_eq_false rfl rfl, state_of_completesHead_eq_false rfl rfl]

/-- On a response that is not committed `writeDefaultError` leaves the state `headersWritten`: the head is complete, and
nothing is sent. -/
theorem state_writeDefaultError (hr : r.isCommitted = false) (code : Nat) :
    (r.writeDefaultError code).state = .headersWritten := by
  let typed := (r.apply (.setStatus code)).apply (.setHeader "Content-Type" defaultErrorType)
  have hstate : typed.state = r.state := state_typed r code
  have hopen : typed.state = .new ∨ typed.state = .headersWritten := by
    rw [hstate]
    cases hs : r.state <;> simp [isCommitted, hs] at hr ⊢
  show (typed.write _).2.state = _
  rcases hopen with hnew | hcomplete
  · rw [write, if_neg (by simp [hnew]), writeHeaders_of_new hnew]
  · rw [write, if_neg (by simp [hcomplete]), writeHeaders_of_ne_new (by simp [hcomplete])]
    exact hcomplete

/-- In the `transcript` of the calls, `defaultErrorCalls` append the encoded `defaultErrorText` to the body, if the
response is not committed by then. -/
theorem body_transcript_defaultErrorCalls {calls : List Call} (hr : (r.run calls).isCommitted = false) (code : Nat) :
    (transcript (r.moments (calls ++ defaultErrorCalls code))).body
      = (transcript (r.moments calls)).body ++ Text.Utf8.encode (defaultErrorText code) := by
  let typed := ((r.run calls).apply (.setStatus code)).apply (.setHeader "Content-Type" defaultErrorType)
  have hopen : typed.state ≠ .closed := by
    rw [state_typed]
    intro hclosed
    simp [isCommitted, hclosed] at hr
  -- `setStatus` and `setHeader` leave no trace in the transcript.
  have htyped : transcript (r.moments ((calls ++ [.setStatus code]) ++ [.setHeader "Content-Type" defaultErrorType]))
      = transcript (r.moments calls) := by
    rw [moments_concat, transcript_concat, moments_concat, transcript_concat,
      Transcript.record_of_writesLine_eq_false _ rfl rfl, Transcript.record_of_writesLine_eq_false _ rfl rfl]
  have hsplit : calls ++ defaultErrorCalls code
      = ((calls ++ [.setStatus code]) ++ [.setHeader "Content-Type" defaultErrorType])
        ++ [.write (Text.Utf8.encode (defaultErrorText code))] := by
    simp [defaultErrorCalls]
  rw [hsplit, moments_concat, transcript_concat, htyped, run_concat, run_concat]
  show (transcript (r.moments calls)).body ++ (⟨typed, .write _⟩ : Moment).bytes = _
  rw [bytes_write hopen]

end Response

/-! ### What is sent -/

/-- Whether the values of the fields for the length of a body declare no other length than `n`: there are none, or they
make up a numeral of it. -/
def LengthFits (n : Nat) (values : List String) : Prop :=
  values = [] ∨ Text.IsNumeralOf n (Headers.joinValues values).toList

open Text.Utf8 (encode)

section Sent

variable {protocol : String} {failsShutdown : Bool} {calls : List Response.Call}

/-- What a peer has on its `wire` after the teardown, when `writeDefaultError` is called behind `calls` to a new
response (`hopen` says that they have sent nothing): a status line, `fields`, what `calls` have written, and the line.
`fields` has the values of `Content-Length` that `valuesPut` reads off the calls. -/
theorem Response.exists_wire_defaultError (code : Nat)
    (hopen : ((connected protocol (.fresh .unlimited failsShutdown)).run calls).isCommitted = false) :
    let start := connected protocol (.fresh .unlimited failsShutdown)
    ∃ (line : String) (fields : Headers),
      (Connection.teardown ((start.run calls).writeDefaultError code)).wire
        = encode line ++ encode fields.text ++ encode "\r\n"
          ++ ((transcript (start.moments calls)).body ++ encode (defaultErrorText code)) ∧
      fields.getAll "Content-Length" = valuesPut "Content-Length" (start.moments calls) := by
  intro start
  -- `writeDefaultError` is a run of `defaultErrorCalls`, so `Accounts` holds behind it too.
  have hrun : (start.run calls).writeDefaultError code = start.run (calls ++ defaultErrorCalls code) := by
    rw [writeDefaultError_eq_run, ← run_append]
  have hstate : (start.run (calls ++ defaultErrorCalls code)).state = .headersWritten := by
    rw [← hrun]
    exact state_writeDefaultError hopen code
  have hsink : (start.run (calls ++ defaultErrorCalls code)).HasOpenSink :=
    ((accounts_connected protocol failsShutdown).run _).sink
  obtain ⟨m, -, hbytes⟩ := exists_bytes_of_run protocol failsShutdown (calls ++ defaultErrorCalls code)
    (by rw [hstate]; decide)
  refine ⟨m.before.statusLine, (start.run (calls ++ defaultErrorCalls code)).headers, ?_, ?_⟩
  · rw [hrun, Connection.wire_teardown hsink hstate, hbytes, body_transcript_defaultErrorCalls hopen]
  · rw [getAll_run_connected protocol failsShutdown _ (by decide), moments_append]
    exact valuesPut_append_of_names_eq_false _ fun m hm => names_defaultErrorCalls hm

/-- **Declared lengths.** Let a failure be `AnsweredByText`, in an exchange with a peer that takes everything (`fresh
.unlimited`), after whatever `calls` to its response. The response starts over by `prepareCalls`, and if an error page
has failed as well, its calls `page` follow. The peer receives a head and a body. The body is the line, behind what such
a page has left. The `Content-Length` values of the head are the `valuesPut` of all these calls, and no reset takes any
of them away. So `LengthFits` holds of the head if and only if it does of these values; and the head has no
`Content-Length` at all if none of the calls names it. -/
theorem lengthFits_of_answeredByText {app : Application} {depth : Nat} {e : ServletError} {x z : Exchange}
    (hx : x.response = (Response.connected protocol (.fresh .unlimited failsShutdown)).run calls)
    (h : AnsweredByText app depth e x z) :
    let start := Response.connected protocol (.fresh .unlimited failsShutdown)
    ∃ (y : Exchange) (page : List Response.Call) (line : String) (fields : Headers),
      let made := calls ++ (Response.prepareCalls e.statusCode ++ page)
      let ms := start.moments made
      let body := (Response.transcript ms).body ++ encode (Response.defaultErrorText e.statusCode)
      handleError (invoke app depth) app e x = some y ∧ z.response = start.run made ∧
      (Connection.teardown y.response).wire = encode line ++ encode fields.text ++ encode "\r\n" ++ body ∧
      (z = prepareError e.statusCode x → page = [] ∧ body = encode (Response.defaultErrorText e.statusCode)) ∧
      fields.getAll "Content-Length" = Response.valuesPut "Content-Length" ms ∧
      (LengthFits body.length (fields.getAll "Content-Length") ↔
        LengthFits body.length (Response.valuesPut "Content-Length" ms)) ∧
      ((∀ m ∈ ms, m.names "Content-Length" = false) → fields.getAll "Content-Length" = []) := by
  intro start
  obtain ⟨page, hpage, hnone⟩ := h.exists_page
  have hz : z.response = start.run (calls ++ (Response.prepareCalls e.statusCode ++ page)) := by
    rw [hpage, hx, ← Response.run_append]
  have hopen := h.isCommitted_eq_false
  rw [hz] at hopen
  obtain ⟨line, fields, hwire, hvalues⟩ := Response.exists_wire_defaultError e.statusCode hopen
  rw [← hz] at hwire
  refine ⟨_, page, line, fields, h.handleError_eq, hz, hwire, ?_, hvalues, by rw [hvalues], ?_⟩
  · intro hprepared
    -- `prepareCalls` starts the response over, so it is new.
    have hnew : (start.run (calls ++ (Response.prepareCalls e.statusCode ++ page))).state = .new := by
      rw [← hz, hprepared]
      exact (response_prepareError h.isOpen _).1
    have hacc := (Response.accounts_connected protocol failsShutdown).run
      (calls ++ (Response.prepareCalls e.statusCode ++ page))
    refine ⟨hnone hprepared, ?_⟩
    rw [(hacc.unfinished hnew).2.1, List.nil_append]
  · intro hnames
    rw [hvalues, Response.valuesPut, Response.foldl_put_of_names_eq_false hnames]

end Sent

/-! ### A library -/

namespace Library

/-- The resources of the library: one book of two bytes. -/
def resources : Resources := Table.empty.insert "/books/a.txt" ⟨"text/plain", encode "hi"⟩

/-- The servlet of `resources`. -/
def shelf : Servlet := ⟨"shelf", Resources.component (some resources)⟩

/-- A filter that lets readers have a book and then fails. -/
def usher : Filter := ⟨"usher", [⟨.url .default, []⟩], ⟨.proceed fun _ => .fail (.ofStatus 500), fun _ => none, false⟩⟩

/-- The application of the `shelf` and the `usher`. -/
def app : Application where
  contextPath := ""
  displayName := "ROOT"
  servlets := [shelf]
  filters := [usher]
  mapper := MappingTable.empty.assign "shelf" (.below "/books")
  errorPages := .empty
  sessionConfig := .standard
  guard := none
  resources := some resources

/-- A request for the book, answered by `response`. -/
def reader (response : Response) : Exchange := .start (.ofLine "GET /books/a.txt HTTP/1.1") none response 0 []

/-- A new response to a peer that takes everything. -/
def blank : Response := .connected "HTTP/1.1" (.fresh .unlimited false)

/-- The failure of `usher` has no error page, so for `app` it is `AnsweredByText`, by the case `unmapped`. -/
theorem answeredByText_reader (response : Response) (hopen : response.isCommitted = false) :
    AnsweredByText app 1 (.ofStatus 500) (reader response) (prepareError 500 (reader response)) := by
  refine .unmapped hopen fun location hpage => ?_
  cases hpage

/-- Behind a draft of two bytes the line is sent without `Content-Length`. Where a length was declared for the draft, it
is sent with the line. -/
theorem lengthFits_of_answeredByText_reader :
    (∃ (y : Exchange) (line : String) (fields : Headers),
      handleError (invoke app 1) app (.ofStatus 500) (reader (blank.run [.write (encode "hi")])) = some y ∧
      (Connection.teardown y.response).wire
        = encode line ++ encode fields.text ++ encode "\r\n" ++ encode "500 Internal Server Error" ∧
      fields.getAll "Content-Length" = []) ∧
    ∃ (y : Exchange) (line : String) (fields : Headers),
      handleError (invoke app 1) app (.ofStatus 500)
        (reader (blank.run [.setHeader "Content-Length" "2", .write (encode "hi")])) = some y ∧
      (Connection.teardown y.response).wire
        = encode line ++ encode fields.text ++ encode "\r\n" ++ encode "500 Internal Server Error" ∧
      fields.getAll "Content-Length" = ["2"] := by
  have hsent (calls : List Response.Call) (hopen : (blank.run calls).isCommitted = false) :
      ∃ (y : Exchange) (line : String) (fields : Headers),
        handleError (invoke app 1) app (.ofStatus 500) (reader (blank.run calls)) = some y ∧
        (Connection.teardown y.response).wire
          = encode line ++ encode fields.text ++ encode "\r\n" ++ encode "500 Internal Server Error" ∧
        fields.getAll "Content-Length"
          = Response.valuesPut "Content-Length" (blank.moments (calls ++ Response.prepareCalls 500)) := by
    have hanswered := answeredByText_reader (blank.run calls) hopen
    obtain ⟨y, page, line, fields, hy, -, hwire, hbody, hvalues, -⟩ := lengthFits_of_answeredByText rfl hanswered
    obtain ⟨rfl, hline⟩ := hbody rfl
    rw [hline] at hwire
    exact ⟨y, line, fields, hy, hwire, hvalues⟩
  exact ⟨hsent [.write (encode "hi")] rfl, hsent [.setHeader "Content-Length" "2", .write (encode "hi")] rfl⟩

/-- The servlet `shelf` serves a book with its length, and the filter `usher` fails behind it. The line of 25 bytes
takes the place of the book, under the head that declares two. -/
theorem not_lengthFits_behind_book :
    (dispatchRequest (invoke app 1) app (reader blank)).map (fun y => (Connection.teardown y.response).wire)
      = some (encode ("HTTP/1.1 500 Internal Server Error\r\nContent-Length: 2\r\nConnection: close\r\n"
        ++ "Content-Type: text/plain; charset=utf-8\r\n\r\n500 Internal Server Error")) ∧
    (encode "500 Internal Server Error").length = 25 ∧ ¬ LengthFits 25 ["2"] := by
  refine ⟨by decide +kernel, by decide +kernel, ?_⟩
  rintro (hnone | hnumeral)
  · cases hnone
  · exact absurd hnumeral.value (by decide)

end Library

end ServletContainer
