import ServletContainer.Proofs.Dispatch.Chains
import ServletContainer.Proofs.Dispatch.ErrorOnce

namespace ServletContainer

/-!
# Which page answers a failure, and in what state it starts

The error pages of an application are declared in a list. Of two pages for the same thing the later one counts, and a
page for the type of a failure comes before one for its status, which comes before a default.

* `ErrorPages.last?`, `ErrorPages.find?_ofList` — the tables that are made of the declarations find the last ones.
* `DescribesFailure` — what the attributes of a request tell of a failure.
* `StartsPage` — the exchange in which the chain of an error page starts.
* `leavePage` — what the chain of a page leaves.
* `handleError_of_declared` — this in one, for any failure in any state of the response.
-/

/-! ### Declarations -/

namespace ErrorPages

/-- The location of the last of `pages` that is declared for `s`. -/
def last? (pages : List ErrorPage) (s : ErrorSelector) : Option String :=
  (pages.filter fun p => p.selector = s).getLast?.map ErrorPage.location

/-- The location that answers `e`: that of the last page for `e.kind?`, else for `e.statusCode`, else the last for
`any`. -/
def chosen? (pages : List ErrorPage) (e : ServletError) : Option String :=
  (e.kind?.bind fun tag => last? pages (.kind tag)).or ((last? pages (.status e.statusCode)).or (last? pages .any))

/-- The location that `t` keeps for a selector. -/
def at? (t : ErrorPages) : ErrorSelector → Option String
  | .status code => t.byStatus.get? code
  | .kind tag => t.byKind.get? tag
  | .any => t.default

/-- `insert` keeps the location of the new page for its `selector`, and those of the others for theirs. -/
theorem at?_insert (t : ErrorPages) (p : ErrorPage) (s : ErrorSelector) :
    (t.insert p).at? s = if p.selector = s then some p.location else t.at? s := by
  obtain ⟨selector, location⟩ := p
  cases selector <;> cases s <;> simp [insert, at?, Table.get?_insert, eq_comm]

/-- `last?` of the declarations changes in the same way as a page is declared behind them. -/
theorem last?_append_singleton (pages : List ErrorPage) (p : ErrorPage) (s : ErrorSelector) :
    last? (pages ++ [p]) s = if p.selector = s then some p.location else last? pages s := by
  by_cases hp : p.selector = s <;> simp [last?, hp]

/-- So `at?` of a table `ofList` is `last?`: what is kept is what was declared last. -/
theorem at?_ofList (pages : List ErrorPage) (s : ErrorSelector) : (ofList pages).at? s = last? pages s := by
  induction pages using List.reverseRecOn with
  | nil => cases s <;> rfl
  | append_singleton pages p ih =>
    have hinsert : ofList (pages ++ [p]) = (ofList pages).insert p := by simp [ofList]
    rw [hinsert, at?_insert, last?_append_singleton, ih]

/-- And `find?` tries `.kind`, `.status` and `.any` in the order in which `chosen?` does. -/
theorem find?_ofList (pages : List ErrorPage) (e : ServletError) :
    (ofList pages).find? e.kind? e.statusCode = chosen? pages e := by
  have hkind : (ofList pages).byKind.get? = fun tag => last? pages (.kind tag) :=
    funext fun tag => at?_ofList pages (.kind tag)
  have hstatus : (ofList pages).byStatus.get? e.statusCode = last? pages (.status e.statusCode) :=
    at?_ofList pages (.status e.statusCode)
  have hdefault : (ofList pages).default = last? pages .any := at?_ofList pages .any
  rw [find?, chosen?, hkind, hstatus, hdefault]

example :
    chosen? [⟨.any, "/a"⟩, ⟨.status 404, "/b"⟩, ⟨.any, "/c"⟩, ⟨.status 404, "/d"⟩] (.ofStatus 404) = some "/d" := by
  decide

end ErrorPages

/-! ### The start of a page -/

/-- The attributes that describe a failure. -/
def ErrorAttribute.all : List String := [statusCode, exceptionType, message, requestUri, servletName]

/-- Whether `r` describes the failure `e` in `x` by its attributes: what `e` does not have is not there, and the other
attributes are those of `x`. -/
structure DescribesFailure (e : ServletError) (x : Exchange) (r : Request) : Prop where
  statusCode : r.attribute? ErrorAttribute.statusCode = some (.int e.statusCode)
  exceptionType : r.attribute? ErrorAttribute.exceptionType = e.kind?.map .text
  message : r.attribute? ErrorAttribute.message = e.detail?.map .text
  requestUri : r.attribute? ErrorAttribute.requestUri = some (.text x.request.uri)
  servletName : r.attribute? ErrorAttribute.servletName = x.servletName.map .text
  others : ∀ n ∉ ErrorAttribute.all, r.attribute? n = x.request.attribute? n

/-- `describeError` puts what `DescribesFailure` asks for, as the names of `ErrorAttribute.all` are pairwise distinct.
-/
theorem describesFailure_describeError (e : ServletError) (x : Exchange) :
    DescribesFailure e x (describeError e x.servletName x.request) := by
  constructor <;>
    simp +contextual [describeError, attribute?_setAttribute, attribute?_putAttribute, ErrorAttribute.all,
      ErrorAttribute.statusCode, ErrorAttribute.exceptionType, ErrorAttribute.message, ErrorAttribute.requestUri,
      ErrorAttribute.servletName]

/-- The exchange `z` in which the chain of the page at `location` starts for the failure `e` in `x`: the response has
the status of `e`, and nothing is written; nothing is deferred; the request describes `e` and has the paths of `target`,
with the query of `location` if it has one. -/
structure StartsPage (app : Application) (location : String) (target : MappingMatch) (e : ServletError)
    (x z : Exchange) : Prop where
  status : z.response.status = e.statusCode
  headers : z.response.headers = x.response.headers
  headIsMutable : z.response.headIsMutable = true
  unwritten : z.response.head = [] ∧ z.response.body = [] ∧ z.response.bodyWritten = 0
  pending : z.pending = none
  described : DescribesFailure e x z.request
  uri : z.request.uri = app.contextPath ++ (Request.splitTarget location).1
  query : z.request.query = (Request.splitTarget location).2.or x.request.query
  place : z.request.servletPath = target.servletPath ∧ z.request.pathInfo = target.pathInfo
  dispatcher : z.dispatcher = .error
  servletName : z.servletName = some target.servletName

/-- What the chain of an error page leaves: the paths of `x` are put back, and if the page fails before anything is
sent, `writeDefaultError` writes the line of text. -/
def leavePage (e : ServletError) (x : Exchange) : Outcome × Exchange → Exchange
  | (result, y) =>
    let z := (y.backIn x).mapRequest (·.withPathState x.request.pathState)
    match result with
    | .ok () => z
    | .error _ => if z.response.isCommitted then z else z.mapResponse (·.writeDefaultError e.statusCode)

section Page

variable {app : Application} {depth : Nat} {e : ServletError} {x : Exchange}

/-- The exchange in which the chain of the page at `location` starts. -/
def Exchange.enterPage (x : Exchange) (app : Application) (location : String) (target : MappingMatch)
    (e : ServletError) : Exchange :=
  ((prepareError e.statusCode x).mapRequest fun r =>
    retarget app (Request.splitTarget location).1 (Request.splitTarget location).2 target
      (describeError e x.servletName r)).enter target.servletName .error
        (app.filtersFor target.path target.servletName .error).length

/-- `enterPage` gives what `StartsPage` says, if the response is not committed, so that `prepareError` resets it. -/
theorem startsPage_enterPage (hx : x.response.isCommitted = false) (location : String) (target : MappingMatch) :
    StartsPage app location target e x (x.enterPage app location target e) := by
  have hresponse : (x.enterPage app location target e).response = _ := response_prepareError_eq hx e.statusCode
  obtain ⟨hstatus, hkind, hmessage, huri, hservlet, hothers⟩ := describesFailure_describeError e x
  have hquery := congrArg Request.PathState.query (pathState_describeError e x.servletName x.request)
  constructor
  case status | headers | headIsMutable | unwritten => simp [hresponse, Response.headIsMutable]
  case described => exact ⟨hstatus, hkind, hmessage, huri, hservlet, hothers⟩
  case query => exact congrArg (Option.or (Request.splitTarget location).2) hquery
  case place => exact ⟨rfl, rfl⟩
  all_goals rfl

/-! ### Answers -/

/-- Outside a dispatch of the kind `.error` (`hkind`), `errorPage?` is `chosen?` of the declarations. -/
theorem errorPage?_eq_chosen? {pages : List ErrorPage} (hpages : app.errorPages = .ofList pages)
    (hkind : x.dispatcher ≠ .error) : errorPage? app e x = ErrorPages.chosen? pages e := by
  rw [errorPage?, if_neg hkind, hpages, ErrorPages.find?_ofList]

/-- `handleError` leaves a committed response alone. -/
theorem handleError_of_committed (invoke : Invoker) (hx : x.response.isCommitted = true) :
    handleError invoke app e x = some x := by
  rw [handleError, if_pos hx]

variable (hx : x.response.isCommitted = false)

include hx

/-- `handleError` comes to `writeDefaultError` if there is no page, or `map?` gives no target for its location. -/
theorem handleError_of_unmapped (invoke : Invoker)
    (hpage : ∀ location, errorPage? app e (prepareError e.statusCode x) = some location →
      app.mapper.map? (Request.splitTarget location).1 = none) :
    handleError invoke app e x
      = some ((prepareError e.statusCode x).mapResponse (·.writeDefaultError e.statusCode)) := by
  rw [handleError, if_neg (by simp [hx])]
  dsimp only
  split
  · rfl
  · next location hsome => rw [hpage location hsome]

/-- In this case `IsDefaultError` holds: `prepareError` leaves no body that the line would be written behind. -/
theorem isDefaultError_prepareError : Response.IsDefaultError
    ((prepareError e.statusCode x).mapResponse (·.writeDefaultError e.statusCode)).response e.statusCode := by
  obtain ⟨hnew, hunlocked, hempty⟩ := response_prepareError hx e.statusCode
  obtain ⟨hstatus, htype, hbody⟩ := Response.writeDefaultError_of_new hnew hunlocked e.statusCode
  rw [hempty, List.nil_append] at hbody
  exact ⟨hstatus, htype, hbody⟩

/-- Where there is a page and its servlet, `handleError` is `runChain` of the filters for `.error` from `enterPage`, and
`leavePage` after it. -/
theorem handleError_of_mapped {location : String} {target : MappingMatch} {servlet : Servlet}
    (hpage : errorPage? app e (prepareError e.statusCode x) = some location)
    (htarget : app.mapper.map? (Request.splitTarget location).1 = some target)
    (hservlet : app.servlet? target.servletName = some servlet) :
    handleError (invoke app (depth + 1)) app e x =
      (runChain (dispatchWith (invoke app depth) app) servlet
        (app.filtersFor target.path target.servletName .error) (x.enterPage app location target e)).map
          (leavePage e x) := by
  have hrun : runErrorPage (invoke app (depth + 1)) app (Request.splitTarget location).1
      (Request.splitTarget location).2 target e (prepareError e.statusCode x)
        = (runChain (dispatchWith (invoke app depth) app) servlet
            (app.filtersFor target.path target.servletName .error) (x.enterPage app location target e)).map
              fun q => (q.1, (q.2.backIn x).mapRequest (·.withPathState x.request.pathState)) := by
    rw [runErrorPage, invoke, invokeWith_eq _ hservlet, Option.map_map]
    rfl
  -- `leavePage` has a case for each result of the chain, as `handleError` has.
  rw [handleError, if_neg (by simp [hx])]
  simp only [hpage, htarget, hrun, Option.map_map]
  refine congrArg (fun leave => Option.map leave _) (funext fun q => ?_)
  obtain ⟨result, y⟩ := q
  cases result <;> rfl

end Page

/-- `errorDispatches` reads the journal only. -/
theorem errorDispatches_mapResponse (x : Exchange) (f : Response → Response) :
    (x.mapResponse f).errorDispatches = x.errorDispatches := rfl

/-- By `handleError` the paths are put back, whatever it comes to, and `errorDispatches` grows by one at most. -/
theorem keeps_of_handleError {app : Application} {depth : Nat} {e : ServletError} {x y : Exchange}
    (h : handleError (invoke app depth) app e x = some y) :
    y.request.pathState = x.request.pathState ∧ y.errorDispatches ≤ x.errorDispatches + 1 := by
  have hplain : ∀ f, ((prepareError e.statusCode x).mapResponse f).request.pathState = x.request.pathState ∧
      ((prepareError e.statusCode x).mapResponse f).errorDispatches ≤ x.errorDispatches + 1 :=
    fun f => ⟨rfl, (errorDispatches_mapResponse _ f).trans_le (Nat.le_succ x.errorDispatches)⟩
  unfold handleError at h
  split at h
  · obtain rfl := Option.some.inj h
    exact ⟨rfl, Nat.le_succ _⟩
  · dsimp only at h
    split at h
    · obtain rfl := Option.some.inj h
      exact hplain _
    · next location _ =>
      split at h
      · obtain rfl := Option.some.inj h
        exact hplain _
      · next target _ =>
        obtain ⟨p, hp, rfl⟩ := Option.map_eq_some_iff.1 h
        obtain ⟨q, hq, rfl⟩ := Option.map_eq_some_iff.1 hp
        -- Nothing in the page's own dispatch is of the kind `error`, and putting the paths back is none.
        have hall : app.Uses (Op.DefersOnly fun _ => True) := app.uses_true.mono fun _ _ _ _ => trivial
        have hcount : (q.2.mapRequest (·.withPathState x.request.pathState)).errorDispatches ≤ x.errorDispatches + 1 :=
          (defers_of_invoke_error hall rfl hq).2
        obtain ⟨result, z⟩ := q
        cases result with
        | ok => exact ⟨rfl, hcount⟩
        | error failure =>
          dsimp only
          split
          · exact ⟨rfl, hcount⟩
          · exact ⟨rfl, (errorDispatches_mapResponse _ _).trans_le hcount⟩

/-- **Error pages.** Outside error pages (`hkind`) a failure `e` is answered by the page that `chosen?` gives of the
declared `pages`, one at most. Its chain is that of the filters with a mapping that `CountsFor` the kind `.error`, and
it starts as `StartsPage` says: with the status of the failure and nothing written, with nothing deferred, and with
attributes that describe the failure; the query of the page, if it has one, takes the place of that of the request.
Without a page that leads to a servlet, the answer `IsDefaultError`. Afterwards `pathState` is that of before. Once the
response is committed, nothing changes. -/
theorem handleError_of_declared {app : Application} {pages : List ErrorPage} (hpages : app.errorPages = .ofList pages)
    (depth : Nat) (e : ServletError) {x : Exchange} (hkind : x.dispatcher ≠ .error) :
    let answer := handleError (invoke app (depth + 1)) app e x
    (x.response.isCommitted = true → answer = some x) ∧
    (∀ y, answer = some y →
      y.request.pathState = x.request.pathState ∧ y.errorDispatches ≤ x.errorDispatches + 1) ∧
    (x.response.isCommitted = false →
      ((∀ location, ErrorPages.chosen? pages e = some location →
          app.mapper.map? (Request.splitTarget location).1 = none) →
        ∃ y, answer = some y ∧ y.response.IsDefaultError e.statusCode ∧ y.pending = none ∧ y.request = x.request ∧
          y.journal = x.journal) ∧
      ∀ location target servlet, ErrorPages.chosen? pages e = some location →
        app.mapper.map? (Request.splitTarget location).1 = some target →
        app.servlet? target.servletName = some servlet →
        ∃ filters start, filters.Sublist app.filters ∧
          (∀ f, f ∈ filters ↔ f ∈ app.filters ∧ ∃ m ∈ f.mappings,
            m.CountsFor .error (MappingTable.rooted (Request.splitTarget location).1) target.servletName) ∧
          StartsPage app location target e x start ∧
          start.journal = x.journal ++ [.dispatched target.servletName .error filters.length] ∧
          answer = (runChain (dispatchWith (invoke app depth) app) servlet filters start).map (leavePage e x)) := by
  have hchosen : errorPage? app e (prepareError e.statusCode x) = ErrorPages.chosen? pages e :=
    errorPage?_eq_chosen? hpages hkind
  refine ⟨handleError_of_committed _, fun y => keeps_of_handleError, fun hx => ⟨fun hunmapped => ?_, ?_⟩⟩
  · -- Without a page `writeDefaultError` is all, which concerns the response alone.
    have hrest : ∀ f, ((prepareError e.statusCode x).mapResponse f).pending = none ∧
        ((prepareError e.statusCode x).mapResponse f).request = x.request ∧
        ((prepareError e.statusCode x).mapResponse f).journal = x.journal := fun f => ⟨rfl, rfl, rfl⟩
    exact ⟨_, handleError_of_unmapped hx _ (hchosen ▸ hunmapped), isDefaultError_prepareError hx, hrest _⟩
  · -- With one, the chain runs from what `enterPage` makes of the exchange.
    intro location target servlet hpage htarget hservlet
    exact ⟨app.filtersFor target.path target.servletName .error, x.enterPage app location target e,
      List.filter_sublist, fun f => mem_filtersFor_iff_of_map? htarget, startsPage_enterPage hx location target, rfl,
      handleError_of_mapped hx (hchosen.trans hpage) htarget hservlet⟩

/-- A page that writes a line. -/
def stoutPage : Program := .write (Text.Utf8.encode "short and stout") fun _ => .finish

/-- The page of a `teapot` answers with the status of the failure, and starts as `StartsPage` says. -/
theorem handleError_of_declared_teapot : ∃ start y,
    StartsPage (teapot stoutPage) "/err" pageTarget (.ofStatus 418) teaExchange start ∧
    handleError (invoke (teapot stoutPage) 1) (teapot stoutPage) (.ofStatus 418) teaExchange = some y ∧
    y.response.status = 418 ∧ y.response.body = Text.Utf8.encode "short and stout" ∧
    y.request.pathState = teaExchange.request.pathState := by
  have hpages : (teapot stoutPage).errorPages = .ofList [⟨.any, "/err"⟩] := rfl
  have hkind : teaExchange.dispatcher ≠ .error := by decide
  obtain ⟨-, hkeeps, hopen⟩ := handleError_of_declared hpages 0 (.ofStatus 418) hkind
  obtain ⟨-, hpage⟩ := hopen rfl
  obtain ⟨_, start, -, -, hstart, -⟩ :=
    hpage "/err" pageTarget ⟨"page", stoutPage, fun _ => none, false⟩ (by decide) (map?_splitTarget_err _) rfl
  have hanswer : (handleError (invoke (teapot stoutPage) 1) (teapot stoutPage) (.ofStatus 418) teaExchange).map
      (fun y => (y.response.status, y.response.body)) = some (418, Text.Utf8.encode "short and stout") := by
    decide +kernel
  obtain ⟨y, hy, heq⟩ := Option.map_eq_some_iff.1 hanswer
  obtain ⟨hstatus, hbody⟩ := Prod.mk.inj heq
  exact ⟨start, y, hstart, hy, hstatus, hbody, (hkeeps y hy).1⟩

end ServletContainer
