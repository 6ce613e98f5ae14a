import ServletContainer.Proofs.Dispatch.Carried
import ServletContainer.Proofs.Exchange.SessionCookie
import ServletContainer.Proofs.Exchange.SessionUrl
import ServletContainer.Proofs.Host

namespace ServletContainer

/-!
# Requests whose body is not read

Behind the head of a request there is input that has not been read. Nothing looks at it but a call that reads the
body: an exchange with other input goes the same way, and its input is left as it is.

* `LeavesInput`, `KeepsInput` — what is done to exchanges does not depend on their input, with and without a result.
* `leavesInput_perform` — each call but one.
* `leavesInput_run`, `leavesInput_invoke` — programs, by induction on the code, and whole dispatches, by induction on the
  depth of nesting.
* `Host.LeavesInput`, `Host.LeavesInput.serveExchange` — from there to serving a request.
-/

/-! ### Input -/

/-- The exchange `x` with other `input` behind the head of its request. -/
def Exchange.withInput (x : Exchange) (input : Option Source) : Exchange := { x with input }

@[simp] theorem Exchange.response_withInput (x : Exchange) (input : Option Source) :
    (x.withInput input).response = x.response := rfl

@[simp] theorem Exchange.request_withInput (x : Exchange) (input : Option Source) :
    (x.withInput input).request = x.request := rfl

@[simp] theorem Exchange.pending_withInput (x : Exchange) (input : Option Source) :
    (x.withInput input).pending = x.pending := rfl

/-- Whether something goes the same way whatever the input of the exchange is. What comes of it has that input put in,
where `put` says. -/
def IgnoresInput {β : Type} (put : Option Source → β → β) (f : Exchange → Option β) : Prop :=
  ∀ x input, f (x.withInput input) = (f x).map (put input)

/-- Whether a run does the same whatever the input is, and leaves the input as it is. -/
abbrev LeavesInput {α : Type} : (Exchange → Option (α × Exchange)) → Prop :=
  IgnoresInput fun input p => (p.1, p.2.withInput input)

/-- As `LeavesInput`, of what has no result but the exchange. -/
abbrev KeepsInput : (Exchange → Option Exchange) → Prop := IgnoresInput fun input y => y.withInput input

section Combine

variable {α β : Type} {put : Option Source → β → β} {run : Exchange → Option (α × Exchange)} (h : LeavesInput run)

include h

/-- What `IgnoresInput` may follow a run that `LeavesInput`. -/
theorem LeavesInput.bind {k : α → Exchange → Option β} (hk : ∀ a, IgnoresInput put (k a)) :
    IgnoresInput put fun x => (run x).bind fun p => k p.1 p.2 := by
  intro x input
  dsimp only
  rw [h, Option.map_bind, Option.bind_map]
  exact Option.bind_congr fun p _ => hk p.1 p.2 input

/-- So may a map that puts the input through (`hf`). -/
theorem LeavesInput.map {f : α → Exchange → β} (hf : ∀ a x input, f a (x.withInput input) = put input (f a x)) :
    IgnoresInput put fun x => (run x).map fun p => f p.1 p.2 := by
  intro x input
  dsimp only
  rw [h, Option.map_map, Option.map_map]
  exact Option.map_congr fun p _ => hf p.1 p.2 input

end Combine

/-- `KeepsInput` composes. -/
theorem KeepsInput.bind {f g : Exchange → Option Exchange} (hf : KeepsInput f) (hg : KeepsInput g) :
    KeepsInput fun x => (f x).bind g := by
  intro x input
  dsimp only
  rw [hf, Option.map_bind, Option.bind_map]
  exact Option.bind_congr fun y _ => hg y input

/-! ### Calls -/

namespace Exchange

variable (x : Exchange) (input : Option Source)

/-- To look a session up reads `sessions` and `now` only. -/
theorem seek_withInput (id? : Option SessionId) :
    (x.withInput input).seek id? = ((x.seek id?).1, (x.seek id?).2.withInput input) := by
  cases id? <;> rfl

/-- `currentSession` looks the bound id up, or the requested one. -/
theorem currentSession_withInput :
    (x.withInput input).currentSession = (x.currentSession.1, x.currentSession.2.withInput input) := by
  have hseek : (x.withInput input).seek (x.withInput input).sessionId
      = ((x.seek x.sessionId).1, (x.seek x.sessionId).2.withInput input) := x.seek_withInput input _
  rw [currentSession_eq, currentSession_eq, hseek]
  dsimp only
  split
  · exact seek_withInput _ input _
  · rfl

/-- The cookie is a header field of the response. -/
theorem addSessionCookie_withInput (id : SessionId) :
    (x.withInput input).addSessionCookie id = (x.addSessionCookie id).withInput input := by
  unfold addSessionCookie
  dsimp only [withInput]
  split <;> rfl

/-- So `session?` does the same whatever the input is, whether or not it creates a session. -/
theorem session?_withInput (create : Bool) :
    (x.withInput input).session? create = (x.session? create).map fun p => (p.1, p.2.withInput input) := by
  unfold session?
  rw [currentSession_withInput]
  -- The input is passed along in every branch; only a new session changes anything else.
  cases hx : x.currentSession with
  | mk found y =>
    cases found with
    | some id => rfl
    | none =>
      cases create with
      | false => rfl
      | true =>
        dsimp only
        rw [if_pos rfl, if_pos rfl, Option.map_map]
        exact Option.map_congr fun p _ => congrArg (Prod.mk _) (addSessionCookie_withInput
          { y with sessions := p.2.2, supply := p.2.1, sessionId := some p.1 } input p.1)

/-- And so does `changeSessionId?`. -/
theorem changeSessionId?_withInput :
    (x.withInput input).changeSessionId? = x.changeSessionId?.map fun p => (p.1, p.2.withInput input) := by
  unfold changeSessionId?
  rw [currentSession_withInput]
  -- As there is a session or not, and as it moves or not.
  cases hx : x.currentSession with
  | mk found y =>
    cases found with
    | none => rfl
    | some id =>
      dsimp only
      rw [Option.map_map]
      refine Option.map_congr fun ⟨changed, supply, sessions⟩ _ => ?_
      cases changed with
      | none => rfl
      | some new => exact congrArg (Prod.mk _) (addSessionCookie_withInput
          { y with sessions, supply, sessionId := some new } input new)

/-- And `encodeUrl`, which looks the session up. -/
theorem encodeUrl_withInput (url : String) :
    (x.withInput input).encodeUrl url = ((x.encodeUrl url).1, (x.encodeUrl url).2.withInput input) := by
  by_cases hrewrites : x.Rewrites url
  · have hsame : (x.withInput input).Rewrites url := ⟨hrewrites.tracks, hrewrites.relative, hrewrites.noCookie⟩
    rw [encodeUrl_of_rewrites hrewrites, encodeUrl_of_rewrites hsame, currentSession_withInput]
    rfl
  · have hsame : ¬ (x.withInput input).Rewrites url := fun h => hrewrites ⟨h.tracks, h.relative, h.noCookie⟩
    rw [encodeUrl_of_not_rewrites hrewrites, encodeUrl_of_not_rewrites hsame]

end Exchange

/-- Whether `op` is no `readBody`. -/
def Op.LeavesInput (op : Op) : Prop := ∀ limit, op ≠ .readBody limit

/-- So every call but `readBody` `LeavesInput`. -/
theorem leavesInput_perform {op : Op} (hop : op.LeavesInput) : LeavesInput op.perform := by
  intro x input
  cases op with
  | readBody limit => exact absurd rfl (hop limit)
  -- It depends on the response whether these two do anything, and not on the input.
  | sendRedirect location =>
    by_cases hcommitted : x.response.isCommitted = true
    · simp [Op.perform, Exchange.sendRedirect, hcommitted]
    · by_cases hlocked : x.response.locked = true
      · simp [Op.perform, Exchange.sendRedirect, hcommitted, hlocked]
      · simp only [Op.perform, Exchange.sendRedirect, Exchange.response_withInput, hcommitted, hlocked]
        rfl
  | startAsync c =>
    by_cases hpending : x.pending.isSome = true
    · simp [Op.perform, Exchange.startAsync, hpending]
    · simp only [Op.perform, Exchange.startAsync, Exchange.pending_withInput, hpending]
      rfl
  | session create => exact x.session?_withInput input create
  | changeSessionId => exact x.changeSessionId?_withInput input
  | requestedSessionIsValid =>
    simp only [Op.perform, Exchange.requestedSessionIsValid, Exchange.request_withInput]
    cases x.request.requestedSession <;> rfl
  | encodeUrl url => exact congrArg some (x.encodeUrl_withInput input url)
  | _ => rfl

/-! ### Code -/

section Code

variable {dispatch : Dispatcher} (hd : ∀ j path, LeavesInput (dispatch j path))

include hd

/-- Code that makes no `readBody` `LeavesInput`, by induction on it, if its dispatches do and so does the rest of its
chain (`hr`). -/
theorem leavesInput_run {code : Program} (hcode : code.Uses Op.LeavesInput) {rest : Option Rest}
    (hr : ∀ r ∈ rest, LeavesInput r.go) : LeavesInput (code.run dispatch rest) := by
  -- By induction on the code. The rest of the chain varies, since using it takes it away.
  induction code generalizing rest with
  | done result => exact fun _ _ => rfl
  | call op k ih => exact (leavesInput_perform hcode.1).bind fun reply => ih reply (hcode.2 reply) hr
  | jump j path k ih => exact (hd j path).bind fun result => ih result (hcode result) hr
  | remaining k ih => exact ih _ (hcode _) hr
  | proceed k ih =>
    cases rest with
    | none => exact ih none (hcode none) hr
    | some r => exact (hr r rfl).bind fun result => ih (some result) (hcode _) (by simp)

/-- So does the component with its two records. -/
theorem leavesInput_runComponent {code : Program} (hcode : code.Uses Op.LeavesInput) (ref : ComponentRef)
    {rest : Option Rest} (hr : ∀ r ∈ rest, LeavesInput r.go) : LeavesInput (runComponent dispatch ref code rest) := by
  intro x input
  have hrun : LeavesInput _ := (leavesInput_run hd hcode hr).map
    (f := fun result y => (result, y.log (.left ref result))) fun _ _ _ => rfl
  exact hrun (x.log (.entered ref x.snapshot)) input

/-- And so does a chain, by induction on its filters. -/
theorem leavesInput_runChain {servlet : Servlet} (hs : servlet.component.service.Uses Op.LeavesInput)
    {filters : List Filter} (hf : ∀ f ∈ filters, f.component.service.Uses Op.LeavesInput) :
    LeavesInput (runChain dispatch servlet filters) := by
  induction filters with
  | nil => exact leavesInput_runComponent hd hs _ (by simp)
  | cons f fs ih =>
    refine leavesInput_runComponent hd (hf f List.mem_cons_self) _ ?_
    rintro r hr
    obtain rfl := Option.some.inj hr
    exact ih fun f' hf' => hf f' (List.mem_cons_of_mem _ hf')

/-- `invokeWith` runs such a chain, or fails with 404. -/
theorem leavesInput_invokeWith {app : Application} (ha : app.Uses Op.LeavesInput) (target : MappingMatch)
    (kind : DispatcherKind) : LeavesInput (invokeWith dispatch app target kind) := by
  intro x input
  unfold invokeWith
  cases hs : app.servlet? target.servletName with
  | none => rfl
  | some servlet =>
    have hservlet := ha.servlets servlet (List.mem_of_find?_eq_some hs)
    have hfilters : ∀ f ∈ app.filtersFor target.path target.servletName kind,
        f.component.service.Uses Op.LeavesInput := fun f hf => ha.filters f (List.mem_filter.1 hf).1
    -- The chain leaves the input, and what is put back around it does too.
    have hchain := leavesInput_runChain hd hservlet hfilters
    have hrun : LeavesInput _ := hchain.map
      (f := fun result y => (result, { y with dispatcher := x.dispatcher, servletName := x.servletName }))
      fun _ _ _ => rfl
    exact hrun { x.log (.dispatched target.servletName kind _) with
      dispatcher := kind, servletName := some target.servletName } input

end Code

/-! ### Dispatches -/

section Invoker

variable {invoke : Invoker} (hi : ∀ target kind, LeavesInput (invoke target kind)) (app : Application)

include hi

/-- `forwardWith` `LeavesInput` if the target's `invoke` does (the variable `hi`), as none of its checks looks at the
input. -/
theorem leavesInput_forwardWith (path : String) : LeavesInput (forwardWith invoke app path) := by
  intro x input
  unfold forwardWith
  rw [Exchange.response_withInput]
  by_cases hlocked : x.response.locked = true
  · rw [if_pos hlocked, if_pos hlocked]
    rfl
  · rw [if_neg hlocked, if_neg hlocked]
    rcases x.response.resetBuffer with ⟨_ | _, response⟩
    · rfl
    · dsimp only
      cases app.resolve (Request.splitTarget path).1 with
      | error e => rfl
      | ok target =>
        let query := (Request.splitTarget path).2
        let into (y : Exchange) := y.mapRequest (retarget app (Request.splitTarget path).1 query target)
        have hback : LeavesInput _ := (hi target .forward).map
          (f := fun result y => (result, y.mapRequest (·.withPathState x.request.pathState))) fun _ _ _ => rfl
        -- Whether or not it is the first of nested forwards, what it does to the request afterwards leaves the input
        -- alone.
        by_cases hfirst : (x.request.attribute? ForwardAttribute.requestUri).isNone = true
        · have hundone : LeavesInput _ := (hi target .forward).map
            (f := fun result y => (result, (y.mapRequest (·.withPathState x.request.pathState)).mapRequest
              (removeAttributes ForwardAttribute.all))) fun _ _ _ => rfl
          simp only [Exchange.request_withInput, hfirst, if_true]
          exact hundone (into (Exchange.mapRequest { x with response } (describeForward app))) input
        · simp only [Exchange.request_withInput, hfirst, Bool.false_eq_true, if_false]
          exact hback (into { x with response }) input

/-- So does `includeWith`. -/
theorem leavesInput_includeWith (path : String) : LeavesInput (includeWith invoke app path) := by
  intro x input
  unfold includeWith
  dsimp only
  cases app.resolve (Request.splitTarget path).1 with
  | error e => rfl
  | ok target =>
    have hrun : LeavesInput _ := (hi target .inclusion).map
      (f := fun result y => (result, x.outOfInclude y)) fun _ _ _ => rfl
    exact hrun (x.intoInclude app _ _ target) input

/-- So does `runErrorPage`. -/
theorem leavesInput_runErrorPage (path : String) (query : Option String) (target : MappingMatch) (e : ServletError) :
    LeavesInput (runErrorPage invoke app path query target e) := by
  intro x input
  have hrun : LeavesInput _ := (hi target .error).map
    (f := fun result y => (result, y.mapRequest (·.withPathState x.request.pathState))) fun _ _ _ => rfl
  exact hrun (x.mapRequest fun r => retarget app path query target (describeError e x.servletName r)) input

/-- And `handleError`, which asks for the committed response, the page and its target. -/
theorem keepsInput_handleError (e : ServletError) : KeepsInput (handleError invoke app e) := by
  intro x input
  unfold handleError
  rw [Exchange.response_withInput]
  by_cases hcommitted : x.response.isCommitted = true
  · rw [if_pos hcommitted, if_pos hcommitted]
    rfl
  · rw [if_neg hcommitted, if_neg hcommitted]
    -- The page is chosen by the failure and the request alone.
    have hpage : errorPage? app e (prepareError e.statusCode (x.withInput input))
        = errorPage? app e (prepareError e.statusCode x) := rfl
    dsimp only
    rw [hpage]
    cases errorPage? app e (prepareError e.statusCode x) with
    | none => rfl
    | some location =>
      dsimp only
      cases app.mapper.map? (Request.splitTarget location).1 with
      | none => rfl
      | some target =>
        have hrun := leavesInput_runErrorPage hi app (Request.splitTarget location).1
          (Request.splitTarget location).2 target e (prepareError e.statusCode x) input
        change Option.map _ (runErrorPage invoke app _ _ target e ((prepareError e.statusCode x).withInput input)) = _
        rw [hrun, Option.map_map, Option.map_map]
        refine Option.map_congr fun ⟨result, y⟩ _ => ?_
        -- Where the page fails, the text is written for either input.
        cases result with
        | ok _ => rfl
        | error _ =>
          exact (apply_ite (Exchange.withInput · input) (y.response.isCommitted = true) y
            (y.mapResponse (·.writeDefaultError e.statusCode))).symm

/-- So a `run` whose failure is answered by `handleError` `KeepsInput`. -/
theorem keepsInput_bind_handleError {run : Exchange → Run} (hrun : LeavesInput run) :
    KeepsInput fun x => (run x).bind fun
      | (.ok (), y) => some y
      | (.error e, y) => handleError invoke app e y :=
  hrun.bind (k := fun result y => match (result, y) with
    | (.ok (), y) => some y
    | (.error e, y) => handleError invoke app e y) fun result => by
    cases result with
    | ok _ => exact fun _ _ => rfl
    | error e => exact keepsInput_handleError hi app e

end Invoker

/-- By induction on `depth`, `invoke` `LeavesInput` for an application whose code makes no `readBody`. -/
theorem leavesInput_invoke {app : Application} (ha : app.Uses Op.LeavesInput) (depth : Nat) (target : MappingMatch)
    (kind : DispatcherKind) : LeavesInput (invoke app depth target kind) := by
  induction depth generalizing target kind with
  | zero => exact fun _ _ => rfl
  | succ depth ih =>
    refine leavesInput_invokeWith (fun j path => ?_) ha target kind
    cases j with
    | forward => exact leavesInput_forwardWith ih app path
    | inclusion => exact leavesInput_includeWith ih app path

/-! ### Requests -/

/-- Whether `check` and `after` of `g` do the same whatever the input is. -/
structure Guard.LeavesInput (g : Guard) : Prop where
  check : ServletContainer.LeavesInput g.check
  after : ∀ x input, g.after (x.withInput input) = (g.after x).withInput input

/-- `PathGate` reads the path only. -/
theorem PathGate.leavesInput_guard (g : PathGate) : g.guard.LeavesInput := ⟨fun _ _ => rfl, fun _ _ => rfl⟩

/-- `bindSession?` makes session calls only. -/
theorem BasicAuth.bindSession?_withInput (x : Exchange) (input : Option Source) (p : Principal) :
    bindSession? (x.withInput input) p = (bindSession? x p).map (·.withInput input) := by
  unfold bindSession?
  rw [Exchange.currentSession_withInput]
  rcases x.currentSession with ⟨_ | id, y⟩
  · rfl
  · let bound := y.onSessions fun now s => s.getAttribute now id principalAttribute
    have hbound : (y.withInput input).onSessions (fun now s => s.getAttribute now id principalAttribute)
        = (bound.1, bound.2.withInput input) := rfl
    dsimp only
    rw [hbound]
    -- A session that names the caller already is kept as it is; any other is moved to a fresh id.
    by_cases hnames : names p.name bound.1 = true
    · rw [if_pos hnames, if_pos hnames]
      rfl
    · rw [if_neg hnames, if_neg hnames, Exchange.changeSessionId?_withInput, Option.map_map, Option.map_map]
      refine Option.map_congr fun ⟨changed, z⟩ _ => ?_
      cases changed with
      | error _ => rfl
      | ok _ =>
        dsimp only [Function.comp_apply]
        rw [Exchange.currentSession_withInput]
        rcases z.currentSession with ⟨_ | _, _⟩ <;> rfl

/-- `BasicAuth` reads the path and the header fields, and makes these session calls. -/
theorem BasicAuth.leavesInput_guard (g : BasicAuth) : g.guard.LeavesInput where
  check x input := by
    change g.check? (x.withInput input) = (g.check? x).map _
    unfold check?
    rw [Exchange.request_withInput]
    -- The guard asks the path, the fields and the table; the sessions only when the caller comes through.
    cases g.constraint? x.request.relativePath with
    | none => rfl
    | some c =>
      dsimp only
      cases credentials? x.request.head.headers with
      | none => rfl
      | some pair =>
        dsimp only
        cases g.identities.validate? pair.1 pair.2 with
        | none => rfl
        | some p =>
          by_cases hpermits : c.permits p = true
          · simp only [hpermits, if_true, bindSession?_withInput, Option.map_map]
            rfl
          · simp only [hpermits, Bool.false_eq_true, if_false]
            rfl
  after _ _ := rfl

/-- Whether the code and the guard of `app` leave the body of requests unread. -/
structure Application.LeavesInput (app : Application) : Prop where
  uses : app.Uses Op.LeavesInput
  guard : ∀ g, app.guard = some g → g.LeavesInput

section Request

variable {app : Application} {depth : Nat} (hi : ∀ target kind, LeavesInput (invoke app depth target kind))

include hi

/-- `dispatchRequest` `KeepsInput`. -/
theorem keepsInput_dispatchRequest : KeepsInput (dispatchRequest (invoke app depth) app) := by
  intro x input
  unfold dispatchRequest
  dsimp only [Exchange.request_withInput]
  cases app.mapper.map? x.request.relativePath with
  | none => exact keepsInput_handleError hi app _ x input
  | some target =>
    exact keepsInput_bind_handleError hi app (hi target .request)
      (x.mapRequest fun r => { r with servletPath := target.servletPath, pathInfo := target.pathInfo }) input

/-- So does `routeWithin`, if the guard `LeavesInput` (`hguard`). -/
theorem keepsInput_routeWithin (hguard : ∀ g, app.guard = some g → g.LeavesInput) :
    KeepsInput (routeWithin (invoke app depth) app) := by
  intro x input
  have hdispatch := keepsInput_dispatchRequest hi
  unfold routeWithin
  cases hg : app.guard with
  | none => exact hdispatch x input
  | some g =>
    dsimp only
    rw [(hguard g hg).check, Option.map_bind, Option.bind_map]
    refine Option.bind_congr fun ⟨decision, y⟩ _ => ?_
    -- What is denied is answered without a dispatch.
    cases decision with
    | deny status challenge => rfl
    | allow =>
      dsimp only [Function.comp_apply]
      rw [hdispatch, Option.map_map, Option.map_map]
      exact Option.map_congr fun z _ => (hguard g hg).after z input

/-- `dispatchAsync` reads the path that the request is deferred to. -/
theorem leavesInput_dispatchAsync (location : String) :
    LeavesInput (dispatchAsync (invoke app depth) app location) := by
  intro x input
  unfold dispatchAsync
  rw [Exchange.response_withInput]
  rcases x.response.resetBuffer with ⟨_ | _, response⟩
  · rfl
  · dsimp only
    cases app.resolve (Request.splitTarget location).1 with
    | error e => rfl
    | ok target => exact hi target .async (Exchange.mapRequest { x with response } (retarget app _ _ target)) input

/-- So `continueWith` `KeepsInput`, for every continuation. -/
theorem keepsInput_continueWith (timeout : Nat) (c : Continuation) :
    KeepsInput (continueWith (invoke app depth) app timeout c) := by
  intro x input
  cases c with
  | complete attributes => rfl
  | dispatch attributes path =>
    exact keepsInput_bind_handleError hi app (leavesInput_dispatchAsync hi path)
      (x.mapRequest (setAttributes attributes)) input
  | abandon => exact keepsInput_handleError hi app _ x input
  | unanswered => exact keepsInput_handleError hi app _ { x with now := x.now + timeout } input

/-- And `settle`, by induction on `rounds`. -/
theorem keepsInput_settle (timeout rounds : Nat) : KeepsInput (settle (invoke app depth) app timeout rounds) := by
  -- By induction on the continuations that may follow one another.
  induction rounds with
  | zero =>
    intro x input
    unfold settle
    rw [Exchange.pending_withInput]
    cases x.pending <;> rfl
  | succ rounds ih =>
    intro x input
    unfold settle
    rw [Exchange.pending_withInput]
    cases x.pending with
    | none => rfl
    | some c => exact (keepsInput_continueWith hi timeout c).bind ih { x with pending := none } input

end Request

/-- So `serveWithin` of an application that `LeavesInput` is the same whatever the input is. -/
theorem keepsInput_serveWithin (limits : Limits) (timeout : Nat) {app : Application} (ha : app.LeavesInput) :
    KeepsInput (serveWithin limits timeout app) :=
  (keepsInput_routeWithin (leavesInput_invoke ha.uses limits.depth) ha.guard).bind
    (keepsInput_settle (leavesInput_invoke ha.uses limits.depth) timeout limits.rounds)

namespace Host

variable {h : Host}

/-- Whether the code of all applications of `h` leaves the body of requests unread. -/
def LeavesInput (h : Host) : Prop := ∀ id d, h.deployment? id = some d → d.app.LeavesInput

/-- And so is `serveExchange` of a host, wherever the request leads: the application that is asked is found by the
request line. -/
theorem LeavesInput.serveExchange (hl : h.LeavesInput) (limits : Limits) (timeout : Nat) (x : Exchange)
    (input : Option Source) :
    h.serveExchange limits timeout (x.withInput input)
      = (h.serveExchange limits timeout x).map fun served => ⟨served.app, served.exchange.withInput input⟩ := by
  -- The five ways of `serveExchange`, of which only the last asks an application.
  by_cases hmethod : x.request.head.method = none
  · rw [serveExchange_of_noMethod (x := x.withInput input) hmethod, serveExchange_of_noMethod hmethod]
    rfl
  cases hfind : h.find? (stripPathParameters x.request.uri).1 with
  | none =>
    rw [serveExchange_of_unclaimed (x := x.withInput input) hmethod hfind, serveExchange_of_unclaimed hmethod hfind]
    rfl
  | some id =>
    cases hd : h.deployment? id with
    | none =>
      rw [serveExchange_of_missing (x := x.withInput input) hmethod hfind hd,
        serveExchange_of_missing hmethod hfind hd]
      rfl
    | some d =>
      by_cases hup : d.isAvailable = true
      · have hserve := keepsInput_serveWithin limits timeout (hl id d hd) (d.receive x) input
        have hreceive : d.receive (x.withInput input) = (d.receive x).withInput input := rfl
        rw [serveExchange_of_available (x := x.withInput input) hmethod hfind hd hup,
          serveExchange_of_available hmethod hfind hd hup, hreceive, hserve, Option.map_map, Option.map_map]
        rfl
      · have hdown : d.isAvailable = false := Bool.eq_false_iff.2 hup
        rw [serveExchange_of_unavailable (x := x.withInput input) hmethod hfind hd hdown,
          serveExchange_of_unavailable hmethod hfind hd hdown]
        rfl

end Host

end ServletContainer
