import ServletContainer.Proofs.Dispatch.Fallback
import ServletContainer.Proofs.Host

namespace ServletContainer

/-!
# One error page for a request

No error page is dispatched to for the failure of an error page. But a page that is over may have deferred the
request, and if that fails too, there is another page for it. Where the pages of a request defer nothing that fails,
one page is all that it gets, and two continuations are all that is waited for.

* `Defers`, `carried_defers` — what dispatches defer is what the code of the components defers.
* `Application.ComesToFail` — the failures of a request for which no error page has run, as they arise in its run.
* `Application.AnswersOnce` — no continuation is a dispatch, and no page that runs for the request leaves one that fails.
* `Application.AnswersOnce.of_uses` — it is enough that all that is deferred is completed.
* `Application.Returns` — the guard and the dispatches that are made for the request return.
* `Closing`, `settle_of_closing` — once a page has run, the rest leads to no other.
* `Host.error_page_once` — whole requests.
* `Host.error_page_twice`, `Host.error_page_for_ever` — what happens where a page defers and gives up.
-/

/-! ### Continuations -/

/-- Whether the request goes on at another target: `AsyncHandle.dispatch` was called. -/
def Continuation.dispatches : Continuation → Bool
  | .dispatch _ _ => true
  | _ => false

/-- Whether `handleError` answers the continuation: `abandon` and `unanswered`. -/
def Continuation.fails : Continuation → Bool
  | .abandon => true
  | .unanswered => true
  | _ => false

/-- With what error a continuation that `fails` is answered, and in which exchange. -/
def Continuation.failure? (timeout : Nat) (x : Exchange) : Continuation → Option (ServletError × Exchange)
  | .abandon => some (.status 500 (some "async request abandoned"), x)
  | .unanswered => some (.status 500 (some "async request timed out"), { x with now := x.now + timeout })
  | _ => none

/-- To continue with what fails is to answer its `failure?` by `handleError`. -/
theorem continueWith_of_failure? {invoke : Invoker} {app : Application} {timeout : Nat} {c : Continuation}
    {x z : Exchange} {e : ServletError} (h : c.failure? timeout x = some (e, z)) :
    continueWith invoke app timeout c x = handleError invoke app e z := by
  cases c with
  | complete | dispatch => cases h
  | abandon | unanswered =>
    obtain ⟨rfl, rfl⟩ := Prod.mk.inj (Option.some.inj h)
    rfl

/-- Whether `op` defers the request to no continuation but those with `p`. -/
def Op.DefersOnly (p : Continuation → Prop) (op : Op) : Prop := ∀ c, op = .startAsync c → p c

/-- How often error pages were dispatched to, by the journal of `x`. -/
def Exchange.errorDispatches (x : Exchange) : Nat := x.journal.countP Event.isErrorDispatch

/-- Whether from `x` to `y` no continuation but those with `p` is deferred, and no error page is dispatched to. -/
structure Defers (p : Continuation → Prop) (x y : Exchange) : Prop where
  pending : y.pending = x.pending ∨ ∃ c, y.pending = some c ∧ p c
  errorDispatches : y.errorDispatches = x.errorDispatches

section Defers

variable {p : Continuation → Prop} {x y : Exchange}

/-- Of all events only an `.error` dispatch adds to `errorDispatches`. -/
theorem errorDispatches_log (x : Exchange) (e : Event) :
    (x.log e).errorDispatches = x.errorDispatches + if e.isErrorDispatch then 1 else 0 := by
  simp [Exchange.errorDispatches, Exchange.log, List.countP_append, List.countP_cons]

/-- What leaves the exchange as it is defers nothing. -/
theorem Defers.refl (p : Continuation → Prop) (x : Exchange) : Defers p x x := ⟨.inl rfl, rfl⟩

/-- `Quiet` steps leave `pending` and the journal as they are. -/
theorem Quiet.defers (h : Quiet x y) : Defers p x y :=
  ⟨.inl h.pending, congrArg (List.countP Event.isErrorDispatch) h.journal⟩

/-- If what was pending in `x` satisfies `p`, so does whatever is pending after `Defers p`. -/
theorem Defers.all (h : Defers p x y) (hx : ∀ c, x.pending = some c → p c) : ∀ c, y.pending = some c → p c := by
  intro c hc
  rcases h.pending with hsame | ⟨c', hc', hp⟩
  · exact hx c (hsame ▸ hc)
  · obtain rfl := Option.some.inj (hc'.symm.trans hc)
    exact hp

/-- Code whose calls are `DefersOnly p` is `Defers p` for every dispatch but that of an error page. Of the calls
`startAsync` alone sets `pending`, and of the events `Carried` excludes the one that counts. -/
theorem carried_defers (p : Continuation → Prop) : Carried (Op.DefersOnly p) (Defers p) where
  refl x := .refl p x
  trans h h' := by
    refine ⟨?_, h'.errorDispatches.trans h.errorDispatches⟩
    -- What is pending is what `h'` deferred, or else what `h` did.
    rcases h'.pending with hsame | hother
    · rw [hsame]
      exact h.pending
    · exact .inr hother
  perform hop hq := by
    have heffect := Op.effect hq
    constructor
    · rcases heffect.pending with hsame | ⟨c, hc, hpending⟩
      · exact .inl hsame
      · exact .inr ⟨c, hpending, hop c hc⟩
    · unfold Exchange.errorDispatches
      rcases heffect.journal with hsame | ⟨n, hnote⟩
      · rw [hsame]
      · rw [hnote, List.countP_append]
        rfl
  log x e he := ⟨.inl rfl, by rw [errorDispatches_log, he]; rfl⟩
  request _ _ := ⟨.inl rfl, rfl⟩
  place _ _ _ := ⟨.inl rfl, rfl⟩
  reset _ := ⟨.inl rfl, rfl⟩
  lock _ _ := ⟨.inl rfl, rfl⟩

/-- `invoke` with the kind `.error` adds its own event to `errorDispatches`, and nothing within it adds another. -/
theorem defers_of_invoke_error {app : Application} {depth : Nat} (ha : app.Uses (Op.DefersOnly p))
    {target : MappingMatch} {q : Outcome × Exchange} (hx : x.pending = none)
    (h : invoke app depth target .error x = some q) :
    (∀ c, q.2.pending = some c → p c) ∧ q.2.errorDispatches ≤ x.errorDispatches + 1 := by
  rcases (carried_defers p).dispatched ha h with hsame | ⟨filters, hrun⟩
  · rw [hsame]
    exact ⟨fun c hc => by simp [hx] at hc, Nat.le_succ _⟩
  · refine ⟨hrun.all fun c hc => ?_, ?_⟩
    · change x.pending = some c at hc
      simp [hx] at hc
    · rw [hrun.errorDispatches, errorDispatches_log]
      exact Nat.le_refl _

end Defers

/-! ### Applications that answer failures once -/

/-- Whether `check` of a guard defers no dispatch and dispatches to no error page, and `after` leaves `pending`, the
count and a committed response alone. -/
structure Guard.AnswersOnce (g : Guard) : Prop where
  check : ∀ {x p}, g.check x = some p → Defers (fun c => c.dispatches = false) x p.2
  after : ∀ x, (g.after x).errorDispatches = x.errorDispatches ∧ (g.after x).pending = x.pending ∧
    (x.response.isCommitted = true → (g.after x).response.isCommitted = true)

/-- A failure that a request `x` comes to before any error page has run for it, and the exchange that it is answered in:
its own dispatch fails, or what is deferred then does. -/
inductive Application.ComesToFail (app : Application) (depth timeout : Nat) (x : Exchange) :
    ServletError → Exchange → Prop
  /-- No servlet is mapped for the path. -/
  | unmapped {y} : app.Allows x y → app.mapper.map? y.request.relativePath = none →
    ComesToFail app depth timeout x (.status 404 (some ("no servlet mapped for " ++ y.request.relativePath))) y
  /-- The chain in front of the servlet fails. -/
  | dispatched {y target e z} : app.Allows x y → app.mapper.map? y.request.relativePath = some target →
    invoke app depth target .request (y.mapRequest fun r =>
      { r with servletPath := target.servletPath, pathInfo := target.pathInfo }) = some (.error e, z) →
    ComesToFail app depth timeout x e z
  /-- The continuation that is waited for fails, and so far there has been no page. -/
  | deferred {y c e z} : routeWithin (invoke app depth) app x = some y → y.errorDispatches = x.errorDispatches →
    y.pending = some c → c.failure? timeout { y with pending := none } = some (e, z) →
    ComesToFail app depth timeout x e z

/-- Whether a failure `e` in `x` has an error page, by its location and the servlet that it is mapped to. -/
structure Application.FindsPage (app : Application) (e : ServletError) (x : Exchange) (location : String)
    (target : MappingMatch) : Prop where
  isOpen : x.response.isCommitted = false
  page : errorPage? app e (prepareError e.statusCode x) = some location
  target : app.mapper.map? (Request.splitTarget location).1 = some target

/-- The run of the page at `location` for the failure `e` in `x`, by `runErrorPage`. -/
def Application.runPage (app : Application) (depth : Nat) (e : ServletError) (x : Exchange) (location : String)
    (target : MappingMatch) : Run :=
  runErrorPage (invoke app depth) app (Request.splitTarget location).1 (Request.splitTarget location).2 target e
    (prepareError e.statusCode x)

/-- Whether the failures of a request `x` are answered once: the code of the application defers no dispatch, and the
error pages that run for `x` leave nothing behind that fails, unless they have sent their answer. -/
structure Application.AnswersOnce (app : Application) (depth timeout : Nat) (x : Exchange) : Prop where
  uses : app.Uses (Op.DefersOnly fun c => c.dispatches = false)
  guard : ∀ g, app.guard = some g → g.AnswersOnce
  pages : ∀ {e z location target p}, app.ComesToFail depth timeout x e z → app.FindsPage e z location target →
    app.runPage depth e z location target = some p → p.2.response.isCommitted = false →
    ∀ c, p.2.pending = some c → c.fails = false

/-- Whether what is called for a request `x` returns, with the blocks that its supply has for ids: the guard, the
dispatch to its servlet, and the error pages that run for it. -/
structure Application.Returns (app : Application) (depth timeout : Nat) (x : Exchange) : Prop where
  guard : ∀ g, app.guard = some g → (g.check x).isSome
  dispatch : ∀ {y target}, app.Allows x y → app.mapper.map? y.request.relativePath = some target →
    (invoke app depth target .request (y.mapRequest fun r =>
      { r with servletPath := target.servletPath, pathInfo := target.pathInfo })).isSome
  pages : ∀ {e z location target}, app.ComesToFail depth timeout x e z → app.FindsPage e z location target →
    (app.runPage depth e z location target).isSome

/-- Whether what is pending in `x` is no dispatch, and fails only behind a committed response. -/
def Closing (x : Exchange) : Prop :=
  ∀ c, x.pending = some c → c.dispatches = false ∧ (c.fails = true → x.response.isCommitted = true)

/-- Where nothing is pending, nothing is left to fail. -/
theorem Closing.of_pending_none {x : Exchange} (h : x.pending = none) : Closing x := fun c hc => by simp [h] at hc

/-- How far a request has come that had `n` error pages before. -/
inductive Answered (n : Nat) (x : Exchange) : Prop
  | notYet : x.errorDispatches = n → (∀ c, x.pending = some c → c.dispatches = false) → Answered n x
  | once : x.errorDispatches ≤ n + 1 → Closing x → Answered n x

section Serving

variable {app : Application} {depth timeout : Nat} {x y z w : Exchange} {e : ServletError} {n : Nat}

/-! ### Answering a failure -/

/-- A failure that `ComesToFail` is left alone by `handleError` where the response is committed. Elsewhere it gets one
page at most, and what the page leaves behind is `Closing`. -/
theorem Application.AnswersOnce.handleError (ha : app.AnswersOnce depth timeout x)
    (hfails : app.ComesToFail depth timeout x e z) (h : handleError (invoke app depth) app e z = some w) :
    (z.response.isCommitted = true ∧ w = z) ∨ (w.errorDispatches ≤ z.errorDispatches + 1 ∧ Closing w) := by
  unfold ServletContainer.handleError at h
  split at h
  · next hc =>
    obtain rfl := Option.some.inj h
    exact .inl ⟨hc, rfl⟩
  · next hopen =>
    refine .inr ?_
    dsimp only at h
    split at h
    · -- `errorPage?` has no page for the failure.
      obtain rfl := Option.some.inj h
      exact ⟨Nat.le_succ _, .of_pending_none rfl⟩
    · next location hpage =>
      split at h
      · obtain rfl := Option.some.inj h
        exact ⟨Nat.le_succ _, .of_pending_none rfl⟩
      · next target htarget =>
        obtain ⟨⟨result, v⟩, hv, rfl⟩ := Option.map_eq_some_iff.1 h
        have hdeferred := ha.pages hfails ⟨by simpa using hopen, hpage, htarget⟩ hv
        obtain ⟨q, hq, heq⟩ := Option.map_eq_some_iff.1 hv
        obtain ⟨rfl, rfl⟩ := Prod.mk.inj heq
        -- The page has run: by `ha.uses` what it has deferred is no dispatch, and by `ha.pages` it fails only behind
        -- its answer.
        obtain ⟨hdispatches, hcount⟩ := defers_of_invoke_error ha.uses rfl hq
        have hclosing : Closing q.2 := by
          intro c hc
          refine ⟨hdispatches c hc, fun hf => ?_⟩
          by_contra hunsent
          have hopen : q.2.response.isCommitted = false := by simpa using hunsent
          have hfalse := hdeferred hopen c hc
          simp [hfalse] at hf
        cases hresult : q.1 with
        | ok _ => exact ⟨hcount, hclosing⟩
        | error e' =>
          dsimp only
          split
          · exact ⟨hcount, hclosing⟩
          · next hunsent =>
            -- By `hdeferred` nothing that is left behind an unsent response fails.
            refine ⟨hcount, fun c hc => ⟨hdispatches c hc, fun hf => ?_⟩⟩
            have hfalse := hdeferred (Bool.eq_false_iff.2 hunsent) c hc
            simp [hfalse] at hf

/-- `handleError` returns for such a failure, since `runErrorPage` does by `Returns.pages`. -/
theorem Application.Returns.handleError (hr : app.Returns depth timeout x)
    (hfails : app.ComesToFail depth timeout x e z) :
    (handleError (invoke app depth) app e z).isSome := by
  unfold ServletContainer.handleError
  split
  · rfl
  · next hopen =>
    dsimp only
    split
    · rfl
    · next location hpage =>
      split
      · rfl
      · next target htarget =>
        rw [Option.isSome_map]
        exact hr.pages hfails ⟨by simpa using hopen, hpage, htarget⟩

/-! ### The request's own dispatch -/

/-- `dispatchRequest` of an exchange that the guard `Allows` is `Answered`, counted from before it. -/
theorem Application.AnswersOnce.dispatchRequest (ha : app.AnswersOnce depth timeout x) (hallows : app.Allows x y)
    (hn : y.errorDispatches = n) (hy : ∀ c, y.pending = some c → c.dispatches = false)
    (h : dispatchRequest (invoke app depth) app y = some w) : Answered n w := by
  -- `z` is an exchange that no page has answered yet.
  have hfailed {e : ServletError} {z : Exchange} (hfails : app.ComesToFail depth timeout x e z)
      (hzn : z.errorDispatches = n) (hz : ∀ c, z.pending = some c → c.dispatches = false)
      (hw : ServletContainer.handleError (invoke app depth) app e z = some w) : Answered n w := by
    rcases ha.handleError hfails hw with ⟨-, rfl⟩ | ⟨hcount, hclosing⟩
    · exact .notYet hzn hz
    · exact .once (hzn ▸ hcount) hclosing
  unfold ServletContainer.dispatchRequest at h
  dsimp only at h
  split at h
  · next hunmapped => exact hfailed (.unmapped hallows hunmapped) hn hy h
  · next target htarget =>
    obtain ⟨⟨result, z⟩, hz, hw⟩ := Option.bind_eq_some_iff.1 h
    have hdefers := (carried_defers _).invoke ha.uses depth (by decide) _ hz
    have hzn : z.errorDispatches = n := hdefers.errorDispatches.trans hn
    have hz' := hdefers.all hy
    cases result with
    | ok _ =>
      obtain rfl := Option.some.inj hw
      exact .notYet hzn hz'
    | error e => exact hfailed (.dispatched hallows htarget hz) hzn hz' hw

/-- So is `routeWithin`. A guard that denies runs no dispatch, and `after` of one that allows puts nothing in its way.
-/
theorem Application.AnswersOnce.routeWithin (ha : app.AnswersOnce depth timeout x) (hx : x.pending = none)
    (h : routeWithin (invoke app depth) app x = some y) : Answered x.errorDispatches y := by
  have hnone : ∀ c, x.pending = some c → c.dispatches = false := fun c hc => by simp [hx] at hc
  cases app.routes_of_routeWithin h with
  | unguarded hguard hy => exact ha.dispatchRequest (.of_guard_eq_none hguard) rfl hnone hy
  | denied hguard hz =>
    -- By `ha.guard` the guard starts no dispatch, whatever it decides.
    have hcheck := (ha.guard _ hguard).check hz
    exact .notYet hcheck.errorDispatches (hcheck.all hnone)
  | allowed hguard hz hw =>
    have hcheck := (ha.guard _ hguard).check hz
    obtain ⟨hcount, hpending, hsent⟩ := (ha.guard _ hguard).after _
    have hanswered := ha.dispatchRequest (.of_check hguard hz) hcheck.errorDispatches (hcheck.all hnone) hw
    -- `hcount` and `hpending`: what comes behind the dispatch changes neither the count nor what is pending.
    rcases hanswered with ⟨hn, hd⟩ | ⟨hn, hclosing⟩
    · exact .notYet (hcount.trans hn) (hpending ▸ hd)
    · refine .once (hcount ▸ hn) fun c hc => ?_
      obtain ⟨hd, hf⟩ := hclosing c (hpending ▸ hc)
      exact ⟨hd, fun hfails => hsent (hf hfails)⟩

/-- `dispatchRequest` returns where the guard `Allows`: the chain does by `Returns.dispatch`, and the page for its
failure by `Returns.handleError`. -/
theorem Application.Returns.dispatchRequest (hr : app.Returns depth timeout x) (hallows : app.Allows x y) :
    (dispatchRequest (invoke app depth) app y).isSome := by
  unfold ServletContainer.dispatchRequest
  dsimp only
  split
  · next hunmapped => exact hr.handleError (.unmapped hallows hunmapped)
  · next target htarget =>
    obtain ⟨⟨result, z⟩, hz⟩ := Option.isSome_iff_exists.1 (hr.dispatch hallows htarget)
    rw [hz, Option.bind_some]
    cases result with
    | ok _ => rfl
    | error e => exact hr.handleError (.dispatched hallows htarget hz)

/-- So does `routeWithin`, as the guard's `check` does by `Returns.guard`. -/
theorem Application.Returns.routeWithin (hr : app.Returns depth timeout x) :
    (routeWithin (invoke app depth) app x).isSome := by
  unfold ServletContainer.routeWithin
  split
  · next hguard => exact hr.dispatchRequest (.of_guard_eq_none hguard)
  · next guard hguard =>
    obtain ⟨⟨decision, z⟩, hz⟩ := Option.isSome_iff_exists.1 (hr.guard guard hguard)
    rw [hz, Option.bind_some]
    cases decision with
    | deny status challenge => rfl
    | allow => exact Option.isSome_map.trans (hr.dispatchRequest (.of_check hguard hz))

/-! ### Continuations -/

/-- The equation of `settle` where `c` is pending and a round is left. -/
theorem settle_succ {invoke : Invoker} {timeout rounds : Nat} {c : Continuation} (hc : x.pending = some c) :
    settle invoke app timeout (rounds + 1) x =
      (continueWith invoke app timeout c { x with pending := none }).bind (settle invoke app timeout rounds) := by
  conv_lhs => unfold settle
  rw [hc]

/-- `settle` is monotone in `rounds`: with more of them, a request that is over is over with the same exchange. -/
theorem settle_mono {invoke : Invoker} {timeout rounds rounds' : Nat} (hle : rounds ≤ rounds')
    (h : settle invoke app timeout rounds x = some y) : settle invoke app timeout rounds' x = some y := by
  induction rounds generalizing x rounds' with
  -- With `rounds = 0` only an exchange at rest is settled.
  | zero =>
    cases hx : x.pending with
    | none => rwa [settle_of_pending_none hx] at h ⊢
    | some c =>
      unfold settle at h
      rw [hx] at h
      cases h
  | succ rounds ih =>
    cases hx : x.pending with
    | none => rwa [settle_of_pending_none hx] at h ⊢
    | some c =>
      obtain ⟨more, rfl⟩ := Nat.exists_eq_add_of_le' hle
      rw [settle_succ hx] at h
      obtain ⟨z, hz, hy⟩ := Option.bind_eq_some_iff.1 h
      rw [← Nat.add_assoc, settle_succ hx, hz]
      exact ih (Nat.le_add_left _ _) hy

/-- From a `Closing` exchange `settle` needs one round at most, and dispatches to no error page in it. -/
theorem settle_of_closing (invoke : Invoker) (app : Application) (timeout : Nat) (hx : Closing x) :
    ∃ y, y.errorDispatches = x.errorDispatches ∧ ∀ rounds, settle invoke app timeout (rounds + 1) x = some y := by
  cases hpending : x.pending with
  | none => exact ⟨x, rfl, fun _ => settle_of_pending_none hpending⟩
  | some c =>
    obtain ⟨hdispatch, hsent⟩ := hx c hpending
    -- `Closing`: neither a completion nor a failure behind a response that is sent has anything else follow it.
    have hlast : ∃ y, continueWith invoke app timeout c { x with pending := none } = some y ∧
        y.pending = none ∧ y.errorDispatches = x.errorDispatches := by
      cases c with
      | complete attributes => exact ⟨_, rfl, rfl, rfl⟩
      | dispatch attributes path => cases hdispatch
      | abandon => exact ⟨_, if_pos (hsent rfl), rfl, rfl⟩
      | unanswered => exact ⟨_, if_pos (hsent rfl), rfl, rfl⟩
    obtain ⟨y, hy, hdone, hcount⟩ := hlast
    refine ⟨y, hcount, fun rounds => ?_⟩
    rw [settle_succ hpending, hy]
    exact settle_of_pending_none hdone

/-- If `routeWithin` has dispatched to no error page (`hn`), `continueWith` does to one at most, and leaves what is
`Closing`. -/
theorem Application.AnswersOnce.continueWith (ha : app.AnswersOnce depth timeout x)
    (hroute : ServletContainer.routeWithin (invoke app depth) app x = some y)
    (hn : y.errorDispatches = x.errorDispatches) {c : Continuation} (hc : y.pending = some c)
    (hdispatches : c.dispatches = false)
    (h : continueWith (invoke app depth) app timeout c { y with pending := none } = some w) :
    w.errorDispatches ≤ x.errorDispatches + 1 ∧ Closing w := by
  -- `handleError` runs once at most, as no page has run before.
  have hfailed {e : ServletError} {z : Exchange} (hf : c.failure? timeout { y with pending := none } = some (e, z))
      (hzn : z.errorDispatches = x.errorDispatches) (hz : z.pending = none) :
      w.errorDispatches ≤ x.errorDispatches + 1 ∧ Closing w := by
    rw [continueWith_of_failure? hf] at h
    rcases ha.handleError (.deferred hroute hn hc hf) h with ⟨-, rfl⟩ | ⟨hcount, hclosing⟩
    · exact ⟨hzn ▸ Nat.le_succ _, .of_pending_none hz⟩
    · exact ⟨hzn ▸ hcount, hclosing⟩
  cases c with
  | complete attributes =>
    obtain rfl := Option.some.inj h
    exact ⟨hn ▸ Nat.le_succ _, .of_pending_none rfl⟩
  | dispatch attributes path => cases hdispatches
  | abandon | unanswered => exact hfailed rfl hn rfl

/-- And `continueWith` returns, as a continuation that is no dispatch is at most a failure that `ComesToFail`. -/
theorem Application.Returns.continueWith (hr : app.Returns depth timeout x)
    (hroute : ServletContainer.routeWithin (invoke app depth) app x = some y)
    (hn : y.errorDispatches = x.errorDispatches) {c : Continuation} (hc : y.pending = some c)
    (hdispatches : c.dispatches = false) :
    (continueWith (invoke app depth) app timeout c { y with pending := none }).isSome := by
  cases c with
  | complete attributes => rfl
  | dispatch attributes path => cases hdispatches
  | abandon | unanswered => exact hr.handleError (.deferred hroute hn hc rfl)

/-- What `routeWithin` leaves is settled in two rounds: more of them change nothing, one error page is the most there
is, and with `Returns` the two are enough. -/
theorem Application.AnswersOnce.settle (ha : app.AnswersOnce depth timeout x)
    (hroute : ServletContainer.routeWithin (invoke app depth) app x = some y)
    (hy : Answered x.errorDispatches y) :
    (∀ rounds, settle (invoke app depth) app timeout (rounds + 2) y = settle (invoke app depth) app timeout 2 y) ∧
      (∀ w ∈ ServletContainer.settle (invoke app depth) app timeout 2 y, w.errorDispatches ≤ x.errorDispatches + 1) ∧
      (app.Returns depth timeout x → (ServletContainer.settle (invoke app depth) app timeout 2 y).isSome) := by
  -- `settle_of_closing` takes one more round.
  have hclosing {z : Exchange} (hz : Closing z) (hcount : z.errorDispatches ≤ x.errorDispatches + 1) :
      ∃ w, w.errorDispatches ≤ x.errorDispatches + 1 ∧
        ∀ rounds, ServletContainer.settle (invoke app depth) app timeout (rounds + 1) z = some w := by
    obtain ⟨w, hw, hsettle⟩ := settle_of_closing (invoke app depth) app timeout hz
    exact ⟨w, hw ▸ hcount, hsettle⟩
  cases hy with
  | once hn hc =>
    -- The page has run before, so `y` is `Closing` and the first round is the last.
    obtain ⟨w, hw, hsettle⟩ := hclosing hc hn
    refine ⟨fun rounds => by rw [hsettle (rounds + 1), hsettle 1], ?_, fun _ => by rw [hsettle 1]; rfl⟩
    rw [hsettle 1]
    rintro v hv
    obtain rfl := Option.some.inj hv
    exact hw
  | notYet hn hd =>
    cases hpending : y.pending with
    | none =>
      simp only [settle_of_pending_none hpending, Option.mem_some_iff, Option.isSome_some, implies_true, true_and,
        and_true]
      rintro w rfl
      exact hn ▸ Nat.le_succ _
    | some c =>
      -- The first round may lead to the page, and the second is for what the page defers.
      have hc := hd c hpending
      simp only [settle_succ hpending]
      cases hz : ServletContainer.continueWith (invoke app depth) app timeout c { y with pending := none } with
      | none =>
        refine ⟨fun _ => rfl, by simp, fun hr => ?_⟩
        have hsome := hr.continueWith hroute hn hpending hc
        simp [hz] at hsome
      | some z =>
        obtain ⟨hcount, hclose⟩ := ha.continueWith hroute hn hpending hc hz
        obtain ⟨w, hw, hsettle⟩ := hclosing hclose hcount
        simp only [Option.bind_some, hsettle, Option.mem_some_iff, Option.isSome_some, implies_true, true_and,
          and_true]
        rintro v rfl
        exact hw

/-- The same of `serveWithin`, which is `routeWithin` followed by `settle`. -/
theorem Application.AnswersOnce.serveWithin (ha : app.AnswersOnce depth timeout x) (hx : x.pending = none) :
    (∀ rounds, ∀ y ∈ serveWithin ⟨depth, rounds⟩ timeout app x, y.errorDispatches ≤ x.errorDispatches + 1) ∧
      (∀ rounds, ServletContainer.serveWithin ⟨depth, rounds + 2⟩ timeout app x
        = ServletContainer.serveWithin ⟨depth, 2⟩ timeout app x) ∧
      (app.Returns depth timeout x → (ServletContainer.serveWithin ⟨depth, 2⟩ timeout app x).isSome) := by
  have hserve (rounds : Nat) : ServletContainer.serveWithin ⟨depth, rounds⟩ timeout app x
      = (ServletContainer.routeWithin (invoke app depth) app x).bind
        (ServletContainer.settle (invoke app depth) app timeout rounds) := rfl
  simp only [hserve]
  cases hz : ServletContainer.routeWithin (invoke app depth) app x with
  | none =>
    refine ⟨by simp, fun _ => rfl, fun hr => ?_⟩
    have hsome := hr.routeWithin
    simp [hz] at hsome
  | some z =>
    obtain ⟨hrounds, hcount, hsome⟩ := ha.settle hz (ha.routeWithin hx hz)
    refine ⟨fun rounds y hy => hcount y ?_, hrounds, hsome⟩
    -- By `settle_mono` two more rounds change nothing for a request that is over.
    rw [← hrounds rounds]
    exact settle_mono (Nat.le_add_right rounds 2) hy

end Serving

/-! ### Applications that complete what they defer -/

/-- If the code of an application defers nothing but completions, `AnswersOnce` holds of every request to it. -/
theorem Application.AnswersOnce.of_uses {app : Application} {depth timeout : Nat} {x : Exchange}
    (hu : app.Uses (Op.DefersOnly fun c => c.dispatches = false ∧ c.fails = false))
    (hg : ∀ g, app.guard = some g → g.AnswersOnce) : app.AnswersOnce depth timeout x where
  uses := hu.mono fun _ hop c hc => (hop c hc).1
  guard := hg
  pages _ _ hp _ c hc := by
    obtain ⟨q, hq, rfl⟩ := Option.map_eq_some_iff.1 hp
    exact ((defers_of_invoke_error hu rfl hq).1 c hc).2

/-- The `check` and `after` of `BasicAuth` defer nothing and commit nothing. -/
theorem BasicAuth.answersOnce_guard (g : BasicAuth) : g.guard.AnswersOnce where
  check hp := (quiet_check? hp).defers
  after _ := ⟨rfl, rfl, id⟩

/-- Nor do those of `PathGate`. -/
theorem PathGate.answersOnce_guard (g : PathGate) : g.guard.AnswersOnce where
  check hp := by
    obtain rfl := Option.some.inj hp
    exact ⟨.inl rfl, errorDispatches_log _ _⟩
  after x := ⟨errorDispatches_log x _, rfl, id⟩

/-! ### Whole requests -/

namespace Host

/-- **One error page.** Let `d` be the deployment that `deploymentFor?` finds for a request, and let `AnswersOnce` hold
of the exchange that `d.receive`s it: the code of the application defers no dispatch, and pages that run for this
request leave nothing behind that fails on a response that is not committed. Then `errorDispatches` is one at most,
however many rounds `serve` is given, and more than two rounds change nothing. If `Returns` holds of that exchange as
well, with the ids that its supply has, `serve` returns within two rounds. And where the page of a failure fails on a
response that is not committed, `handleError` answers by `writeDefaultError`. -/
theorem error_page_once (h : Host) (depth timeout : Nat) (request : Request) (input : Option Source)
    (response : Response) (hh : ∀ d, h.deploymentFor? request = some d →
      d.app.AnswersOnce depth timeout (d.receive (.start request input response h.now h.supply))) :
    (∀ rounds, ∀ p ∈ h.serve ⟨depth, rounds⟩ timeout request input response, p.1.exchange.errorDispatches ≤ 1) ∧
    (∀ rounds, h.serve ⟨depth, rounds + 2⟩ timeout request input response
      = h.serve ⟨depth, 2⟩ timeout request input response) ∧
    ((∀ d, h.deploymentFor? request = some d →
        d.app.Returns depth timeout (d.receive (.start request input response h.now h.supply))) →
      (h.serve ⟨depth, 2⟩ timeout request input response).isSome) ∧
    ∀ d, h.deploymentFor? request = some d →
      ∀ {e e' : ServletError} {x z : Exchange} {location : String} {target : MappingMatch},
        x.response.isCommitted = false → errorPage? d.app e (prepareError e.statusCode x) = some location →
        d.app.mapper.map? (Request.splitTarget location).1 = some target →
        runErrorPage (invoke d.app depth) d.app (Request.splitTarget location).1
          (Request.splitTarget location).2 target e (prepareError e.statusCode x) = some (.error e', z) →
        z.response.isCommitted = false →
        handleError (invoke d.app depth) d.app e x = some (z.mapResponse (·.writeDefaultError e.statusCode)) := by
  obtain ⟨served, hnone, hserved⟩ | ⟨id, d, hd, hserved⟩ :=
    h.serveExchange_cases timeout (.start request input response h.now h.supply)
  · -- The request is answered without a dispatch.
    refine ⟨fun rounds p hp => ?_, fun rounds => ?_, fun _ => ?_, fun d _ => handleError_eq_writeDefaultError⟩
    · rw [serve, hserved] at hp
      obtain rfl := Option.some.inj hp
      rw [Exchange.errorDispatches, hnone]
      exact Nat.zero_le _
    · simp only [serve, hserved]
    · simp only [serve, hserved, Option.map_some, Option.isSome_some]
  · obtain ⟨hcount, hrounds, hsome⟩ := (hh d hd).serveWithin rfl
    refine ⟨fun rounds p hp => ?_, fun rounds => ?_, fun hr => ?_, fun d _ => handleError_eq_writeDefaultError⟩
    · rw [serve, hserved] at hp
      obtain ⟨_, hmap, rfl⟩ := Option.map_eq_some_iff.1 hp
      obtain ⟨z, hz, rfl⟩ := Option.map_eq_some_iff.1 hmap
      exact hcount rounds z hz
    · simp only [serve, hserved, hrounds]
    · simp only [serve, hserved, Option.isSome_map]
      exact hsome (hr d hd)

/-! ### Teapots whose pages defer -/

/-- A host with the `teapot` of `page` in service, and a `supply` of blocks for the ids of sessions. -/
def teapotHost (page : Program) (supply : List Block := []) : Host :=
  (((start supply).add (teapot page)).2.deploy 0).2

/-- What the `teapotHost` makes of a request for tea, within so many `rounds`. -/
def serveTea (page : Program) (rounds : Nat) (supply : List Block := []) : Option (Served × Host) :=
  (teapotHost page supply).serve ⟨1, rounds⟩ 1000 (.ofLine "GET /tea HTTP/1.1") none (.detached "HTTP/1.1")

/-- A page that defers the request to `c`. -/
def deferringPage (c : Continuation) : Program := .perform (.startAsync c) .finish

/-- A page that defers the request to `abandon`, the first time only. -/
def secondTryPage : Program := .observe fun s =>
  if (s.request.attribute? "seen").isSome then .finish
  else .perform (.setAttribute "seen" (.bool true)) (deferringPage .abandon)

/-- The servlets of a `teapot` make the calls that its `page` makes. -/
theorem uses_teapot {allowed : Op → Prop} {page : Program} (h : page.Uses allowed) :
    (teapot page).Uses allowed where
  servlets s hs := by
    rcases List.mem_cons.1 hs with rfl | hs
    · exact trivial
    · obtain rfl := List.mem_singleton.1 hs
      exact h
  filters f hf := by cases hf

/-- `deferringPage c` is `DefersOnly p` if `p` holds of `c`. -/
theorem uses_deferringPage {p : Continuation → Prop} {c : Continuation} (hc : p c) :
    (deferringPage c).Uses (Op.DefersOnly p) := by
  refine ⟨?_, fun _ => trivial⟩
  rintro c' hc'
  obtain rfl := Op.startAsync.inj hc'
  exact hc

section Teapot

variable {c : Continuation} {target : MappingMatch} {x : Exchange}

/-- Dispatched to, `deferringPage c` leaves `c` pending, and the response and the kind of the dispatch as they were. -/
theorem invoke_teapot_page (c : Continuation) (kind : DispatcherKind) (ht : target.servletName = "page")
    (hx : x.pending = none) :
    ∃ y, invoke (teapot (deferringPage c)) 1 target kind x = some (.ok (), y) ∧
      y.pending = some c ∧ y.response = x.response ∧ y.dispatcher = x.dispatcher := by
  obtain ⟨_, pattern, path, info⟩ := target
  obtain rfl := ht
  refine ⟨_, rfl, ?_⟩
  simp [Exchange.startAsync, Exchange.log, hx]

/-- Every other target of a `teapot` fails: it is the servlet `tea`, or there is none of that name. -/
theorem invoke_teapot_of_ne (page : Program) (kind : DispatcherKind) (ht : target.servletName ≠ "page") :
    ∃ e y, invoke (teapot page) 1 target kind x = some (.error e, y) ∧
      y.pending = x.pending ∧ y.response = x.response ∧ y.dispatcher = x.dispatcher := by
  obtain ⟨name, pattern, path, info⟩ := target
  by_cases htea : name = "tea"
  · subst htea
    exact ⟨_, _, rfl, rfl, rfl, rfl⟩
  · refine ⟨.ofStatus 404, x, ?_, rfl, rfl, rfl⟩
    have hnone : (teapot page).servlet? name = none := by
      simp [teapot, Application.servlet?, Ne.symm htea, Ne.symm ht]
    simp only [invoke, invokeWith, hnone]

/-- So `handleError` ends with `c` pending, on a response that is open, whatever the failure `e`. -/
theorem handleError_teapot {e : ServletError} (hc : x.response.isCommitted = false)
    (hd : x.dispatcher = .request) :
    ∃ y, handleError (invoke (teapot (deferringPage c)) 1) (teapot (deferringPage c)) e x = some y ∧
      y.pending = some c ∧ y.response.isCommitted = false ∧ y.dispatcher = .request := by
  -- The only `ErrorPage` of `teapot` is declared for whatever fails.
  have hpage : errorPage? (teapot (deferringPage c)) e (prepareError e.statusCode x) = some "/err" := by
    have hdispatcher : (prepareError e.statusCode x).dispatcher = .request := hd
    rw [errorPage?, if_neg (by simp [hdispatcher])]
    cases e.kind? with
    | none => rfl
    | some kind => rfl
  obtain ⟨hnew, -, -⟩ := response_prepareError hc e.statusCode
  -- It defers `c` and returns, having written nothing.
  obtain ⟨y, hy, hpending, hresponse, hdispatcher⟩ := invoke_teapot_page c .error
    (show pageTarget.servletName = "page" from rfl) (x := (prepareError e.statusCode x).mapRequest fun r =>
      retarget (teapot (deferringPage c)) (Request.splitTarget "/err").1 (Request.splitTarget "/err").2 pageTarget
        (describeError e x.servletName r)) rfl
  have hrun : runErrorPage (invoke (teapot (deferringPage c)) 1) (teapot (deferringPage c))
      (Request.splitTarget "/err").1 (Request.splitTarget "/err").2 pageTarget e (prepareError e.statusCode x)
        = some (.ok (), y.mapRequest (·.withPathState x.request.pathState)) := by
    unfold runErrorPage
    exact (congrArg (Option.map _) hy).trans rfl
  refine ⟨y.mapRequest (·.withPathState x.request.pathState), ?_, hpending, ?_, hdispatcher.trans hd⟩
  · unfold handleError
    rw [if_neg (by simp [hc])]
    simp only [hpage, map?_splitTarget_err, hrun, Option.map_some]
  · have hopen : y.response.state = .new := hresponse ▸ hnew
    change y.response.isCommitted = false
    simp [Response.isCommitted, hopen]

/-- And so does `dispatchRequest`, whatever the path: the page is its target, or answers its failure. -/
theorem dispatchRequest_teapot (hx : x.pending = none) (hc : x.response.isCommitted = false)
    (hd : x.dispatcher = .request) :
    ∃ y, dispatchRequest (invoke (teapot (deferringPage c)) 1) (teapot (deferringPage c)) x = some y ∧
      y.pending = some c ∧ y.response.isCommitted = false ∧ y.dispatcher = .request := by
  unfold dispatchRequest
  dsimp only
  split
  · exact handleError_teapot hc hd
  · next target _ =>
    -- Only the servlet `page` runs without failing; `handleError` leads to it from any other.
    by_cases ht : target.servletName = "page"
    · obtain ⟨y, hy, hpending, hresponse, hdispatcher⟩ := invoke_teapot_page c .request ht
        (x := x.mapRequest fun r => { r with servletPath := target.servletPath, pathInfo := target.pathInfo }) hx
      rw [hy]
      exact ⟨y, rfl, hpending, hresponse ▸ hc, hdispatcher.trans hd⟩
    · obtain ⟨e, y, hy, -, hresponse, hdispatcher⟩ := invoke_teapot_of_ne (deferringPage c) .request ht
        (x := x.mapRequest fun r => { r with servletPath := target.servletPath, pathInfo := target.pathInfo })
      rw [hy]
      exact handleError_teapot (hresponse ▸ hc) (hdispatcher.trans hd)

/-- A `teapot` whose page abandons what it defers is never done with a request, whatever `rounds` `serveWithin` is
given. -/
theorem error_page_for_ever (timeout : Nat) (hx : x.pending = none) (hc : x.response.isCommitted = false)
    (hd : x.dispatcher = .request) (rounds : Nat) :
    serveWithin ⟨1, rounds⟩ timeout (teapot (deferringPage .abandon)) x = none := by
  obtain ⟨y, hy, hpending, hopen, hdispatcher⟩ := dispatchRequest_teapot (c := .abandon) hx hc hd
  refine (congrArg (Option.bind · _) hy).trans ?_
  dsimp only [Option.bind_some]
  clear hy
  -- By induction on `rounds`: each continuation fails, and leaves the next one behind.
  induction rounds generalizing y with
  | zero =>
    unfold settle
    rw [hpending]
  | succ rounds ih =>
    obtain ⟨z, hz, hpending', hopen', hdispatcher'⟩ := handleError_teapot (c := .abandon)
      (e := .status 500 (some "async request abandoned")) (x := { y with pending := none }) hopen hdispatcher
    rw [settle_succ hpending]
    exact (congrArg (Option.bind · _) hz).trans (ih z hpending' hopen' hdispatcher')

end Teapot

section Register

/-- A page that starts a session, and completes what it defers. -/
def registeringPage : Program := .perform (.session true) (deferringPage (.complete []))

/-- The block of the id of the session that `registeringPage` starts. -/
def firstBlock : Block := Vector.replicate 16 7

/-- The `teapot` with the `registeringPage`, in service. -/
def kettle : Deployment :=
  { Deployment.ofApplication (teapot registeringPage) with
    state := .started
    history := [⟨.init, ⟨.servlet, "tea"⟩, true⟩, ⟨.init, ⟨.servlet, "page"⟩, true⟩] }

/-- What `kettle` gets of a request for tea. -/
def teaAsked : Exchange :=
  kettle.receive (.start (.ofLine "GET /tea HTTP/1.1") none (.detached "HTTP/1.1") 0 [firstBlock])

/-- The request for tea finds the `kettle`, which `teapotHost` has in service. -/
theorem eq_kettle_of_deploymentFor? {d : Deployment}
    (hd : (teapotHost registeringPage [firstBlock]).deploymentFor? (.ofLine "GET /tea HTTP/1.1") = some d) :
    d = kettle := by
  obtain ⟨id, hfind, hget⟩ := Option.bind_eq_some_iff.1 hd
  have hzero : (teapotHost registeringPage [firstBlock]).find?
      (stripPathParameters (Request.ofLine "GET /tea HTTP/1.1").uri).1 = some 0 := by decide +kernel
  obtain rfl := Option.some.inj (hfind.symm.trans hzero)
  exact (Option.some.inj hget).symm

/-- `registeringPage` defers a completion only, so `AnswersOnce` holds of the `kettle` for every request. -/
theorem answersOnce_kettle (x : Exchange) : kettle.app.AnswersOnce 1 1000 x := by
  refine .of_uses (uses_teapot ⟨?_, fun _ => uses_deferringPage ⟨rfl, rfl⟩⟩) fun g hg => by cases hg
  rintro c hc
  cases hc

/-- Where the path of a request for tea leads. -/
def teaTarget : MappingMatch := ⟨"tea", .default, "/tea", none⟩

/-- `/tea` is mapped to the servlet `tea`, by the default pattern. -/
theorem map?_teaAsked : kettle.app.mapper.map? teaAsked.request.relativePath = some teaTarget := by decide +kernel

/-- `Returns` holds of `teaAsked` with one block: the servlet `tea` draws none, and the page that runs for its failure
draws it. -/
theorem returns_kettle : kettle.app.Returns 1 1000 teaAsked where
  guard g hg := by cases hg
  dispatch := @fun y _ hallows htarget => by
    obtain rfl : y = teaAsked := hallows
    obtain rfl := Option.some.inj (htarget.symm.trans map?_teaAsked)
    rfl
  pages := @fun _ z location _ hfails hpage => by
    cases hfails with
    | unmapped hallows hunmapped =>
      obtain rfl : z = teaAsked := hallows
      simp [map?_teaAsked] at hunmapped
    | @dispatched y _ _ _ hallows htarget hz =>
      obtain rfl : y = teaAsked := hallows
      obtain rfl := Option.some.inj (htarget.symm.trans map?_teaAsked)
      obtain ⟨he, rfl⟩ := Prod.mk.inj (Option.some.inj hz)
      obtain rfl := Except.error.inj he
      obtain rfl : "/err" = location := Option.some.inj hpage.page
      obtain rfl := Option.some.inj (hpage.target.symm.trans (map?_splitTarget_err _))
      decide +kernel
    | deferred hroute hcount _ _ =>
      -- `errorDispatches` is 1 behind the dispatch already, and so `Returns` asks nothing of what is deferred.
      have hpaged : (routeWithin (invoke kettle.app 1) kettle.app teaAsked).map Exchange.errorDispatches = some 1 := by
        decide +kernel
      rw [hroute, Option.map_some, hcount] at hpaged
      cases hpaged

end Register

/-- `registeringPage` runs once, with the session it has started, and the request is over within two rounds. -/
theorem error_page_once_completing : ∃ p, p.1.exchange.errorDispatches = 1 ∧ p.1.exchange.sessions.size = 1 ∧
    ∀ rounds, serveTea registeringPage (rounds + 2) [firstBlock] = some p := by
  obtain ⟨hcount, hrounds, hsome, -⟩ := error_page_once (teapotHost registeringPage [firstBlock]) 1 1000
    (.ofLine "GET /tea HTTP/1.1") none (.detached "HTTP/1.1") fun d hd =>
      eq_kettle_of_deploymentFor? hd ▸ answersOnce_kettle _
  obtain ⟨p, hp⟩ := Option.isSome_iff_exists.1 <| hsome fun d hd => eq_kettle_of_deploymentFor? hd ▸ returns_kettle
  have hran : (serveTea registeringPage 2 [firstBlock]).all fun p =>
      1 ≤ p.1.exchange.errorDispatches && p.1.exchange.sessions.size = 1 := by decide +kernel
  obtain ⟨hone, hsession⟩ : 1 ≤ p.1.exchange.errorDispatches ∧ p.1.exchange.sessions.size = 1 := by
    simpa [serveTea, hp] using hran
  exact ⟨p, le_antisymm (hcount 2 p hp) hone, hsession, fun rounds => (hrounds rounds).trans hp⟩

/-- `secondTryPage` defers no dispatch, but abandons what it defers: a second page answers that. -/
theorem error_page_twice :
    (teapot secondTryPage).Uses (Op.DefersOnly fun c => c.dispatches = false) ∧
      (serveTea secondTryPage 2).map (·.1.exchange.errorDispatches) = some 2 := by
  refine ⟨uses_teapot ⟨?_, fun s => ?_⟩, by decide +kernel⟩
  · rintro c hc
    cases hc
  · dsimp only
    split
    · exact trivial
    · refine ⟨?_, fun _ => uses_deferringPage rfl⟩
      rintro c hc
      cases hc

end Host

end ServletContainer
