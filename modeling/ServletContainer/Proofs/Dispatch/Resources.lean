import ServletContainer.Proofs.Dispatch.Fallback
import ServletContainer.Proofs.Dispatch.Shown

namespace ServletContainer

/-!
# Which resource is served

The servlet of resources looks up the path that its request was mapped by. That is the path it was dispatched to, but
in an include, which shows it the path of the dispatch around.

* `Resource.run_send`, `Resources.run_program_of_none` — the runs of its code.
* `Invocation.LooksUp` — what an invocation does for a path: it appends the resource there, or fails.
* `looksUp_of_invokes` — the path, for every dispatch of every kind and however they are nested.
-/

/-! ### Runs -/

namespace Response

@[simp] theorem state_setHeader (r : Response) (name value : String) : (r.setHeader name value).state = r.state := by
  unfold setHeader
  split <;> rfl

@[simp] theorem body_setHeader (r : Response) (name value : String) : (r.setHeader name value).body = r.body := by
  unfold setHeader
  split <;> rfl

end Response

section Runs

variable {dispatch : Dispatcher} {rest : Option Rest} {x : Exchange}

/-- Where `write` succeeds, `run` goes on with the response that it gives. -/
theorem Program.run_write {data : Bytes} {k : Outcome → Program} {response : Response}
    (h : x.response.write data = (.ok (), response)) :
    (Program.write data k).run dispatch rest x = (k (.ok ())).run dispatch rest { x with response } := by
  have hperform : Op.perform (.write data) x = some (.ok (), { x with response }) := by
    show some ((x.response.write data).1, ({ x with response := (x.response.write data).2 } : Exchange)) = _
    rw [h]
  rw [Program.write, Program.run, hperform]
  rfl

/-- `send` appends the resource to the body of a response that is not closed. -/
theorem Resource.run_send (r : Resource) (hx : x.response.state ≠ .closed) :
    ∃ y, r.send.run dispatch rest x = some (.ok (), y) ∧ y.response.body = x.response.body ++ r.body := by
  let response :=
    (x.response.setHeader "Content-Type" r.contentType).setHeader "Content-Length" (toString r.body.length)
  have hopen : response.state ≠ .closed := by
    rwa [Response.state_setHeader, Response.state_setHeader]
  have hwrite : response.write r.body = (.ok (), (response.write r.body).2) := by
    unfold Response.write
    rw [if_neg hopen]
  have hsend : r.send.run dispatch rest x = (Program.write r.body .done).run dispatch rest { x with response } := rfl
  refine ⟨{ x with response := (response.write r.body).2 }, hsend.trans (Program.run_write hwrite), ?_⟩
  have hbody := (Response.write_of_ne_closed hopen r.body).2.2
  rwa [Response.body_setHeader, Response.body_setHeader] at hbody

/-- `observe` goes on with the snapshot of the exchange. -/
theorem Program.run_observe (k : Snapshot → Program) :
    (Program.observe k).run dispatch rest x = (k x.snapshot).run dispatch rest x := rfl

variable {resources : Option Resources}

/-- Where the table has a resource at `mappedPath`, the servlet of resources runs `send` of it. -/
theorem Resources.run_program_of_some {r : Resource}
    (hr : resources.bind (fun t => t.get? x.snapshot.request.mappedPath) = some r) :
    (Resources.program resources).run dispatch rest x = r.send.run dispatch rest x := by
  rw [Resources.program, Program.run_observe, hr]

theorem Resources.run_program_of_none
    (hr : resources.bind (fun t => t.get? x.snapshot.request.mappedPath) = none) :
    (Resources.program resources).run dispatch rest x = some (.error (.ofStatus 404), x) := by
  rw [Resources.program, Program.run_observe, hr]
  rfl

end Runs

/-! ### Invocations -/

/-- Whether `i` looks `path` up: it appends the resource there to the body, unless the response is closed; without one
it fails and leaves the response as it is. -/
structure Invocation.LooksUp (app : Application) (i : Invocation) (path : String) : Prop where
  found : ∀ r, app.resource? path = some r → i.exchange.response.state ≠ .closed →
    ∃ y, i.run app = some (.ok (), y) ∧ y.response.body = i.exchange.response.body ++ r.body
  missing : app.resource? path = none →
    ∃ y, i.run app = some (.error (.ofStatus 404), y) ∧ y.response = i.exchange.response

/-- With no filters left, `start` is the servlet without a chain to continue. -/
theorem Invocation.start_of_nil {app : Application} {i : Invocation} (hfilters : i.filters = []) :
    i.start app = ⟨i.servlet.component.service, none, i.exchange.log (.entered i.component i.exchange.snapshot)⟩ := by
  unfold start
  rw [hfilters]

/-- Wherever it runs, the servlet of resources `LooksUp` the `mappedPath` of its request. -/
theorem Invocation.looksUp_mappedPath {app : Application} {i : Invocation} (hfilters : i.filters = [])
    (hservice : i.servlet.component.service = Resources.program app.resources) :
    i.LooksUp app i.exchange.request.mappedPath := by
  have hrun {result : Outcome} {y : Exchange}
      (h : (Resources.program app.resources).run (i.dispatcher app) none (i.start app).exchange = some (result, y)) :
      i.run app = some (result, y.log (.left i.component result)) := by
    rw [start_of_nil hfilters] at h
    rw [run_eq, start_of_nil hfilters, hservice, Point.run, h]
    rfl
  have hrequest : (i.start app).exchange.request = i.exchange.request := by rw [exchange_start]; rfl
  have hresponse : (i.start app).exchange.response = i.exchange.response := by rw [exchange_start]; rfl
  -- `enter` changes the journal only, so the servlet finds the paths that it was invoked with.
  rw [← hrequest]
  constructor
  · intro r hr hopen
    rw [← hresponse] at hopen ⊢
    obtain ⟨y, hy, hbody⟩ : ∃ y, r.send.run (i.dispatcher app) none (i.start app).exchange = some (.ok (), y) ∧
        y.response.body = (i.start app).exchange.response.body ++ r.body := r.run_send hopen
    exact ⟨_, hrun ((Resources.run_program_of_some hr).trans hy), hbody⟩
  · intro hr
    exact ⟨_, hrun (Resources.run_program_of_none hr), hresponse⟩

/-- **Resources.** Let the servlet of resources be invoked (`hi`) in a dispatch of whatever kind and in whatever
forwards and includes, behind filters that do what they like. If its place is no include, it `LooksUp` the path that the
dispatch goes to, without the query; `rooted` reads the empty path as a slash. In an include it `LooksUp` the path of
the `shown` place, the innermost dispatch around it that is no include; the path that is included does not count. -/
theorem looksUp_of_invokes {app : Application} {x : Exchange} {i : Invocation} (hx : app.Owns x) (hi : app.Invokes x i)
    (hfilters : i.filters = []) (hservice : i.servlet.component.service = Resources.program app.resources) :
    (i.place.kind ≠ .inclusion → i.LooksUp app (MappingTable.rooted (i.place.path app))) ∧
    (i.place.kind = .inclusion → i.LooksUp app (MappingTable.rooted (i.place.shown.path app))) := by
  have hlooksUp := Invocation.looksUp_mappedPath hfilters hservice
  rw [hi.mappedPath_eq hx] at hlooksUp
  refine ⟨fun hkind => ?_, fun _ => hlooksUp⟩
  rwa [Place.shown_of_kind_ne hkind] at hlooksUp

/-! ### A map by a clerk -/

namespace Gallery

/-- A map. -/
def map : Resource := ⟨"text/plain", Text.Utf8.encode "here"⟩

/-- The resources of the gallery. -/
def resources : Resources := Table.empty.insert "/static/map.txt" map

/-- A servlet that hands visitors the `map`, by a jump `j`. -/
def clerk (j : Jump) : Servlet := ⟨"clerk", .jump j "/static/map.txt?v=2" fun _ => .finish, fun _ => none, false⟩

/-- The servlet of `resources`. -/
def rack : Servlet := ⟨"rack", Resources.component (some resources)⟩

/-- The application of the `clerk` and the `rack`. -/
def app (j : Jump) : Application where
  contextPath := "/gallery"
  displayName := "gallery"
  servlets := [clerk j, rack]
  filters := []
  mapper := (MappingTable.empty.assign "clerk" .default).assign "rack" (.below "/static")
  errorPages := .empty
  sessionConfig := .standard
  guard := none
  resources := some resources

/-- A request for `/in`, which leads to the `clerk`. -/
def visitor : Exchange :=
  let x := Exchange.start (.ofLine "GET /gallery/in HTTP/1.1") none (.detached "HTTP/1.1") 0 []
  x.mapRequest fun r => { r with contextPath := "/gallery" }

/-- The place where the `clerk` runs. -/
def atClerk : Place := .top .request "/gallery/in" none ⟨"clerk", .default, "/in", none⟩

/-- The place where the `rack` looks for the `map`. -/
def atMap (j : Jump) : Place :=
  atClerk.within j "/static/map.txt" (some "v=2") ⟨"rack", .below "/static", "/static", some "/map.txt"⟩

/-- The visitor gets to the rack by the dispatch to the clerk and the jump of the clerk, whichever `j` it is. -/
theorem invokes_rack (j : Jump) : ∃ i, (app j).Invokes visitor i ∧ i.place = atMap j ∧ i.filters = [] ∧
    i.servlet = rack ∧ i.exchange.response.state = .new := by
  let x := visitor.mapRequest fun r => { r with servletPath := "/in", pathInfo := none }
  let i := Invocation.first (app j) atClerk 1 (clerk j) x
  let y := (i.start (app j)).exchange
  let i' := Invocation.first (app j) (atMap j) 0 rack (j.into (app j) "/static/map.txt?v=2" (atMap j).target y)
  -- `atClerk` comes first, and what its servlet does first is to jump to the map.
  have htop : TopLevel (app j) visitor atClerk x := by
    refine .request ?_
    cases j <;> decide +kernel
  have hcomes : i.ComesTo (app j) ⟨.jump j "/static/map.txt?v=2" fun _ => .finish, none, y⟩ := .refl
  have hentered : j.Enters (app j) "/static/map.txt?v=2" y (atMap j).target := by
    cases j with
    | forward => exact ⟨rfl, rfl, rfl⟩
    | inclusion => rfl
  have hmap : Invocation.Leads (app j) i i' := .jump rfl hcomes hentered rfl
  exact ⟨i', ⟨htop, rfl, .single hmap⟩, rfl, rfl, rfl, by cases j <;> rfl⟩

theorem owns_visitor (j : Jump) : (app j).Owns visitor := rfl

theorem resource?_map (j : Jump) : (app j).resource? "/static/map.txt" = some map := by
  show resources.get? "/static/map.txt" = some map
  decide +kernel

/-- A clerk who forwards to the map hands it out. -/
theorem looksUp_of_invokes_forward : ∃ i : Invocation, (app .forward).Owns visitor ∧ (app .forward).Invokes visitor i ∧
    i.place = atMap .forward ∧ i.LooksUp (app .forward) "/static/map.txt" ∧
    ∃ y, i.run (app .forward) = some (.ok (), y) ∧ y.response.body = i.exchange.response.body ++ map.body := by
  obtain ⟨i, hi, hplace, hfilters, hservlet, hstate⟩ := invokes_rack .forward
  have hservice : i.servlet.component.service = Resources.program (app .forward).resources := by rw [hservlet]; rfl
  have hlooksUp := (looksUp_of_invokes (owns_visitor _) hi hfilters hservice).1 (by rw [hplace]; decide)
  have hpath : MappingTable.rooted (i.place.path (app .forward)) = "/static/map.txt" := by rw [hplace]; rfl
  rw [hpath] at hlooksUp
  exact ⟨i, owns_visitor _, hi, hplace, hlooksUp, hlooksUp.found map (resource?_map .forward) (by rw [hstate]; decide)⟩

/-- A clerk who includes the map does not find it: it is looked up where the clerk is. -/
theorem not_looksUp_of_inclusion : ∃ i : Invocation, (app .inclusion).Owns visitor ∧
    (app .inclusion).Invokes visitor i ∧ i.filters = [] ∧
    i.servlet.component.service = Resources.program (app .inclusion).resources ∧
    i.place.path (app .inclusion) = "/static/map.txt" ∧ i.exchange.response.state ≠ .closed ∧
    (app .inclusion).resource? "/static/map.txt" = some map ∧
    (∃ y, i.run (app .inclusion) = some (.error (.ofStatus 404), y)) ∧
    ¬ i.LooksUp (app .inclusion) "/static/map.txt" := by
  obtain ⟨i, hi, hplace, hfilters, hservlet, hstate⟩ := invokes_rack .inclusion
  have hopen : i.exchange.response.state ≠ .closed := by rw [hstate]; decide
  have hservice : i.servlet.component.service = Resources.program (app .inclusion).resources := by rw [hservlet]; rfl
  have hmapped : i.exchange.request.mappedPath = "/in" := by
    rw [hi.mappedPath_eq (owns_visitor _), hplace]
    rfl
  have hlooksUp := Invocation.looksUp_mappedPath hfilters hservice
  rw [hmapped] at hlooksUp
  obtain ⟨y, hy, -⟩ := hlooksUp.missing (by decide +kernel)
  refine ⟨i, owns_visitor _, hi, hfilters, hservice, by rw [hplace]; rfl, hopen, resource?_map _, ⟨y, hy⟩, fun hmap => ?_⟩
  obtain ⟨y', hy', -⟩ := hmap.found map (resource?_map _) hopen
  cases hy.symm.trans hy'

end Gallery

end ServletContainer
