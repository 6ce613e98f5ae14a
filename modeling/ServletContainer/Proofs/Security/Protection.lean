import ServletContainer.Proofs.Exchange.Effects
import ServletContainer.Proofs.Host
import ServletContainer.Proofs.Routing.Matches

namespace ServletContainer

/-!
# What constraints protect

A guard by credentials and the mapping of servlets read the same patterns, but not the same path: the mapping
reads the empty path as `/`. So a request for the root of an application, without a slash, is mapped by patterns
that do not cover its path.

* `UrlPattern.missesRoot` — the patterns that cover `/` and not the empty path.
* `MappingTable.covers_iff_of_map?` — a pattern that selects a servlet covers the path, apart from these.
* `BasicAuth.exists_of_allow` — on a path that a constraint covers, only known callers come through.
* `Host.authenticated_of_entered` — so no filter or servlet runs for anybody else.
* `Host.entered_at_bare_root` — the path that is left out: there everybody comes through.
-/

/-! ### Patterns that select a servlet -/

namespace UrlPattern

/-- Whether a pattern covers `/` and not the empty path. -/
def missesRoot : UrlPattern → Bool
  | .exact p => p == "/"
  | .below top => top == "/"
  | .extension _ => false
  | .default => false

/-- The root alone lies at or above `/`, with or without its slash. -/
theorem eq_of_isAtOrBelow_slash {top : String} (h : IsAtOrBelow top "/") : top = "" ∨ top = "/" := by
  rcases h with h | ⟨rest, h⟩
  · exact .inr h.symm
  · have hchars : ['/'] = top.toList ++ '/' :: rest.toList := by simpa using congrArg String.toList h
    cases htop : top.toList with
    | nil => exact .inl (String.toList_inj.1 htop)
    | cons c l => simp [htop] at hchars

/-- The path `/` has no extension. -/
theorem not_hasExtension_slash (ext : String) : ¬ HasExtension "/" ext := by
  rintro ⟨-, -, stem, h⟩
  have hdot : '.' ∈ "/".toList := by simp [h]
  simp at hdot

/-- A pattern that covers `/` (`h`) covers the empty path, unless it `missesRoot`. One case for each kind of pattern. -/
theorem covers_empty_iff {p : UrlPattern} (h : p.covers "/" = true) :
    p.covers "" = true ↔ p.missesRoot = false := by
  cases p with
  | exact q =>
    obtain rfl := covers_exact_iff.1 h
    simp [covers, missesRoot]
  | below top =>
    rcases eq_of_isAtOrBelow_slash (covers_below_iff.1 h) with rfl | rfl
    · exact ⟨fun _ => rfl, fun _ => rfl⟩
    · exact ⟨fun hcovers => absurd hcovers (by decide), fun hmisses => absurd hmisses (by decide)⟩
  | extension ext => exact absurd (covers_extension_iff.1 h) (not_hasExtension_slash ext)
  | default => exact ⟨fun _ => rfl, fun _ => rfl⟩

end UrlPattern

namespace MappingTable

variable {t : MappingTable} {path : String} {m : MappingMatch}

/-- The pattern that selects a servlet (`h`) covers the path, unless that is empty and the pattern `missesRoot`. -/
theorem covers_iff_of_map? (h : t.map? path = some m) :
    m.pattern.covers path = true ↔ ¬ (path = "" ∧ m.pattern.missesRoot = true) := by
  have hcovers := (isFor_of_map? h).covers
  by_cases hpath : path = ""
  · subst hpath
    rw [UrlPattern.covers_empty_iff hcovers]
    simp
  · rw [rooted, if_neg hpath] at hcovers
    simp [hpath, hcovers]

end MappingTable

/-! ### The guard -/

namespace BasicAuth

variable {g : BasicAuth} {x y : Exchange} {c : SecurityConstraint}

/-- Whether `h` carries credentials that `identities` knows as those of `caller`. -/
def Authenticates (identities : Authority) (h : Headers) (caller : Principal) : Prop :=
  ∃ user password, credentials? h = some (user, password) ∧ identities.validate? user password = some caller

/-- On a path that a constraint covers (`hc`, `hcovers`), the guard lets known callers through, and says who they are.
-/
theorem exists_of_allow (hc : c ∈ g.constraints) (hcovers : c.pattern.covers x.request.relativePath = true)
    (h : g.check? x = some (.allow, y)) :
    ∃ caller, Authenticates g.identities x.request.head.headers caller ∧ y.request.principal = some caller := by
  rcases check?_cases h with ⟨-, hnone⟩ | ⟨user, password, caller, z, hcredentials, hcaller, -, heq⟩
  · -- `constraint?` finds some constraint, not necessarily `c`.
    have hsome : (g.constraint? x.request.relativePath).isSome := List.find?_isSome.2 ⟨c, hc, hcovers⟩
    rw [hnone rfl] at hsome
    cases hsome
  · obtain ⟨-, rfl⟩ := Prod.mk.inj heq
    exact ⟨caller, ⟨user, password, hcredentials, hcaller⟩, rfl⟩

/-- Turning a request away (`h`) changes nothing. -/
theorem eq_of_deny {status : Nat} {challenge : Option String} (h : g.check? x = some (.deny status challenge, y)) :
    y = x := by
  rcases check?_cases h with ⟨hsame, -⟩ | ⟨_, _, _, _, -, -, -, heq⟩
  · exact hsame
  · cases (Prod.mk.inj heq).1

end BasicAuth

/-! ### Requests -/

/-- If anything runs (`hran`) for a request whose path a constraint covers (`hcovers`), then its caller is known. -/
theorem authenticated_of_serveWithin {limits : Limits} {timeout : Nat} {app : Application} {g : BasicAuth}
    {x y : Exchange} {c : SecurityConstraint} (hguard : app.guard = some g.guard) (hpending : x.pending = none)
    (hc : c ∈ g.constraints) (hcovers : c.pattern.covers x.request.relativePath = true)
    (h : serveWithin limits timeout app x = some y) (hran : y.journal ≠ x.journal) :
    ∃ caller, BasicAuth.Authenticates g.identities x.request.head.headers caller := by
  obtain ⟨z, hz, hy⟩ := Option.bind_eq_some_iff.1 h
  cases app.routes_of_routeWithin hz with
  | unguarded hnone _ => cases hguard.symm.trans hnone
  | allowed hsome hw _ =>
    obtain rfl := Option.some.inj (hguard.symm.trans hsome)
    obtain ⟨caller, hcaller, -⟩ := BasicAuth.exists_of_allow hc hcovers hw
    exact ⟨caller, hcaller⟩
  | @denied _ w status challenge hsome hw =>
    obtain rfl := Option.some.inj (hguard.symm.trans hsome)
    -- `eq_of_deny`: the request is answered as it came, and nothing is left to wait for.
    obtain rfl := BasicAuth.eq_of_deny hw
    have hdone : (deny status challenge w).pending = none := hpending
    rw [settle_of_pending_none hdone] at hy
    obtain rfl := Option.some.inj hy
    exact absurd rfl hran

/-- The path of `r` within the application at `contextPath`. -/
def Request.pathWithin (contextPath : String) (r : Request) : String :=
  { r with uri := (stripPathParameters r.uri).1, contextPath }.relativePath

/-- Nothing but its paths counts for `pathWithin`. -/
theorem Request.relativePath_eq_pathWithin {r r' : Request} {contextPath : String}
    (huri : r'.uri = (stripPathParameters r.uri).1) (hcontext : r'.contextPath = contextPath) :
    r'.relativePath = r.pathWithin contextPath := by
  unfold pathWithin relativePath
  rw [huri, hcontext]

/-- Whether a journal entry tells that a filter or servlet is `entered`. -/
def Event.isEntry : Event → Bool
  | .entered _ _ => true
  | _ => false

/-- Whether a filter or servlet has run in `x`. -/
def Exchange.hasRun (x : Exchange) : Bool := x.journal.any Event.isEntry

namespace Host

variable {h host' : Host} {limits : Limits} {timeout : Nat}

/-- **Protection by pattern.** If the pattern that selects the servlet of a request (`hm`) is also the pattern of a
constraint (`hpattern`), then a filter or servlet runs for the request (`hran`) only if it carries credentials that the
authority of the guard knows. Left out is the empty path with a pattern that `missesRoot` (`hroot`). -/
theorem authenticated_of_entered {request : Request} {input : Option Source} {response : Response}
    {served : Served}
    (hserved : h.serve limits timeout request input response = some (served, host')) {id : AppId}
    (happ : served.app = some id) {d : Deployment} (hd : h.deployment? id = some d) {g : BasicAuth}
    (hguard : d.app.guard = some g.guard) {m : MappingMatch}
    (hm : d.app.mapper.map? (request.pathWithin d.app.contextPath) = some m) {c : SecurityConstraint}
    (hc : c ∈ g.constraints) (hpattern : c.pattern = m.pattern)
    (hroot : ¬ (request.pathWithin d.app.contextPath = "" ∧ m.pattern.missesRoot = true))
    (hran : served.exchange.hasRun = true) :
    ∃ caller, BasicAuth.Authenticates g.identities request.head.headers caller := by
  obtain ⟨served', hexchange, heq⟩ := Option.map_eq_some_iff.1 hserved
  obtain ⟨rfl, -⟩ := Prod.mk.inj heq
  have hserve := serveBy_of_serveExchange hexchange happ hd
  have hcovers := (MappingTable.covers_iff_of_map? hm).2 hroot
  rw [← hpattern] at hcovers
  unfold serveBy at hserve
  dsimp only at hserve
  split at hserve
  · -- `start` leaves the journal empty, so an entry in it tells that something ran.
    refine authenticated_of_serveWithin hguard rfl hc ?_ hserve fun hsame => ?_
    · rw [Request.relativePath_eq_pathWithin (r := request) rfl rfl]
      exact hcovers
    · rw [Exchange.hasRun, hsame] at hran
      cases hran
  · rw [← Option.some.inj hserve] at hran
    cases hran

/-! ### A vault -/

/-- An application with one servlet, mapped to `pattern`, which tells a secret to the known. -/
def vault (pattern : UrlPattern) : Application where
  contextPath := "/app"
  displayName := "/app"
  servlets := [⟨"vault", .write (Text.Utf8.encode "secret") .done, fun _ => none, false⟩]
  filters := []
  mapper := MappingTable.empty.assign "vault" pattern
  errorPages := .empty
  sessionConfig := .standard
  guard := some (BasicAuth.guard ⟨"vault", [⟨pattern, []⟩], IdentityStore.empty.addUser "ann" "key" []⟩)
  resources := none

/-- A host with the `vault` in service. -/
def vaultHost (pattern : UrlPattern) : Host := (((start []).add (vault pattern)).2.deploy 0).2

/-- A request with `line` and the credentials of a user. -/
def knownRequest (line : String) : Request :=
  let r := Request.ofLine line
  { r with head.headers := r.head.headers.append "Authorization" "Basic YW5uOmtleQ==" }

/-- A known caller at the root, with its slash. -/
theorem authenticated_of_entered_vault : ∃ served host',
    (vaultHost (.exact "/")).serve ⟨1, 1⟩ 10 (knownRequest "GET /app/ HTTP/1.1") none (.detached "HTTP/1.1")
      = some (served, host') ∧
    served.exchange.hasRun = true ∧
    ∃ caller, BasicAuth.Authenticates (IdentityStore.empty.addUser "ann" "key" [])
      (knownRequest "GET /app/ HTTP/1.1").head.headers caller := by
  have hrun : ((vaultHost (.exact "/")).serve ⟨1, 1⟩ 10 (knownRequest "GET /app/ HTTP/1.1") none
      (.detached "HTTP/1.1")).map (fun p => (p.1.app, p.1.exchange.hasRun)) = some (some 0, true) := by
    decide +kernel
  obtain ⟨⟨served, host'⟩, hserved, heq⟩ := Option.map_eq_some_iff.1 hrun
  obtain ⟨happ, hran⟩ := Prod.mk.inj heq
  refine ⟨served, host', hserved, hran, ?_⟩
  exact authenticated_of_entered hserved happ rfl rfl (m := ⟨"vault", .exact "/", "/", none⟩)
    (by decide +kernel) (List.mem_singleton.2 rfl) rfl (by decide +kernel) hran

/-- The empty path is mapped by the pattern of the constraint, which does not cover it: the secret is told to a
request without credentials. -/
theorem entered_at_bare_root : ∃ served host',
    (vaultHost (.exact "/")).serve ⟨1, 1⟩ 10 (.ofLine "GET /app HTTP/1.1") none (.detached "HTTP/1.1")
      = some (served, host') ∧
    (vault (.exact "/")).mapper.map? ((Request.ofLine "GET /app HTTP/1.1").pathWithin "/app")
      = some ⟨"vault", .exact "/", "/", none⟩ ∧
    credentials? (Request.ofLine "GET /app HTTP/1.1").head.headers = none ∧
    served.app = some 0 ∧ served.exchange.hasRun = true ∧
    served.exchange.response.body = Text.Utf8.encode "secret" := by
  have hrun : ((vaultHost (.exact "/")).serve ⟨1, 1⟩ 10 (.ofLine "GET /app HTTP/1.1") none
      (.detached "HTTP/1.1")).map (fun p => (p.1.app, p.1.exchange.hasRun, p.1.exchange.response.body))
        = some (some 0, true, Text.Utf8.encode "secret") := by
    decide +kernel
  obtain ⟨⟨served, host'⟩, hserved, heq⟩ := Option.map_eq_some_iff.1 hrun
  obtain ⟨happ, heq⟩ := Prod.mk.inj heq
  obtain ⟨hran, hbody⟩ := Prod.mk.inj heq
  exact ⟨served, host', hserved, by decide +kernel, by decide +kernel, happ, hran, hbody⟩

end Host

end ServletContainer
